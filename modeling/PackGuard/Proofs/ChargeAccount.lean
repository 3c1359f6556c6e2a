import Mathlib
import PackGuard.FrontEnd.Bench
import PackGuard.Proofs.Sampling
import PackGuard.Scalar.Exact

/-!
The account of the charge. Counting is an operation on the charge level and the time up to which
charge has been counted, whoever asks for it. In exact arithmetic no charge is lost and none is
counted twice: the percentage and the charge not yet part of it together grow by the current times
the time it flowed, however often it is looked at in between.
-/

namespace PackGuard

variable {α : Type}

/-- A charge level, and the time up to which charge has been counted. -/
structure Account (α : Type) where
  level : ChargeLevel α
  clock : Option Nat

structure Count (α : Type) where
  current : α
  now : Nat

def Account.count [Scalar α] (capacity : α) (account : Account α) (call : Count α) : Account α :=
  ⟨account.level.integrate capacity call.current account.clock call.now, some call.now⟩

def Chronological (clock : Option Nat) (times : List Nat) : Prop :=
  (clock.toList ++ times).Pairwise (· ≤ ·)

instance (clock : Option Nat) (times : List Nat) : Decidable (Chronological clock times) :=
  inferInstanceAs (Decidable (List.Pairwise _ _))

theorem chronological_cons_iff {clock : Option Nat} {now : Nat} {times : List Nat} :
    Chronological clock (now :: times) ↔
      (∀ start ∈ clock, start ≤ now) ∧ Chronological (some now) times := by
  simp only [Chronological, ← List.isChain_iff_pairwise]
  cases clock with
  | none => simp
  | some start => simp [List.isChain_cons_cons]

section Control

variable {σ ε : Type} {n : Nat}

namespace Controller

def account (c : Controller σ n) : Account Float32 := ⟨c.status.charge, c.lastIntegration⟩

def books (c : Controller σ n) : Config × Account Float32 := (c.config, c.account)

variable [FrontEnd σ ε n]

theorem aside_books : Aside (books : Controller σ n → Config × Account Float32) where
  memory _ _ _ _ _ := rfl
  status c status same := by rw [books, books, account, account, same]
  marks _ _ _ := rfl

theorem books_updateCharge (now : Nat) (c : Controller σ n) :
    (c.updateCharge now).books =
      (c.config, c.account.count c.config.capacity ⟨c.status.current, now⟩) := rfl

theorem books_tick (now : Nat) (c : Controller σ n) :
    (c.tick now).books =
      (c.config, c.account.count c.config.capacity ⟨(c.tick now).status.current, now⟩) := by
  rw [tick_eq]
  generalize reached : (((((c.refresh now).2.handleFaults now).attempt (updateState now)).2.attempt
    (balance now)).2) = d
  have same : d.books = c.books := by
    rw [← reached, aside_books.keeps_balance, aside_books.keeps_updateState,
      aside_books.handleFaults, aside_books.refresh]
  have config : d.config = c.config := congrArg Prod.fst same
  have account : d.account = c.account := congrArg Prod.snd same
  rw [books_updateCharge, config, account]
  rfl

theorem books_sampleCurrent (now : Nat) (c : Controller σ n) :
    (c.attempt (sampleCurrent now)).2.books =
      (c.config, (if (c.attempt (sampleCurrent now)).1 then
        [⟨(c.attempt (sampleCurrent now)).2.status.current, now⟩] else []).foldl
          (Account.count c.config.capacity) c.account) := by
  obtain ⟨answer?, s, -, ran⟩ := attempt_taking .readCurrent
    (fun milliamperes c =>
      updateCharge now { c with status := c.status.withCurrent c.config milliamperes now }) c
  change c.attempt (sampleCurrent now) = _ at ran
  rw [ran]
  cases answer? <;> rfl

end Controller

namespace Operation

variable [FrontEnd σ ε n]

def conserves : Operation → Bool
  | start _ | resetCharge _ | configure _ | program _ | programTemperatures | programAll => false
  | _ => true

def counts (op : Operation) (c : Controller σ n) : List (Count Float32) :=
  match op with
  | tick now | updateCharge now => [⟨(op.run c).status.current, now⟩]
  | sampleCurrent now =>
    if (c.attempt (Controller.sampleCurrent now)).1 then [⟨(op.run c).status.current, now⟩] else []
  | _ => []

def tally : List Operation → Controller σ n → List (Count Float32)
  | [], _ => []
  | op :: rest, c => op.counts c ++ tally rest (op.run c)

def runAll (ops : List Operation) (c : Controller σ n) : Controller σ n :=
  ops.foldl (fun c op => op.run c) c

open Controller

variable {op : Operation} {ops : List Operation}

/-- An operation that conserves charge changes the account by what it counts. -/
theorem books_run (conserves : op.conserves = true) (c : Controller σ n) :
    (op.run c).books =
      (c.config, (op.counts c).foldl (Account.count c.config.capacity) c.account) := by
  cases op with
  | tick now => exact books_tick now c
  | sampleCurrent now => exact books_sampleCurrent now c
  | refresh now => exact aside_books.refresh now c
  | handleFaults now => exact aside_books.handleFaults now c
  | updateState now => exact aside_books.keeps_updateState now c
  | balance now => exact aside_books.keeps_balance now c
  | shutDown =>
    have keeps : Keeps books (Controller.shutDown : EStateM ε (Controller σ n) Unit) :=
      keeps_bind (aside_books.keeps_command _) fun _ => keeps_modify fun _ => rfl
    exact keeps c
  | updateCharge | enableCharge | enableDischarge => rfl
  | start | resetCharge | configure | program | programTemperatures | programAll => cases conserves

theorem books_runAll (conserves : ∀ op ∈ ops, op.conserves = true) (c : Controller σ n) :
    (runAll ops c).books =
      (c.config, (tally ops c).foldl (Account.count c.config.capacity) c.account) := by
  induction ops generalizing c with
  | nil => rfl
  | cons op rest ih =>
    have first := books_run (conserves op List.mem_cons_self) c
    have config : (op.run c).config = c.config := congrArg Prod.fst first
    have account : (op.run c).account = _ := congrArg Prod.snd first
    have later := ih (fun op member => conserves op (List.mem_cons_of_mem _ member)) (op.run c)
    rw [config, account] at later
    rw [tally, List.foldl_append]
    exact later

theorem sublist_counts (op : Operation) (c : Controller σ n) :
    ((op.counts c).map Count.now).Sublist op.time?.toList := by
  cases op with
  | sampleCurrent now =>
    unfold counts
    dsimp only
    split
    · exact .refl _
    · exact List.nil_sublist _
  | tick | updateCharge => exact .refl _
  | _ => exact List.nil_sublist _

theorem sublist_tally (ops : List Operation) (c : Controller σ n) :
    ((tally ops c).map Count.now).Sublist (ops.filterMap time?) := by
  induction ops generalizing c with
  | nil => exact .refl _
  | cons op rest ih =>
    have times : (op :: rest).filterMap time? = op.time?.toList ++ rest.filterMap time? := by
      rw [List.filterMap_cons]
      cases op.time? <;> rfl
    rw [tally, List.map_append, times]
    exact (sublist_counts op c).append (ih _)

end Operation
end Control

namespace ChargeLevel

variable {capacity charge : ℚ} {level : ChargeLevel ℚ}

def total (capacity : ℚ) (level : ChargeLevel ℚ) : ℚ :=
  level.percent * capacity * perPercent + level.pending

def Unclamped (capacity charge : ℚ) (level : ChargeLevel ℚ) : Prop :=
  let change := (level.pending + charge) / (capacity * perPercent)
  resolution < Scalar.abs change →
    0.0 ≤ level.percent + change ∧ level.percent + change ≤ 100.0

instance (capacity charge : ℚ) (level : ChargeLevel ℚ) :
    Decidable (level.Unclamped capacity charge) :=
  inferInstanceAs (Decidable (_ → _ ∧ _))

theorem zero_eq : (0.0 : ℚ) = 0 := by decide +kernel

theorem total_add (positive : 0 < capacity) (unclamped : level.Unclamped capacity charge) :
    (level.add capacity charge).total capacity = level.total capacity + charge := by
  have perPercent_pos : (0 : ℚ) < perPercent := by decide +kernel
  have unit : capacity * perPercent ≠ 0 := (mul_pos positive perPercent_pos).ne'
  rw [add]
  split
  · rename_i more
    obtain ⟨least, greatest⟩ := unclamped more
    rw [total, total, Exact.clamp_eq least greatest, zero_eq, add_zero]
    calc (level.percent + (level.pending + charge) / (capacity * perPercent)) * capacity * perPercent
        = level.percent * capacity * perPercent + (level.pending + charge) /
          (capacity * perPercent) * (capacity * perPercent) := by ring
      _ = level.percent * capacity * perPercent + level.pending + charge := by
          rw [div_mul_cancel₀ _ unit, add_assoc]
  · exact (add_assoc _ _ _).symm

end ChargeLevel

/-- No call moves the percentage beyond its range. -/
def Account.Unclamped (capacity : ℚ) : Account ℚ → List (Count ℚ) → Prop
  | _, [] => True
  | account, call :: rest =>
    (∀ start ∈ account.clock,
      account.level.Unclamped capacity (call.current * (call.now - start : ℚ))) ∧
    (account.count capacity call).Unclamped capacity rest

instance Account.decidableUnclamped (capacity : ℚ) :
    ∀ (account : Account ℚ) (calls : List (Count ℚ)), Decidable (account.Unclamped capacity calls)
  | _, [] => .isTrue trivial
  | account, call :: rest =>
    have := decidableUnclamped capacity (account.count capacity call) rest
    inferInstanceAs (Decidable (_ ∧ _))

namespace Count

variable {clock : Option Nat} {calls finer : List (Count ℚ)}

/-- The charge that a sequence of calls supplies: each current for the time since the call before.
The first call of all supplies nothing. -/
def supplied : Option Nat → List (Count ℚ) → ℚ
  | _, [] => 0
  | none, call :: rest => supplied (some call.now) rest
  | some start, call :: rest => call.current * (call.now - start) + supplied (some call.now) rest

/-- A sequence with more calls: an interval may be divided at the same current, and a call repeated
at its time. -/
inductive Refines : Option Nat → List (Count ℚ) → List (Count ℚ) → Prop
  | nil {clock : Option Nat} : Refines clock [] []
  | keep {clock : Option Nat} {call : Count ℚ} {calls finer : List (Count ℚ)}
    (h : Refines (some call.now) calls finer) : Refines clock (call :: calls) (call :: finer)
  | divide {start now : Nat} {call : Count ℚ} {calls finer : List (Count ℚ)} (after : start ≤ now)
    (before : now ≤ call.now) (h : Refines (some now) (call :: calls) finer) :
    Refines (some start) (call :: calls) (⟨call.current, now⟩ :: finer)
  | again {start : Nat} {current : ℚ} {calls finer : List (Count ℚ)}
    (h : Refines (some start) calls finer) : Refines (some start) calls (⟨current, start⟩ :: finer)

theorem supplied_refines (h : Refines clock calls finer) :
    supplied clock finer = supplied clock calls := by
  induction h with
  | nil => rfl
  | @keep clock call calls finer h ih => cases clock <;> simp only [supplied, ih]
  | divide after before h ih =>
    rw [supplied, ih, supplied, supplied]
    ring
  | again h ih =>
    rw [supplied, ih, sub_self, mul_zero, zero_add]

theorem chronological_refines (h : Refines clock calls finer)
    (chronological : Chronological clock (calls.map now)) :
    Chronological clock (finer.map now) := by
  induction h with
  | nil => exact chronological
  | keep h ih =>
    have parts := chronological_cons_iff.mp chronological
    exact chronological_cons_iff.mpr ⟨parts.1, ih parts.2⟩
  | @divide start now call calls finer after before h ih =>
    have rest := (chronological_cons_iff.mp chronological).2
    have later := ih (chronological_cons_iff.mpr ⟨by simpa using before, rest⟩)
    exact chronological_cons_iff.mpr ⟨by simpa using after, later⟩
  | again h ih => exact chronological_cons_iff.mpr ⟨by simp, ih chronological⟩

end Count

namespace Account

variable {capacity : ℚ} {account : Account ℚ} {calls finer : List (Count ℚ)}

theorem total_count (positive : 0 < capacity) {call : Count ℚ}
    (forward : ∀ start ∈ account.clock, start ≤ call.now)
    (unclamped : ∀ start ∈ account.clock,
      account.level.Unclamped capacity (call.current * (call.now - start : ℚ))) :
    (account.count capacity call).level.total capacity =
      account.level.total capacity + Count.supplied account.clock [call] := by
  obtain ⟨level, clock⟩ := account
  cases clock with
  | none => exact (add_zero _).symm
  | some start =>
    have after : start ≤ call.now := forward start rfl
    have elapsed : (Scalar.ofNat (call.now - start) : ℚ) = call.now - start := Nat.cast_sub after
    have capable : ¬capacity ≤ 0.0 := by
      rw [ChargeLevel.zero_eq]
      exact not_le.mpr positive
    have counted : (count capacity ⟨level, some start⟩ call).level =
        level.add capacity (call.current * (call.now - start : ℚ)) := by
      change level.integrate capacity call.current (some start) call.now = _
      rw [ChargeLevel.integrate, elapsed, if_neg (Nat.not_lt.mpr after), if_neg capable]
    rw [counted, ChargeLevel.total_add positive (unclamped start rfl), Count.supplied,
      Count.supplied, add_zero]

theorem total_counts (positive : 0 < capacity)
    (chronological : Chronological account.clock (calls.map Count.now))
    (unclamped : account.Unclamped capacity calls) :
    (calls.foldl (count capacity) account).level.total capacity =
      account.level.total capacity + Count.supplied account.clock calls := by
  induction calls generalizing account with
  | nil => exact (add_zero _).symm
  | cons call rest ih =>
    obtain ⟨forward, later⟩ := chronological_cons_iff.mp chronological
    have first := total_count positive forward unclamped.1
    have split : Count.supplied account.clock (call :: rest) =
        Count.supplied account.clock [call] + Count.supplied (some call.now) rest := by
      cases account.clock <;> simp [Count.supplied]
    rw [List.foldl_cons, ih later unclamped.2, first, split, add_assoc]
    rfl

/-- What operations of a pack do to its account is a sequence of calls, whose times run as theirs do.
In exact arithmetic the charge grows over such a sequence by what the calls supply, and by the same
over a finer one, as long as no call moves the percentage beyond its range. -/
theorem charge_conserved {σ ε : Type} {n : Nat} [FrontEnd σ ε n] :
    (∀ (c : Controller σ n) (ops : List Operation), (∀ op ∈ ops, op.conserves = true) →
      (Operation.runAll ops c).config = c.config ∧
      (Operation.runAll ops c).account =
        (Operation.tally ops c).foldl (count c.config.capacity) c.account ∧
      (Chronological c.lastIntegration (ops.filterMap Operation.time?) →
        Chronological c.lastIntegration ((Operation.tally ops c).map Count.now))) ∧
    ∀ (capacity : ℚ) (account : Account ℚ) (calls : List (Count ℚ)), 0 < capacity →
      Chronological account.clock (calls.map Count.now) → account.Unclamped capacity calls →
      (calls.foldl (count capacity) account).level.total capacity =
        account.level.total capacity + Count.supplied account.clock calls ∧
      ∀ finer, Count.Refines account.clock calls finer → account.Unclamped capacity finer →
        (finer.foldl (count capacity) account).level.total capacity =
          (calls.foldl (count capacity) account).level.total capacity := by
  constructor
  · intro c ops conserves
    have books := Operation.books_runAll conserves c
    refine ⟨congrArg Prod.fst books, congrArg Prod.snd books, fun chronological => ?_⟩
    exact chronological.sublist ((Operation.sublist_tally ops c).append_left _)
  · intro capacity account calls positive chronological unclamped
    have counted := total_counts positive chronological unclamped
    refine ⟨counted, fun finer refines unclamped' => ?_⟩
    have divided := Count.chronological_refines refines chronological
    rw [total_counts positive divided unclamped', Count.supplied_refines refines, counted]

theorem charge_conserved_cycle :
    let ops : List Operation := [.tick 0, .sampleCurrent 1000, .updateCharge 1000, .tick 3000]
    let c : Controller (Bench 1) 1 := .new (.uniform 1 3.6) (.ofChemistry .nmc 10.0)
    let calls : List (Count ℚ) := [⟨1, 0⟩, ⟨1, 36000⟩, ⟨-2, 72000⟩]
    let finer : List (Count ℚ) := [⟨1, 0⟩, ⟨1, 20000⟩, ⟨7, 20000⟩, ⟨1, 36000⟩, ⟨-2, 72000⟩]
    (Operation.tally ops c).map Count.now = [0, 1000, 1000, 3000] ∧
      (Operation.runAll ops c).account = (Operation.tally ops c).foldl (count 10.0) c.account ∧
      (calls.foldl (count 1) ⟨⟨50, 0⟩, none⟩).level.total 1 = 1800000 - 36000 ∧
      (finer.foldl (count 1) ⟨⟨50, 0⟩, none⟩).level.total 1 = 1800000 - 36000 := by
  intro ops c calls finer
  obtain ⟨operations, exactly⟩ := charge_conserved (σ := Bench 1) (ε := BenchError) (n := 1)
  have counted := operations c ops (by decide)
  have conserved := exactly 1 ⟨⟨50, 0⟩, none⟩ calls one_pos (by decide) (by decide +kernel)
  have divided : Count.Refines none calls finer :=
    .keep (.divide (by decide) (by decide) (.again (.keep (.keep .nil))))
  have supplied : (calls.foldl (count 1) ⟨⟨50, 0⟩, none⟩).level.total 1 = 1800000 - 36000 :=
    conserved.1.trans (by decide +kernel)
  refine ⟨by decide +kernel, counted.2.1, supplied, ?_⟩
  exact (conserved.2 finer divided (by decide +kernel)).trans supplied

end Account
end PackGuard
