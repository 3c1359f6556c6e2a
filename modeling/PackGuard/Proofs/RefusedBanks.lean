import PackGuard.Proofs.RestedBalancing

/-!
Switching off after a failure. A front-end that refuses to set certain banks makes an update fail at
the first of them, and the pass that is to switch off all banks stops at the same one. So the banks
before it are off in the end, while those after it are bled as they were.
-/

namespace PackGuard.Controller

open Balancing

section Refuses

variable {σ ε : Type} {n : Nat} [FrontEnd σ ε n]

/-- Of the requests for banks between two controllers, exactly those for refused banks failed. -/
def Refuses (refused : Nat → Prop) (c d : Controller σ n) : Prop :=
  ∀ e ∈ since c d, ∀ bank ∈ e.request.bank?, e.succeeded = true ↔ ¬refused bank.1

variable {refused : Nat → Prop} {c d : Controller σ n} {entries : List (Entry n)}
  {moment : Moment n} {m : CellMask} {done rest : List Nat} {b k other : Nat}

theorem mem_done_iff (split : List.range k = done ++ b :: rest) : other ∈ done ↔ other < b := by
  have sorted : (done ++ b :: rest).Pairwise (· < ·) := split ▸ List.pairwise_lt_range
  obtain ⟨-, after, before⟩ := List.pairwise_append.mp sorted
  have behind : ∀ later ∈ rest, b < later := (List.pairwise_cons.mp after).1
  have last : b < k := List.mem_range.mp (split ▸ by simp)
  constructor
  · exact fun member => before other member b List.mem_cons_self
  · intro less
    have member : other ∈ done ++ b :: rest := split ▸ List.mem_range.mpr (less.trans last)
    grind

theorem mem_allBanked (moment : Moment n) (m : CellMask) (bound : b < bankCount n) :
    Entry.banked moment m b ∈ allBanked moment m :=
  List.mem_reverse.mpr (List.mem_map_of_mem (List.mem_range.mpr bound))

theorem mem_partBanked (moment : Moment n) (m : CellMask) (member : b ∈ done) :
    Entry.banked moment m b ∈ partBanked moment m done other :=
  List.mem_cons_of_mem _ (List.mem_reverse.mpr (List.mem_map_of_mem member))

theorem Refuses.not_refused (refuses : Refuses refused c d)
    (answered : Entry.banked moment m b ∈ since c d) : ¬refused b :=
  (refuses _ answered _ rfl).mp rfl

theorem Refuses.first (refuses : Refuses refused c d)
    (split : List.range k = done ++ b :: rest) (made : partBanked moment m done b ⊆ since c d) :
    refused b ∧ ∀ b' < b, ¬refused b' := by
  constructor
  · by_contra accepted
    cases (refuses _ (made List.mem_cons_self) _ rfl).mpr accepted
  · intro b' before
    exact refuses.not_refused (made (mem_partBanked moment m ((mem_done_iff split).mpr before)))

variable {steady : σ → Prop} {banks : σ → Nat → UInt8}

theorem banks_of_stopped (law : SetsBanks steady banks) (held : steady c.frontEnd)
    (split : List.range (bankCount n) = done ++ b :: rest)
    (pass : Logged c (partBanked moment m done b) d) :
    steady d.frontEnd ∧ ∀ other < bankCount n, other ≠ b →
      banks d.frontEnd other = if other < b then bankBits m other else banks c.frontEnd other := by
  obtain ⟨steadyAfter, set⟩ := law.of_failed held (mem_range_of_split split) pass.served
  simp only [mem_done_iff split] at set
  exact ⟨steadyAfter, set⟩

/-- After an update that fails, the banks before the first refused one are off, and those after it
are as they were. So all banks that are not refused are off exactly if those after it have been. -/
theorem switched_off_iff (law : SetsBanks steady banks) (held : steady c.frontEnd) (now : Nat)
    (refuses : Refuses refused c (c.attempt (balance now)).2)
    (failed : (c.attempt (balance now)).1 = false) :
    let d := (c.attempt (balance now)).2
    ∃ first < bankCount n, refused first ∧
      (∀ b < first, ¬refused b ∧ banks d.frontEnd b = 0) ∧
      (∀ b < bankCount n, first < b → banks d.frontEnd b = banks c.frontEnd b) ∧
      ((∀ b < bankCount n, ¬refused b → banks d.frontEnd b = 0) ↔
        ∀ b < bankCount n, first < b → ¬refused b → banks c.frontEnd b = 0) := by
  intro d
  have update : Update now c (c.attempt (balance now)).1 d := update_balance now c
  rw [failed] at update
  change Refuses refused c d at refuses
  clear_value d
  cases update with
  | @stopped between _ done rest b split begun off =>
    have made := (begun.trans off).since_eq
    have refusedHere := (refuses.first split (made ▸ List.subset_append_right _ _)).1
    -- The second pass has set all banks, so none of them is refused.
    have bound := mem_range_of_split split b (by simp)
    have set := mem_allBanked between.moment 0 bound
    exact absurd refusedHere (refuses.not_refused (made ▸ List.mem_append_left _ set))
  | @lost between _ done rest done' rest' b b' split begun split' off =>
    have made := (begun.trans off).since_eq
    obtain ⟨refusedHere, accepted⟩ := refuses.first split (made ▸ List.subset_append_right _ _)
    obtain ⟨refusedHere', accepted'⟩ := refuses.first split' (made ▸ List.subset_append_left _ _)
    obtain rfl : b' = b := Nat.le_antisymm
      (Nat.le_of_not_lt fun less => accepted' b less refusedHere)
      (Nat.le_of_not_lt fun less => accepted b' less refusedHere')
    obtain ⟨steadyBetween, first⟩ := banks_of_stopped law held split begun
    obtain ⟨-, second⟩ := banks_of_stopped law steadyBetween split' off
    have bound : b' < bankCount n := mem_range_of_split split b' (by simp)
    have below : ∀ b < b', banks d.frontEnd b = 0 := by
      intro b less
      rw [second b (less.trans bound) less.ne, if_pos less, bankBits_zero]
    have above : ∀ b < bankCount n, b' < b → banks d.frontEnd b = banks c.frontEnd b := by
      intro b inside greater
      rw [second b inside greater.ne', if_neg greater.not_gt, first b inside greater.ne',
        if_neg greater.not_gt]
    refine ⟨b', bound, refusedHere, fun b less => ⟨accepted b less, below b less⟩, above, ?_⟩
    constructor
    · intro off b inside greater free
      rw [← above b inside greater, off b inside free]
    · intro off b inside free
      rcases lt_trichotomy b b' with less | rfl | greater
      · exact below b less
      · exact absurd refusedHere free
      · rw [above b inside greater, off b inside greater free]

end Refuses

open Chip Chip.Driver

/-- A rested pack with one high cell, in the last of three banks. Its chip refuses to set the second
bank from the second update on. -/
def leaning : Controller (Driver Device 15) 15 :=
  { new (.new 15 { failing := [4, 6] } 1.0 3435.0) (.ofChemistry .nmc 10.0) with
    status := { cells := .ofCells ((Vector.replicate 15 3.9).set 10 4.0) none } }

def leaningBled : Controller (Driver Device 15) 15 :=
  let c := (leaning.attempt (balance 2000000)).2
  { c with config := { c.config with balancing := { c.config.balancing with enabled := false } } }

theorem steady_leaning : leaningBled.frontEnd.Steady :=
  ⟨⟨by decide +kernel, by decide +kernel⟩, by decide +kernel⟩

theorem refuses_leaning :
    Refuses (· = 1) leaningBled (leaningBled.attempt (balance 2000001)).2 := by
  unfold Refuses
  decide +kernel

theorem switched_off_iff_leaning :
    (leaningBled.attempt (balance 2000001)).1 = false ∧
      banks (leaningBled.attempt (balance 2000001)).2.frontEnd 0 = 0 ∧
      banks (leaningBled.attempt (balance 2000001)).2.frontEnd 2 = 1 := by
  have failed : (leaningBled.attempt (balance 2000001)).1 = false := by decide +kernel
  obtain ⟨first, -, refused, below, above, -⟩ :=
    switched_off_iff (setsBanks (by decide)) steady_leaning 2000001 refuses_leaning
      failed
  subst refused
  refine ⟨failed, (below 0 (by decide)).2, ?_⟩
  rw [above 2 (by decide) (by decide)]
  decide +kernel

theorem not_always_switched_off :
    ¬∀ (c : Controller (Driver Device 15) 15) (now : Nat) (refused : Nat → Prop),
      c.frontEnd.Steady → Refuses refused c (c.attempt (balance now)).2 →
      (c.attempt (balance now)).1 = false →
      ∀ b < bankCount 15, ¬refused b → banks (c.attempt (balance now)).2.frontEnd b = 0 := by
  intro always
  have off := always leaningBled 2000001 (· = 1) steady_leaning refuses_leaning (by decide +kernel)
    2 (by decide) (by decide)
  exact absurd off (by decide +kernel)

end PackGuard.Controller
