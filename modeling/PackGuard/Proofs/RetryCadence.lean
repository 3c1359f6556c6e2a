import PackGuard.Proofs.ClearRequests

/-!
The cadence of retries. From the latest confirmation of a fault or an alert on, time is divided into
windows, and the first round in a window, apart from the very first one, tries to clear it. A later
confirmation starts windows of its own, so the retries of all confirmations together are no more
than the windows that have passed since the first.
-/

namespace PackGuard

namespace Concern

theorem tracker_new (concern : Concern) : concern.tracker {} = {} := by
  cases concern <;> exact Table.get_const _ _

def windowsBetween (concern : Concern) (start now : Nat) : Nat :=
  (now - start) / 1000 / concern.window

theorem windowAt_eq (concern : Concern) (t : Tracker) (now : Nat) :
    t.windowAt concern.window now = concern.windowsBetween t.since now := by
  rw [Tracker.windowAt, Nat.max_eq_left concern.window_pos, windowsBetween]

theorem windowsBetween_mono (concern : Concern) (start : Nat) {now later : Nat}
    (ordered : now ≤ later) :
    concern.windowsBetween start now ≤ concern.windowsBetween start later :=
  Nat.div_le_div_right (Nat.div_le_div_right (Nat.sub_le_sub_right ordered start))

theorem mul_windowsBetween_le (concern : Concern) (start now : Nat) :
    1000 * concern.window * concern.windowsBetween start now ≤ now - start := by
  rw [windowsBetween, Nat.div_div_eq_div_mul]
  exact Nat.mul_div_le _ _

end Concern

namespace Tracker

variable {concern : Concern} {clock now calls : Nat} {free : Prop} {t t' : Tracker}

/-- The end of the latest window that is used up. As long as nothing is confirmed, all time so far
is. -/
def reach (concern : Concern) (now : Nat) (t : Tracker) : Nat :=
  if t.phase = .confirmed then t.since + 1000 * concern.window * t.lastWindow else now

theorem reach_confirmed (confirmed : t.phase = .confirmed) :
    t.reach concern now = t.since + 1000 * concern.window * t.lastWindow :=
  if_pos confirmed

theorem reach_unconfirmed (unconfirmed : t.phase ≠ .confirmed) : t.reach concern now = now :=
  if_neg unconfirmed

theorem reach_confirm (concern : Concern) (now : Nat) : (confirm now).reach concern now = now :=
  reach_confirmed rfl

namespace Attended

theorem of_unconfirmed (h : t.Attended concern.window now free calls t')
    (unconfirmed : t.phase ≠ .confirmed) :
    calls = 0 ∧ (t'.phase = .confirmed → t' = confirm now) := by
  cases h with
  | idle _ after => exact ⟨rfl, fun confirmed => absurd confirmed after⟩
  | confirms => exact ⟨rfl, fun _ => rfl⟩
  | waits confirmed | tries confirmed => exact absurd confirmed unconfirmed

theorem reach_le (h : t.Attended concern.window now free calls t') (ordered : clock ≤ now)
    (past : t.reach concern clock ≤ clock) :
    t.reach concern clock + 1000 * concern.window * calls ≤ t'.reach concern now ∧
      t'.reach concern now ≤ now := by
  cases h with
  | idle before after =>
    rw [reach_unconfirmed before, reach_unconfirmed after]
    exact ⟨ordered, Nat.le_refl now⟩
  | confirms before =>
    rw [reach_unconfirmed before, reach_confirm]
    exact ⟨ordered, Nat.le_refl now⟩
  | waits before =>
    rw [reach_confirmed before] at past ⊢
    rw [reach_confirmed before]
    exact ⟨Nat.le_refl _, Nat.le_trans past ordered⟩
  | tries before unused few _ uses =>
    -- The window of this round comes after the latest that was used, and has begun by now.
    rw [concern.windowAt_eq] at unused uses
    have whole := concern.mul_windowsBetween_le t.since now
    have used : 1000 * concern.window * (t.lastWindow + calls) ≤
        1000 * concern.window * concern.windowsBetween t.since now :=
      Nat.mul_le_mul_left _ (by omega)
    have passed : 0 < 1000 * concern.window * concern.windowsBetween t.since now :=
      Nat.mul_pos (Nat.mul_pos (by decide) concern.window_pos) (by omega)
    rw [Nat.mul_add] at used
    rw [reach_confirmed before]
    rcases uses with rfl | cleared
    · simp only [reach, before, if_true]
      omega
    · rw [reach_unconfirmed (by rw [cleared]; simp)]
      omega

end Attended
end Tracker

section Successive

variable {σ ε : Type} {n : Nat} [FrontEnd σ ε n]

def handedOn : List (Round σ n) → Monitor
  | [] => {}
  | last :: _ => last.after.monitor

def clock : List (Round σ n) → Nat
  | [] => 0
  | last :: _ => last.now

/-- Rounds of one monitor at times that do not decrease, the latest first. Anything but the monitor
may change between them. -/
inductive Successive : List (Round σ n) → Prop
  | none : Successive []
  | next {round : Round σ n} {earlier : List (Round σ n)} (past : Successive earlier)
      (same : round.before.monitor = handedOn earlier) (ordered : clock earlier ≤ round.now) :
      Successive (round :: earlier)

def Round.Confirms (concern : Concern) (round : Round σ n) : Prop :=
  (concern.tracker round.before.monitor).phase ≠ .confirmed ∧
    (concern.tracker round.after.monitor).phase = .confirmed

namespace Successive

variable {concern : Concern} {round first : Round σ n} {rounds earlier later : List (Round σ n)}
  {time : Nat}

def calls (concern : Concern) (rounds : List (Round σ n)) : Nat :=
  (rounds.flatMap Round.entries).countP fun e => e.request.clears concern

theorem calls_cons (concern : Concern) (round : Round σ n) (earlier : List (Round σ n)) :
    calls concern (round :: earlier) = round.calls concern + calls concern earlier := by
  rw [calls, List.flatMap_cons, List.countP_append, Round.calls, calls]

def reach (concern : Concern) (rounds : List (Round σ n)) : Nat :=
  (concern.tracker (handedOn rounds)).reach concern (clock rounds)

theorem le_clock (h : Successive rounds) : ∀ r ∈ rounds, r.now ≤ clock rounds := by
  induction h with
  | none => simp
  | next _ _ ordered ih =>
    intro r member
    rcases List.mem_cons.mp member with rfl | member
    · exact Nat.le_refl _
    · exact Nat.le_trans (ih r member) ordered

theorem filter_eq_self (h : Successive rounds) (passed : clock rounds ≤ time) :
    rounds.filter (fun r => r.now ≤ time) = rounds := by
  rw [List.filter_eq_self]
  intro r member
  exact decide_eq_true (Nat.le_trans (h.le_clock r member) passed)

theorem tail (h : Successive (round :: earlier)) : Successive earlier := by
  cases h with
  | next past => exact past

theorem same (h : Successive (round :: earlier)) : round.before.monitor = handedOn earlier := by
  cases h with
  | next _ same => exact same

theorem ordered (h : Successive (round :: earlier)) : clock earlier ≤ round.now := by
  cases h with
  | next _ _ ordered => exact ordered

theorem attended (h : Successive (round :: earlier)) (concern : Concern) :
    (concern.tracker (handedOn earlier)).Attended concern.window round.now
      (concern.retriesBlindly = true ∧ concern.Detected round.hardware) (round.calls concern)
      (concern.tracker (handedOn (round :: earlier))) :=
  h.same ▸ round.attended concern

theorem reach_cons (h : Successive (round :: earlier))
    (past : reach concern earlier ≤ clock earlier) :
    reach concern earlier + 1000 * concern.window * round.calls concern ≤
        reach concern (round :: earlier) ∧
      reach concern (round :: earlier) ≤ clock (round :: earlier) :=
  (h.attended concern).reach_le h.ordered past

theorem unconfirmed (h : Successive rounds) (new : ∀ r ∈ rounds, ¬r.Confirms concern) :
    (concern.tracker (handedOn rounds)).phase ≠ .confirmed ∧ calls concern rounds = 0 := by
  induction h with
  | none =>
    rw [handedOn, concern.tracker_new]
    exact ⟨by simp, rfl⟩
  | @next round earlier _ same _ ih =>
    obtain ⟨before, quiet⟩ := ih fun r member => new r (List.mem_cons_of_mem _ member)
    rw [← same] at before
    obtain ⟨unasked, -⟩ := (round.attended concern).of_unconfirmed before
    rw [calls_cons, unasked, quiet]
    exact ⟨fun after => new round List.mem_cons_self ⟨before, after⟩, rfl⟩

theorem calls_reach (h : Successive (later ++ first :: earlier)) (confirms : first.Confirms concern)
    (new : ∀ r ∈ earlier, ¬r.Confirms concern) :
    first.now + 1000 * concern.window * calls concern (later ++ first :: earlier) ≤
        reach concern (later ++ first :: earlier) ∧
      reach concern (later ++ first :: earlier) ≤ clock (later ++ first :: earlier) := by
  induction later with
  | nil =>
    obtain ⟨-, quiet⟩ := h.tail.unconfirmed new
    obtain ⟨unasked, confirmed⟩ := (first.attended concern).of_unconfirmed confirms.1
    have start : reach concern (first :: earlier) = first.now := by
      rw [reach, handedOn, confirmed confirms.2]
      exact Tracker.reach_confirm _ _
    rw [List.nil_append, calls_cons, unasked, quiet, start]
    exact ⟨Nat.le_refl _, Nat.le_refl _⟩
  | cons round rest ih =>
    rw [List.cons_append] at h ⊢
    obtain ⟨reached, behind⟩ := ih h.tail
    obtain ⟨further, behind⟩ := h.reach_cons behind
    rw [calls_cons, Nat.mul_add]
    exact ⟨by omega, behind⟩

theorem calls_le (h : Successive (later ++ first :: earlier)) (confirms : first.Confirms concern)
    (new : ∀ r ∈ earlier, ¬r.Confirms concern) (passed : clock (later ++ first :: earlier) ≤ time) :
    calls concern (later ++ first :: earlier) ≤ (time - first.now) / (1000 * concern.window) := by
  obtain ⟨reached, behind⟩ := h.calls_reach confirms new
  rw [Nat.le_div_iff_mul_le (Nat.mul_pos (by decide) concern.window_pos), Nat.mul_comm]
  omega

theorem calls_until_le (h : Successive (later ++ first :: earlier))
    (confirms : first.Confirms concern) (new : ∀ r ∈ earlier, ¬r.Confirms concern)
    (since : first.now ≤ time) :
    calls concern ((later ++ first :: earlier).filter fun r => r.now ≤ time) ≤
      (time - first.now) / (1000 * concern.window) := by
  induction later with
  | nil =>
    rw [h.filter_eq_self since]
    exact h.calls_le confirms new since
  | cons round rest ih =>
    by_cases passed : round.now ≤ time
    · rw [h.filter_eq_self passed]
      exact h.calls_le confirms new passed
    · rw [List.cons_append, List.filter_cons_of_neg (by simpa using passed)]
      exact ih h.tail

/-- What a tracker remembers of the rounds since the latest confirmation: when that was, and the
latest window that a round has fallen into. -/
structure Remembers (concern : Concern) (confirming : Round σ n) (between : List (Round σ n))
    (t : Tracker) : Prop where
  since : t.since = confirming.now
  used : ∀ r ∈ between, concern.windowsBetween confirming.now r.now ≤ t.lastWindow
  latest : t.lastWindow = 0 ∨
    ∃ r ∈ between, concern.windowsBetween confirming.now r.now = t.lastWindow

section Remembers

variable {confirming : Round σ n} {between : List (Round σ n)} {t : Tracker}

theorem Remembers.windowAt_eq (h : Remembers concern confirming between t) (now : Nat) :
    t.windowAt concern.window now = concern.windowsBetween confirming.now now := by
  rw [concern.windowAt_eq, h.since]

theorem Remembers.same (h : Remembers concern confirming between t)
    (used : t.windowAt concern.window round.now ≤ t.lastWindow) :
    Remembers concern confirming (round :: between) t where
  since := h.since
  used := List.forall_mem_cons.mpr ⟨h.windowAt_eq _ ▸ used, h.used⟩
  latest := h.latest.imp_right fun ⟨r, member, window⟩ =>
    ⟨r, List.mem_cons_of_mem _ member, window⟩

theorem Remembers.next (h : Remembers concern confirming between t)
    (unused : t.lastWindow < t.windowAt concern.window round.now) :
    Remembers concern confirming (round :: between)
      { t with lastWindow := t.windowAt concern.window round.now } where
  since := h.since
  used := by
    rw [h.windowAt_eq] at unused ⊢
    refine List.forall_mem_cons.mpr ⟨Nat.le_refl _, fun r member => ?_⟩
    exact Nat.le_of_lt (Nat.lt_of_le_of_lt (h.used r member) unused)
  latest := .inr ⟨round, List.mem_cons_self, (h.windowAt_eq _).symm⟩

end Remembers

theorem remembers (h : Successive rounds) (blind : concern.retriesBlindly = true)
    (detected : ∀ r ∈ rounds, concern.Detected r.hardware)
    (confirmed : (concern.tracker (handedOn rounds)).phase = .confirmed) :
    ∃ between confirming older, rounds = between ++ confirming :: older ∧
      confirming.Confirms concern ∧ (∀ r ∈ between, ¬r.Confirms concern) ∧
      Remembers concern confirming between (concern.tracker (handedOn rounds)) := by
  induction h with
  | none =>
    rw [handedOn, concern.tracker_new] at confirmed
    cases confirmed
  | @next round earlier past same ordered ih =>
    have attended := (past.next same ordered).attended concern
    have going := ih fun r member => detected r (List.mem_cons_of_mem _ member)
    have after : (concern.tracker round.after.monitor).phase = .confirmed := confirmed
    have starts : round.Confirms concern ↔
        (concern.tracker (handedOn earlier)).phase ≠ .confirmed := by
      rw [Round.Confirms, same]
      exact ⟨fun h => h.1, fun h => ⟨h, after⟩⟩
    generalize round.calls concern = calls, concern.tracker (handedOn (round :: earlier)) = t'
      at attended confirmed ⊢
    cases attended with
    | idle _ short => exact absurd confirmed short
    | confirms before =>
      exact ⟨[], round, earlier, rfl, starts.mpr before, by simp, rfl, by simp, .inl rfl⟩
    | waits before used =>
      obtain ⟨between, confirming, older, rfl, confirms, none, remembered⟩ := going before
      refine ⟨round :: between, confirming, older, rfl, confirms, ?_, remembered.same ?_⟩
      · exact List.forall_mem_cons.mpr ⟨fun h => starts.mp h before, none⟩
      · exact used ⟨blind, detected round List.mem_cons_self⟩
    | tries before unused _ _ uses =>
      obtain ⟨between, confirming, older, rfl, confirms, none, remembered⟩ := going before
      rcases uses with rfl | cleared
      · refine ⟨round :: between, confirming, older, rfl, confirms, ?_, remembered.next unused⟩
        exact List.forall_mem_cons.mpr ⟨fun h => starts.mp h before, none⟩
      · rw [cleared] at confirmed
        cases confirmed

/-- A round that finds something confirmed asks exactly if it is the first in its window. -/
theorem calls_of_remembers {confirming : Round σ n} {between : List (Round σ n)}
    (h : Successive (round :: earlier)) (subset : between ⊆ earlier)
    (blind : concern.retriesBlindly = true) (detected : concern.Detected round.hardware)
    (confirmed : (concern.tracker (handedOn earlier)).phase = .confirmed)
    (remembered : Remembers concern confirming between (concern.tracker (handedOn earlier))) :
    round.calls concern =
      if 1 ≤ concern.windowsBetween confirming.now round.now ∧
        ∀ r ∈ between, concern.windowsBetween confirming.now r.now ≠
          concern.windowsBetween confirming.now round.now
      then 1 else 0 := by
  have attended := h.attended concern
  generalize round.calls concern = calls, concern.tracker (handedOn (round :: earlier)) = t'
    at attended ⊢
  cases attended with
  | idle before | confirms before => exact absurd confirmed before
  | waits _ used =>
    have used := used ⟨blind, detected⟩
    rw [remembered.windowAt_eq] at used
    rw [if_neg]
    rintro ⟨begun, fresh⟩
    -- The window is no later than the latest that was used, and as time goes on no earlier.
    rcases remembered.latest with first | ⟨r, member, window⟩
    · omega
    · have later := concern.windowsBetween_mono confirming.now
        (Nat.le_trans (h.tail.le_clock r (subset member)) h.ordered)
      exact fresh r member (by omega)
  | tries _ unused _ asks _ =>
    rw [remembered.windowAt_eq] at unused
    have fresh : ∀ r ∈ between, concern.windowsBetween confirming.now r.now ≠
        concern.windowsBetween confirming.now round.now := fun r member =>
      Nat.ne_of_lt (Nat.lt_of_le_of_lt (remembered.used r member) unused)
    rw [asks ⟨blind, detected⟩, if_pos ⟨by omega, fresh⟩]

/-- Between the first confirmation of a fault or an alert and any time, the front-end is asked to
clear it no more often than whole windows have passed. What is retried blindly is asked for in
exactly those rounds that find it confirmed and are the first in a window since the latest
confirmation, other than the very first window. -/
theorem retry_cadence (h : Successive (round :: earlier)) (concern : Concern) :
    (∀ later first older, round :: earlier = later ++ first :: older → first.Confirms concern →
      (∀ r ∈ older, ¬r.Confirms concern) → ∀ time, first.now ≤ time →
      calls concern ((round :: earlier).filter fun r => r.now ≤ time) ≤
        (time - first.now) / (1000 * concern.window)) ∧
    (concern.retriesBlindly = true → (∀ r ∈ round :: earlier, concern.Detected r.hardware) →
      (concern.tracker round.before.monitor).phase = .confirmed →
      ∃ between confirming older, earlier = between ++ confirming :: older ∧
        confirming.Confirms concern ∧ (∀ r ∈ between, ¬r.Confirms concern) ∧
        round.calls concern =
          if 1 ≤ concern.windowsBetween confirming.now round.now ∧
            ∀ r ∈ between, concern.windowsBetween confirming.now r.now ≠
              concern.windowsBetween confirming.now round.now
          then 1 else 0) := by
  constructor
  · intro later first older split confirms new time since
    rw [split] at h ⊢
    exact h.calls_until_le confirms new since
  · intro blind detected confirmed
    rw [h.same] at confirmed
    obtain ⟨between, confirming, older, split, confirms, none, remembered⟩ := h.tail.remembers blind
      (fun r member => detected r (List.mem_cons_of_mem _ member)) confirmed
    have subset : between ⊆ earlier := split ▸ List.subset_append_left _ _
    exact ⟨between, confirming, older, split, confirms, none, h.calls_of_remembers subset blind
      (detected round List.mem_cons_self) confirmed remembered⟩

end Successive
end Successive

def Bench.shorted : Round (Bench 1) 1 where
  before := ((Controller.new
    { Bench.uniform 1 3.6 with
      report := { faults := {.shortCircuit} }, stickyFaults := {.shortCircuit} }
    (.ofChemistry .nmc 10.0)).refresh 0).2
  now := 0

theorem Successive.retry_cadence_shorted :
    let second := Bench.shorted.next 60000
    let third := second.next 61000
    let fourth := third.next 121000
    calls (.fault .shortCircuit) [fourth, third, second, Bench.shorted] ≤ 2 ∧
      fourth.calls (.fault .shortCircuit) = 1 := by
  intro second third fourth
  have run : Successive [fourth, third, second, Bench.shorted] :=
    .next (.next (.next (.next .none rfl (by decide)) (Round.monitor_next _ _) (by decide))
      (Round.monitor_next _ _) (by decide)) (Round.monitor_next _ _) (by decide)
  obtain ⟨few, exactly⟩ := run.retry_cadence (.fault .shortCircuit)
  constructor
  · exact few [fourth, third, second] Bench.shorted [] rfl
      ⟨by decide +kernel, by decide +kernel⟩ (by simp) 121000 (by decide)
  · obtain ⟨between, confirming, older, split, -, none, asked⟩ :=
      exactly rfl (by decide +kernel) (by decide +kernel)
    cases between with
    | nil =>
      obtain ⟨rfl, -⟩ := List.cons.inj split
      exact asked.trans (if_pos ⟨by decide, by simp⟩)
    | cons latest rest =>
      obtain ⟨rfl, -⟩ := List.cons.inj split
      exact absurd ⟨by decide +kernel, by decide +kernel⟩ (none third List.mem_cons_self)

end PackGuard
