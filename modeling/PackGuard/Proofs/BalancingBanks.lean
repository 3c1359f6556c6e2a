import Mathlib
import PackGuard.Controller.Balancing
import PackGuard.Proofs.RegisterAccess
import PackGuard.Proofs.Journal

/-!
The balancing switches and the status. An update that succeeds leaves the switches as the status has
them, also after updates that failed half-way: either all banks have been switched off since, or the
next update is bound to write them.
-/

namespace PackGuard

namespace Balancing

section Places

theorem mem_rank {cell other : Nat × Float32} {ranked : List (Nat × Float32)} :
    other ∈ rank cell ranked ↔ other = cell ∨ other ∈ ranked := by
  induction ranked with
  | nil => simp [rank]
  | cons head rest ih =>
    rw [rank]
    split
    · rw [List.mem_cons, ih, List.mem_cons, or_left_comm]
    · exact List.mem_cons

theorem mem_foldl_rank {cells : List (Float32 × Nat)} {start : List (Nat × Float32)}
    {cell : Nat × Float32} :
    cell ∈ cells.foldl (fun ranked cell => rank (cell.2, cell.1) ranked) start ↔
      cell.swap ∈ cells ∨ cell ∈ start := by
  induction cells generalizing start with
  | nil => simp
  | cons head rest ih =>
    have same : cell = (head.2, head.1) ↔ cell.swap = head := by
      simp [Prod.ext_iff, and_comm]
    rw [List.foldl_cons, ih, mem_rank, List.mem_cons, same, or_left_comm, or_assoc]

theorem mem_candidates {level : Float32} {voltages : List Float32} {i : Nat} :
    i ∈ candidates level voltages ↔ ∃ v, voltages[i]? = some v ∧ ¬v ≤ level := by
  simp [candidates, mem_foldl_rank, List.mk_mem_zipIdx_iff_getElem?]

theorem lt_of_mem_candidates {level : Float32} {voltages : List Float32} {i : Nat}
    (member : i ∈ candidates level voltages) : i < voltages.length := by
  obtain ⟨v, found, -⟩ := mem_candidates.mp member
  exact (List.getElem?_eq_some_iff.mp found).1

theorem mem_of_mem_foldl_take {cells start : List Nat} {i : Nat}
    (member : i ∈ cells.foldl take start) : i ∈ start ∨ i ∈ cells := by
  induction cells generalizing start with
  | nil => exact .inl member
  | cons head rest ih =>
    have step := ih member
    rw [mem_take] at step
    grind

theorem lt_of_mem_selectInBank {level : Float32} {voltages : List Float32} {i : Nat}
    (member : i ∈ selectInBank level voltages) : i < voltages.length := by
  rcases mem_of_mem_foldl_take member with none | candidate
  · cases none
  · exact lt_of_mem_candidates candidate

theorem lt_of_getLsbD_select {cells : List Float32} {least difference : Float32} {i : Nat}
    (bled : (select cells least difference).getLsbD i = true) : i < cells.length := by
  rw [select, getLsbD_mask, Bool.and_eq_true, decide_eq_true_eq, decide_eq_true_eq,
    List.mem_flatMap] at bled
  obtain ⟨-, b, -, member⟩ := bled
  obtain ⟨j, chosen, rfl⟩ := List.mem_map.mp member
  have inside := lt_of_mem_selectInBank chosen
  rw [bank, List.length_take, List.length_drop, List.length_take] at inside
  omega

end Places

variable {n : Nat}

theorem lt_of_getLsbD_wanted {config : Config} {status : Status n} {now i : Nat}
    (bled : (wanted config status now).getLsbD i = true) : i < n := by
  unfold wanted at bled
  split at bled
  · have := lt_of_getLsbD_select bled
    rwa [Vector.length_toList] at this
  · simp at bled

theorem wanted_of_not_allowed {config : Config} {status : Status n} {now : Nat}
    (closed : allowed config status now = false) : wanted config status now = 0 := by
  rw [wanted, if_neg (by simp [closed])]

theorem bankBits_zero (b : Nat) : bankBits 0 b = 0 := by simp [bankBits]

theorem bankBits_lt (m : CellMask) (b : Nat) : (bankBits m b).toNat < 32 := by
  have narrow := ((m >>> (b * bankSize)).setWidth 5).isLt
  change (((m >>> (b * bankSize)).setWidth 5).setWidth 8).toNat < 32
  rw [BitVec.toNat_setWidth]
  omega

end Balancing

section Banks

variable {σ ε : Type} {n : Nat} [FrontEnd σ ε n]

/-- A bank is set by a request for it that is answered. One that fails may leave it in any way, but
does not touch other banks. This is so as long as the front-end is in a steady condition, which
requests for banks do not end. -/
structure SetsBanks (steady : σ → Prop) (banks : σ → Nat → UInt8) : Prop where
  answered : ∀ {b : Nat} {cells : UInt8} {s t : σ} {answer : Unit}, steady s →
    b < Balancing.bankCount n → cells.toNat < 32 →
    FrontEnd.perform (.balance b cells) s = .ok answer t →
      steady t ∧ ∀ other < Balancing.bankCount n,
        banks t other = if other = b then cells else banks s other
  failed : ∀ {b : Nat} {cells : UInt8} {s t : σ} {e : ε}, steady s →
    b < Balancing.bankCount n → cells.toNat < 32 →
    FrontEnd.perform (.balance b cells) s = .error e t →
      steady t ∧ ∀ other < Balancing.bankCount n, other ≠ b → banks t other = banks s other

namespace Entry

def banked (moment : Moment n) (m : CellMask) (b : Nat) : Entry n :=
  ⟨.balance b (Balancing.bankBits m b), some (), moment⟩

def unbanked (moment : Moment n) (m : CellMask) (b : Nat) : Entry n :=
  ⟨.balance b (Balancing.bankBits m b), none, moment⟩

end Entry

namespace SetsBanks

variable {steady : σ → Prop} {banks : σ → Nat → UInt8} {s t : σ} {moment : Moment n}
  {m : CellMask} {bs : List Nat}

theorem of_answered (law : SetsBanks steady banks) (held : steady s)
    (inside : ∀ b ∈ bs, b < Balancing.bankCount n)
    (served : Served s (bs.map (Entry.banked moment m)).reverse t) :
    steady t ∧ ∀ b < Balancing.bankCount n,
      banks t b = if b ∈ bs then Balancing.bankBits m b else banks s b := by
  induction bs using List.reverseRecOn generalizing t with
  | nil =>
    cases served
    exact ⟨held, fun b _ => by simp⟩
  | append_singleton bs last ih =>
    rw [List.map_append, List.reverse_append] at served
    cases served with
    | answered _ before now =>
      obtain ⟨steadyBefore, heldBefore⟩ :=
        ih (fun b member => inside b (List.mem_append_left _ member)) before
      obtain ⟨steadyAfter, set⟩ := law.answered steadyBefore
        (inside last (List.mem_append_right _ List.mem_cons_self))
        (Balancing.bankBits_lt m last) now
      refine ⟨steadyAfter, fun b bound => ?_⟩
      rw [set b bound, heldBefore b bound]
      by_cases same : b = last <;> simp [same]

theorem of_failed (law : SetsBanks steady banks) (held : steady s) {b : Nat}
    (inside : ∀ b' ∈ bs ++ [b], b' < Balancing.bankCount n)
    (served : Served s (Entry.unbanked moment m b :: (bs.map (Entry.banked moment m)).reverse) t) :
    steady t ∧ ∀ other < Balancing.bankCount n, other ≠ b →
      banks t other = if other ∈ bs then Balancing.bankBits m other else banks s other := by
  cases served with
  | failed _ before now =>
    obtain ⟨steadyBefore, heldBefore⟩ := law.of_answered held
      (fun b' member => inside b' (List.mem_append_left _ member)) before
    obtain ⟨steadyAfter, kept⟩ := law.failed steadyBefore
      (inside b (List.mem_append_right _ List.mem_cons_self)) (Balancing.bankBits_lt m b) now
    exact ⟨steadyAfter, fun other bound apart =>
      (kept other bound apart).trans (heldBefore other bound)⟩

end SetsBanks

namespace Controller

theorem writeBanks_cases (m : CellMask) (bs : List Nat) (c : Controller σ n) :
    (∃ d, bs.forM (fun b => command (.balance b (Balancing.bankBits m b))) c = .ok () d ∧
      d = { c with frontEnd := d.frontEnd, journal := d.journal } ∧
      Logged c (bs.map (Entry.banked c.moment m)).reverse d) ∨
    ∃ e d done b rest,
      bs.forM (fun b => command (.balance b (Balancing.bankBits m b))) c = .error e d ∧
      d = { c with frontEnd := d.frontEnd, journal := d.journal } ∧ bs = done ++ b :: rest ∧
      Logged c (Entry.unbanked c.moment m b :: (done.map (Entry.banked c.moment m)).reverse) d := by
  induction bs generalizing c with
  | nil => exact .inl ⟨c, rfl, rfl, .refl c⟩
  | cons first others ih =>
    have unfolded : (first :: others).forM
          (fun b => command (.balance b (Balancing.bankBits m b))) c =
        (command (.balance first (Balancing.bankBits m first)) >>= fun _ =>
          others.forM fun b => command (.balance b (Balancing.bankBits m b))) c := rfl
    simp only [bind, EStateM.bind, command] at unfolded
    cases made : FrontEnd.perform (.balance first (Balancing.bankBits m first)) c.frontEnd with
    | error e s =>
      simp only [made] at unfolded
      exact .inr ⟨e, _, [], first, others, unfolded, rfl, rfl, logged_record_failed made⟩
    | ok answer s =>
      simp only [made] at unfolded
      have opened := logged_record_answered made
      rcases ih (c.record (.balance first (Balancing.bankBits m first)) (some answer) s) with
        ⟨d, run, kept, logged⟩ | ⟨e, d, done, b, rest, run, kept, split, logged⟩
      · refine .inl ⟨d, unfolded.trans run, kept, ?_⟩
        rw [List.map_cons, List.reverse_cons]
        exact opened.trans logged
      · refine .inr ⟨e, d, first :: done, b, rest, unfolded.trans run, kept, ?_, ?_⟩
        · rw [split, List.cons_append]
        · rw [List.map_cons, List.reverse_cons]
          exact opened.trans logged

def clocked (now : Nat) (c : Controller σ n) : Controller σ n :=
  { c with status := { c.status with lastLoad := min c.status.lastLoad now } }

def wanted (now : Nat) (c : Controller σ n) : CellMask :=
  Balancing.wanted c.config (c.clocked now).status now

def allBanked (moment : Moment n) (m : CellMask) : List (Entry n) :=
  ((List.range (Balancing.bankCount n)).map (Entry.banked moment m)).reverse

def partBanked (moment : Moment n) (m : CellMask) (done : List Nat) (b : Nat) : List (Entry n) :=
  Entry.unbanked moment m b :: (done.map (Entry.banked moment m)).reverse

/-- What an update of the switches comes to, and whether it succeeds: nothing to do, all banks
written, or a first pass that fails and a second one, which switches off, that may fail too. -/
inductive Update (now : Nat) (c : Controller σ n) : Bool → Controller σ n → Prop
  | kept (known : c.balancingUnknown = false) (same : c.wanted now = c.status.balancing) :
      Update now c true (c.clocked now)
  | written {d : Controller σ n} (status : d.status.balancing = c.wanted now)
      (known : d.balancingUnknown = false)
      (logged : Logged c (allBanked (c.clocked now).moment (c.wanted now)) d) : Update now c true d
  | stopped {d e : Controller σ n} {done rest : List Nat} {b : Nat}
      (split : List.range (Balancing.bankCount n) = done ++ b :: rest)
      (first : Logged c (partBanked (c.clocked now).moment (c.wanted now) done b) d)
      (second : Logged d (allBanked d.moment 0) e) (status : e.status.balancing = 0)
      (known : e.balancingUnknown = false) : Update now c false e
  | lost {d e : Controller σ n} {done rest done' rest' : List Nat} {b b' : Nat}
      (split : List.range (Balancing.bankCount n) = done ++ b :: rest)
      (first : Logged c (partBanked (c.clocked now).moment (c.wanted now) done b) d)
      (split' : List.range (Balancing.bankCount n) = done' ++ b' :: rest')
      (second : Logged d (partBanked d.moment 0 done' b') e) (status : e.status.balancing = 0)
      (unknown : e.balancingUnknown = true) : Update now c false e

def rewriteBanks (m : CellMask) : EStateM ε (Controller σ n) Unit := fun c =>
  match writeBanks m c with
  | .ok _ d =>
    .ok () { d with status := { d.status with balancing := m }, balancingUnknown := false }
  | .error e d =>
    .error e { (d.attempt (writeBanks 0)).2 with
      status := { (d.attempt (writeBanks 0)).2.status with balancing := 0 }
      balancingUnknown := !(d.attempt (writeBanks 0)).1 }

theorem balance_eq (now : Nat) (c : Controller σ n) : balance now c =
    if c.wanted now = c.status.balancing ∧ ¬c.balancingUnknown then .ok () (c.clocked now)
    else rewriteBanks (c.wanted now) (c.clocked now) := rfl

theorem update_balance (now : Nat) (c : Controller σ n) :
    Update now c (c.attempt (balance now)).1 (c.attempt (balance now)).2 := by
  by_cases idle : c.wanted now = c.status.balancing ∧ ¬c.balancingUnknown
  · rw [attempt, balance_eq, if_pos idle]
    exact .kept (by simpa using idle.2) idle.1
  · rw [attempt, balance_eq, if_neg idle]
    rcases writeBanks_cases (c.wanted now) (List.range (Balancing.bankCount n)) (c.clocked now) with
      ⟨d, run, -, logged⟩ | ⟨e, d, done, b, rest, run, -, split, first⟩
    · rw [rewriteBanks, show writeBanks (c.wanted now) (c.clocked now) = .ok () d from run]
      exact .written rfl rfl ⟨logged.journal, logged.served, logged.readyAt⟩
    · rw [rewriteBanks, show writeBanks (c.wanted now) (c.clocked now) = .error e d from run]
      dsimp only
      have begun : Logged c (partBanked (c.clocked now).moment (c.wanted now) done b) d :=
        ⟨first.journal, first.served, first.readyAt⟩
      rcases writeBanks_cases 0 (List.range (Balancing.bankCount n)) d with
        ⟨e, run', -, second⟩ | ⟨_, e, done', b', rest', run', -, split', second⟩
      · have off : d.attempt (writeBanks 0) = (true, e) := by
          rw [attempt, show writeBanks 0 d = .ok () e from run']
        rw [off]
        exact .stopped split begun ⟨second.journal, second.served, second.readyAt⟩ rfl rfl
      · have off : d.attempt (writeBanks 0) = (false, e) := by
          rw [attempt, show writeBanks 0 d = .error _ e from run']
        rw [off]
        exact .lost split begun split' ⟨second.journal, second.served, second.readyAt⟩ rfl rfl

variable {steady : σ → Prop} {banks : σ → Nat → UInt8}

/-- The banks are in line with the status, unless it is known that they may not be. Only cells of the
pack are bled. -/
structure Agrees (steady : σ → Prop) (banks : σ → Nat → UInt8) (c : Controller σ n) : Prop where
  steady : steady c.frontEnd
  known : c.balancingUnknown = false → ∀ b < Balancing.bankCount n,
    banks c.frontEnd b = Balancing.bankBits c.status.balancing b
  unknown : c.balancingUnknown = true → c.status.balancing = 0
  inside : ∀ i, c.status.balancing.getLsbD i = true → i < n

theorem mem_range_of_split {k b : Nat} {done rest : List Nat}
    (split : List.range k = done ++ b :: rest) : ∀ b' ∈ done ++ [b], b' < k := by
  intro b' member
  rw [← List.mem_range, split]
  rcases List.mem_append.mp member with early | last
  · exact List.mem_append_left _ early
  · exact List.mem_append_right _ (List.mem_singleton.mp last ▸ List.mem_cons_self)

theorem Agrees.update {now : Nat} {c d : Controller σ n} {ok : Bool}
    (law : SetsBanks steady banks) (h : Agrees steady banks c) (update : Update now c ok d) :
    Agrees steady banks d := by
  have range : ∀ b ∈ List.range (Balancing.bankCount n), b < Balancing.bankCount n :=
    fun b member => List.mem_range.mp member
  cases update with
  | kept => exact ⟨h.steady, h.known, h.unknown, h.inside⟩
  | written status known logged =>
    obtain ⟨steady, held⟩ := law.of_answered h.steady range logged.served
    refine ⟨steady, fun _ b bound => ?_, fun unknown => ?_, fun i bled => ?_⟩
    · rw [held b bound, if_pos (List.mem_range.mpr bound), status]
    · rw [known] at unknown
      cases unknown
    · rw [status] at bled
      exact Balancing.lt_of_getLsbD_wanted bled
  | stopped split first second status known =>
    have between := (law.of_failed h.steady (mem_range_of_split split) first.served).1
    obtain ⟨steady, held⟩ := law.of_answered between range second.served
    refine ⟨steady, fun _ b bound => ?_, fun unknown => status, fun i bled => ?_⟩
    · rw [held b bound, if_pos (List.mem_range.mpr bound), status]
    · rw [status] at bled
      simp at bled
  | lost split first split' second status unknown =>
    have between := (law.of_failed h.steady (mem_range_of_split split) first.served).1
    have steady := (law.of_failed between (mem_range_of_split split') second.served).1
    refine ⟨steady, fun known => ?_, fun _ => status, fun i bled => ?_⟩
    · rw [unknown] at known
      cases known
    · rw [status] at bled
      simp at bled

/-- The balancing switches are looked after from a start with all of them open. Between updates
anything may change but the switches and what updates remember of them. -/
inductive Upkeep (steady : σ → Prop) (banks : σ → Nat → UInt8) : Controller σ n → Prop
  | start {c : Controller σ n} (held : steady c.frontEnd)
      (opened : ∀ b < Balancing.bankCount n, banks c.frontEnd b = 0)
      (status : c.status.balancing = 0) (known : c.balancingUnknown = false) :
      Upkeep steady banks c
  | meanwhile {c d : Controller σ n} (before : Upkeep steady banks c) (held : steady d.frontEnd)
      (kept : ∀ b < Balancing.bankCount n, banks d.frontEnd b = banks c.frontEnd b)
      (status : d.status.balancing = c.status.balancing)
      (memory : d.balancingUnknown = c.balancingUnknown) : Upkeep steady banks d
  | update {c : Controller σ n} (before : Upkeep steady banks c) (now : Nat) :
      Upkeep steady banks (c.attempt (balance now)).2

theorem Upkeep.agrees (law : SetsBanks steady banks) {c : Controller σ n}
    (upkeep : Upkeep steady banks c) : Agrees steady banks c := by
  induction upkeep with
  | start held opened status known =>
    refine ⟨held, fun _ b bound => ?_, fun _ => status, fun i bled => ?_⟩
    · rw [opened b bound, status, Balancing.bankBits_zero]
    · rw [status] at bled
      simp at bled
  | meanwhile _ held kept status memory ih =>
    refine ⟨held, fun known b bound => ?_, fun unknown => ?_, fun i bled => ?_⟩
    · rw [kept b bound, status, ih.known (memory ▸ known) b bound]
    · rw [status, ih.unknown (memory ▸ unknown)]
    · exact ih.inside i (status ▸ bled)
  | update _ now ih => exact ih.update law (update_balance now _)

def StartsWith (m : CellMask) (entries : List (Entry n)) : Prop :=
  ∃ entry, entries.getLast? = some entry ∧ entry.request = .balance 0 (Balancing.bankBits m 0)

theorem StartsWith.later {m : CellMask} {entries : List (Entry n)} (h : StartsWith m entries)
    (later : List (Entry n)) : StartsWith m (later ++ entries) := by
  obtain ⟨entry, last, asked⟩ := h
  refine ⟨entry, ?_, asked⟩
  rw [List.getLast?_append, last]
  rfl

def Writes (now : Nat) (c : Controller σ n) : Prop :=
  ∃ entries, Logged c entries (c.attempt (balance now)).2 ∧ StartsWith (c.wanted now) entries ∧
    ((c.attempt (balance now)).1 = true →
      entries = allBanked (c.clocked now).moment (c.wanted now))

theorem startsWith_allBanked {moment : Moment n} {m : CellMask} (any : 0 < Balancing.bankCount n) :
    StartsWith m (allBanked moment m) := by
  obtain ⟨k, count⟩ := Nat.exists_eq_succ_of_ne_zero (Nat.ne_of_gt any)
  refine ⟨Entry.banked moment m 0, ?_, rfl⟩
  rw [allBanked, count, List.range_succ_eq_map, List.map_cons, List.reverse_cons,
    List.getLast?_concat]

theorem startsWith_partBanked {moment : Moment n} {m : CellMask} {k b : Nat} {done rest : List Nat}
    (split : List.range k = done ++ b :: rest) : StartsWith m (partBanked moment m done b) := by
  have head : (done ++ b :: rest).head? = some 0 := by
    cases k with
    | zero => simp at split
    | succ k => rw [← split, List.range_succ_eq_map, List.head?_cons]
  cases done with
  | nil =>
    obtain rfl : b = 0 := Option.some.inj head
    exact ⟨_, rfl, rfl⟩
  | cons first more =>
    obtain rfl : first = 0 := Option.some.inj head
    refine ⟨Entry.banked moment m 0, ?_, rfl⟩
    rw [partBanked, List.map_cons, List.reverse_cons, ← List.cons_append, List.getLast?_concat]

theorem writes_of_unknown {c : Controller σ n} (any : 0 < Balancing.bankCount n)
    (unknown : c.balancingUnknown = true) (now : Nat) : Writes now c := by
  have update := update_balance now c
  unfold Writes
  generalize (c.attempt (balance now)).1 = ok at *
  generalize (c.attempt (balance now)).2 = d at *
  cases update with
  | kept known =>
    rw [unknown] at known
    cases known
  | written status known logged =>
    exact ⟨_, logged, startsWith_allBanked any, fun _ => rfl⟩
  | stopped split first second =>
    exact ⟨_, first.trans second, (startsWith_partBanked split).later _, nofun⟩
  | lost split first split' second =>
    exact ⟨_, first.trans second, (startsWith_partBanked split).later _, nofun⟩

/-- An update that succeeds leaves the banks as the status has them, with cells of the pack only, and
none if balancing is not allowed. After one that fails the status has none; and either all banks are
off, or any later update that finds its memory as it was is bound to write them. -/
theorem Upkeep.update_outcome (law : SetsBanks steady banks) {c : Controller σ n}
    (upkeep : Upkeep steady banks c) (now : Nat) :
    let d := (c.attempt (balance now)).2
    ((c.attempt (balance now)).1 = true →
      (∀ b < Balancing.bankCount n,
        banks d.frontEnd b = Balancing.bankBits d.status.balancing b) ∧
      (∀ i, d.status.balancing.getLsbD i = true → i < n) ∧
      (Balancing.allowed c.config (c.clocked now).status now = false → d.status.balancing = 0)) ∧
    ((c.attempt (balance now)).1 = false →
      d.status.balancing = 0 ∧
      ((∀ b < Balancing.bankCount n, banks d.frontEnd b = 0) ∨
        ∀ e : Controller σ n, e.balancingUnknown = d.balancingUnknown →
          ∀ later, Writes later e)) := by
  intro d
  have update : Update now c (c.attempt (balance now)).1 d := update_balance now c
  clear_value d
  have agrees : Agrees steady banks d := (upkeep.agrees law).update law update
  refine ⟨fun succeeded => ?_, fun failed => ?_⟩
  · rw [succeeded] at update
    refine ⟨agrees.known ?_, agrees.inside, fun closed => ?_⟩
    · cases update with
      | kept known => exact known
      | written _ known => exact known
    · have none : c.wanted now = 0 := Balancing.wanted_of_not_allowed closed
      cases update with
      | kept _ same => exact same.symm.trans none
      | written status => exact status.trans none
  · rw [failed] at update
    cases update with
    | stopped _ _ _ status known =>
      refine ⟨status, .inl fun b bound => ?_⟩
      rw [agrees.known known b bound, status, Balancing.bankBits_zero]
    | lost split _ _ _ status unknown =>
      have any : 0 < Balancing.bankCount n := by
        refine Nat.pos_of_ne_zero fun none => ?_
        rw [none] at split
        simp at split
      exact ⟨status, .inr fun e same later => writes_of_unknown any (same.trans unknown) later⟩

end Controller

end Banks

namespace Chip.Driver

variable {n : Nat}

def Steady (d : Driver Device n) : Prop := d.link.Fits ∧ d.link.bus.frozen = []

def bankRegister (b : Nat) : Register := Register.balancing + UInt8.ofNat b

def banks (d : Driver Device n) (b : Nat) : UInt8 := d.link.bus.get (bankRegister b)

theorem bankRegister_inj : ∀ b < 3, ∀ other < 3, bankRegister other = bankRegister b → other = b := by
  decide

theorem bankRegister_plain :
    ∀ b < 3, bankRegister b ≠ Register.status ∧ bankRegister b < 12 := by decide

theorem spares_banks (few : Balancing.bankCount n ≤ 3) {b : Nat} {cells : UInt8}
    {d e : Driver Device n} (steady : d.Steady) (bound : b < Balancing.bankCount n)
    (next : ending (perform (.balance b cells) : EStateM _ (Driver Device n) Unit) d = e) :
    e.Steady ∧ ∀ other < Balancing.bankCount n, other ≠ b → e.banks other = d.banks other := by
  have leads : Leads (Along (Link.Sparing (· ∉ written n (.balance b cells))))
      (perform (.balance b cells) : EStateM _ (Driver Device n) Unit) :=
    spares_perform nofun fun _ among spared => spared among
  have spares : Link.Spares _ d.link _ := leads d steady.1
  rw [next] at spares
  refine ⟨⟨spares.fits steady.1, spares.frozen.trans steady.2⟩, fun other inside apart => ?_⟩
  refine spares.kept _ fun member => apart ?_
  rw [written, if_pos bound, List.mem_singleton] at member
  exact bankRegister_inj b (Nat.lt_of_lt_of_le bound few) other (Nat.lt_of_lt_of_le inside few) member

theorem and_five_bits {cells : UInt8} (narrow : cells.toNat < 32) : cells &&& 0x1F = cells := by
  rw [← UInt8.toNat_inj, UInt8.toNat_and]
  exact (Nat.and_two_pow_sub_one_eq_mod cells.toNat 5).trans (Nat.mod_eq_of_lt narrow)

theorem setsBanks (few : Balancing.bankCount n ≤ 3) :
    SetsBanks (fun d : Driver Device n => d.Steady) banks where
  answered := by
    intro b cells d e answer steady bound narrow done
    obtain ⟨steadyThen, others⟩ := spares_banks few steady bound (ending_of_ok done)
    refine ⟨steadyThen, fun other inside => ?_⟩
    split
    · rename_i same
      obtain ⟨ordinary, low⟩ := bankRegister_plain b (Nat.lt_of_lt_of_le bound few)
      have settable : d.link.bus.Settable (bankRegister b) :=
        ⟨ordinary, low, by rw [steady.2]; exact List.not_mem_nil⟩
      have wrote : (write (bankRegister b) cells : EStateM _ (Driver Device n) Unit) d = .ok () e := by
        change balance b cells d = .ok () e at done
        rw [balance, if_pos bound, and_five_bits narrow] at done
        exact done
      have registers := Link.registers_of_write steady.1.address steady.1.checked
        (of_access_ok wrote)
      rw [same, ← settable.get_store cells, banks, Device.get_eq, Device.get_eq, registers]
    · rename_i apart
      exact others other inside apart
  failed := by
    intro b cells d e error steady bound narrow done
    exact spares_banks few steady bound (ending_of_error done)

end Chip.Driver

namespace Controller

open Chip Chip.Driver

def lossy : Controller (Driver Device 5) 5 :=
  { new (.new 5 { failing := [0, 1] } 1.0 3435.0) (.ofChemistry .nmc 10.0) with
    status := { cells := .ofCells #v[4.0, 3.9, 4.1, 3.9, 3.95] none } }

theorem upkeep_lossy : Upkeep (fun d : Driver Device 5 => d.Steady) banks lossy :=
  .start ⟨⟨rfl, rfl⟩, rfl⟩
    (fun b _ => by simp [banks, Device.get_eq, lossy, Controller.new, Driver.new]) rfl rfl

def lossyOnce : Controller (Driver Device 5) 5 := (lossy.attempt (balance 2000000)).2

theorem Upkeep.update_outcome_lossy :
    (lossy.attempt (balance 2000000)).1 = false ∧ lossyOnce.status.balancing = 0 ∧
      (lossyOnce.attempt (balance 2000001)).1 = true ∧
      (∀ b < Balancing.bankCount 5, banks (lossyOnce.attempt (balance 2000001)).2.frontEnd b =
        Balancing.bankBits (lossyOnce.attempt (balance 2000001)).2.status.balancing b) ∧
      (lossyOnce.attempt (balance 2000001)).2.status.balancing = 0b10101 := by
  have failed : (lossy.attempt (balance 2000000)).1 = false := by decide +kernel
  have succeeded : (lossyOnce.attempt (balance 2000001)).1 = true := by decide +kernel
  have law : SetsBanks (fun d : Driver Device 5 => d.Steady) banks := setsBanks (by decide)
  have upkeep : Upkeep (fun d : Driver Device 5 => d.Steady) banks lossyOnce :=
    upkeep_lossy.update 2000000
  exact ⟨failed, ((upkeep_lossy.update_outcome law 2000000).2 failed).1, succeeded,
    ((upkeep.update_outcome law 2000001).1 succeeded).1, by decide +kernel⟩

end Controller

end PackGuard
