import PackGuard.FrontEnd.Bench
import PackGuard.Proofs.Footprint

/-!
The positions of the switches, as the front-end has them and as the journal of commands has them. A
front-end that closes a switch on command only never has one closed that the journal has open; one
that moves switches on command only agrees with the journal.
-/

namespace PackGuard

def Request.sets : Request → Direction → Option Bool
  | .setSwitch switch closed, d => if switch = d.switch then some closed else none
  | .enterMode .off, _ => some false
  | _, _ => none

theorem Request.eq_setSwitch_of_sets {request : Request} {d : Direction}
    (h : request.sets d = some true) : request = .setSwitch d.switch true := by
  cases request with
  | setSwitch switch closed =>
    change (if switch = d.switch then some closed else none) = some true at h
    by_cases same : switch = d.switch
    · rw [if_pos same] at h
      rw [same, Option.some.inj h]
    · rw [if_neg same] at h
      cases h
  | enterMode mode => cases mode <;> cases h
  | _ => cases h

section Views

variable {σ ε : Type} {n : Nat} [FrontEnd σ ε n]

/-- A switch closes only when a command to close it is answered. It opens when a command to open it
or the off mode is answered, and may open at any request. -/
structure ClosesOnCommand (closed : Direction → σ → Bool) : Prop where
  answered : ∀ {request : Request} {s t : σ} {answer : request.Answer n} {d : Direction},
    FrontEnd.perform request s = .ok answer t → closed d t = true →
      (request.sets d).getD (closed d s) = true
  failed : ∀ {request : Request} {s t : σ} {e : ε} {d : Direction},
    FrontEnd.perform request s = .error e t → closed d t = true → closed d s = true

/-- A switch command that is answered moves its switch and no other, and one that fails moves
none. -/
structure MovesOnCommand (closed : Direction → σ → Bool) : Prop where
  answered : ∀ {switch : Switch} {position : Bool} {s t : σ} {answer : Unit} {d : Direction},
    FrontEnd.perform (.setSwitch switch position) s = .ok answer t →
      closed d t = if switch = d.switch then position else closed d s
  failed : ∀ {switch : Switch} {position : Bool} {s t : σ} {e : ε} {d : Direction},
    FrontEnd.perform (.setSwitch switch position) s = .error e t → closed d t = closed d s

end Views

namespace Entry

variable {n : Nat}

def sets (entry : Entry n) (d : Direction) : Option Bool :=
  if entry.succeeded then entry.request.sets d else none

/-- The position of a switch after the entries of a journal, the latest first. -/
def position (entries : List (Entry n)) (d : Direction) (start : Bool) : Bool :=
  (entries.findSome? fun entry => entry.sets d).getD start

@[simp] theorem position_nil (d : Direction) (start : Bool) :
    position ([] : List (Entry n)) d start = start := rfl

@[simp] theorem position_cons (entry : Entry n) (entries : List (Entry n)) (d : Direction)
    (start : Bool) :
    position (entry :: entries) d start = (entry.sets d).getD (position entries d start) := by
  cases found : entry.sets d <;> simp [position, found]

theorem position_of_idle {entries : List (Entry n)} {d : Direction} (start : Bool)
    (h : ∀ e ∈ entries, e.sets d = none) : position entries d start = start := by
  simp [position, List.findSome?_eq_none_iff.mpr h]

theorem sets_eq_none_of_operates {entry : Entry n} (d : Direction)
    (h : entry.request.operates = false) : entry.sets d = none := by
  have idle : entry.request.sets d = none := by
    cases asked : entry.request with
    | setSwitch switch closed => simp [asked, Request.operates] at h
    | enterMode mode => cases mode <;> simp_all [Request.operates, Request.sets]
    | _ => rfl
  simp [sets, idle]

end Entry

section Served

variable {σ ε : Type} {n : Nat} [FrontEnd σ ε n] {closed : Direction → σ → Bool}
  {s t : σ} {entries : List (Entry n)}

theorem ClosesOnCommand.position_of_closed (h : ClosesOnCommand closed) {d : Direction}
    (served : Served s entries t) (shut : closed d t = true) :
    Entry.position entries d (closed d s) = true := by
  induction served with
  | refl => exact shut
  | @answered _ _ _ request _ _ _ now ih =>
    have shutNow := h.answered now shut
    rw [Entry.position_cons]
    change (request.sets d).getD _ = true
    cases found : request.sets d with
    | none =>
      rw [found] at shutNow
      exact ih shutNow
    | some position => simpa [found] using shutNow
  | failed _ _ now ih =>
    rw [Entry.position_cons]
    exact ih (h.failed now shut)

theorem MovesOnCommand.closed_eq (h : MovesOnCommand closed) (d : Direction)
    (served : Served s entries t)
    (commands : ∀ e ∈ entries, ∃ switch position, e.request = .setSwitch switch position) :
    closed d t = Entry.position entries d (closed d s) := by
  induction served with
  | refl => rfl
  | @answered _ _ _ request answer moment before now ih =>
    obtain ⟨switch, position, asked⟩ := commands _ List.mem_cons_self
    change request = _ at asked
    subst asked
    have earlier := ih fun e member => commands e (List.mem_cons_of_mem _ member)
    rw [Entry.position_cons, h.answered now, earlier]
    change _ = (if switch = d.switch then some position else none).getD _
    split <;> rfl
  | @failed _ _ _ request _ moment before now ih =>
    obtain ⟨switch, position, asked⟩ := commands _ List.mem_cons_self
    change request = _ at asked
    subst asked
    have earlier := ih fun e member => commands e (List.mem_cons_of_mem _ member)
    rw [Entry.position_cons, h.failed now, earlier]
    rfl

end Served

namespace Bench

variable {n : Nat}

def closed (d : Direction) (b : Bench n) : Bool :=
  match d with
  | .charge => b.report.charging
  | .discharge => b.report.discharging

def blind (n : Nat) : Bench n :=
  { cells := .replicate n 0.0, hardware := .filterAll fun _ => true
    refusedKinds := [.readCells, .readCurrent, .readTemperatures, .readReport] }

def blindControl : Controller (Bench 1) 1 := .new (.blind 1) (.ofChemistry .custom 1.0)

theorem closed_answer (b : Bench n) (request : Request) (d : Direction) :
    closed d (b.answer request).2 = (request.sets d).getD (closed d b) := by
  cases request with
  | setSwitch switch position => cases switch <;> cases d <;> rfl
  | enterMode mode => cases mode <;> cases d <;> rfl
  | _ => rfl

theorem answer_of_ok {request : Request} {b after : Bench n} {answer : request.Answer n}
    (h : perform request b = .ok answer after) :
    { b with requestCount := b.requestCount + 1 }.answer request = (answer, after) := by
  unfold perform at h
  split at h
  · cases h
  · cases h
    rfl

theorem eq_of_error {request : Request} {b after : Bench n} {e : BenchError}
    (h : perform request b = .error e after) :
    after = { b with requestCount := b.requestCount + 1 } := by
  unfold perform at h
  split at h
  · cases h
    rfl
  · cases h

theorem closed_of_ok {request : Request} {b after : Bench n} {answer : request.Answer n}
    (h : perform request b = .ok answer after) (d : Direction) :
    closed d after = (request.sets d).getD (closed d b) := by
  have served := congrArg (fun r => closed d r.2) (answer_of_ok h)
  exact served.symm.trans (closed_answer _ request d)

theorem closed_of_error {request : Request} {b after : Bench n} {e : BenchError}
    (h : perform request b = .error e after) (d : Direction) : closed d after = closed d b := by
  rw [eq_of_error h]
  rfl

theorem closesOnCommand : ClosesOnCommand (closed : Direction → Bench n → Bool) where
  answered h shut := by rwa [closed_of_ok h] at shut
  failed h shut := by rwa [closed_of_error h] at shut

theorem movesOnCommand : MovesOnCommand (closed : Direction → Bench n → Bool) where
  answered {switch _ _ _ _ d} h := by
    rw [closed_of_ok h]
    change (if switch = d.switch then some _ else none).getD _ = _
    split <;> rfl
  failed h := closed_of_error h _

end Bench

end PackGuard
