import PackGuard.Proofs.History

/-!
Courses of a control: permitted operations one after the other, with all the requests they made.
Each request is kept with the latest time the control had been told.
-/

namespace PackGuard

structure Stamped (n : Nat) where
  time : Nat
  entry : Entry n

def Entry.stamp {n : Nat} (now : Nat) (entries : List (Entry n)) : List (Stamped n) :=
  entries.map (Stamped.mk now)

theorem Entry.time_of_mem_stamp {n now : Nat} {entries : List (Entry n)} {s : Stamped n}
    (member : s ∈ stamp now entries) : s.time = now := by
  obtain ⟨e, -, rfl⟩ := List.mem_map.mp member
  rfl

theorem Entry.mem_of_mem_stamp {n now : Nat} {entries : List (Entry n)} {s : Stamped n}
    (member : s ∈ stamp now entries) : s.entry ∈ entries := by
  obtain ⟨e, among, rfl⟩ := List.mem_map.mp member
  exact among

section Course

variable {σ ε : Type} {n : Nat} [FrontEnd σ ε n]

/-- What a new controller may become by operations that are permitted at the latest time told, and
the requests that were made, the latest first. Between two operations the front-end drifts. -/
inductive Course (permitted : Nat → Operation → Prop) (drift : σ → σ → Prop)
    (new : Controller σ n) : Nat → List (Stamped n) → Controller σ n → Prop
  | new : Course permitted drift new 0 [] new
  | operation {t : Nat} {made : List (Stamped n)} {c : Controller σ n} (op : Operation)
      (before : Course permitted drift new t made c) (may : permitted t op) :
      Course permitted drift new (op.time?.getD t)
        (Entry.stamp (op.time?.getD t) (c.since (op.run c)) ++ made) (op.run c)
  | drift {t : Nat} {made : List (Stamped n)} {c : Controller σ n} {s : σ}
      (before : Course permitted drift new t made c) (drifts : drift c.frontEnd s) :
      Course permitted drift new t made { c with frontEnd := s }

variable {permitted : Nat → Operation → Prop} {drift : σ → σ → Prop} {t : Nat}
  {made : List (Stamped n)} {new c : Controller σ n}

theorem Course.journal_eq (h : Course permitted drift new t made c) :
    c.journal = made.map Stamped.entry ++ new.journal := by
  induction h with
  | new => rfl
  | @operation t made c op _ _ ih =>
    obtain ⟨entries, logged⟩ := (op.steps c).logged
    rw [logged.journal, logged.since_eq, ih]
    simp [Entry.stamp, Function.comp_def]
  | drift _ _ ih => exact ih

end Course

end PackGuard
