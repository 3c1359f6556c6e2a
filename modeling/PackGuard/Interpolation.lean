import PackGuard.Scalar.Basic

/-!
Piecewise linear curves through given points `(x, y)`, whose abscissas rise or fall throughout.
Outside the points a curve is flat.
-/

namespace PackGuard

/-- The points of a piecewise linear curve, in order of their abscissas. -/
abbrev Curve (α : Type) := List (α × α)

namespace Curve

variable {α : Type} [Scalar α]

def ascending (curve : Curve α) : Bool :=
  match curve.head?, curve.getLast? with
  | some first, some last => first.1 < last.1
  | _, _ => false

/-- Whether the point of abscissa `a` lies at or beyond `x`, in the direction of the curve. -/
def reaches (up : Bool) (x a : α) : Bool :=
  if up then x ≤ a else a ≤ x

def line (p q : α × α) (x : α) : α :=
  p.2 + (q.2 - p.2) * (x - p.1) / (q.1 - p.1)

/-- The curve after the point `p`, which `x` lies beyond. -/
def evalAfter (up : Bool) (x : α) (p : α × α) : Curve α → α
  | [] => p.2
  | q :: rest => if reaches up x q.1 then line p q x else evalAfter up x q rest

def eval (curve : Curve α) (x : α) : α :=
  match curve with
  | [] => 0.0
  | p :: rest => if reaches curve.ascending x p.1 then p.2 else evalAfter curve.ascending x p rest

variable {p : α × α} {rest : Curve α} {up : Bool} {x : α}

theorem ascending_cons (some : rest ≠ []) :
    ascending (p :: rest) = decide (p.1 < (rest.getLast some).1) := by
  have final : (p :: rest).getLast? = Option.some (rest.getLast some) := by
    rw [List.getLast?_cons, List.getLast?_eq_some_getLast some]
    rfl
  simp only [ascending, List.head?_cons, final]

theorem evalAfter_beyond (some : rest ≠ []) (beyond : ∀ q ∈ rest, ¬reaches up x q.1 = true) :
    evalAfter up x p rest = (rest.getLast some).2 := by
  induction rest generalizing p with
  | nil => exact absurd rfl some
  | cons q rest ih =>
    rw [evalAfter, if_neg (beyond q List.mem_cons_self)]
    cases rest with
    | nil => rfl
    | cons r rest =>
      exact ih (List.cons_ne_nil r rest) fun s member => beyond s (List.mem_cons_of_mem _ member)

end Curve
end PackGuard
