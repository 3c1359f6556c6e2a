import Mathlib
import PackGuard.Interpolation
import PackGuard.Scalar.Exact

/-!
Piecewise linear curves in exact arithmetic. Evaluation finds a point that the curve runs through.
Running through a point is symmetric in the coordinates, so where both of them are monotone a curve
and its inverse undo each other, whichever way their axes run.
-/

namespace PackGuard.Curve

/-- The curve runs through the point `(x, y)`: it lies on one of the segments. -/
inductive Through : Curve ℚ → ℚ → ℚ → Prop
  | segment (p q : ℚ × ℚ) (rest : Curve ℚ) (t : ℚ) (nonneg : 0 ≤ t) (le_one : t ≤ 1) :
    Through (p :: q :: rest) (p.1 + t * (q.1 - p.1)) (p.2 + t * (q.2 - p.2))
  | later (p : ℚ × ℚ) {rest : Curve ℚ} {x y : ℚ} : Through rest x y → Through (p :: rest) x y

variable {curve rest : Curve ℚ} {p : ℚ × ℚ} {x y x' y' : ℚ}

namespace Through

theorem swap (h : Through curve x y) : Through (curve.map Prod.swap) y x := by
  induction h with
  | segment p q rest t nonneg le_one => exact segment p.swap q.swap _ t nonneg le_one
  | later p _ ih => exact later _ ih

theorem of_swap (h : Through (curve.map Prod.swap) y x) : Through curve x y := by
  simpa using h.swap

theorem mirror (h : Through curve x y) : Through (curve.map fun p => (p.1, -p.2)) x (-y) := by
  induction h with
  | segment p q rest t nonneg le_one =>
    have ordinate : -(p.2 + t * (q.2 - p.2)) = -p.2 + t * (-q.2 - -p.2) := by ring
    rw [ordinate]
    exact segment (p.1, -p.2) (q.1, -q.2) _ t nonneg le_one
  | later p _ ih => exact later _ ih

theorem start (some : rest ≠ []) : Through (p :: rest) p.1 p.2 := by
  cases rest with
  | nil => exact absurd rfl some
  | cons q rest => simpa using segment p q rest 0 le_rfl zero_le_one

theorem finish (some : rest ≠ []) :
    Through (p :: rest) (rest.getLast some).1 (rest.getLast some).2 := by
  induction rest generalizing p with
  | nil => exact absurd rfl some
  | cons q rest ih =>
    cases rest with
    | nil => simpa using segment p q [] 1 zero_le_one le_rfl
    | cons r rest => exact later p (ih (List.cons_ne_nil r rest))

end Through

def Rises (curve : Curve ℚ) : Prop := curve.Pairwise fun p q => p.1 < q.1 ∧ p.2 < q.2

namespace Through

theorem head_le (rises : Rises (p :: rest)) (h : Through (p :: rest) x y) :
    p.1 ≤ x ∧ p.2 ≤ y := by
  induction rest generalizing p with
  | nil =>
    cases h with
    | later _ h => cases h
  | cons q rest ih =>
    obtain ⟨first, second⟩ := (List.pairwise_cons.mp rises).1 q List.mem_cons_self
    cases h with
    | segment _ _ _ t nonneg _ =>
      have run := mul_nonneg nonneg (sub_nonneg.mpr first.le)
      have rise := mul_nonneg nonneg (sub_nonneg.mpr second.le)
      constructor <;> linarith
    | later _ h =>
      obtain ⟨least, least'⟩ := ih (List.pairwise_cons.mp rises).2 h
      exact ⟨first.le.trans least, second.le.trans least'⟩

theorem head_lt (rises : Rises (p :: rest)) (h : Through (p :: rest) x y) (less : p.1 < x) :
    p.2 < y := by
  cases h with
  | @segment _ q rest t nonneg le_one =>
    obtain ⟨first, second⟩ := (List.pairwise_cons.mp rises).1 q List.mem_cons_self
    have positive : 0 < t := pos_of_mul_pos_left (by linarith) (sub_pos.mpr first).le
    have rise := mul_pos positive (sub_pos.mpr second)
    linarith
  | later _ h =>
    cases rest with
    | nil => cases h
    | cons q rest =>
      obtain ⟨-, second⟩ := (List.pairwise_cons.mp rises).1 q List.mem_cons_self
      exact second.trans_le (head_le (List.pairwise_cons.mp rises).2 h).2

theorem lt (rises : Rises curve) (h : Through curve x y) (k : Through curve x' y')
    (less : x < x') : y < y' := by
  induction h with
  | segment p q rest t nonneg le_one =>
    obtain ⟨first, second⟩ := (List.pairwise_cons.mp rises).1 q List.mem_cons_self
    have tail := (List.pairwise_cons.mp rises).2
    cases k with
    | segment _ _ _ s _ _ =>
      have order : t < s := lt_of_mul_lt_mul_right (by linarith) (sub_pos.mpr first).le
      have rise := mul_lt_mul_of_pos_right order (sub_pos.mpr second)
      linarith
    | later _ k =>
      -- the segments meet in `q`, which at most one of the two points is
      rcases le_one.lt_or_eq with before | rfl
      · have short := mul_lt_mul_of_pos_right before (sub_pos.mpr second)
        have least := (head_le tail k).2
        linarith
      · have beyond := head_lt tail k (by linarith)
        linarith
  | later p h ih =>
    cases k with
    | @segment _ q rest s nonneg le_one =>
      obtain ⟨first, -⟩ := (List.pairwise_cons.mp rises).1 q List.mem_cons_self
      have least := (head_le (List.pairwise_cons.mp rises).2 h).1
      have run := mul_le_mul_of_nonneg_right le_one (sub_pos.mpr first).le
      linarith
    | later _ k => exact ih (List.pairwise_cons.mp rises).2 k less

end Through

theorem Rises.swap (rises : Rises curve) : Rises (curve.map Prod.swap) :=
  List.pairwise_map.mpr (rises.imp And.symm)

theorem Through.le_iff (rises : Rises curve) (h : Through curve x y) (k : Through curve x' y') :
    x ≤ x' ↔ y ≤ y' := by
  rw [← not_lt, ← not_lt, not_iff_not]
  exact ⟨k.lt rises h, k.swap.lt rises.swap h.swap⟩

def Falls (curve : Curve ℚ) : Prop := curve.Pairwise fun p q => p.1 < q.1 ∧ q.2 < p.2

theorem Through.le_iff_ge (falls : Falls curve) (h : Through curve x y) (k : Through curve x' y') :
    x ≤ x' ↔ y' ≤ y := by
  have rises : Rises (curve.map fun p => (p.1, -p.2)) :=
    List.pairwise_map.mpr (falls.imp fun less => ⟨less.1, neg_lt_neg less.2⟩)
  exact (h.mirror.le_iff rises k.mirror).trans neg_le_neg_iff

theorem Through.unique (monotone : Rises curve ∨ Falls curve) (h : Through curve x y)
    (k : Through curve x y') : y = y' := by
  rcases monotone with rises | falls
  · exact le_antisymm ((h.le_iff rises k).mp le_rfl) ((k.le_iff rises h).mp le_rfl)
  · exact le_antisymm ((k.le_iff_ge falls h).mp le_rfl) ((h.le_iff_ge falls k).mp le_rfl)

section Eval

variable {up : Bool}

theorem reaches_of_not (h : ¬reaches up x y = true) : reaches up y x = true := by
  cases up <;> simp only [reaches, Bool.false_eq_true, if_false, if_true, decide_eq_true_eq] at h ⊢
  · exact (not_le.mp h).le
  · exact (not_le.mp h).le

theorem through_line {q : ℚ × ℚ} (before : reaches up p.1 x = true) (reached : reaches up x q.1 = true)
    (differ : p.1 ≠ q.1) : Through (p :: q :: rest) x (line p q x) := by
  have run : q.1 - p.1 ≠ 0 := sub_ne_zero.mpr differ.symm
  have abscissa : p.1 + (x - p.1) / (q.1 - p.1) * (q.1 - p.1) = x := by
    rw [div_mul_cancel₀ _ run, add_sub_cancel]
  have ordinate : p.2 + (x - p.1) / (q.1 - p.1) * (q.2 - p.2) = line p q x := by
    change _ = p.2 + (q.2 - p.2) * (x - p.1) / (q.1 - p.1)
    ring
  have position : 0 ≤ (x - p.1) / (q.1 - p.1) ∧ (x - p.1) / (q.1 - p.1) ≤ 1 := by
    cases up with
    | false =>
      have after : x ≤ p.1 := of_decide_eq_true before
      have before : q.1 ≤ x := of_decide_eq_true reached
      have fall : q.1 - p.1 < 0 := lt_of_le_of_ne (by linarith) run
      exact ⟨div_nonneg_of_nonpos (by linarith) fall.le, (div_le_one_of_neg fall).mpr (by linarith)⟩
    | true =>
      have after : p.1 ≤ x := of_decide_eq_true before
      have before : x ≤ q.1 := of_decide_eq_true reached
      have rise : 0 < q.1 - p.1 := lt_of_le_of_ne (by linarith) run.symm
      exact ⟨div_nonneg (by linarith) rise.le, (div_le_one rise).mpr (by linarith)⟩
  have through := Through.segment p q rest _ position.1 position.2
  rwa [abscissa, ordinate] at through

theorem through_evalAfter (differ : (p :: rest).Pairwise fun p q => p.1 ≠ q.1)
    (before : reaches up p.1 x = true) (reached : ∃ q ∈ rest, reaches up x q.1 = true) :
    Through (p :: rest) x (evalAfter up x p rest) := by
  induction rest generalizing p with
  | nil => simp at reached
  | cons q rest ih =>
    rw [evalAfter]
    split
    · rename_i reached
      exact through_line before reached ((List.pairwise_cons.mp differ).1 q List.mem_cons_self)
    · rename_i passed
      have reached : ∃ r ∈ rest, reaches up x r.1 = true := by simpa [passed] using reached
      exact .later p (ih (List.pairwise_cons.mp differ).2 (reaches_of_not passed) reached)

/-- Between the abscissas of its end points a curve runs through what it is evaluated to. -/
theorem through_eval (some : rest ≠ []) (differ : (p :: rest).Pairwise fun p q => p.1 ≠ q.1)
    (between : x ∈ Set.uIcc p.1 (rest.getLast some).1) :
    Through (p :: rest) x (eval (p :: rest) x) := by
  have ends : reaches (ascending (p :: rest)) p.1 x = true ∧
      reaches (ascending (p :: rest)) x (rest.getLast some).1 = true := by
    rw [ascending_cons some]
    rcases lt_or_ge p.1 (rest.getLast some).1 with up | down
    · rw [decide_eq_true up]
      rw [Set.uIcc_of_le up.le] at between
      exact ⟨decide_eq_true between.1, decide_eq_true between.2⟩
    · rw [decide_eq_false (not_lt.mpr down)]
      rw [Set.uIcc_of_ge down] at between
      exact ⟨decide_eq_true between.2, decide_eq_true between.1⟩
  obtain ⟨before, after⟩ := ends
  rw [eval]
  split
  · rename_i first
    have same : x = p.1 := by
      cases up : ascending (p :: rest) <;> rw [up] at before first
      · exact le_antisymm (of_decide_eq_true before) (of_decide_eq_true first)
      · exact le_antisymm (of_decide_eq_true first) (of_decide_eq_true before)
    rw [same]
    exact .start some
  · exact through_evalAfter differ before ⟨_, List.getLast_mem some, after⟩

section Ascending

variable (some : rest ≠ []) (values : (p :: rest).Pairwise fun p q => p.1 < q.1)

include some values

theorem ascending_of_values : ascending (p :: rest) = true := by
  rw [ascending_cons some]
  exact decide_eq_true ((List.pairwise_cons.mp values).1 _ (List.getLast_mem some))

theorem eval_before (before : x < p.1) : eval (p :: rest) x = p.2 := by
  rw [eval, ascending_of_values some values]
  exact if_pos (decide_eq_true before.le)

theorem le_getLast {q : ℚ × ℚ} (member : q ∈ p :: rest) : q.1 ≤ (rest.getLast some).1 := by
  have ordered : (p :: rest).Pairwise fun p q => p.1 ≤ q.1 := values.imp fun less => less.le
  have last := ordered.rel_getLast_of_rel_getLast_getLast member le_rfl
  rwa [List.getLast_cons some] at last

theorem eval_beyond (beyond : (rest.getLast some).1 < x) :
    eval (p :: rest) x = (rest.getLast some).2 := by
  have passed : ∀ q ∈ p :: rest, ¬reaches true x q.1 = true := fun q member reached =>
    absurd (of_decide_eq_true reached) (not_le.mpr ((le_getLast some values member).trans_lt beyond))
  rw [eval, ascending_of_values some values, if_neg (passed p List.mem_cons_self)]
  exact evalAfter_beyond some fun q member => passed q (List.mem_cons_of_mem _ member)

end Ascending
end Eval
end PackGuard.Curve
