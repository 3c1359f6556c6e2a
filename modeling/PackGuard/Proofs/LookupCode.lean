import PackGuard.Proofs.LookupSegment

/-!
Look-up tables walked from their first point on, once by the value for a code and once by the code
for its value. Where codes fall, a larger value never has a larger code. Where codes rise, all codes
past one whose value is positive have positive values too.
-/

namespace PackGuard

namespace Curve

open Single

/-- The points of a look-up table with whole codes, whose values are neither huge nor hardly
different. -/
structure Regular (points : Curve Float32) : Prop where
  finite : ∀ p ∈ points, p.1.isFinite = true
  moderate : ∀ p ∈ points, |value p.1| ≤ 2 ^ 100
  codes : ∀ p ∈ points, IsCode p.2
  steep : points.Pairwise fun p q => 1 / 2 ^ 100 ≤ value q.1 - value p.1

def Rising (points : Curve Float32) : Prop := points.Pairwise fun p q => value p.2 < value q.2

def Falling (points : Curve Float32) : Prop := points.Pairwise fun p q => value q.2 < value p.2

variable {p q : Float32 × Float32} {rest : Curve Float32} {x y zero code code' : Float32}

theorem IsCode.le_of_lt_add_one (h : IsCode x) (k : IsCode y) (less : value x < value y + 1) :
    value x ≤ value y := by
  obtain ⟨-, m, -, m_eq⟩ := h
  obtain ⟨-, n, -, n_eq⟩ := k
  rw [m_eq, n_eq] at less ⊢
  have : m < n + 1 := by exact_mod_cast less
  exact_mod_cast Nat.le_of_lt_succ this

theorem IsCode.add_one_le (h : IsCode x) (k : IsCode y) (less : value x < value y) :
    value x + 1 ≤ value y := by
  by_contra! close
  exact absurd (k.le_of_lt_add_one h close) (not_le.mpr less)

namespace Regular

theorem head (h : Regular (p :: rest)) : p.1.isFinite = true ∧ IsCode p.2 :=
  ⟨h.finite p List.mem_cons_self, h.codes p List.mem_cons_self⟩

theorem tail (h : Regular (p :: rest)) : Regular rest where
  finite q member := h.finite q (List.mem_cons_of_mem _ member)
  moderate q member := h.moderate q (List.mem_cons_of_mem _ member)
  codes q member := h.codes q (List.mem_cons_of_mem _ member)
  steep := (List.pairwise_cons.mp h.steep).2

theorem segment (h : Regular (p :: q :: rest)) (differ : value p.2 ≠ value q.2) : Segment p q where
  finite := h.head.1
  finite' := h.tail.head.1
  moderate := h.moderate p List.mem_cons_self
  moderate' := h.moderate q (List.mem_cons_of_mem _ List.mem_cons_self)
  steep := (List.pairwise_cons.mp h.steep).1 q List.mem_cons_self
  code := h.head.2
  code' := h.tail.head.2
  differ := differ

theorem value_lt (h : Regular (p :: rest)) (member : q ∈ rest) : value p.1 < value q.1 := by
  have step := (List.pairwise_cons.mp h.steep).1 q member
  have positive : (0 : ℚ) < 1 / 2 ^ 100 := by positivity
  linarith

end Regular

section Walk

theorem evalAfter_of_le (number : x.isNaN = false) (finite : q.1.isFinite = true)
    (le : value x ≤ value q.1) : evalAfter true x p (q :: rest) = line p q x :=
  if_pos (decide_eq_true (le_iff.mpr ⟨number, isNaN_of_isFinite finite, le⟩))

theorem evalAfter_of_lt (less : value q.1 < value x) :
    evalAfter true x p (q :: rest) = evalAfter true x q rest :=
  if_neg fun reached => absurd (le_iff.mp (of_decide_eq_true reached)).2.2 (not_le.mpr less)

theorem Between.of_number (segment : Segment p q) (number : x.isNaN = false)
    (least : value p.1 ≤ value x) (greatest : value x ≤ value q.1) : Between p q x := by
  refine ⟨isFinite_of_abs_lt number ?_, least, greatest⟩
  have low := abs_le.mp segment.moderate
  have high := abs_le.mp segment.moderate'
  rw [abs_lt]
  norm_num at low high ⊢
  constructor <;> linarith

theorem evalAfter_rising (h : Regular (p :: rest)) (rising : Rising (p :: rest))
    (number : x.isNaN = false) (past : value p.1 ≤ value x) :
    (evalAfter true x p rest).isNaN = false ∧ value p.2 ≤ value (evalAfter true x p rest) ∧
      ∃ q ∈ p :: rest, value (evalAfter true x p rest) ≤ value q.2 + 1 / 128 := by
  induction rest generalizing p with
  | nil =>
    refine ⟨isNaN_of_isFinite h.head.2.1, le_rfl, p, List.mem_cons_self, ?_⟩
    exact le_add_of_nonneg_right (by norm_num)
  | cons q rest ih =>
    have less := (List.pairwise_cons.mp rising).1 q List.mem_cons_self
    have segment := h.segment less.ne
    rcases le_or_gt (value x) (value q.1) with le | beyond
    · obtain ⟨tame, -, least, greatest⟩ :=
        segment.line_rising (.of_number segment number past le) less
      rw [evalAfter_of_le number h.tail.head.1 le]
      exact ⟨tame.nearest_line.number, least, q, by simp, greatest⟩
    · rw [evalAfter_of_lt beyond]
      obtain ⟨number, least, s, member, greatest⟩ :=
        ih h.tail (List.pairwise_cons.mp rising).2 beyond.le
      exact ⟨number, less.le.trans least, s, List.mem_cons_of_mem _ member, greatest⟩

theorem evalAfter_falling (h : Regular (p :: rest)) (falling : Falling (p :: rest))
    (number : x.isNaN = false) (past : value p.1 ≤ value x) :
    (evalAfter true x p rest).isNaN = false ∧ value (evalAfter true x p rest) ≤ value p.2 := by
  induction rest generalizing p with
  | nil => exact ⟨isNaN_of_isFinite h.head.2.1, le_rfl⟩
  | cons q rest ih =>
    have less := (List.pairwise_cons.mp falling).1 q List.mem_cons_self
    have segment := h.segment less.ne'
    rcases le_or_gt (value x) (value q.1) with le | beyond
    · obtain ⟨tame, -, greatest, -⟩ :=
        segment.line_falling (.of_number segment number past le) less
      rw [evalAfter_of_le number h.tail.head.1 le]
      exact ⟨tame.nearest_line.number, greatest⟩
    · rw [evalAfter_of_lt beyond]
      obtain ⟨number, greatest⟩ := ih h.tail (List.pairwise_cons.mp falling).2 beyond.le
      exact ⟨number, greatest.trans less.le⟩

/-- The first number has no larger code than the second: it is no larger, or a code lies between
them, up to rounding. -/
def CodeLe (a b : Float32) : Prop :=
  value a ≤ value b ∨ ∃ m : ℕ, value a ≤ m ∧ (m : ℚ) - 1 / 128 ≤ value b

theorem evalAfter_codeLe (h : Regular (p :: rest)) (falling : Falling (p :: rest))
    (number : x.isNaN = false) (number' : y.isNaN = false) (past : value p.1 ≤ value x)
    (le : value x ≤ value y) : CodeLe (evalAfter true y p rest) (evalAfter true x p rest) := by
  induction rest generalizing p with
  | nil => exact .inl le_rfl
  | cons q rest ih =>
    have less := (List.pairwise_cons.mp falling).1 q List.mem_cons_self
    have segment := h.segment less.ne'
    rcases le_or_gt (value x) (value q.1) with first | beyond
    · obtain ⟨tame, negative, -, least⟩ :=
        segment.line_falling (.of_number segment number past first) less
      rw [evalAfter_of_le number h.tail.head.1 first]
      rcases le_or_gt (value y) (value q.1) with second | beyond
      · obtain ⟨tame', -, -, -⟩ :=
          segment.line_falling (.of_number segment number' (past.trans le) second) less
        rw [evalAfter_of_le number' h.tail.head.1 second]
        exact .inl (tame.line_ge_line tame' negative le)
      · obtain ⟨-, m, -, m_eq⟩ := segment.code'
        rw [evalAfter_of_lt beyond]
        refine .inr ⟨m, m_eq ▸ ?_, m_eq ▸ least⟩
        exact (evalAfter_falling h.tail (List.pairwise_cons.mp falling).2 number' beyond.le).2
    · rw [evalAfter_of_lt beyond, evalAfter_of_lt (beyond.trans_le le)]
      exact ih h.tail (List.pairwise_cons.mp falling).2 beyond.le

end Walk

section Inverse

theorem inverse_of_le (h : IsCode code) (k : IsCode q.2) (le : value code ≤ value q.2) :
    evalAfter true code p.swap (List.map Prod.swap (q :: rest)) = line p.swap q.swap code :=
  evalAfter_of_le (isNaN_of_isFinite h.1) k.1 le

theorem inverse_of_lt (less : value q.2 < value code) :
    evalAfter true code p.swap (List.map Prod.swap (q :: rest)) =
      evalAfter true code q.swap (rest.map Prod.swap) :=
  evalAfter_of_lt less

theorem inverse_pos (h : Regular (p :: rest)) (rising : Rising (p :: rest)) (isCode : IsCode code)
    (nonneg : 0 ≤ value p.1) (past : value p.2 < value code)
    (bounded : ∃ s ∈ rest, value code ≤ value s.2) :
    0 < value (evalAfter true code p.swap (rest.map Prod.swap)) := by
  induction rest generalizing p with
  | nil => simp at bounded
  | cons q rest ih =>
    have less := (List.pairwise_cons.mp rising).1 q List.mem_cons_self
    have segment := h.segment less.ne
    rcases le_or_gt (value code) (value q.2) with le | beyond
    · rw [inverse_of_le isCode segment.code' le]
      exact segment.line_inverse_pos less ⟨isCode, past.le, le⟩ nonneg
        (segment.code.add_one_le isCode past)
    · rw [inverse_of_lt beyond]
      obtain ⟨s, member, le⟩ := bounded
      rcases List.mem_cons.mp member with rfl | later
      · exact absurd le (not_le.mpr beyond)
      · exact ih h.tail (List.pairwise_cons.mp rising).2
          (nonneg.trans (h.value_lt List.mem_cons_self).le) beyond ⟨s, later, le⟩

/-- A code that is not below the one of zero may miss its point by rounding only. If it has a
positive value, or is the code of a point itself, all larger codes have positive values. -/
theorem inverse_pos_of_pos (h : Regular (p :: rest)) (rising : Rising (p :: rest))
    (finite : zero.isFinite = true) (none : value zero = 0) (negative : value p.1 < 0)
    (isCode : IsCode code) (isCode' : IsCode code')
    (close : value (evalAfter true zero p rest) < value code + 1 / 2)
    (positive : value p.2 < value code →
      0 < value (evalAfter true code p.swap (rest.map Prod.swap)))
    (more : value code < value code') (bounded : ∃ s ∈ rest, value code' ≤ value s.2) :
    0 < value (evalAfter true code' p.swap (rest.map Prod.swap)) := by
  induction rest generalizing p with
  | nil => simp at bounded
  | cons q rest ih =>
    have less := (List.pairwise_cons.mp rising).1 q List.mem_cons_self
    have segment := h.segment less.ne
    have number := isNaN_of_isFinite finite
    rcases le_or_gt 0 (value q.1) with reached | short
    -- zero lies in this segment, and so does the code or it is past the segment
    · have between : Between p q zero :=
        ⟨finite, none ▸ negative.le, none ▸ reached⟩
      rw [evalAfter_of_le number h.tail.head.1 between.greatest] at close
      have least : value p.2 ≤ value code := by
        obtain ⟨-, -, least, -⟩ := segment.line_rising between less
        exact segment.code.le_of_lt_add_one isCode (by linarith)
      rcases le_or_gt (value code') (value q.2) with le | beyond
      · have within' : Within p q code' := ⟨isCode', least.trans more.le, le⟩
        rw [inverse_of_le isCode' segment.code' le]
        rcases least.lt_or_eq with past | same
        · have within : Within p q code := ⟨isCode, least, more.le.trans le⟩
          have positive := positive past
          rw [inverse_of_le isCode segment.code' within.greatest] at positive
          exact positive.trans_le (segment.line_inverse_le less within within' more.le)
        -- the value of a point itself says nothing, its distance to zero does
        · rw [← same] at close
          exact segment.line_inverse_pos_of_close less between none negative close within'
            (segment.code.add_one_le isCode' (same ▸ more))
      · rw [inverse_of_lt beyond]
        obtain ⟨s, member, le⟩ := bounded
        rcases List.mem_cons.mp member with rfl | later
        · exact absurd le (not_le.mpr beyond)
        · exact inverse_pos h.tail (List.pairwise_cons.mp rising).2 isCode' reached beyond
            ⟨s, later, le⟩
    · rw [evalAfter_of_lt (none ▸ short)] at close
      obtain ⟨-, least, -⟩ := evalAfter_rising h.tail (List.pairwise_cons.mp rising).2 number
        (none ▸ short.le)
      have least : value q.2 ≤ value code :=
        segment.code'.le_of_lt_add_one isCode (by linarith)
      have beyond := least.trans_lt more
      rw [inverse_of_lt beyond]
      obtain ⟨s, member, le⟩ := bounded
      rcases List.mem_cons.mp member with rfl | later
      · exact absurd le (not_le.mpr beyond)
      · refine ih h.tail (List.pairwise_cons.mp rising).2 short close (fun past => ?_)
          ⟨s, later, le⟩
        have positive := positive (less.trans past)
        rwa [inverse_of_lt past] at positive

end Inverse

section Eval

variable {points : Curve Float32}

theorem eval_singleton (p : Float32 × Float32) (x : Float32) : eval [p] x = p.2 := by
  simp only [eval]
  split <;> rfl

theorem eval_of_le {curve : Curve Float32} (ascends : ascending (p :: curve) = true)
    (number : x.isNaN = false) (finite : p.1.isFinite = true) (le : value x ≤ value p.1) :
    eval (p :: curve) x = p.2 := by
  rw [eval, ascends]
  exact if_pos (decide_eq_true (le_iff.mpr ⟨number, isNaN_of_isFinite finite, le⟩))

theorem eval_of_lt {curve : Curve Float32} (ascends : ascending (p :: curve) = true)
    (less : value p.1 < value x) : eval (p :: curve) x = evalAfter true x p curve := by
  rw [eval, ascends]
  exact if_neg fun reached => absurd (le_iff.mp (of_decide_eq_true reached)).2.2 (not_le.mpr less)

theorem ascending_of_lt {curve : Curve Float32} (some : curve ≠ [])
    (number : p.1.isNaN = false) (less : ∀ q ∈ curve, q.1.isNaN = false ∧ value p.1 < value q.1) :
    ascending (p :: curve) = true := by
  obtain ⟨number', less⟩ := less _ (List.getLast_mem some)
  have final : (p :: curve).getLast? = Option.some (curve.getLast some) := by
    rw [List.getLast?_cons, List.getLast?_eq_some_getLast some]
    rfl
  simp only [ascending, List.head?_cons, final]
  exact decide_eq_true (lt_iff.mpr ⟨number, number', less⟩)

theorem Regular.ascending (h : Regular (p :: rest)) (some : rest ≠ []) :
    Curve.ascending (p :: rest) = true :=
  ascending_of_lt some (isNaN_of_isFinite h.head.1) fun q member =>
    ⟨isNaN_of_isFinite (h.finite q (List.mem_cons_of_mem _ member)), h.value_lt member⟩

theorem Regular.ascending_inverse (h : Regular (p :: rest)) (rising : Rising (p :: rest))
    (some : rest ≠ []) : Curve.ascending (p.swap :: rest.map Prod.swap) = true := by
  refine ascending_of_lt (by simpa using some) (isNaN_of_isFinite h.head.2.1) fun q member => ?_
  obtain ⟨s, among, rfl⟩ := List.mem_map.mp member
  exact ⟨isNaN_of_isFinite (h.codes s (List.mem_cons_of_mem _ among)).1,
    (List.pairwise_cons.mp rising).1 s among⟩

theorem eval_rising (h : Regular points) (rising : Rising points) (some : points ≠ [])
    (number : x.isNaN = false) : (eval points x).isNaN = false ∧
      ∃ q ∈ points, value (eval points x) ≤ value q.2 + 1 / 128 := by
  match points, some with
  | [p], _ =>
    rw [eval_singleton]
    exact ⟨isNaN_of_isFinite h.head.2.1, p, List.mem_cons_self,
      le_add_of_nonneg_right (by norm_num)⟩
  | p :: q :: rest, _ =>
    have ascends := h.ascending (List.cons_ne_nil q rest)
    rcases le_or_gt (value x) (value p.1) with le | past
    · rw [eval_of_le ascends number h.head.1 le]
      exact ⟨isNaN_of_isFinite h.head.2.1, p, List.mem_cons_self,
        le_add_of_nonneg_right (by norm_num)⟩
    · rw [eval_of_lt ascends past]
      obtain ⟨number, -, bound⟩ := evalAfter_rising h rising number past.le
      exact ⟨number, bound⟩

theorem eval_falling (h : Regular points) (falling : Falling points) (some : points ≠ [])
    (number : x.isNaN = false) (number' : y.isNaN = false) (le : value x ≤ value y) :
    (eval points x).isNaN = false ∧ (eval points y).isNaN = false ∧
      CodeLe (eval points y) (eval points x) := by
  match points, some with
  | [p], _ =>
    rw [eval_singleton, eval_singleton]
    have number := isNaN_of_isFinite h.head.2.1
    exact ⟨number, number, .inl le_rfl⟩
  | p :: q :: rest, _ =>
    have ascends := h.ascending (List.cons_ne_nil q rest)
    have first := isNaN_of_isFinite h.head.2.1
    rcases le_or_gt (value y) (value p.1) with both | past
    · rw [eval_of_le ascends number h.head.1 (le.trans both),
        eval_of_le ascends number' h.head.1 both]
      exact ⟨first, first, .inl le_rfl⟩
    · obtain ⟨second, below⟩ := evalAfter_falling h falling number' past.le
      rw [eval_of_lt ascends past]
      rcases le_or_gt (value x) (value p.1) with one | past'
      · rw [eval_of_le ascends number h.head.1 one]
        exact ⟨first, second, .inl below⟩
      · rw [eval_of_lt ascends past']
        exact ⟨(evalAfter_falling h falling number past'.le).1, second,
          evalAfter_codeLe h falling number number' past'.le le⟩

theorem eval_inverse_pos (h : Regular points) (rising : Rising points)
    (finite : zero.isFinite = true) (none : value zero = 0) (isCode : IsCode code)
    (isCode' : IsCode code') (close : value (eval points zero) < value code + 1 / 2)
    (positive : 0 < value (eval (points.map Prod.swap) code)) (more : value code < value code')
    (bounded : ∃ s ∈ points, value code' ≤ value s.2) :
    0 < value (eval (points.map Prod.swap) code') := by
  match points with
  | [] => simp at bounded
  | [p] => rwa [List.map_singleton, eval_singleton] at positive ⊢
  | p :: q :: rest =>
    have ascends := h.ascending (List.cons_ne_nil q rest)
    have inverse : Curve.ascending (p.swap :: (q :: rest).map Prod.swap) = true :=
      h.ascending_inverse rising (List.cons_ne_nil q rest)
    have number := isNaN_of_isFinite finite
    rw [List.map_cons] at positive ⊢
    have later : value p.2 < value code' → ∃ s ∈ q :: rest, value code' ≤ value s.2 := by
      intro past
      obtain ⟨s, member, le⟩ := bounded
      rcases List.mem_cons.mp member with rfl | later
      · exact absurd le (not_le.mpr past)
      · exact ⟨s, later, le⟩
    rcases le_or_gt (value zero) (value p.1) with le | past
    · rw [eval_of_le ascends number h.head.1 le] at close
      have beyond := (h.head.2.le_of_lt_add_one isCode (by linarith)).trans_lt more
      rw [eval_of_lt inverse beyond]
      exact inverse_pos h rising isCode' (none ▸ le) beyond (later beyond)
    · rw [eval_of_lt ascends past] at close
      obtain ⟨-, least, -⟩ := evalAfter_rising h rising number past.le
      have beyond := (h.head.2.le_of_lt_add_one isCode (by linarith)).trans_lt more
      rw [eval_of_lt inverse beyond]
      refine inverse_pos_of_pos h rising finite none (none ▸ past) isCode isCode' close
        (fun reached => ?_) more (later beyond)
      rwa [eval_of_lt inverse reached] at positive

end Eval

end Curve
end PackGuard
