import PackGuard.Charge.OpenCircuit
import PackGuard.Proofs.ChargeRange

/-!
The charge estimated from the voltage of a resting cell. In binary32 the charge levels of an open
circuit curve need not end at zero, since the width of a step is rounded and then multiplied, and
the line to an entry may miss the charge level of that entry. Between two entries nothing more can
happen: along a falling line rounding keeps the order.
-/

namespace PackGuard

open Single

namespace Curve

variable {p q : Float32 × Float32} {rest : Curve Float32} {x : Float32}

structure Drop (p q : Float32 × Float32) : Prop where
  finite : p.1.isFinite = true
  finite' : q.1.isFinite = true
  abscissas : value q.1 < value p.1
  percent : IsPercent p.2
  percent' : IsPercent q.2
  ordinates : value q.2 ≤ value p.2

namespace Drop

theorem run_neg (h : Drop p q) : value (q.1 - p.1) < 0 := by
  have nonpos := (nearest_sub h.finite' h.finite).le representable_zero
    (sub_nonpos.mpr h.abscissas.le)
  refine lt_of_le_of_ne nonpos fun none => ?_
  exact h.abscissas.ne ((value_sub_eq_zero_iff h.finite' h.finite).mp none)

theorem rise_nonpos (h : Drop p q) : value (q.2 - p.2) ≤ 0 :=
  (nearest_sub h.percent'.isFinite h.percent.isFinite).le representable_zero
    (sub_nonpos.mpr h.ordinates)

section Line

variable (h : Drop p q) (finite : x.isFinite = true) (least : value q.1 ≤ value x)
  (greatest : value x ≤ value p.1)

include h finite least greatest

theorem offset (run : (q.1 - p.1).isFinite = true) :
    (x - p.1).isFinite = true ∧ value (q.1 - p.1) ≤ value (x - p.1) ∧ value (x - p.1) ≤ 0 := by
  have difference := nearest_sub finite h.finite
  have above : value (q.1 - p.1) ≤ value (x - p.1) :=
    (Rounds.sub h.finite).le (fun _ _ less => sub_lt_sub_right less _) h.finite' finite least
  have below := difference.le representable_zero (sub_nonpos.mpr greatest)
  exact ⟨isFinite_of_abs_le difference.number run (abs_le_abs_of_nonpos below above), above, below⟩

theorem product (run : (q.1 - p.1).isFinite = true) (rise : (q.2 - p.2).isFinite = true)
    (whole : ((q.2 - p.2) * (q.1 - p.1)).isFinite = true) :
    ((q.2 - p.2) * (x - p.1)).isFinite = true ∧ 0 ≤ value ((q.2 - p.2) * (x - p.1)) ∧
      value ((q.2 - p.2) * (x - p.1)) ≤ value ((q.2 - p.2) * (q.1 - p.1)) := by
  obtain ⟨bounded, above, nonpos⟩ := h.offset finite least greatest run
  have result := nearest_mul rise bounded
  have result' := nearest_mul rise run
  have nonneg := result.ge representable_zero (mul_nonneg_of_nonpos_of_nonpos h.rise_nonpos nonpos)
  have below : value ((q.2 - p.2) * (x - p.1)) ≤ value ((q.2 - p.2) * (q.1 - p.1)) := by
    rcases h.rise_nonpos.lt_or_eq with negative | none
    · exact (Rounds.mul rise).ge (fun _ _ less => mul_lt_mul_of_neg_left less negative) run bounded
        above
    · rw [none, zero_mul] at result result'
      rw [result.eq representable_zero, result'.eq representable_zero]
  exact ⟨isFinite_of_abs_le result.number whole (abs_le_abs_of_nonneg nonneg below), nonneg, below⟩

theorem isPercent_line (hit : IsPercent (line p q q.1)) : IsPercent (line p q x) := by
  have whole_quotient := (isFinite_of_add hit.isFinite).2
  have whole_product := isFinite_of_div whole_quotient
  obtain ⟨rise, run⟩ := isFinite_of_mul whole_product
  obtain ⟨product, nonneg, below⟩ := h.product finite least greatest run rise whole_product
  have quotient := nearest_div product run h.run_neg.ne
  have above := (Rounds.div run h.run_neg.ne).ge
    (fun _ _ less => div_lt_div_of_neg_of_lt h.run_neg less) product whole_product below
  have nonpos := quotient.le representable_zero
    (div_nonpos_of_nonneg_of_nonpos nonneg h.run_neg.le)
  have bounded := isFinite_of_abs_le quotient.number whole_quotient
    (abs_le_abs_of_nonpos nonpos above)
  have sum := nearest_add h.percent.isFinite bounded
  have least := (Rounds.add h.percent.isFinite).le (fun _ _ less => add_lt_add_right less _)
    whole_quotient bounded above
  have greatest := sum.le (representable_value h.percent.isFinite) (by linarith)
  refine IsPercent.iff_value.mpr ⟨sum.number, ?_, ?_⟩
  · exact (IsPercent.iff_value.mp hit).2.1.trans least
  · exact greatest.trans (IsPercent.iff_value.mp h.percent).2.2

end Line
end Drop

section Fall

theorem reaches_down {a : Float32} : reaches false x a = true ↔ a ≤ x := by
  simp only [reaches, Bool.false_eq_true, if_false, decide_eq_true_eq]

theorem isPercent_evalAfter (falling : (p :: rest).Pairwise Drop) (known : IsPercent p.2)
    (hits : ∀ q ∈ rest, IsPercent (evalAfter false q.1 p rest)) (number : x.isNaN = false)
    (beyond : value x ≤ value p.1) : IsPercent (evalAfter false x p rest) := by
  induction rest generalizing p with
  | nil => exact known
  | cons q rest ih =>
    obtain ⟨drops, later⟩ := List.pairwise_cons.mp falling
    have drop := drops q List.mem_cons_self
    have number' := isNaN_of_isFinite drop.finite'
    rw [evalAfter]
    split
    · rename_i reached
      have least := (le_iff.mp (reaches_down.mp reached)).2.2
      have hit := hits q List.mem_cons_self
      rw [evalAfter, if_pos (reaches_down.mpr (le_iff.mpr ⟨number', number', le_rfl⟩))] at hit
      exact drop.isPercent_line (isFinite_of_between number drop.finite' drop.finite least beyond)
        least beyond hit
    · rename_i passed
      have below := le_of_not_ge fun least =>
        passed (reaches_down.mpr (le_iff.mpr ⟨number', number, least⟩))
      refine ih later drop.percent' (fun r member => ?_) below
      have lower := ((List.pairwise_cons.mp later).1 r member).abscissas
      have hit := hits r (List.mem_cons_of_mem q member)
      rwa [evalAfter, if_neg] at hit
      intro reached
      exact absurd (le_iff.mp (reaches_down.mp reached)).2.2 (not_le.mpr lower)

theorem Drop.less (h : Drop p q) : q.1 < p.1 :=
  lt_iff.mpr ⟨isNaN_of_isFinite h.finite', isNaN_of_isFinite h.finite, h.abscissas⟩

section Lower

variable (lower : (p :: rest).Pairwise fun p q => q.1 < p.1) (some : rest ≠ [])

include lower some

theorem ascending_of_lower : ascending (p :: rest) = false := by
  have last := (List.pairwise_cons.mp lower).1 _ (List.getLast_mem some)
  rw [ascending_cons some]
  exact decide_eq_false fun less => absurd (lt_iff.mp less).2.2 (lt_iff.mp last).2.2.not_gt

theorem eval_above (above : p.1 ≤ x) : eval (p :: rest) x = p.2 := by
  rw [eval, ascending_of_lower lower some]
  exact if_pos (reaches_down.mpr above)

theorem eval_below (below : x < (rest.getLast some).1) :
    eval (p :: rest) x = (rest.getLast some).2 := by
  have ordered : (p :: rest).Pairwise fun p q => value q.1 ≤ value p.1 :=
    lower.imp fun less => (lt_iff.mp less).2.2.le
  have least : ∀ q ∈ p :: rest, value (rest.getLast some).1 ≤ value q.1 := by
    intro q member
    have last := ordered.rel_getLast_of_rel_getLast_getLast member le_rfl
    rwa [List.getLast_cons some] at last
  have passed : ∀ q ∈ p :: rest, ¬reaches false x q.1 = true := fun q member reached =>
    absurd (le_iff.mp (reaches_down.mp reached)).2.2
      (not_le.mpr ((lt_iff.mp below).2.2.trans_le (least q member)))
  rw [eval, ascending_of_lower lower some, if_neg (passed p List.mem_cons_self)]
  exact evalAfter_beyond some fun q member => passed q (List.mem_cons_of_mem _ member)

end Lower

theorem isPercent_eval (falling : (p :: rest).Pairwise Drop) (some : rest ≠ [])
    (hits : ∀ q ∈ p :: rest, IsPercent (eval (p :: rest) q.1)) (number : x.isNaN = false) :
    IsPercent (eval (p :: rest) x) := by
  have drops := (List.pairwise_cons.mp falling).1
  have first := drops _ (List.getLast_mem some)
  have number' := isNaN_of_isFinite first.finite
  simp only [eval, ascending_of_lower (falling.imp Drop.less) some] at hits ⊢
  split
  · exact first.percent
  · rename_i passed
    refine isPercent_evalAfter falling first.percent (fun q member => ?_) number ?_
    · have hit := hits q (List.mem_cons_of_mem p member)
      rwa [if_neg] at hit
      intro reached
      exact absurd (le_iff.mp (reaches_down.mp reached)).2.2 (not_le.mpr (drops q member).abscissas)
    · exact le_of_not_ge fun least =>
        passed (reaches_down.mpr (le_iff.mpr ⟨number', number, least⟩))

end Fall
end Curve

theorem Single.isNaN_negInfinity : negInfinity.isNaN = false := by decide +kernel

theorem Single.value_negInfinity : value negInfinity = -2 ^ (128 : ℤ) := by decide +kernel

namespace Config

variable {config : Config} {voltages : List Float32} {v : Float32} {n i j : Nat}

/-- The charge level of an entry of a curve of `n` steps, counted from full. -/
def level (n i : Nat) : Float32 := 100.0 - Float32.ofNat i * (100.0 / Float32.ofNat n)

section Levels

theorem one_le_ofNat (positive : 0 < n) : 1 ≤ value (Float32.ofNat n) :=
  (nearest_ofNat n).ge (representable_natCast (n := 1) (by norm_num)) (by exact_mod_cast positive)

theorem ofNat_mono (le : i ≤ j) : value (Float32.ofNat i) ≤ value (Float32.ofNat j) := by
  rcases le.lt_or_eq with less | rfl
  · exact (nearest_ofNat i).mono (nearest_ofNat j) (by exact_mod_cast less)
  · exact le_rfl

theorem isFinite_step (positive : 0 < n) : (100.0 / Float32.ofNat n).isFinite = true := by
  have one := one_le_ofNat positive
  cases bounded : (Float32.ofNat n).isFinite with
  | true =>
    refine (nearest_div IsPercent.hundred.isFinite bounded (by linarith)).isFinite ?_
    rw [IsPercent.value_hundred, abs_of_nonneg (by positivity)]
    exact (div_le_self (by norm_num) one).trans (by norm_num)
  | false =>
    have unpacked := unpack_of_infinite_nonneg (nearest_ofNat n).number bounded (by linarith)
    obtain ⟨s, quotient⟩ := finite_div_infinity IsPercent.hundred.isFinite unpacked
    change (100.0 / Float32.ofNat n).toModel.unpack.isFinite = true
    rw [quotient]
    rfl

theorem nearest_level_zero (positive : 0 < n) : Nearest 100 (level n 0) := by
  have product := nearest_mul (isFinite_ofNat (n := 0) (by norm_num)) (isFinite_step positive)
  rw [value_ofNat (by norm_num), Nat.cast_zero, zero_mul] at product
  have difference := nearest_sub IsPercent.hundred.isFinite (product.isFinite (by norm_num))
  rwa [product.eq representable_zero, IsPercent.value_hundred, sub_zero] at difference

theorem value_level_zero (positive : 0 < n) : value (level n 0) = 100 :=
  (nearest_level_zero positive).eq (representable_natCast (n := 100) (by norm_num))

theorem level_last_iff : (level n n == 0.0) = true ↔
    (Float32.ofNat n * (100.0 / Float32.ofNat n) == 100.0) = true := by
  rw [beq_iff, beq_iff, value_zero, IsPercent.value_hundred]
  constructor
  · rintro ⟨number, -, zero⟩
    have finite : (level n n).isFinite = true := isFinite_of_abs_lt number (by rw [zero]; norm_num)
    have finite' := (isFinite_of_sub finite).2
    have same := (value_sub_eq_zero_iff IsPercent.hundred.isFinite finite').mp zero
    exact ⟨isNaN_of_isFinite finite', IsPercent.isNaN_hundred, same ▸ IsPercent.value_hundred⟩
  · rintro ⟨number, -, whole⟩
    have finite := isFinite_of_abs_lt number (by rw [whole]; norm_num)
    have difference := nearest_sub IsPercent.hundred.isFinite finite
    refine ⟨difference.number, isNaN_zero, ?_⟩
    exact (value_sub_eq_zero_iff IsPercent.hundred.isFinite finite).mpr
      (IsPercent.value_hundred.trans whole.symm)

section Known

variable (positive : 0 < n) (known : IsPercent (level n n))

include positive known

theorem step_pos : (Float32.ofNat n).isFinite = true ∧ 0 < value (100.0 / Float32.ofNat n) := by
  have whole := (isFinite_of_mul (isFinite_of_sub known.isFinite).2).1
  have one := one_le_ofNat positive
  have quotient := nearest_div IsPercent.hundred.isFinite whole (by linarith)
  have least : (2 : ℚ) ^ (-122 : ℤ) ≤ value 100.0 / value (Float32.ofNat n) := by
    rw [IsPercent.value_hundred, le_div_iff₀ (by linarith)]
    calc (2 : ℚ) ^ (-122 : ℤ) * value (Float32.ofNat n) ≤ 2 ^ (-122 : ℤ) * 2 ^ (128 : ℤ) := by
          gcongr
          exact value_le_infinity _
      _ ≤ 100 := by norm_num
  have representable := representable_two_pow (e := -122) (by norm_num) (by norm_num)
  exact ⟨whole, (zpow_pos two_pos _).trans_le (quotient.ge representable least)⟩

theorem product_mono (le : i ≤ j) (le' : j ≤ n) :
    (Float32.ofNat j * (100.0 / Float32.ofNat n)).isFinite = true ∧
    value (Float32.ofNat i * (100.0 / Float32.ofNat n)) ≤
      value (Float32.ofNat j * (100.0 / Float32.ofNat n)) := by
  obtain ⟨whole, step⟩ := step_pos positive known
  have finite := isFinite_step positive
  have nonneg : ∀ k, 0 ≤ value (Float32.ofNat k) := fun k =>
    (nearest_ofNat k).ge representable_zero (Nat.cast_nonneg k)
  have counts : ∀ k ≤ n, (Float32.ofNat k).isFinite = true := fun k le =>
    isFinite_of_abs_le (nearest_ofNat k).number whole
      (abs_le_abs_of_nonneg (nonneg k) (ofNat_mono le))
  have mono : ∀ {k l}, k ≤ l → l ≤ n → value (Float32.ofNat k * (100.0 / Float32.ofNat n)) ≤
      value (Float32.ofNat l * (100.0 / Float32.ofNat n)) := fun le le' =>
    (Rounds.scale finite).le (fun _ _ less => mul_lt_mul_of_pos_right less step)
      (counts _ (le.trans le')) (counts _ le') (ofNat_mono le)
  have product := nearest_mul (counts j le') finite
  have above := product.ge representable_zero (mul_nonneg (nonneg j) step.le)
  exact ⟨isFinite_of_abs_le product.number (isFinite_of_sub known.isFinite).2
    (abs_le_abs_of_nonneg above (mono le' le_rfl)), mono le le'⟩

theorem level_anti (le : i ≤ j) (le' : j ≤ n) : value (level n j) ≤ value (level n i) := by
  obtain ⟨finite, mono⟩ := product_mono positive known le le'
  have finite' := (product_mono positive known le_rfl (le.trans le')).1
  exact (Rounds.subFrom IsPercent.hundred.isFinite).ge (fun _ _ less => sub_lt_sub_left less _)
    finite' finite mono

theorem isPercent_level (le : i ≤ n) : IsPercent (level n i) := by
  have finite := (product_mono positive known le_rfl le).1
  have least := level_anti positive known le le_rfl
  have greatest := level_anti positive known (Nat.zero_le i) le
  rw [value_level_zero positive] at greatest
  exact IsPercent.iff_value.mpr ⟨(nearest_sub IsPercent.hundred.isFinite finite).number,
    (IsPercent.iff_value.mp known).2.1.trans least, greatest⟩

end Known
end Levels

structure Descending (voltages : List Float32) : Prop where
  two : 2 ≤ voltages.length
  finite : ∀ a ∈ voltages, a.isFinite = true
  descends : voltages.Pairwise fun a b => b < a

section Points

theorem getElem?_chargeCurve (voltages : List Float32) (i : Nat) :
    (chargeCurve voltages)[i]? =
      voltages[i]?.map fun a => (a, level (voltages.length - 1) i) := by
  simp [chargeCurve, level, Function.comp_def]

theorem head?_chargeCurve (voltages : List Float32) :
    (chargeCurve voltages).head? =
      voltages.head?.map fun a => (a, level (voltages.length - 1) 0) := by
  rw [List.head?_eq_getElem?, getElem?_chargeCurve, List.head?_eq_getElem?]

theorem length_chargeCurve : (chargeCurve voltages).length = voltages.length := by
  simp [chargeCurve]

theorem getLast?_chargeCurve (voltages : List Float32) :
    (chargeCurve voltages).getLast? =
      voltages.getLast?.map fun a => (a, level (voltages.length - 1) (voltages.length - 1)) := by
  rw [List.getLast?_eq_getElem?, length_chargeCurve, getElem?_chargeCurve,
    List.getLast?_eq_getElem?]

theorem getElem_chargeCurve (short : i < voltages.length)
    (short' : i < (chargeCurve voltages).length) :
    (chargeCurve voltages)[i] = (voltages[i], level (voltages.length - 1) i) := by
  have found := getElem?_chargeCurve voltages i
  rw [List.getElem?_eq_getElem short, List.getElem?_eq_getElem short'] at found
  exact Option.some.inj found

theorem mem_of_mem_chargeCurve {q : Float32 × Float32} (member : q ∈ chargeCurve voltages) :
    q.1 ∈ voltages := by
  obtain ⟨i, short, rfl⟩ := List.getElem_of_mem member
  have within : i < voltages.length := length_chargeCurve ▸ short
  rw [getElem_chargeCurve within]
  exact List.getElem_mem within

end Points

namespace Descending

variable (h : Descending voltages)

include h

theorem falling (known : IsPercent (level (voltages.length - 1) (voltages.length - 1))) :
    (chargeCurve voltages).Pairwise Curve.Drop := by
  have positive : 0 < voltages.length - 1 := by have := h.two; omega
  refine List.pairwise_iff_getElem.mpr fun i j short short' less => ?_
  have within : i < voltages.length := length_chargeCurve ▸ short
  have within' : j < voltages.length := length_chargeCurve ▸ short'
  have below := List.pairwise_iff_getElem.mp h.descends i j within within' less
  rw [getElem_chargeCurve within, getElem_chargeCurve within']
  exact
    { finite := h.finite _ (List.getElem_mem within)
      finite' := h.finite _ (List.getElem_mem within')
      abscissas := (lt_iff.mp below).2.2
      percent := isPercent_level positive known (by omega)
      percent' := isPercent_level positive known (by omega)
      ordinates := level_anti positive known less.le (by omega) }

theorem lower : (chargeCurve voltages).Pairwise fun p q => q.1 < p.1 := by
  refine List.pairwise_iff_getElem.mpr fun i j short short' less => ?_
  have within : i < voltages.length := length_chargeCurve ▸ short
  have within' : j < voltages.length := length_chargeCurve ▸ short'
  rw [getElem_chargeCurve within, getElem_chargeCurve within']
  exact List.pairwise_iff_getElem.mp h.descends i j within within' less

theorem exists_cons : ∃ p rest, rest ≠ [] ∧ chargeCurve voltages = p :: rest := by
  have two : 2 ≤ (chargeCurve voltages).length := length_chargeCurve ▸ h.two
  match chargeCurve voltages, two with
  | p :: q :: rest, _ => exact ⟨p, q :: rest, List.cons_ne_nil q rest, rfl⟩

variable (curve : config.openCircuit = some voltages)

include curve

theorem percentAt_eq (v : Float32) : config.percentAt v = (chargeCurve voltages).eval v := by
  unfold percentAt
  rw [curve]
  exact if_pos h.two

theorem percentAt_above {first : Float32} (initial : first ∈ voltages.head?) (least : first ≤ v) :
    config.percentAt v = level (voltages.length - 1) 0 := by
  obtain ⟨p, rest, some, shape⟩ := h.exists_cons
  have lower := h.lower
  have head := head?_chargeCurve voltages
  rw [shape] at lower head
  rw [initial] at head
  have point : p = _ := Option.some.inj head
  rw [h.percentAt_eq curve, shape, Curve.eval_above lower some (by rwa [point]), point]

theorem percentAt_below {last : Float32} (final : last ∈ voltages.getLast?) (less : v < last) :
    config.percentAt v = level (voltages.length - 1) (voltages.length - 1) := by
  obtain ⟨p, rest, some, shape⟩ := h.exists_cons
  have lower := h.lower
  have tail := getLast?_chargeCurve voltages
  rw [shape] at lower tail
  rw [final, List.getLast?_cons, List.getLast?_eq_some_getLast some] at tail
  have point : rest.getLast some = _ := Option.some.inj tail
  rw [h.percentAt_eq curve, shape, Curve.eval_below lower some (by rwa [point]), point]

theorem exists_below : ∃ v, v.isNaN = false ∧
    config.percentAt v = level (voltages.length - 1) (voltages.length - 1) := by
  have nonempty : voltages ≠ [] := List.ne_nil_of_length_pos (Nat.zero_lt_of_lt h.two)
  have finite := h.finite _ (List.getLast_mem nonempty)
  have least := (abs_le.mp (abs_value_le finite)).1
  have less : negInfinity < voltages.getLast nonempty := by
    refine lt_iff.mpr ⟨isNaN_negInfinity, isNaN_of_isFinite finite, lt_of_lt_of_le ?_ least⟩
    rw [value_negInfinity]
    norm_num
  exact ⟨negInfinity, isNaN_negInfinity,
    h.percentAt_below curve (List.getLast?_eq_some_getLast nonempty) less⟩

theorem isPercent_percentAt (known : IsPercent (level (voltages.length - 1) (voltages.length - 1)))
    (hits : ∀ a ∈ voltages, IsPercent (config.percentAt a)) (number : v.isNaN = false) :
    IsPercent (config.percentAt v) := by
  obtain ⟨p, rest, some, shape⟩ := h.exists_cons
  have falling := h.falling known
  rw [shape] at falling
  rw [h.percentAt_eq curve, shape]
  refine Curve.isPercent_eval falling some (fun q member => ?_) number
  rw [← shape, ← h.percentAt_eq curve]
  exact hits q.1 (mem_of_mem_chargeCurve (shape ▸ member))

end Descending

/-- At and above the voltage of its first entry a falling curve gives a full pack. Below that of its
last entry it gives an empty one exactly if the steps add up to a hundred percent, and it gives
percentages everywhere exactly if it does below the last entry and at every entry. -/
theorem percentAt_range (curve : config.openCircuit = some voltages) (h : Descending voltages) :
    (∀ first ∈ voltages.head?, ∀ v, first ≤ v → (config.percentAt v == 100.0) = true) ∧
    (∀ last ∈ voltages.getLast?, ∀ v, v < last → ((config.percentAt v == 0.0) = true ↔
      (Float32.ofNat (voltages.length - 1) * (100.0 / Float32.ofNat (voltages.length - 1)) ==
        100.0) = true)) ∧
    ((∀ v, v.isNaN = false → IsPercent (config.percentAt v)) ↔
      IsPercent (level (voltages.length - 1) (voltages.length - 1)) ∧
        ∀ a ∈ voltages, IsPercent (config.percentAt a)) := by
  have positive : 0 < voltages.length - 1 := by have := h.two; omega
  refine ⟨?_, ?_, ?_, ?_⟩
  · intro first initial v least
    rw [h.percentAt_above curve initial least, beq_iff]
    exact ⟨(nearest_level_zero positive).number, IsPercent.isNaN_hundred,
      (value_level_zero positive).trans IsPercent.value_hundred.symm⟩
  · intro last final v less
    rw [h.percentAt_below curve final less, level_last_iff]
  · intro everywhere
    obtain ⟨v, number, last⟩ := h.exists_below curve
    refine ⟨last ▸ everywhere v number, fun a member => ?_⟩
    exact everywhere a (isNaN_of_isFinite (h.finite a member))
  · rintro ⟨known, hits⟩ v number
    exact h.isPercent_percentAt curve known hits number

theorem percentAt_range_nmc :
    let config := Config.ofChemistry .nmc 10.0
    Descending (config.openCircuit.getD []) ∧
      (∀ v, v.isNaN = false → IsPercent (config.percentAt v)) ∧
      ((config.percentAt 4.3 == 100.0) = true ∧ (config.percentAt 2.5 == 0.0) = true) := by
  intro config
  have descending : Descending (config.openCircuit.getD []) :=
    ⟨by decide, by decide +kernel, by decide +kernel⟩
  have curve : config.openCircuit = some (config.openCircuit.getD []) := rfl
  obtain ⟨above, below, range⟩ := percentAt_range curve descending
  exact ⟨descending, range.mpr ⟨by decide +kernel, by decide +kernel⟩,
    above _ rfl _ (by decide +kernel), (below _ rfl _ (by decide +kernel)).mpr (by decide +kernel)⟩

/-- A curve of 46 entries. Its 45 steps of 2.2222223 percent add up to more than a hundred. -/
def fineCurve : List Float32 := (List.range 46).map fun i => 4.2 - Float32.ofNat i * 0.025

theorem percentAt_not_always_in_range :
    ¬∀ (config : Config) (voltages : List Float32), config.openCircuit = some voltages →
      Descending voltages → ∀ v, v.isNaN = false →
        IsPercent (config.percentAt v) ∧
        (∀ first ∈ voltages.head?, first ≤ v → (config.percentAt v == 100.0) = true) ∧
        ∀ last ∈ voltages.getLast?, v < last → (config.percentAt v == 0.0) = true := by
  intro always
  have descending : Descending fineCurve :=
    ⟨by decide, by decide +kernel, by decide +kernel⟩
  have result := always { Config.ofChemistry .nmc 10.0 with openCircuit := some fineCurve } fineCurve
    rfl descending 3.0 (by decide +kernel)
  exact absurd result.1 (by decide +kernel)

/-- The line from one entry to the next may miss zero at the last entry itself. -/
example : ¬IsPercent (Config.percentAt
    { Config.ofChemistry .nmc 10.0 with openCircuit := some [4.069, 2.686] } 2.686) := by
  decide +kernel

end Config
end PackGuard
