import PackGuard.Proofs.HysteresisCode
import PackGuard.Proofs.TableSetting

/-!
The order of requests and of the settings that meet them. In equal steps a request is moved to a
whole step by operations that keep the order of numbers, infinities included, and is then limited to
the range. In a table the positions on one side of a request grow with it. Either way a higher
request has no lower code, and its code stands for no lower value.
-/

namespace PackGuard.Encoding

open Single

variable {a b : Float32} {rounding : Rounding}

section Linear

variable {offset gain target : Float32} {least greatest : UInt16}

def wholeStep (offset gain : Float32) (rounding : Rounding) (target : Float32) : Float32 :=
  let exact := (target - offset) / gain
  match rounding with
  | .down => floor (exact + tolerance)
  | .up => ceil (exact - tolerance)
  | .nearest => round exact

theorem quantize_linear (offset gain : Float32) (least greatest : UInt16) (target : Float32)
    (rounding : Rounding) :
    (linear offset gain least greatest).quantize target rounding =
      clampCode (wholeStep offset gain rounding target) least greatest := by
  cases rounding <;> rfl

/-- Equal steps of a positive size within a range of codes, from a finite value on. -/
structure Stepped (offset gain : Float32) (least greatest : UInt16) : Prop where
  finite_offset : offset.isFinite = true
  finite_gain : gain.isFinite = true
  positive : 0.0 < gain
  range : least ≤ greatest

namespace Stepped

theorem isotone_exact (h : Stepped offset gain least greatest) :
    Isotone fun target => (target - offset) / gain :=
  (Isotone.div h.finite_gain (pos_iff.mp h.positive)).comp (.sub h.finite_offset)

theorem isotone_wholeStep (h : Stepped offset gain least greatest) (rounding : Rounding) :
    Isotone (wholeStep offset gain rounding) := by
  cases rounding with
  | down => exact Isotone.floor.comp ((Isotone.shift isFinite_tolerance).comp h.isotone_exact)
  | up => exact Isotone.ceil.comp ((Isotone.sub isFinite_tolerance).comp h.isotone_exact)
  | nearest => exact Isotone.round.comp h.isotone_exact

theorem integral_wholeStep (h : Stepped offset gain least greatest) (rounding : Rounding)
    (number : target.isNaN = false) : Integral (wholeStep offset gain rounding target) := by
  have exact := h.isotone_exact.number number
  cases rounding with
  | down => exact integral_mapUnits _ (isNaN_add_tolerance exact)
  | up => exact integral_mapUnits _ (isNaN_sub_tolerance exact)
  | nearest => exact integral_mapUnits _ exact

theorem toNat_quantize (h : Stepped offset gain least greatest) (rounding : Rounding)
    (number : target.isNaN = false) :
    (((linear offset gain least greatest).quantize target rounding).toNat : ℚ) =
      max (least.toNat : ℚ)
        (min (greatest.toNat : ℚ) (Single.value (wholeStep offset gain rounding target))) := by
  rw [quantize_linear]
  exact (h.integral_wholeStep rounding number).toNat_clampCode h.range

theorem supports_quantize (h : Stepped offset gain least greatest) (rounding : Rounding)
    (number : target.isNaN = false) : (linear offset gain least greatest).Supports
      ((linear offset gain least greatest).quantize target rounding) := by
  have code := h.toNat_quantize rounding number
  have range : (least.toNat : ℚ) ≤ greatest.toNat := by
    exact_mod_cast UInt16.le_iff_toNat_le.mp h.range
  constructor <;> rw [UInt16.le_iff_toNat_le, ← Nat.cast_le (α := ℚ), code]
  · exact le_max_left _ _
  · exact max_le range (min_le_left _ _)

theorem quantize_le (h : Stepped offset gain least greatest) (rounding : Rounding) (le : a ≤ b) :
    (linear offset gain least greatest).quantize a rounding ≤
      (linear offset gain least greatest).quantize b rounding := by
  obtain ⟨number, number', -⟩ := le_iff.mp le
  rw [UInt16.le_iff_toNat_le, ← Nat.cast_le (α := ℚ), h.toNat_quantize rounding number,
    h.toNat_quantize rounding number']
  exact max_le_max le_rfl (min_le_min le_rfl (le_iff.mp (h.isotone_wholeStep rounding le)).2.2)

theorem value_le (h : Stepped offset gain least greatest) {code other : UInt16}
    (le : code ≤ other) : (linear offset gain least greatest).value code ≤
      (linear offset gain least greatest).value other :=
  linear_mono h.finite_offset h.finite_gain h.positive le

end Stepped

end Linear

section Table

variable {entries : List Float32}

namespace Tabulated

theorem supports_quantize (h : Tabulated entries) (target : Float32) (rounding : Rounding) :
    (table entries).Supports ((table entries).quantize target rounding) :=
  (h.tightest target rounding).lt h.nonempty

theorem quantize_le (h : Tabulated entries) (rounding : Rounding) (le : a ≤ b) :
    (table entries).quantize a rounding ≤ (table entries).quantize b rounding :=
  UInt16.le_iff_toNat_le.mpr
    ((h.tightest a rounding).mono (h.tightest b rounding) h.nonempty le)

theorem value_le (h : Tabulated entries) {code other : UInt16} (le : code ≤ other)
    (inside : other.toNat < entries.length) :
    (table entries).value code ≤ (table entries).value other := by
  have le := UInt16.le_iff_toNat_le.mp le
  have inside' : code.toNat < entries.length := lt_of_le_of_lt le inside
  rw [(value_table (List.getElem?_eq_getElem inside)).1,
    (value_table (List.getElem?_eq_getElem inside')).1]
  rcases le.lt_or_eq with less | same
  · exact List.pairwise_iff_getElem.mp h.ascending _ _ inside' inside less
  · simp only [same]
    exact le_self_iff.mpr (h.numbers _ (List.getElem_mem inside))

end Tabulated

end Table

/-- Settings in order: a table of them, or equal steps. -/
def Graded : Encoding Float32 → Prop
  | table entries => Tabulated entries
  | linear offset gain least greatest => Stepped offset gain least greatest
  | lookup _ => False

/-- A higher request is met by no lower setting. -/
theorem quantize_mono {encoding : Encoding Float32} (graded : encoding.Graded) (le : a ≤ b)
    (rounding : Rounding) :
    encoding.quantize a rounding ≤ encoding.quantize b rounding ∧
      encoding.Supports (encoding.quantize a rounding) ∧
      encoding.Supports (encoding.quantize b rounding) ∧
      encoding.value (encoding.quantize a rounding) ≤
        encoding.value (encoding.quantize b rounding) := by
  obtain ⟨number, number', -⟩ := le_iff.mp le
  cases encoding with
  | table entries =>
    have tabulated : Tabulated entries := graded
    have order := tabulated.quantize_le rounding le
    have supported := tabulated.supports_quantize b rounding
    exact ⟨order, tabulated.supports_quantize a rounding, supported,
      tabulated.value_le order supported⟩
  | linear offset gain least greatest =>
    have stepped : Stepped offset gain least greatest := graded
    have order := stepped.quantize_le rounding le
    exact ⟨order, stepped.supports_quantize rounding number,
      stepped.supports_quantize rounding number', stepped.value_le order⟩
  | lookup points => exact graded.elim

def cellVoltages : Encoding Float32 := linear 0.0 0.0506 20 110

theorem quantize_mono_unbounded :
    cellVoltages.Graded ∧ negInfinity ≤ (3.3 : Float32) ∧
      cellVoltages.quantize negInfinity .down ≤ 65 ∧
      cellVoltages.value (cellVoltages.quantize negInfinity .down) ≤ cellVoltages.value 65 := by
  have graded : cellVoltages.Graded := by constructor <;> decide +kernel
  have le : negInfinity ≤ (3.3 : Float32) := by decide +kernel
  have code : cellVoltages.quantize 3.3 .down = 65 := by decide +kernel
  obtain ⟨order, -, -, voltages⟩ := quantize_mono graded le .down
  rw [code] at order voltages
  exact ⟨graded, le, order, voltages⟩

end PackGuard.Encoding
