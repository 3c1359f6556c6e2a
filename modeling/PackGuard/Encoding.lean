import PackGuard.Interpolation

/-!
The settings a register field can hold. An `Encoding` maps raw codes to the values they stand for;
`quantize` finds the code for a requested value, and `apply` reports what that code achieves.
-/

namespace PackGuard

inductive Rounding where
  | down
  | up
  /-- To the closest setting on either side; in a table still to the next lower entry. -/
  | nearest
  deriving DecidableEq, Repr

inductive Encoding (α : Type) where
  /-- Enumerated settings in ascending order; the code is the position. -/
  | table (entries : List α)
  /-- Equal steps: code `raw` stands for `offset + raw * gain`, with `raw` within a range. -/
  | linear (offset gain : α) (least greatest : UInt16)
  /-- Points `(value, raw)` with ascending values, interpolated in between. -/
  | lookup (points : Curve α)
  deriving DecidableEq, Repr

namespace Encoding

variable {α : Type} [Scalar α]

def ofCode (raw : UInt16) : α := Scalar.ofNat raw.toNat

/-- Codes this close to a whole number count as exact, so that a value achieved before is
met by its own code again in spite of rounding. -/
def tolerance : α := 1e-3

def clampCode (position : α) (least greatest : UInt16) : UInt16 :=
  if position ≤ ofCode least then least
  else if ofCode greatest ≤ position then greatest
  else Scalar.toCode position

/-- The last position whose entry does not exceed the target, or the first position. -/
def lastAtMost (entries : List α) (target : α) : Nat :=
  entries.zipIdx.foldl (fun found entry => if entry.1 ≤ target then entry.2 else found) 0

/-- The first position whose entry reaches the target, or the last position. -/
def firstAtLeast (entries : List α) (target : α) : Nat :=
  (entries.findIdx? fun entry => target ≤ entry).getD (entries.length - 1)

def inverse (points : Curve α) : Curve α := points.map Prod.swap

/-- The value a raw code stands for. A code past the end of a table has its last entry. -/
def value : Encoding α → UInt16 → α
  | table entries, raw => (entries[raw.toNat]?.or entries.getLast?).getD 0.0
  | linear offset gain _ _, raw => offset + ofCode raw * gain
  | lookup points, raw => (inverse points).eval (ofCode raw)

/-- The code of a look-up table for a target. The raw axis may run in either direction, so the
two codes around the exact position are told apart by their values. -/
def quantizeLookup (points : Curve α) (target : α) (rounding : Rounding) : UInt16 :=
  let exact := points.eval target
  let a := clampCode (Scalar.floor exact) 0 65535
  let b := clampCode (Scalar.ceil exact) 0 65535
  let valueOf := (lookup points).value
  let (below, above) := if valueOf a ≤ valueOf b then (a, b) else (b, a)
  match rounding with
  | .down => if valueOf above ≤ target then above else below
  | .up => if target ≤ valueOf below then below else above
  | .nearest => Scalar.toCode (Scalar.clamp 0.0 65535.0 (Scalar.round exact))

/-- The raw code for a requested value, limited to the supported range. -/
def quantize (encoding : Encoding α) (target : α) (rounding : Rounding) : UInt16 :=
  match encoding with
  | table entries =>
    match rounding with
    | .down | .nearest => UInt16.ofNat (lastAtMost entries target)
    | .up => UInt16.ofNat (firstAtLeast entries target)
  | linear offset gain least greatest =>
    let exact := (target - offset) / gain
    let position := match rounding with
      | .down => Scalar.floor (exact + tolerance)
      | .up => Scalar.ceil (exact - tolerance)
      | .nearest => Scalar.round exact
    clampCode position least greatest
  | lookup points => quantizeLookup points target rounding

def apply (encoding : Encoding α) (target : α) (rounding : Rounding) : UInt16 × α :=
  let raw := encoding.quantize target rounding
  (raw, encoding.value raw)

/-- The first code from `raw` on that stands for a positive value, at most `steps` further. -/
def seekPositive (encoding : Encoding α) : (steps : Nat) → (raw : UInt16) → UInt16
  | 0, raw => raw
  | steps + 1, raw => if encoding.value raw ≤ 0.0 then seekPositive encoding steps (raw + 1) else raw

/-- The smallest code of a positive value, for steps which must not collapse to zero. -/
def firstPositive (encoding : Encoding α) : UInt16 :=
  match encoding with
  | table entries => UInt16.ofNat ((entries.findIdx? fun entry => 0.0 < entry).getD 0)
  | linear _ _ least greatest => encoding.seekPositive (greatest.toNat - least.toNat) least
  | lookup _ =>
    let raw := encoding.quantize 0.0 .up
    if 0.0 < encoding.value raw then raw else if raw = 65535 then raw else raw + 1

end Encoding
end PackGuard
