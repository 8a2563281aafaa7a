import Arson.Number.Binary
/-! # Remainder and truncation, computed exactly

Both operations have exact results, so they are computed on the decoded magnitudes: the
remainder of two multiples of a common power of two is the remainder of the two multipliers.
-/
namespace Arson.Number

/-- The remainder of a division truncated toward zero; it takes the sign of the dividend.
NaN when either operand is NaN, the dividend is infinite or the divisor is zero; the dividend
itself when the divisor is infinite. -/
def remainder (x y : Float) : Float :=
  match decode x, decode y with
  | .finite nx bx, .finite _ bY =>
    if bY.m = 0 then Float.ofBits 0x7FF8000000000000
    else if bx.m = 0 then x
    else
      let e := min bx.q bY.q
      let xs := bx.m <<< (bx.q - e).toNat
      let ys := bY.m <<< (bY.q - e).toNat
      encode nx (xs % ys) e
  | .finite _ _, .infinite _ => x
  | _, _ => Float.ofBits 0x7FF8000000000000

/-- Truncation toward zero, keeping the sign of a zero result; NaN and the infinities stay. -/
def truncate (x : Float) : Float :=
  match decode x with
  | .finite neg b => encode neg b.trunc 0
  | _ => x

/-- The integer of a float truncated toward zero, when it lies in `[-2^63, 2^63)`. -/
def toInt64? (x : Float) : Option Int :=
  match decode x with
  | .finite neg b =>
    let t : Int := if neg then -(b.trunc : Int) else b.trunc
    if -Int.pow 2 63 ≤ t ∧ t < Int.pow 2 63 then some t else none
  | _ => none

end Arson.Number
