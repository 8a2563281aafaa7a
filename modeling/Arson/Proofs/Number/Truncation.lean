import Arson.Number.Arith
import Mathlib.Data.Rat.Floor
/-!
# Truncating a float to a 64-bit integer

A finite float stands for the rational `± m * 2^q` of its decoded magnitude; NaN and the
infinities stand for none. `toInt64?` gives the integer part of that rational, rounded toward
zero, exactly when it lies in `[-2^63, 2^63)`, and nothing otherwise: a float too large for 64
bits is refused, never clamped to an end of the range.
-/
namespace Arson.Number

def Binary.toRat (b : Binary) : ℚ := b.m * 2 ^ b.q

/-- The rational a float stands for: none for NaN and the infinities. -/
def toRat? (x : Float) : Option ℚ :=
  match decode x with
  | .finite neg b => some (if neg then -b.toRat else b.toRat)
  | _ => none

/-- The integer part of a rational, rounded toward zero. -/
def towardZero (q : ℚ) : ℤ := if 0 ≤ q then ⌊q⌋ else -⌊-q⌋

theorem Binary.toRat_nonneg (b : Binary) : 0 ≤ b.toRat := by
  unfold Binary.toRat
  exact mul_nonneg (Nat.cast_nonneg _) (zpow_nonneg (by norm_num) _)

/-- Shifting the mantissa by the exponent is the floor of the magnitude. -/
theorem Binary.trunc_eq_floor (b : Binary) : (b.trunc : ℤ) = ⌊b.toRat⌋ := by
  unfold Binary.trunc Binary.toRat
  split
  case isTrue hq =>
    -- a whole multiple of a power of two: the floor is the number itself
    obtain ⟨k, hk⟩ := Int.eq_ofNat_of_zero_le hq
    rw [hk, Int.toNat_natCast, Nat.shiftLeft_eq, zpow_natCast]
    exact_mod_cast (Int.floor_natCast (b.m * 2 ^ k)).symm
  case isFalse hq =>
    -- a quotient by a power of two: the floor is the quotient of naturals
    obtain ⟨k, hk⟩ := Int.eq_ofNat_of_zero_le (le_of_lt (Int.neg_pos_of_neg (Int.lt_of_not_ge hq)))
    have hq' : b.q = -(k : ℤ) := by omega
    rw [hk, Int.toNat_natCast, Nat.shiftRight_eq_div_pow, hq', zpow_neg, zpow_natCast,
      ← div_eq_mul_inv]
    exact_mod_cast (Rat.floor_natCast_div_natCast b.m (2 ^ k)).symm

/-- Rounding toward zero a magnitude or its negation gives its truncation, with the sign. -/
theorem towardZero_signed (neg : Bool) (b : Binary) :
    towardZero (if neg then -b.toRat else b.toRat) =
      if neg then -(b.trunc : ℤ) else b.trunc := by
  rw [Binary.trunc_eq_floor]
  cases neg
  case false => simp [towardZero, b.toRat_nonneg]
  case true =>
    by_cases hz : b.toRat = 0
    · simp [towardZero, hz]
    · have hneg : ¬ 0 ≤ -b.toRat := by
        have := b.toRat_nonneg
        intro h
        exact hz (le_antisymm (by linarith) this)
      simp [towardZero, hneg]

/-- `toInt64?` gives a float's truncation toward zero exactly when the float is finite and the
truncation lies in `[-2^63, 2^63)`. -/
theorem toInt64?_eq_some_iff (x : Float) (t : ℤ) :
    toInt64? x = some t ↔
      (∃ q, toRat? x = some q ∧ towardZero q = t) ∧ -2 ^ 63 ≤ t ∧ t < 2 ^ 63 := by
  unfold toInt64? toRat?
  rcases decode x with _ | _ | ⟨neg, b⟩
  · simp
  · simp
  · simp only [Option.some.injEq, exists_eq_left', towardZero_signed]
    generalize (if neg = true then -(b.trunc : ℤ) else b.trunc) = u
    have hbound : Int.pow 2 63 = 2 ^ 63 := rfl
    rw [hbound]
    split_ifs with hin
    · rw [Option.some.injEq]
      exact ⟨fun hu => ⟨hu, hu ▸ hin⟩, fun h => h.1⟩
    · simp only [false_iff]
      rintro ⟨rfl, hout⟩
      exact hin hout

end Arson.Number
