import Arson.Proofs.Number.Exact
/-!
# Rounding a whole number to a float

`Float.ofNat` converts a whole number of more than 53 bits through the float model: the number is
written with 53 zero bits appended, shifted right until 53 significant bits are left, with the
first dropped bit kept as a round bit and the others as a sticky bit, rounded to nearest with ties
to even, and packed, which gives the infinity once the exponent passes the largest one.

This module reads that path as arithmetic on naturals. Dropping `s` bits and rounding is
`roundShift` (`roundedMantissa_shiftRight`), the quotient by `2^s` rounded to nearest, ties to
even, and a multiple of `2^s` nearest to the number (`roundShift_nearest`). Since every float of
at least `2^(52 + s)` is a multiple of `2^s`, the rounded number is as near to the number as any
float (`roundNat_nearest`) as long as it is below `2^1024`, which holds exactly for the numbers
below `2^1024 - 2^970`, halfway between the largest finite float and `2^1024` (`roundNat_lt_iff`);
from there on the result is the infinity (`unpack_ofNat_rounded`). With either sign, the float is
then one that rounds the signed number (`RoundsTo`, `roundsTo_of_unpack`).
-/
namespace Arson.Number

open Float.Model.UnpackedFloat (Sign ExtendedMantissa roundWithAccuracy shiftToTargetExponent)

/-! ## Dropping bits and rounding them away -/

/-- A whole number divided by `2^s` and rounded to nearest, ties to even. -/
def roundShift (N s : Nat) : Nat :=
  if 2 * (N % 2 ^ s) < 2 ^ s then N / 2 ^ s
  else if 2 * (N % 2 ^ s) = 2 ^ s then N / 2 ^ s + N / 2 ^ s % 2
  else N / 2 ^ s + 1

/-- Shifting out `k + 1` bits keeps the quotient, the highest dropped bit as the round bit and
whether any lower dropped bit is set as the sticky bit. -/
theorem shiftRight_bits (M k : Nat) :
    (⟨M, false, false⟩ : ExtendedMantissa) >>> (k + 1) =
      ⟨M / 2 ^ (k + 1), M / 2 ^ k % 2 != 0, M % 2 ^ k != 0⟩ := by
  induction k with
  | zero =>
    show ExtendedMantissa.shiftRightOne ⟨M, false, false⟩ = _
    simp [ExtendedMantissa.shiftRightOne, Nat.mod_one]
  | succ k ih =>
    show ExtendedMantissa.shiftRightOne (Nat.repeat ExtendedMantissa.shiftRightOne (k + 1)
      ⟨M, false, false⟩) = _
    change Nat.repeat _ (k + 1) _ = _ at ih
    rw [ih]
    simp only [ExtendedMantissa.shiftRightOne, ExtendedMantissa.mk.injEq]
    refine ⟨by rw [Nat.div_div_eq_div_mul, ← Nat.pow_succ], trivial, ?_⟩
    -- the new sticky bit gathers the old round and sticky bits: the remainder by `2^(k+1)`
    rw [@Nat.mod_pow_succ M 2 k]
    rcases Nat.mod_two_eq_zero_or_one (M / 2 ^ k) with hg | hg
    · simp [hg]
    · have hpos := Nat.two_pow_pos k
      simp [hg]

/-- Rounding the mantissa left by a shift of `k + 1` bits is `roundShift`. -/
theorem roundedMantissa_shiftRight (M k : Nat) :
    ((⟨M, false, false⟩ : ExtendedMantissa) >>> (k + 1)).roundedMantissa = roundShift M (k + 1) := by
  rw [shiftRight_bits]
  have hmod := @Nat.mod_pow_succ M 2 k
  have hlow : M % 2 ^ k < 2 ^ k := Nat.mod_lt _ (Nat.two_pow_pos k)
  have hpow : 2 ^ (k + 1) = 2 * 2 ^ k := Nat.pow_succ'
  unfold roundShift ExtendedMantissa.roundedMantissa
  rw [hmod, hpow]
  rcases Nat.lt_or_ge (M / 2 ^ k % 2) 1 with h0 | h1
  · -- round bit clear: below the halfway point, the quotient stays
    have hg : M / 2 ^ k % 2 = 0 := by omega
    rw [if_pos (by rw [hg]; omega)]
    cases (M % 2 ^ k != 0) <;>
      simp [ExtendedMantissa.accuracy, Float.Model.UnpackedFloat.Accuracy.roundToNearestEven, hg,
        ← hpow]
  · have hg : M / 2 ^ k % 2 = 1 := by omega
    rw [if_neg (by rw [hg]; omega)]
    by_cases hs : M % 2 ^ k = 0
    · -- exactly halfway: ties go to the even neighbour
      rw [if_pos (by rw [hg, hs]; omega)]
      simp [ExtendedMantissa.accuracy, Float.Model.UnpackedFloat.Accuracy.roundToNearestEven, hg,
        hs, ← hpow]
    · -- beyond halfway: the quotient goes up
      rw [if_neg (by rw [hg]; omega), show (M % 2 ^ k != 0) = true by simpa using hs]
      simp [ExtendedMantissa.accuracy, Float.Model.UnpackedFloat.Accuracy.roundToNearestEven, hg,
        ← hpow]

/-- The rounded quotient is the quotient when the dropped bits are below half of `2^s`, one more
when they are above, and one of the two when they are exactly half. -/
theorem roundShift_cases (N s : Nat) :
    (roundShift N s = N / 2 ^ s ∧ 2 * (N % 2 ^ s) ≤ 2 ^ s) ∨
      (roundShift N s = N / 2 ^ s + 1 ∧ 2 ^ s ≤ 2 * (N % 2 ^ s)) := by
  unfold roundShift
  split
  case isTrue h => exact .inl ⟨rfl, h.le⟩
  case isFalse h =>
    split
    case isTrue heq =>
      rcases Nat.mod_two_eq_zero_or_one (N / 2 ^ s) with he | he
      · exact .inl ⟨by rw [he, Nat.add_zero], heq.le⟩
      · exact .inr ⟨by rw [he], heq.ge⟩
    case isFalse hne => exact .inr ⟨rfl, by omega⟩

/-- Appending `j` zero bits and dropping `j` more bits rounds the same way. -/
theorem roundShift_mul_two_pow (N s j : Nat) : roundShift (N * 2 ^ j) (s + j) = roundShift N s := by
  have hpos := Nat.two_pow_pos j
  have hdiv : N * 2 ^ j / 2 ^ (s + j) = N / 2 ^ s := by
    rw [Nat.pow_add, Nat.mul_div_mul_right _ _ hpos]
  have hmod : N * 2 ^ j % 2 ^ (s + j) = N % 2 ^ s * 2 ^ j := by
    rw [Nat.pow_add, Nat.mul_mod_mul_right]
  unfold roundShift
  rw [hdiv, hmod, Nat.pow_add, ← Nat.mul_assoc]
  -- both comparisons with the halfway point scale by `2^j`
  have hlt : 2 * (N % 2 ^ s) * 2 ^ j < 2 ^ s * 2 ^ j ↔ 2 * (N % 2 ^ s) < 2 ^ s :=
    Nat.mul_lt_mul_right hpos
  have heq : 2 * (N % 2 ^ s) * 2 ^ j = 2 ^ s * 2 ^ j ↔ 2 * (N % 2 ^ s) = 2 ^ s :=
    Nat.mul_left_inj hpos.ne'
  simp only [hlt, heq]

theorem roundShift_bounds (N s : Nat) :
    N / 2 ^ s ≤ roundShift N s ∧ roundShift N s ≤ N / 2 ^ s + 1 := by
  rcases roundShift_cases N s with ⟨h, -⟩ | ⟨h, -⟩ <;> omega

/-- The rounded quotient times `2^s` is a multiple of `2^s` nearest to the number. -/
theorem roundShift_nearest (N s c : Nat) :
    |((roundShift N s * 2 ^ s : Nat) : ℚ) - N| ≤ |((c * 2 ^ s : Nat) : ℚ) - N| := by
  -- the distances are differences of naturals: compare them in the integers
  suffices h : |((roundShift N s * 2 ^ s : Nat) : ℤ) - N| ≤ |((c * 2 ^ s : Nat) : ℤ) - N| by
    have hcast := (Int.cast_le (R := ℚ)).2 h
    push_cast at hcast ⊢
    exact hcast
  have hN : N / 2 ^ s * 2 ^ s + N % 2 ^ s = N := Nat.div_add_mod' N (2 ^ s)
  have hr : N % 2 ^ s < 2 ^ s := Nat.mod_lt N (Nat.two_pow_pos s)
  -- a multiple of `2^s` is at most the quotient's or at least the next one
  have hc : c * 2 ^ s ≤ N / 2 ^ s * 2 ^ s ∨ (N / 2 ^ s + 1) * 2 ^ s ≤ c * 2 ^ s :=
    (le_or_gt c (N / 2 ^ s)).imp (Nat.mul_le_mul_right _) (Nat.mul_le_mul_right _)
  have hfar := le_abs_self (((c * 2 ^ s : Nat) : ℤ) - N)
  have hfar' := neg_abs_le (((c * 2 ^ s : Nat) : ℤ) - N)
  rw [Nat.add_mul, Nat.one_mul] at hc
  rcases roundShift_cases N s with ⟨h, hhalf⟩ | ⟨h, hhalf⟩
  · -- the quotient kept: `N` lies above it by the dropped bits, at most half of `2^s`
    rw [h, abs_of_nonpos (by omega)]
    omega
  · -- the quotient went up: the next multiple lies above `N` by at most half of `2^s`
    rw [h, Nat.add_mul, Nat.one_mul, abs_of_nonneg (by omega)]
    omega

/-! ## The float model's rounding of a wide whole number -/

/-- A mantissa of at most 53 bits at an exponent in range needs no shifting. -/
theorem shiftToTargetExponent_narrow {R : Nat} {e : ℤ} (hR : R < 2 ^ 53) (he : -1074 ≤ e) :
    shiftToTargetExponent Float.Model.Format.binary64 R e .exact = (⟨R, false, false⟩, e) := by
  have hlog : R.log2 ≤ 52 := by
    by_cases h : R = 0
    · simp [h]
    · have := (Nat.log2_lt h).2 hR
      omega
  have ht : (Float.Model.Format.binary64.targetExponent (Float.Model.totalExponent R e) - e).toNat =
      0 := by
    simp only [Float.Model.Format.targetExponent, Float.Model.totalExponent,
      Float.Model.Format.mantissaBits, Float.Model.Format.minExponent]
    omega
  simp only [shiftToTargetExponent, Float.Model.UnpackedFloat.shiftToExponent, ht,
    ExtendedMantissa.ofMantissaAndAccuracy, Nat.cast_zero, Int.add_zero]
  rfl

/-- A mantissa that rounding carried to `2^53` drops its last bit, a zero, and moves up. -/
theorem shiftToTargetExponent_carry {e : ℤ} (he : -1074 ≤ e) :
    shiftToTargetExponent Float.Model.Format.binary64 (2 ^ 53) e .exact =
      (⟨2 ^ 52, false, false⟩, e + 1) := by
  have ht : (Float.Model.Format.binary64.targetExponent (Float.Model.totalExponent (2 ^ 53) e) -
      e).toNat = 1 := by
    simp only [Float.Model.Format.targetExponent, Float.Model.totalExponent, Nat.log2_two_pow,
      Float.Model.Format.mantissaBits, Float.Model.Format.minExponent]
    omega
  simp only [shiftToTargetExponent, Float.Model.UnpackedFloat.shiftToExponent, ht,
    ExtendedMantissa.ofMantissaAndAccuracy, Nat.cast_one]
  rw [show (2 : Nat) ^ 53 = 2 ^ 52 * 2 ^ 1 by norm_num, shiftRight_exact]

/-- A number of more than 53 bits keeps 53 of them when its `log2 N - 52` low bits are dropped. -/
theorem div_two_pow_bounds {N : Nat} (hN : 2 ^ 53 ≤ N) :
    2 ^ 52 ≤ N / 2 ^ (N.log2 - 52) ∧ N / 2 ^ (N.log2 - 52) < 2 ^ 53 := by
  have hN0 : N ≠ 0 := by positivity
  have hL : 53 ≤ N.log2 := (Nat.le_log2 hN0).2 hN
  constructor
  · rw [Nat.le_div_iff_mul_le (Nat.two_pow_pos _), ← Nat.pow_add]
    exact le_trans (Nat.pow_le_pow_right (by decide) (by omega)) (Nat.log2_self_le hN0)
  · rw [Nat.div_lt_iff_lt_mul (Nat.two_pow_pos _), ← Nat.pow_add]
    exact lt_of_lt_of_le Nat.lt_log2_self (Nat.pow_le_pow_right (by decide) (by omega))

/-- Rounding a whole number of more than 53 bits, written with 53 zero bits appended, gives a
normal mantissa and an exponent of at least `q`, the number of bits beyond 53, whose value is the
number rounded to a multiple of `2^q`. -/
theorem roundWithAccuracy_wide {N : Nat} (hN : 2 ^ 53 ≤ N) :
    ∃ m E h, roundWithAccuracy Float.Model.Format.binary64 .positive (N * 2 ^ 53) (-53) .exact =
        .finite .positive m (E : Nat) h ∧ 2 ^ 52 ≤ m ∧ m < 2 ^ 53 ∧ N.log2 - 52 ≤ E ∧
      m * 2 ^ E = roundShift N (N.log2 - 52) * 2 ^ (N.log2 - 52) := by
  have hN0 : N ≠ 0 := by positivity
  have hL : 53 ≤ N.log2 := (Nat.le_log2 hN0).2 hN
  -- the first shift drops `log2 N + 1` bits, leaving 53, at the exponent `log2 N - 52`
  have ht : Float.Model.Format.binary64.targetExponent
      (Float.Model.totalExponent (N * 2 ^ 53) (-53)) = ((N.log2 - 52 : Nat) : ℤ) := by
    simp only [Float.Model.Format.targetExponent, Float.Model.totalExponent,
      log2_mul_two_pow hN0, Float.Model.Format.mantissaBits, Float.Model.Format.minExponent]
    omega
  have hshift : ((((N.log2 - 52 : Nat) : ℤ) - -53).toNat) = N.log2 + 1 := by omega
  have hfirst : shiftToTargetExponent Float.Model.Format.binary64 (N * 2 ^ 53) (-53) .exact =
      ((⟨N * 2 ^ 53, false, false⟩ : ExtendedMantissa) >>> (N.log2 + 1),
        ((N.log2 - 52 : Nat) : ℤ)) := by
    simp only [shiftToTargetExponent, Float.Model.UnpackedFloat.shiftToExponent, ht, hshift,
      ExtendedMantissa.ofMantissaAndAccuracy]
    congr 1
    omega
  have hround : ((⟨N * 2 ^ 53, false, false⟩ : ExtendedMantissa) >>>
      (N.log2 + 1)).roundedMantissa = roundShift N (N.log2 - 52) := by
    rw [roundedMantissa_shiftRight, show N.log2 + 1 = (N.log2 - 52) + 53 by omega,
      roundShift_mul_two_pow]
  -- the rounded mantissa has 53 bits, or 54 when it carried to `2^53`
  obtain ⟨hlo, hhi⟩ := div_two_pow_bounds hN
  have hb := roundShift_bounds N (N.log2 - 52)
  unfold roundWithAccuracy
  rw [hfirst]
  simp only [hround]
  by_cases hR : roundShift N (N.log2 - 52) < 2 ^ 53
  · simp only [shiftToTargetExponent_narrow hR (by omega : -1074 ≤ ((N.log2 - 52 : Nat) : ℤ))]
    exact ⟨_, _, by omega, dif_neg (by omega), by omega, hR, le_refl _, rfl⟩
  · have hcarry : roundShift N (N.log2 - 52) = 2 ^ 53 := by omega
    simp only [hcarry, shiftToTargetExponent_carry (by omega : -1074 ≤ ((N.log2 - 52 : Nat) : ℤ))]
    refine ⟨2 ^ 52, N.log2 - 52 + 1, by decide, dif_neg (by decide), le_refl _, by decide,
      by omega, ?_⟩
    rw [Nat.pow_succ]
    ring

/-- `Float.ofNat` of a whole number of more than 53 bits goes through the float model. -/
theorem ofNat_toModel_wide {N : Nat} (hN : 2 ^ 53 ≤ N) :
    (Float.ofNat N).toModel = Float.Model.pack
      (roundWithAccuracy Float.Model.Format.binary64 .positive (N * 2 ^ 53) (-53) .exact) := by
  have hN0 : N ≠ 0 := by positivity
  show (Float.ofScientific N false 0).toModel = _
  rw [Float.ofScientific, dif_neg (by omega)]
  show Float.Model.pack (Float.Model.UnpackedFloat.ofScientific _ N 0) = _
  unfold Float.Model.UnpackedFloat.ofScientific
  rw [dif_neg hN0, if_neg (by decide), if_neg (by simp), if_pos le_rfl]
  have hbits : Float.Model.Format.binary64.mantissaBits = 53 := rfl
  have hs : Sign.positive * Sign.positive = Sign.positive := rfl
  simp only [Float.Model.UnpackedFloat.mul, hbits, hs, Nat.shiftLeft_eq, Int.toNat_zero,
    Nat.pow_zero, Nat.mul_one, Int.add_zero, Nat.cast_ofNat]

/-! ## The nearest float -/

/-- What a whole number rounds to at 53 significant bits: the multiple of `2^q` nearest to it,
`q` being its number of bits beyond 53; a number of at most 53 bits is itself. -/
def roundNat (N : Nat) : Nat := roundShift N (N.log2 - 52) * 2 ^ (N.log2 - 52)

theorem roundShift_zero (N : Nat) : roundShift N 0 = N := by
  simp [roundShift, Nat.mod_one]

theorem roundNat_of_lt {N : Nat} (hN : N < 2 ^ 53) : roundNat N = N := by
  have hq : N.log2 - 52 = 0 := by
    by_cases h : N = 0
    · simp [h]
    · have := (Nat.log2_lt h).2 hN
      omega
  rw [roundNat, hq, roundShift_zero, Nat.pow_zero, Nat.mul_one]

/-- `v` is as near to `t` as the value of every finite float: every magnitude a float decodes to,
with either sign. -/
def Nearest (v t : ℚ) : Prop :=
  ∀ (neg : Bool) (b : Binary), b.Canonical → |v - t| ≤ |b.signed neg - t|

theorem Nearest.neg {v t : ℚ} (h : Nearest v t) : Nearest (-v) (-t) := by
  intro neg b hb
  have hflip : b.signed neg = -b.signed (!neg) := by
    cases neg <;> simp [Binary.signed]
  rw [hflip, neg_sub_neg, neg_sub_neg, abs_sub_comm t v, abs_sub_comm t]
  exact h (!neg) b hb

/-- No float stands for a value nearer to `t` than `v`. -/
theorem Nearest.float {v t : ℚ} (h : Nearest v t) {y : Float} {w : ℚ} (hy : toRat? y = some w) :
    |v - t| ≤ |w - t| := by
  unfold toRat? at hy
  split at hy
  case h_1 neg b hd =>
    cases hy
    exact h neg b (decode_canonical hd)
  case h_2 => cases hy

/-- A magnitude whose exponent is below `e` is below `2^52 * 2^e`: its mantissa has at most 53
bits. -/
theorem Binary.toRat_lt_of_q_lt_pow {b : Binary} (hb : b.m < 2 ^ 53) {e : ℤ} (hq : b.q < e) :
    b.toRat < 2 ^ 52 * 2 ^ e := by
  have hb53 : (b.m : ℚ) < 2 ^ 53 := by exact_mod_cast hb
  have hpow : (2 : ℚ) ^ (b.q + 1) ≤ 2 ^ e := zpow_le_zpow_right₀ (by norm_num) (by omega)
  unfold Binary.toRat
  calc (b.m : ℚ) * 2 ^ b.q < 2 ^ 53 * 2 ^ b.q := by gcongr
    _ = 2 ^ 52 * 2 ^ (b.q + 1) := by rw [zpow_add₀ (by norm_num)]; ring
    _ ≤ 2 ^ 52 * 2 ^ e := by gcongr

theorem Binary.toRat_of_le_q {b : Binary} {q : Nat} (hq : (q : ℤ) ≤ b.q) :
    b.toRat = ((b.m * 2 ^ (b.q - q).toNat * 2 ^ q : Nat) : ℚ) := by
  have hsplit : b.q = (((b.q - q).toNat : Nat) : ℤ) + (q : ℤ) := by omega
  unfold Binary.toRat
  rw [hsplit, zpow_add₀ (by norm_num), zpow_natCast, zpow_natCast, ← hsplit]
  push_cast
  ring

/-- The rounded number is as near to the number as any finite float: the floats of at least
`2^52 * 2^q` are multiples of `2^q`, among which it is a nearest, and the others lie below the
number by more than the bits it drops. -/
theorem roundNat_nearest (N : Nat) : Nearest (roundNat N) N := by
  intro neg b hb
  by_cases hsmall : N < 2 ^ 53
  · rw [roundNat_of_lt hsmall, sub_self, abs_zero]
    exact abs_nonneg _
  set q := N.log2 - 52 with hq_def
  have hlo : 2 ^ 52 * 2 ^ q ≤ N / 2 ^ q * 2 ^ q :=
    Nat.mul_le_mul_right _ (div_two_pow_bounds (by omega)).1
  have hsplit : N / 2 ^ q * 2 ^ q + N % 2 ^ q = N := Nat.div_add_mod' N (2 ^ q)
  have hround : (roundNat N : ℚ) = ((roundShift N q * 2 ^ q : Nat) : ℚ) := by
    rw [roundNat, ← hq_def]
  -- the quotient's multiple misses the number by the dropped bits, the rounded one by no more
  have hdrop : |(roundNat N : ℚ) - N| ≤ ((N % 2 ^ q : Nat) : ℚ) := by
    have hsplit' : ((N / 2 ^ q * 2 ^ q : Nat) : ℚ) + ((N % 2 ^ q : Nat) : ℚ) = N := by
      exact_mod_cast hsplit
    have hmod : (0 : ℚ) ≤ ((N % 2 ^ q : Nat) : ℚ) := Nat.cast_nonneg _
    have hdist : |((N / 2 ^ q * 2 ^ q : Nat) : ℚ) - N| = ((N % 2 ^ q : Nat) : ℚ) := by
      rw [abs_of_nonpos (by linarith)]
      linarith
    have h := roundShift_nearest N q (N / 2 ^ q)
    rwa [← hround, hdist] at h
  by_cases hw : b.signed neg < 2 ^ 52 * 2 ^ (q : ℤ)
  · -- below `2^52 * 2^q`: farther than the dropped bits
    have hbelow : ((N % 2 ^ q : Nat) : ℚ) ≤ N - b.signed neg := by
      have : ((2 ^ 52 * 2 ^ q + N % 2 ^ q : Nat) : ℚ) ≤ N := by exact_mod_cast (by omega)
      push_cast at this
      rw [zpow_natCast] at hw
      linarith
    exact le_trans hdrop (le_trans hbelow (by rw [abs_sub_comm]; exact le_abs_self _))
  · -- at least `2^52 * 2^q`: positive, with an exponent of at least `q`, so a multiple of `2^q`
    have hpos : 0 < b.signed neg := lt_of_lt_of_le (by positivity) (not_lt.1 hw)
    have hneg : neg = false := by
      cases neg
      · rfl
      · exact absurd hpos (not_lt.2 (by simp [Binary.signed, b.toRat_nonneg]))
    subst hneg
    have hq : (q : ℤ) ≤ b.q := by
      by_contra hlt
      exact hw (Binary.toRat_lt_of_q_lt_pow hb.m_lt (not_le.1 hlt))
    rw [Binary.signed, if_neg Bool.false_ne_true, Binary.toRat_of_le_q hq, hround]
    exact roundShift_nearest N q _

/-- The rounded number stays below `2^1024`, the first power of two with no float, exactly for the
numbers below `2^1024 - 2^970`, halfway between it and the largest finite float
`(2^53 - 1) * 2^971`; a number at that point is a tie, and goes to the even `2^53 * 2^971`. -/
theorem roundNat_lt_iff (N : Nat) : roundNat N < 2 ^ 1024 ↔ N < 2 ^ 1024 - 2 ^ 970 := by
  by_cases hsmall : N < 2 ^ 53
  · rw [roundNat_of_lt hsmall]
    omega
  have hN0 : N ≠ 0 := by omega
  have hL : 53 ≤ N.log2 := (Nat.le_log2 hN0).2 (by omega)
  obtain ⟨hlo, hhi⟩ := div_two_pow_bounds (N := N) (by omega)
  have hb := roundShift_bounds N (N.log2 - 52)
  have hsplit := Nat.div_add_mod' N (2 ^ (N.log2 - 52))
  rcases lt_trichotomy N.log2 1023 with hlt | heq | hgt
  · -- at most 1023 bits: the rounded number is at most `2^53 * 2^970`
    have hN : N < 2 ^ 1023 := by
      rw [← Nat.log2_lt hN0]
      exact hlt
    have hR : roundNat N ≤ 2 ^ 53 * 2 ^ 970 := by
      rw [roundNat]
      gcongr <;> omega
    omega
  · -- exactly 1024 bits: the dropped bits are the last 971, and the top is a tie
    have hq : N.log2 - 52 = 971 := by omega
    rw [hq] at hlo hhi hb hsplit
    rw [roundNat, hq]
    unfold roundShift
    split
    · omega
    · split <;> omega
  · -- at least 1025 bits: the rounded number is at least `2^52 * 2^972`
    have hN : 2 ^ 1024 ≤ N := by
      rw [← Nat.le_log2 hN0]
      exact hgt
    have hR : 2 ^ 52 * 2 ^ 972 ≤ roundNat N := by
      rw [roundNat]
      apply Nat.mul_le_mul
      · omega
      · apply Nat.pow_le_pow_right
        · decide
        · omega
    omega

/-! ## The float `Float.ofNat` gives -/

/-- Packing a magnitude whose exponent is past the largest finite one gives the infinity. -/
theorem unpack_pack_overflow (s : Sign) {m : Nat} {E : ℤ} (h : 0 < m) (hE : 972 ≤ E) :
    (Float.Model.pack (.finite s m E h)).unpack = .infinity s := by
  have hbias : ((Float.Model.Format.binary64.exponentBias : ℕ) : ℤ) = 1023 := rfl
  have hwidth : ((Float.Model.Format.binary64.mantissaBitsWithoutImplicit : ℕ) : ℤ) = 52 := rfl
  unfold Float.Model.unpack Float.Model.pack
  simp only [Float.Model.UnpackedFloat.pack, hbias, hwidth]
  rw [if_pos (by simp only [Nat.reducePow]; omega)]
  cases s <;> rfl

theorem ofNat_wide_unpack {N : Nat} (hN : 2 ^ 53 ≤ N) :
    ∃ m E h, (Float.ofNat N).toModel = Float.Model.pack (.finite .positive m (E : Nat) h) ∧
      2 ^ 52 ≤ m ∧ m < 2 ^ 53 ∧ m * 2 ^ E = roundNat N := by
  obtain ⟨m, E, h, hround, hlo, hhi, -, hval⟩ := roundWithAccuracy_wide hN
  exact ⟨m, E, h, by rw [ofNat_toModel_wide hN, hround], hlo, hhi, hval⟩

/-- What `Float.ofNat` unpacks to: for a positive number below `2^1024 - 2^970`, a normal
magnitude standing for the rounded number; from there on, the infinity. -/
theorem unpack_ofNat_rounded {N : Nat} (hN0 : N ≠ 0) :
    (N < 2 ^ 1024 - 2 ^ 970 → ∃ b : Binary, b.Canonical ∧ 2 ^ 52 ≤ b.m ∧
      b.toRat = roundNat N ∧ ∃ h, (Float.ofNat N).toModel.unpack = .finite .positive b.m b.q h) ∧
    (2 ^ 1024 - 2 ^ 970 ≤ N → (Float.ofNat N).toModel.unpack = .infinity .positive) := by
  by_cases hsmall : N < 2 ^ 53
  · -- at most 53 bits: exact
    obtain ⟨hb, hnorm⟩ := Binary.ofNat_canonical hN0 hsmall
    refine ⟨fun _ => ⟨Binary.ofNat N, hb, hnorm, ?_, _, unpack_ofNat hN0 hsmall⟩, fun h => ?_⟩
    · rw [Binary.ofNat_toRat, roundNat_of_lt hsmall]
    · omega
  obtain ⟨m, E, h, hmodel, hlo, hhi, hval⟩ := ofNat_wide_unpack (N := N) (by omega)
  rw [hmodel]
  by_cases hE : E ≤ 971
  · -- an exponent in range: a normal float, below `2^53 * 2^971`
    have hb : (⟨m, E, false⟩ : Binary).Canonical := ⟨hhi, by simp, by simpa using hE, .inl hlo⟩
    have hbelow : roundNat N < 2 ^ 1024 := by
      rw [← hval]
      have h971 : 2 ^ E ≤ 2 ^ 971 := by
        apply Nat.pow_le_pow_right
        · decide
        · exact hE
      calc m * 2 ^ E < 2 ^ 53 * 2 ^ 971 := Nat.mul_lt_mul_of_lt_of_le hhi h971 (by positivity)
        _ = 2 ^ 1024 := by rw [show 1024 = 53 + 971 from rfl, Nat.pow_add]
    refine ⟨fun _ => ⟨⟨m, E, false⟩, hb, hlo, ?_, h, unpack_pack_normal hb hlo .positive h⟩,
      fun hN => absurd ((roundNat_lt_iff N).1 hbelow) (by omega)⟩
    simp only [Binary.toRat, zpow_natCast]
    exact_mod_cast hval
  · -- an exponent past the largest: the infinity, and at least `2^52 * 2^972`
    have habove : 2 ^ 1024 ≤ roundNat N := by
      rw [← hval]
      have h972 : 2 ^ 972 ≤ 2 ^ E := by
        apply Nat.pow_le_pow_right
        · decide
        · omega
      calc 2 ^ 1024 = 2 ^ 52 * 2 ^ 972 := by rw [← Nat.pow_add]
        _ ≤ m * 2 ^ E := Nat.mul_le_mul hlo h972
    refine ⟨fun hN => absurd ((roundNat_lt_iff N).2 hN) (by omega), fun _ => ?_⟩
    exact unpack_pack_overflow .positive h (by omega)

/-! ## Reading the result back, with either sign -/

theorem signOf_injective {a b : Bool} (h : signOf a = signOf b) : a = b := by
  cases a <;> cases b <;> first | rfl | cases h

/-- A float that unpacks to a finite magnitude stands for it, with its sign. -/
theorem toRat_of_unpack_finite {x : Float} {neg : Bool} {m : Nat} {q : ℤ} {h : 0 < m}
    (hx : x.toModel.unpack = .finite (signOf neg) m q h) :
    toRat? x = some (Binary.signed neg ⟨m, q, false⟩) := by
  rw [unpack_toModel] at hx
  unfold toRat?
  cases hd : decode x with
  | nan => simp [hd, Decoded.unpacked] at hx
  | infinite n => simp [hd, Decoded.unpacked] at hx
  | finite n b =>
    rw [hd] at hx
    by_cases hb : b.m = 0
    · rw [Decoded.unpacked_zero hb] at hx
      cases hx
    · rw [Decoded.unpacked_nonzero hb] at hx
      simp only [Float.Model.UnpackedFloat.finite.injEq] at hx
      obtain ⟨hs, hm, hq⟩ := hx
      simp [Binary.signed, Binary.toRat, hm, hq, signOf_injective hs]

/-- A float that unpacks to a zero stands for zero. -/
theorem toRat_of_unpack_zero {x : Float} {s : Sign} (hx : x.toModel.unpack = .zero s) :
    toRat? x = some 0 := by
  rw [unpack_toModel] at hx
  unfold toRat?
  cases hd : decode x with
  | nan => simp [hd, Decoded.unpacked] at hx
  | infinite n => simp [hd, Decoded.unpacked] at hx
  | finite n b =>
    rw [hd] at hx
    by_cases hb : b.m = 0
    · simp [Binary.toRat_zero hb]
    · rw [Decoded.unpacked_nonzero hb] at hx
      cases hx

/-- A float that unpacks to an infinity decodes to it. -/
theorem decode_of_unpack_infinity {x : Float} {neg : Bool}
    (hx : x.toModel.unpack = .infinity (signOf neg)) : decode x = .infinite neg := by
  rw [unpack_toModel] at hx
  cases hd : decode x with
  | nan => simp [hd, Decoded.unpacked] at hx
  | infinite n =>
    rw [hd] at hx
    simp only [Decoded.unpacked, Float.Model.UnpackedFloat.infinity.injEq] at hx
    rw [signOf_injective hx]
  | finite n b =>
    rw [hd] at hx
    by_cases hb : b.m = 0
    · rw [Decoded.unpacked_zero hb] at hx
      cases hx
    · rw [Decoded.unpacked_nonzero hb] at hx
      cases hx

theorem unpack_neg {x : Float} {u : Float.Model.UnpackedFloat} (hx : x.toModel.unpack = u) :
    (-x).toModel.unpack = (Float.Model.pack u.neg).unpack := by
  show (Float.Model.pack x.toModel.unpack.neg).unpack = _
  rw [hx]

theorem unpack_signed {x : Float} {u : Float.Model.UnpackedFloat} (hx : x.toModel.unpack = u)
    (hu : (Float.Model.pack u.neg).unpack = u.neg) (neg : Bool) :
    (if neg then -x else x).toModel.unpack = if neg then u.neg else u := by
  cases neg
  · exact hx
  · exact (unpack_neg hx).trans hu

theorem unpack_signed_zero {x : Float} (hx : x.toModel.unpack = .zero .positive) (neg : Bool) :
    (if neg then -x else x).toModel.unpack = .zero (signOf neg) := by
  rw [unpack_signed hx rfl neg]
  cases neg <;> rfl

theorem unpack_signed_infinity {x : Float} (hx : x.toModel.unpack = .infinity .positive)
    (neg : Bool) : (if neg then -x else x).toModel.unpack = .infinity (signOf neg) := by
  rw [unpack_signed hx rfl neg]
  cases neg <;> rfl

theorem unpack_signed_normal {x : Float} {b : Binary} {h : 0 < b.m} (hb : b.Canonical)
    (hn : 2 ^ 52 ≤ b.m) (hx : x.toModel.unpack = .finite .positive b.m b.q h) (neg : Bool) :
    (if neg then -x else x).toModel.unpack = .finite (signOf neg) b.m b.q h := by
  rw [unpack_signed hx (unpack_pack_normal hb hn _ h) neg]
  cases neg <;> rfl

/-- A float rounds the integer `t` to nearest: while `|t|` is below `2^1024 - 2^970` it stands for
a whole number that no float is nearer to `t` than, and from there on it is the infinity of the
sign of `t`. -/
def RoundsTo (x : Float) (t : ℤ) : Prop :=
  (t.natAbs < 2 ^ 1024 - 2 ^ 970 ∧ ∃ v : ℤ, toRat? x = some v ∧
      ∀ y w, toRat? y = some w → |(v : ℚ) - t| ≤ |w - t|) ∨
    (2 ^ 1024 - 2 ^ 970 ≤ t.natAbs ∧ decode x = .infinite (decide (t < 0)))

theorem natAbs_signed (neg : Bool) (N : Nat) : (if neg then -(N : ℤ) else N).natAbs = N := by
  cases neg <;> simp

theorem decide_signed_neg (neg : Bool) {N : Nat} (hN : N ≠ 0) :
    decide ((if neg then -(N : ℤ) else N) < 0) = neg := by
  cases neg
  · simp
  · simpa using Nat.pos_of_ne_zero hN

theorem RoundsTo.whole {x : Float} {N : Nat} {neg : Bool}
    (h : RoundsTo x (if neg then -(N : ℤ) else N)) (hN : N < 2 ^ 1024 - 2 ^ 970) :
    ∃ v : ℤ, toRat? x = some v := by
  rcases h with ⟨-, v, hv, -⟩ | ⟨hbig, -⟩
  · exact ⟨v, hv⟩
  · rw [natAbs_signed] at hbig
    omega

theorem RoundsTo.infinite {x : Float} {N : Nat} {neg : Bool}
    (h : RoundsTo x (if neg then -(N : ℤ) else N)) (hN : 2 ^ 1024 - 2 ^ 970 ≤ N) :
    decode x = .infinite neg := by
  rcases h with ⟨hsmall, -⟩ | ⟨-, hinf⟩
  · rw [natAbs_signed] at hsmall
    omega
  · rwa [decide_signed_neg neg (by omega)] at hinf

/-- Every float that unpacks as `Float.ofNat N` does rounds `N`, and its negation rounds `-N`. -/
theorem roundsTo_of_unpack {x : Float} {N : Nat}
    (hx : x.toModel.unpack = (Float.ofNat N).toModel.unpack) (neg : Bool) :
    RoundsTo (if neg then -x else x) (if neg then -(N : ℤ) else N) := by
  unfold RoundsTo
  rw [natAbs_signed]
  by_cases hN0 : N = 0
  · -- zero, of either sign, stands for zero
    subst hN0
    have hx' := unpack_signed_zero hx neg
    refine .inl ⟨by omega, 0, by rw [toRat_of_unpack_zero hx']; rfl, fun y w _ => ?_⟩
    cases neg <;> simp
  obtain ⟨hfinite, hinfinite⟩ := unpack_ofNat_rounded hN0
  by_cases hT : N < 2 ^ 1024 - 2 ^ 970
  · -- in range: the rounded number, which no float is nearer to
    obtain ⟨b, hb, hnorm, hval, h, hu⟩ := hfinite hT
    have hx' := unpack_signed_normal hb hnorm (hx.trans hu) neg
    have hnear : Nearest (if neg then -(roundNat N : ℚ) else roundNat N)
        (if neg then -(N : ℚ) else N) := by
      cases neg
      · exact roundNat_nearest N
      · exact (roundNat_nearest N).neg
    refine .inl ⟨hT, if neg then -(roundNat N : ℤ) else roundNat N, ?_, fun y w hy => ?_⟩
    · rw [toRat_of_unpack_finite hx']
      cases neg <;> simp [Binary.signed, ← hval, Binary.toRat]
    · have := hnear.float hy
      cases neg <;> simpa using this
  · -- out of range: the infinity of the sign
    have hx' := unpack_signed_infinity (hx.trans (hinfinite (by omega))) neg
    refine .inr ⟨by omega, ?_⟩
    rw [decode_of_unpack_infinity hx', decide_signed_neg neg hN0]

end Arson.Number
