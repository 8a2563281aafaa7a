import Arson.Proofs.Number.Order
/-!
# Floats that hold whole numbers exactly

Two conversions produce floats that stand for whole numbers: `Float.ofNat`, which turns a length
into a float to compare an index against, and `truncate`, which drops the fraction of a float by
writing the bits of its whole part with `encode`. Both are exact where the numbers fit in the
mantissa: `Float.ofNat n` stands for `n` when `n < 2^53` (`extended_ofNat`), and the truncation of
a finite float stands for its whole part rounded toward zero (`decode_truncate`).

The first goes through the float model's rounding, which gives a magnitude back unchanged when it
already has the float's width (`roundWithAccuracy_exact`); the second through the bit fields that
`encode` writes, which `decode` reads back (`decode_ofBits_sign_add`).
-/
namespace Arson.Number

open Float.Model.UnpackedFloat (Sign)

/-! ## Rounding a value that is already a float -/

section Rounding

open Float.Model.UnpackedFloat (ExtendedMantissa shiftToTargetExponent roundWithAccuracy)

theorem log2_mul_two_pow {m : Nat} (hm : m ≠ 0) (j : Nat) : (m * 2 ^ j).log2 = m.log2 + j := by
  rw [Nat.log2_eq_iff (Nat.mul_ne_zero hm (Nat.two_pow_pos j).ne')]
  have hlo := Nat.log2_self_le hm
  have hhi := @Nat.lt_log2_self m
  constructor
  · rw [Nat.pow_add]
    exact Nat.mul_le_mul_right _ hlo
  · rw [Nat.add_right_comm, Nat.pow_add]
    exact Nat.mul_lt_mul_of_pos_right hhi (Nat.two_pow_pos j)

theorem shiftRight_exact (M j : Nat) :
    (⟨M * 2 ^ j, false, false⟩ : ExtendedMantissa) >>> j = ⟨M, false, false⟩ := by
  induction j generalizing M with
  | zero => simp only [Nat.pow_zero, Nat.mul_one]; rfl
  | succ j ih =>
    show ExtendedMantissa.shiftRightOne (Nat.repeat ExtendedMantissa.shiftRightOne j
      ⟨M * 2 ^ (j + 1), false, false⟩) = _
    have hinner := ih (M * 2)
    change Nat.repeat _ j _ = _ at hinner
    rw [show M * 2 ^ (j + 1) = M * 2 * 2 ^ j by ring, hinner]
    simp [ExtendedMantissa.shiftRightOne]

/-- A canonical magnitude with `j` zero bits appended sits `j` places above its exponent. -/
theorem targetExponent_scaled {b : Binary} (hb : b.Canonical) (hm : b.m ≠ 0) (j : Nat) :
    Float.Model.Format.binary64.targetExponent
      (Float.Model.totalExponent (b.m * 2 ^ j) (b.q - j)) = b.q := by
  have hlt := (Nat.log2_lt hm).2 hb.m_lt
  have hnorm : 52 ≤ b.m.log2 ∨ b.q = -1074 := hb.normal.imp (Nat.le_log2 hm).2 id
  have hq := hb.q_ge
  unfold Float.Model.Format.targetExponent Float.Model.totalExponent
  rw [log2_mul_two_pow hm]
  simp only [Float.Model.Format.mantissaBits, Float.Model.Format.minExponent]
  omega

theorem shiftToTargetExponent_scaled {b : Binary} (hb : b.Canonical) (hm : b.m ≠ 0) (j : Nat) :
    shiftToTargetExponent Float.Model.Format.binary64 (b.m * 2 ^ j) (b.q - j) .exact =
      (⟨b.m, false, false⟩, b.q) := by
  simp only [shiftToTargetExponent, Float.Model.UnpackedFloat.shiftToExponent,
    targetExponent_scaled hb hm j, show (b.q - (b.q - (j : ℤ))).toNat = j by omega,
    ExtendedMantissa.ofMantissaAndAccuracy, shiftRight_exact, Int.sub_add_cancel]

/-- Rounding a canonical magnitude written with extra zero bits gives the magnitude back. -/
theorem roundWithAccuracy_exact {b : Binary} (hb : b.Canonical) (hm : b.m ≠ 0) (s : Sign)
    (j : Nat) :
    roundWithAccuracy Float.Model.Format.binary64 s (b.m * 2 ^ j) (b.q - j) .exact =
      .finite s b.m b.q (Nat.pos_of_ne_zero hm) := by
  have again : shiftToTargetExponent Float.Model.Format.binary64 b.m b.q .exact =
      (⟨b.m, false, false⟩, b.q) := by
    simpa using shiftToTargetExponent_scaled hb hm 0
  unfold roundWithAccuracy
  simp [shiftToTargetExponent_scaled hb hm j, ExtendedMantissa.roundedMantissa,
    ExtendedMantissa.accuracy, Float.Model.UnpackedFloat.Accuracy.roundToNearestEven, again, hm]

/-- Packing a normal magnitude and unpacking it again gives it back. -/
theorem unpack_pack_normal {b : Binary} (hb : b.Canonical) (hn : 2 ^ 52 ≤ b.m) (s : Sign)
    (hm : 0 < b.m) :
    (Float.Model.pack (.finite s b.m b.q hm)).unpack = .finite s b.m b.q hm := by
  have hlog : b.m.log2 = 52 := (Nat.log2_eq_iff (by omega)).2 ⟨hn, hb.m_lt⟩
  have hq1 := hb.q_ge
  have hq2 := hb.q_le
  have hbias : ((Float.Model.Format.binary64.exponentBias : ℕ) : ℤ) = 1023 := rfl
  have hwidth : ((Float.Model.Format.binary64.mantissaBitsWithoutImplicit : ℕ) : ℤ) = 52 := rfl
  unfold Float.Model.unpack Float.Model.pack
  simp only [Float.Model.UnpackedFloat.pack, hlog, hbias, hwidth]
  rw [if_neg (by simp only [Nat.reducePow]; omega), if_pos (show 52 + 1 = Float.Model.Format.binary64.mantissaBits from rfl)]
  simp only [Float.Model.UnpackedFloat.unpack,
    Float.Model.UnpackedFloat.unpackMantissa_packComponents,
    Float.Model.UnpackedFloat.unpackExponent_packComponents,
    Float.Model.UnpackedFloat.unpackSign_packComponents, Sign.ofBitVec_toBitVec]
  have hE : (BitVec.ofNat 11 (b.q + 1023 + 52).toNat).toNat = (b.q + 1075).toNat := by
    rw [BitVec.toNat_ofNat]
    omega
  have hE1 : BitVec.ofNat 11 (b.q + 1023 + 52).toNat ≠ -1#11 := by
    rw [Ne, BitVec.toNat_eq, hE]
    simp only [BitVec.toNat_neg, BitVec.toNat_ofNat]
    omega
  have hE0 : BitVec.ofNat 11 (b.q + 1023 + 52).toNat ≠ 0#11 := by
    rw [Ne, BitVec.toNat_eq, hE]
    simp only [BitVec.toNat_ofNat]
    omega
  have hM : (1#1 ++ BitVec.ofNat 52 b.m).toNat = b.m := by
    rw [BitVec.toNat_append, ← Nat.shiftLeft_add_eq_or_of_lt (BitVec.isLt (BitVec.ofNat 52 b.m))]
    simp only [BitVec.toNat_ofNat, Nat.shiftLeft_eq]
    have := hb.m_lt
    omega
  rw [if_neg hE1, if_neg hE0]
  simp only [hM, hE, hbias]
  congr 1
  omega

/-- A whole number below `2^53` as a magnitude with its leading one in place. -/
def Binary.ofNat (n : Nat) : Binary :=
  ⟨n * 2 ^ (52 - n.log2), -((52 - n.log2 : Nat) : ℤ), false⟩

theorem Binary.ofNat_canonical {n : Nat} (h0 : n ≠ 0) (hn : n < 2 ^ 53) :
    (Binary.ofNat n).Canonical ∧ 2 ^ 52 ≤ (Binary.ofNat n).m := by
  have hlt := (Nat.log2_lt h0).2 hn
  have hlog : (n * 2 ^ (52 - n.log2)).log2 = 52 := by
    rw [log2_mul_two_pow h0]
    omega
  have hne : n * 2 ^ (52 - n.log2) ≠ 0 := Nat.mul_ne_zero h0 (Nat.two_pow_pos _).ne'
  have hlo := (Nat.le_log2 hne).1 (le_of_eq hlog.symm)
  have hhi := (Nat.log2_lt hne).1 (by omega : (n * 2 ^ (52 - n.log2)).log2 < 53)
  exact ⟨⟨hhi, by simp only [Binary.ofNat]; omega, by simp only [Binary.ofNat]; omega, Or.inl hlo⟩, hlo⟩

theorem Binary.ofNat_toRat (n : Nat) : (Binary.ofNat n).toRat = n := by
  unfold Binary.ofNat Binary.toRat
  push_cast
  rw [zpow_neg, zpow_natCast, mul_assoc, mul_inv_cancel₀ (pow_ne_zero _ two_ne_zero), mul_one]

/-- Multiplying a canonical magnitude by one appends 52 zero bits, which rounding drops again. -/
theorem mul_one_exact {b : Binary} (hb : b.Canonical) (hm : b.m ≠ 0) :
    Float.Model.UnpackedFloat.mul Float.Model.Format.binary64
        (.finite .positive b.m b.q (Nat.pos_of_ne_zero hm))
        (.finite .positive (2 ^ 52) (-52) (by decide)) =
      .finite .positive b.m b.q (Nat.pos_of_ne_zero hm) := by
  show roundWithAccuracy _ (Sign.positive * Sign.positive) (b.m * 2 ^ 52) (b.q + -52) .exact = _
  rw [show b.q + -52 = b.q - ((52 : Nat) : ℤ) by omega]
  exact roundWithAccuracy_exact hb hm .positive 52

/-- A whole number below `2^53` converts from 64 bits exactly: shifted up to 53 bits, with
nothing to round. -/
theorem unpack_toUInt64_toFloat {n : Nat} (h0 : n ≠ 0) (hn : n < 2 ^ 53) :
    n.toUInt64.toFloat.toModel.unpack =
      .finite .positive (Binary.ofNat n).m (Binary.ofNat n).q
        (Nat.pos_of_ne_zero (Nat.mul_ne_zero h0 (Nat.two_pow_pos _).ne')) := by
  obtain ⟨hb, hnorm⟩ := Binary.ofNat_canonical h0 hn
  have hm : (Binary.ofNat n).m ≠ 0 := Nat.mul_ne_zero h0 (Nat.two_pow_pos _).ne'
  have htoNat : n.toUInt64.toNat = n := by
    rw [Nat.toUInt64, UInt64.toNat_ofNat']
    exact Nat.mod_eq_of_lt (by omega)
  show (Float.Model.pack (Float.Model.UnpackedFloat.normalize Float.Model.Format.binary64
    (n.toUInt64.toNat : ℤ) 0 .positive)).unpack = _
  rw [htoNat]
  unfold Float.Model.UnpackedFloat.normalize
  rw [Int.compare_eq_gt.2 (by omega)]
  have ht : Float.Model.Format.binary64.targetExponent (Float.Model.totalExponent n 0) =
      (Binary.ofNat n).q := by
    have hlt := (Nat.log2_lt h0).2 hn
    unfold Float.Model.Format.targetExponent Float.Model.totalExponent
    simp only [Binary.ofNat, Float.Model.Format.mantissaBits, Float.Model.Format.minExponent]
    omega
  have hshift : n <<< (0 - (Binary.ofNat n).q).toNat = (Binary.ofNat n).m * 2 ^ 0 := by
    rw [Nat.shiftLeft_eq, Nat.pow_zero, Nat.mul_one]
    simp only [Binary.ofNat]
    congr 2
    omega
  have hexp : 0 - (((0 - (Binary.ofNat n).q).toNat : Nat) : ℤ) = (Binary.ofNat n).q - (0 : Nat) := by
    simp only [Binary.ofNat]
    omega
  simp only [Float.Model.UnpackedFloat.round, Float.Model.UnpackedFloat.decreaseExponent,
    Int.toNat_natCast, ht, hshift, hexp, roundWithAccuracy_exact hb hm]
  exact unpack_pack_normal hb hnorm _ _

/-- A whole number below `2^53` converts to a float exactly: `Float.ofNat` converts it from 64
bits and multiplies by one. -/
theorem unpack_ofNat {n : Nat} (h0 : n ≠ 0) (hn : n < 2 ^ 53) :
    (Float.ofNat n).toModel.unpack =
      .finite .positive (Binary.ofNat n).m (Binary.ofNat n).q
        (Nat.pos_of_ne_zero (Nat.mul_ne_zero h0 (Nat.two_pow_pos _).ne')) := by
  obtain ⟨hb, hnorm⟩ := Binary.ofNat_canonical h0 hn
  have hm : (Binary.ofNat n).m ≠ 0 := Nat.mul_ne_zero h0 (Nat.two_pow_pos _).ne'
  have hfast : Float.ofNat n = n.toUInt64.toFloat * Float.ofBits 0x3FF0000000000000 := by
    show Float.ofScientific n false 0 = _
    rw [Float.ofScientific, dif_pos ⟨hn, by decide⟩]
    rfl
  have hone : (Float.ofBits 0x3FF0000000000000).toModel.unpack =
      .finite .positive (2 ^ 52) (-52) (by decide) := rfl
  rw [hfast]
  show (Float.Model.pack (Float.Model.UnpackedFloat.mul Float.Model.Format.binary64
    n.toUInt64.toFloat.toModel.unpack (Float.ofBits 0x3FF0000000000000).toModel.unpack)).unpack = _
  rw [unpack_toUInt64_toFloat h0 hn, hone, mul_one_exact hb hm]
  exact unpack_pack_normal hb hnorm _ _

end Rounding

/-! ## Bits written by `encode` -/

theorem toBits_ofBits {u : UInt64} (h : ((u >>> 52) &&& 0x7FF).toNat ≠ 2047) :
    (Float.ofBits u).toBits = u := by
  have hvalid : Float.Model.Format.binary64.Valid u.toBitVec := by
    refine ⟨fun he _ => absurd (congrArg BitVec.toNat he) ?_⟩
    rw [exponent_toNat]
    exact h
  show UInt64.ofBitVec (Float.Model.UnpackedFloat.pack Float.Model.Format.binary64
    (Float.Model.UnpackedFloat.unpack Float.Model.Format.binary64 u.toBitVec)) = u
  rw [Float.Model.UnpackedFloat.pack_unpack_of_valid hvalid]

/-- The bits of a sign and a finite magnitude field read back as that sign and magnitude. -/
theorem decode_ofBits_sign_add {s : Bool} {M : Nat} (hM : M < 2047 * 2 ^ 52) :
    decode (Float.ofBits (UInt64.ofNat ((if s then Nat.pow 2 63 else 0) + M))) =
      .finite s (Binary.ofFields (M / 2 ^ 52) (M % 2 ^ 52)) := by
  have hN : (if s then Nat.pow 2 63 else 0) + M < 2 ^ 64 := by
    cases s <;> simp only [Nat.pow_eq, Bool.false_eq_true, ↓reduceIte] <;> omega
  have hu : (UInt64.ofNat ((if s then Nat.pow 2 63 else 0) + M)).toNat =
      (if s then Nat.pow 2 63 else 0) + M := by
    rw [UInt64.toNat_ofNat']
    exact Nat.mod_eq_of_lt hN
  generalize UInt64.ofNat ((if s then Nat.pow 2 63 else 0) + M) = u at hu
  have h52 : (52 : UInt64).toNat % 64 = 52 := rfl
  have h63 : (63 : UInt64).toNat % 64 = 63 := rfl
  have hE : ((u >>> 52) &&& 0x7FF).toNat = M / 2 ^ 52 := by
    rw [UInt64.toNat_and, UInt64.toNat_shiftRight, hu, h52, Nat.shiftRight_eq_div_pow]
    show _ &&& (2 ^ 11 - 1) = _
    rw [Nat.and_two_pow_sub_one_eq_mod]
    cases s <;> simp only [Nat.pow_eq, Bool.false_eq_true, ↓reduceIte] <;> omega
  have hF : (u &&& 0xFFFFFFFFFFFFF).toNat = M % 2 ^ 52 := by
    rw [UInt64.toNat_and, hu]
    show _ &&& (2 ^ 52 - 1) = _
    rw [Nat.and_two_pow_sub_one_eq_mod]
    cases s <;> simp only [Nat.pow_eq, Bool.false_eq_true, ↓reduceIte] <;> omega
  have hS : (u >>> 63 == 1) = s := by
    have : (u >>> 63).toNat = if s then 1 else 0 := by
      rw [UInt64.toNat_shiftRight, hu, h63, Nat.shiftRight_eq_div_pow]
      cases s <;> simp only [Nat.pow_eq, Bool.false_eq_true, ↓reduceIte] <;> omega
    cases s
    · simp only [Bool.false_eq_true, ↓reduceIte] at this
      simp [← UInt64.toNat_inj, this]
    · simp only [↓reduceIte] at this
      simp [← UInt64.toNat_inj, this]
  have h2047 : M / 2 ^ 52 ≠ 2047 := by omega
  have h2047' : M / 4503599627370496 ≠ 2047 := h2047
  unfold decode fields
  rw [toBits_ofBits (hE ▸ h2047), hE, hF, hS]
  simp [h2047']

/-- A whole number of at most 53 significant bits, shifted so that it has exactly 53. -/
theorem normalized_mantissa {m c j : Nat} (hmc : m = c * 2 ^ j) (hc0 : c ≠ 0) (hc : c < 2 ^ 53) :
    let L := m.log2
    let mm := if 0 ≤ (L : ℤ) - 52 then m >>> ((L : ℤ) - 52).toNat else m <<< (-((L : ℤ) - 52)).toNat
    2 ^ 52 ≤ mm ∧ mm < 2 ^ 53 ∧ (mm : ℚ) * 2 ^ ((L : ℤ) - 52) = m := by
  intro L mm
  have hm0 : m ≠ 0 := hmc ▸ Nat.mul_ne_zero hc0 (Nat.two_pow_pos j).ne'
  have hlo : 2 ^ L ≤ m := Nat.log2_self_le hm0
  have hhi : m < 2 ^ (L + 1) := Nat.lt_log2_self
  have hL : L = c.log2 + j := by
    show m.log2 = _
    rw [hmc]
    exact log2_mul_two_pow hc0 j
  have hcL := (Nat.log2_lt hc0).2 hc
  by_cases hs : 52 ≤ L
  · -- drop `L - 52` low bits, all zero since `m` is `c` followed by `j` zeros
    have hmm : mm = m / 2 ^ (L - 52) := by
      simp only [mm, show (0 : ℤ) ≤ (L : ℤ) - 52 by omega, ↓reduceIte,
        show ((L : ℤ) - 52).toNat = L - 52 by omega, Nat.shiftRight_eq_div_pow]
    have hdvd : 2 ^ (L - 52) ∣ m := hmc ▸ Dvd.dvd.mul_left (Nat.pow_dvd_pow 2 (by omega)) c
    have hback : m / 2 ^ (L - 52) * 2 ^ (L - 52) = m := Nat.div_mul_cancel hdvd
    refine ⟨?_, ?_, ?_⟩
    · rw [hmm, Nat.le_div_iff_mul_le (Nat.two_pow_pos _), ← Nat.pow_add]
      exact le_of_eq_of_le (by congr 1; omega) hlo
    · rw [hmm, Nat.div_lt_iff_lt_mul (Nat.two_pow_pos _), ← Nat.pow_add]
      exact lt_of_lt_of_eq hhi (by congr 1; omega)
    · rw [hmm, show ((L : ℤ) - 52) = ((L - 52 : Nat) : ℤ) by omega, zpow_natCast]
      exact_mod_cast hback
  · -- append `52 - L` zero bits
    have hmm : mm = m * 2 ^ (52 - L) := by
      simp only [mm, show ¬ (0 : ℤ) ≤ (L : ℤ) - 52 by omega, ↓reduceIte,
        show (-((L : ℤ) - 52)).toNat = 52 - L by omega, Nat.shiftLeft_eq]
    refine ⟨?_, ?_, ?_⟩
    · rw [hmm]
      calc 2 ^ 52 = 2 ^ L * 2 ^ (52 - L) := by rw [← Nat.pow_add]; congr 1; omega
        _ ≤ m * 2 ^ (52 - L) := Nat.mul_le_mul_right _ hlo
    · rw [hmm]
      calc m * 2 ^ (52 - L) < 2 ^ (L + 1) * 2 ^ (52 - L) :=
            Nat.mul_lt_mul_of_pos_right hhi (Nat.two_pow_pos _)
        _ = 2 ^ 53 := by rw [← Nat.pow_add]; congr 1; omega
    · rw [hmm, show ((L : ℤ) - 52) = -((52 - L : Nat) : ℤ) by omega, zpow_neg, zpow_natCast]
      push_cast
      rw [mul_assoc, mul_inv_cancel₀ (pow_ne_zero _ two_ne_zero), mul_one]

/-- `encode` writes a whole number of at most 53 significant bits, below `2^1024`, exactly. -/
theorem decode_encode (neg : Bool) {m c j : Nat} (hmc : m = c * 2 ^ j) (hc : c < 2 ^ 53)
    (hbig : m.log2 < 1024) :
    ∃ b : Binary, decode (encode neg m 0) = .finite neg b ∧ b.toRat = m := by
  unfold encode
  by_cases hm0 : m = 0
  · subst hm0
    refine ⟨_, decode_ofBits_sign_add (by simp [encodeMagnitude]), ?_⟩
    simp [encodeMagnitude, Binary.ofFields, Binary.toRat]
  have hc0 : c ≠ 0 := by
    rintro rfl
    simp at hmc
    exact hm0 hmc
  obtain ⟨hlo, hhi, hval⟩ := normalized_mantissa hmc hc0 hc
  have hL : m.log2 < 1024 := hbig
  generalize hmm : (if 0 ≤ (m.log2 : ℤ) - 52 then m >>> ((m.log2 : ℤ) - 52).toNat
    else m <<< (-((m.log2 : ℤ) - 52)).toNat) = mm at hlo hhi hval
  have henc : encodeMagnitude m 0 = (m.log2 + 1023) * 2 ^ 52 + (mm - 2 ^ 52) := by
    unfold encodeMagnitude
    simp only [hm0, ↓reduceIte, Int.zero_add, hmm, Nat.pow_eq]
    rw [if_neg (by omega), if_pos (by omega)]
    congr 2
    omega
  have hM : encodeMagnitude m 0 < 2047 * 2 ^ 52 := by
    rw [henc]
    omega
  refine ⟨_, decode_ofBits_sign_add hM, ?_⟩
  have hdiv : encodeMagnitude m 0 / 2 ^ 52 = m.log2 + 1023 := by
    rw [henc]
    omega
  have hmod : encodeMagnitude m 0 % 2 ^ 52 = mm - 2 ^ 52 := by
    rw [henc]
    omega
  rw [hdiv, hmod, ← hval]
  simp only [Binary.ofFields, Binary.toRat, Nat.pow_eq]
  rw [if_neg (by simp)]
  have hmant : 2 ^ 52 + (mm - 2 ^ 52) = mm := by omega
  have hexp : ((m.log2 + 1023 : ℕ) : ℤ) - 1075 = (m.log2 : ℤ) - 52 := by omega
  show ((2 ^ 52 + (mm - 2 ^ 52) : ℕ) : ℚ) * 2 ^ (((m.log2 + 1023 : ℕ) : ℤ) - 1075) = _
  rw [hmant, hexp]

/-- Truncating a finite float keeps its sign and gives the whole part of its magnitude exactly. -/
theorem decode_truncate {x : Float} {neg : Bool} {b : Binary} (h : decode x = .finite neg b) :
    ∃ b', decode (truncate x) = .finite neg b' ∧ b'.toRat = b.trunc := by
  have hb := decode_canonical h
  unfold truncate
  rw [h]
  simp only
  by_cases hq : 0 ≤ b.q
  · -- the magnitude is whole already: the mantissa followed by `q` zeros
    have htrunc : b.trunc = b.m * 2 ^ b.q.toNat := by
      simp [Binary.trunc, hq, Nat.shiftLeft_eq]
    refine decode_encode neg htrunc hb.m_lt ?_
    by_cases hm : b.m = 0
    · simp [htrunc, hm]
    · rw [htrunc, log2_mul_two_pow hm]
      have := (Nat.log2_lt hm).2 hb.m_lt
      have := hb.q_le
      omega
  · -- the fraction is dropped: what is left has fewer bits than the mantissa
    have htrunc : b.trunc = b.m / 2 ^ (-b.q).toNat := by
      simp [Binary.trunc, hq, Nat.shiftRight_eq_div_pow]
    have hsmall : b.trunc < 2 ^ 53 := by
      rw [htrunc]
      exact lt_of_le_of_lt (Nat.div_le_self _ _) hb.m_lt
    refine @decode_encode neg b.trunc b.trunc 0 (by rw [Nat.pow_zero, Nat.mul_one]) hsmall ?_
    by_cases hz : b.trunc = 0
    · simp [hz]
    · have := (Nat.log2_lt hz).2 hsmall
      omega

/-! ## Floats that stand for whole numbers -/

theorem extended_of_unpack_finite {x : Float} {m : Nat} {q : ℤ} {h : 0 < m}
    (hx : x.toModel.unpack = .finite .positive m q h) :
    extended x = some (((m * 2 ^ q : ℚ) : WithTop ℚ) : WithBot (WithTop ℚ)) := by
  rw [unpack_toModel] at hx
  unfold extended
  cases hd : decode x with
  | nan => simp [hd, Decoded.unpacked] at hx
  | infinite neg => simp [hd, Decoded.unpacked] at hx
  | finite neg b =>
    rw [hd] at hx
    by_cases hb : b.m = 0
    · rw [Decoded.unpacked_zero hb] at hx
      cases hx
    · rw [Decoded.unpacked_nonzero hb] at hx
      simp only [Float.Model.UnpackedFloat.finite.injEq] at hx
      obtain ⟨hs, hm, hq⟩ := hx
      have hneg : neg = false := by
        cases neg
        · rfl
        · cases hs
      subst hneg
      simp [Decoded.value, Binary.signed, Binary.toRat, hm, hq]

theorem extended_of_unpack_zero {x : Float} {s : Sign} (hx : x.toModel.unpack = .zero s) :
    extended x = some (((0 : ℚ) : WithTop ℚ) : WithBot (WithTop ℚ)) := by
  rw [unpack_toModel] at hx
  unfold extended
  cases hd : decode x with
  | nan => simp [hd, Decoded.unpacked] at hx
  | infinite neg => simp [hd, Decoded.unpacked] at hx
  | finite neg b =>
    rw [hd] at hx
    by_cases hb : b.m = 0
    · simp [Decoded.value, Binary.signed, Binary.toRat_zero hb]
    · rw [Decoded.unpacked_nonzero hb] at hx
      cases hx

theorem extended_ofNat {n : Nat} (hn : n < 2 ^ 53) :
    extended (Float.ofNat n) = some (((n : ℚ) : WithTop ℚ) : WithBot (WithTop ℚ)) := by
  by_cases h0 : n = 0
  · subst h0
    rw [@extended_of_unpack_zero (Float.ofNat 0) .positive rfl]
    simp
  · rw [extended_of_unpack_finite (unpack_ofNat h0 hn)]
    rw [← Binary.ofNat_toRat n]
    rfl

/-- The whole part of a float rounded toward zero, when the float is finite. -/
def truncInt? (x : Float) : Option ℤ := (toRat? x).map towardZero

/-- The truncation of a finite float stands for its whole part toward zero, the one `truncInt?`
gives, and converts to that whole number when it fits in 64 bits. -/
theorem truncate_finite {x : Float} {neg : Bool} {b : Binary} (hd : decode x = .finite neg b) :
    ∃ t : ℤ, truncInt? x = some t ∧
      extended (truncate x) = some (((t : ℚ) : WithTop ℚ) : WithBot (WithTop ℚ)) ∧
      toInt64? (truncate x) = if -Int.pow 2 63 ≤ t ∧ t < Int.pow 2 63 then some t else none := by
  obtain ⟨b', hd', hval⟩ := decode_truncate hd
  -- the whole part of the magnitude, with the sign of `x`
  refine ⟨if neg then -(b.trunc : ℤ) else b.trunc, ?_, ?_, ?_⟩
  · simp only [truncInt?, toRat?, hd, Option.map_some]
    rw [towardZero_signed]
  · have hsigned : b'.signed neg = ((if neg then -(b.trunc : ℤ) else b.trunc : ℤ) : ℚ) := by
      simp only [Binary.signed, hval]
      split <;> push_cast <;> rfl
    simp only [extended, hd', Decoded.value, hsigned]
  · have hb'trunc : b'.trunc = b.trunc := by
      have := Binary.trunc_eq_floor b'
      rw [hval, Int.floor_natCast] at this
      exact_mod_cast this
    simp only [toInt64?, hd', hb'trunc]

end Arson.Number
