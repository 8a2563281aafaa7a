import Arson.Proofs.Number.Truncation
import Mathlib
/-!
# The order of floats

`<` and `≤` on `Float` are defined by the logical float model: a float is unpacked into a sign,
a mantissa and an exponent, and two unpacked floats are compared sign first, then exponent, then
mantissa, with NaN comparing to nothing. This module reads that comparison as the order of the
values floats stand for (`lt_iff_extended`, `le_iff_extended`): a finite float stands for the
rational `± m * 2^q` it decodes to, the infinities for the two ends added to the rationals, and NaN
for nothing.

The model unpacks the same fields of the bits that `decode` reads (`unpack_toModel`). Comparing
exponents before mantissas is comparing values because decoded magnitudes are canonical: a
mantissa has at most 53 bits, and all 53 unless the exponent is the least one, so a larger
exponent always means a larger value (`Binary.toRat_lt_of_q_lt`).
-/
namespace Arson.Number

open Float.Model.UnpackedFloat (Sign unpackExponent unpackMantissa unpackSign)

/-! ## Unpacking is decoding -/

theorem exponent_toNat (b : UInt64) :
    (@unpackExponent Float.Model.Format.binary64 b.toBitVec).toNat =
      ((b >>> 52) &&& 0x7FF).toNat := by
  rw [Float.Model.UnpackedFloat.unpackExponent_def, BitVec.extractLsb'_toNat]
  simp only [UInt64.toNat_and, UInt64.toNat_shiftRight, UInt64.toNat_toBitVec]
  exact (Nat.and_two_pow_sub_one_eq_mod _ 11).symm

theorem mantissa_toNat (b : UInt64) :
    (@unpackMantissa Float.Model.Format.binary64 b.toBitVec).toNat =
      (b &&& 0xFFFFFFFFFFFFF).toNat := by
  rw [Float.Model.UnpackedFloat.unpackMantissa_def, BitVec.extractLsb'_toNat]
  simp only [UInt64.toNat_and, UInt64.toNat_toBitVec]
  exact (Nat.and_two_pow_sub_one_eq_mod _ 52).symm

theorem sign_toNat (b : UInt64) :
    (@unpackSign Float.Model.Format.binary64 b.toBitVec).toNat = (b >>> 63).toNat := by
  rw [Float.Model.UnpackedFloat.unpackSign_def, BitVec.extractLsb'_toNat]
  simp only [UInt64.toNat_shiftRight, UInt64.toNat_toBitVec]
  have := b.toNat_lt
  show b.toNat >>> 63 % 2 = b.toNat >>> 63
  rw [Nat.shiftRight_eq_div_pow]
  omega

def signOf (neg : Bool) : Sign := if neg then .negative else .positive

theorem signOf_unpackSign (b : UInt64) :
    Sign.ofBitVec (@unpackSign Float.Model.Format.binary64 b.toBitVec) = signOf (b >>> 63 == 1) := by
  have hS := sign_toNat b
  have hlt : (b >>> 63).toNat < 2 := hS ▸ BitVec.isLt _
  have hbit : (b >>> 63 == 1) = decide ((b >>> 63).toNat = 1) := by
    rw [Bool.eq_iff_iff, beq_iff_eq, decide_eq_true_iff, ← UInt64.toNat_inj]
    rfl
  unfold Sign.ofBitVec signOf
  rw [hbit]
  by_cases h0 : (b >>> 63).toNat = 0
  · have hz : @unpackSign Float.Model.Format.binary64 b.toBitVec = 0#1 :=
      BitVec.eq_of_toNat_eq (by rw [hS, h0]; rfl)
    simp [hz, h0]
  · have hz : @unpackSign Float.Model.Format.binary64 b.toBitVec ≠ 0#1 :=
      fun h => h0 (by rw [← hS, h]; rfl)
    simp [hz, show (b >>> 63).toNat = 1 by omega]

theorem normalMantissa_toNat (b : UInt64) :
    (1#1 ++ @unpackMantissa Float.Model.Format.binary64 b.toBitVec).toNat =
      2 ^ 52 + (b &&& 0xFFFFFFFFFFFFF).toNat := by
  have hM := mantissa_toNat b
  rw [BitVec.toNat_append, hM, ← Nat.shiftLeft_add_eq_or_of_lt (hM ▸ BitVec.isLt _)]
  rfl

/-- A decoded float in the form the float model compares: a zero magnitude is a signed zero. -/
def Decoded.unpacked : Decoded → Float.Model.UnpackedFloat
  | .nan => .notANumber
  | .infinite neg => .infinity (signOf neg)
  | .finite neg b =>
    if h : b.m = 0 then .zero (signOf neg) else .finite (signOf neg) b.m b.q (Nat.pos_of_ne_zero h)

theorem Decoded.unpacked_zero {neg : Bool} {b : Binary} (hb : b.m = 0) :
    (Decoded.finite neg b).unpacked = .zero (signOf neg) := by
  simp [Decoded.unpacked, hb]

theorem Decoded.unpacked_nonzero {neg : Bool} {b : Binary} (hb : b.m ≠ 0) :
    (Decoded.finite neg b).unpacked = .finite (signOf neg) b.m b.q (Nat.pos_of_ne_zero hb) := by
  simp [Decoded.unpacked, hb]

/-- The float model unpacks a float into what `decode` reads from its bits. -/
theorem unpack_toModel (x : Float) : x.toModel.unpack = (decode x).unpacked := by
  have hbits : x.toBits = x.toModel.toBits := rfl
  have hE := exponent_toNat x.toBits
  have hM := mantissa_toNat x.toBits
  have hElt : ((x.toBits >>> 52) &&& 0x7FF).toNat < 2048 := hE ▸ BitVec.isLt _
  unfold Float.Model.unpack Float.Model.UnpackedFloat.unpack decode fields
  rw [← hbits]
  simp only [BitVec.toNat_eq, hE, hM, signOf_unpackSign, normalMantissa_toNat x.toBits]
  generalize (x.toBits >>> 52 &&& 2047).toNat = E at hElt ⊢
  generalize (x.toBits >>> 63 == 1) = S
  have hm1 : (-1#11 : BitVec 11).toNat = 2047 := rfl
  have hz11 : (0#11 : BitVec 11).toNat = 0 := rfl
  have hz52 : (0#52 : BitVec 52).toNat = 0 := rfl
  have hbias : (Float.Model.Format.binary64.exponentBias : Int) = 1023 := rfl
  simp only [hm1, hz11, hz52, hbias]
  -- the exponent field picks the kind: all ones, all zeros (subnormal or zero), or normal
  by_cases hinf : E = 2047
  · subst hinf
    by_cases hF0 : (x.toBits &&& 4503599627370495).toNat = 0 <;>
      simp [hF0, Decoded.unpacked, -UInt64.toNat_and]
  · by_cases hsub : E = 0
    · subst hsub
      by_cases hF0 : (x.toBits &&& 4503599627370495).toNat = 0 <;>
        simp [hF0, Decoded.unpacked, Binary.ofFields, -UInt64.toNat_and]
    · simp [hinf, hsub, Decoded.unpacked, Binary.ofFields]

/-! ## Canonical magnitudes -/

/-- The magnitudes that bits decode to: a mantissa of at most 53 bits, with the leading one in
place unless the exponent is the least one, and an exponent in the finite range. -/
structure Binary.Canonical (b : Binary) : Prop where
  m_lt : b.m < 2 ^ 53
  q_ge : -1074 ≤ b.q
  q_le : b.q ≤ 971
  normal : 2 ^ 52 ≤ b.m ∨ b.q = -1074

theorem decode_canonical {x : Float} {neg : Bool} {b : Binary} (h : decode x = .finite neg b) :
    b.Canonical := by
  unfold decode fields at h
  have hE : ((x.toBits >>> 52) &&& 0x7FF).toNat < 2048 := by
    rw [UInt64.toNat_and]
    exact Nat.lt_of_le_of_lt Nat.and_le_right (by decide)
  have hF : (x.toBits &&& 0xFFFFFFFFFFFFF).toNat < 2 ^ 52 := by
    rw [UInt64.toNat_and]
    exact Nat.lt_of_le_of_lt Nat.and_le_right (by decide)
  generalize ((x.toBits >>> 52) &&& 0x7FF).toNat = E at hE h
  generalize (x.toBits &&& 0xFFFFFFFFFFFFF).toNat = F at hF h
  simp only at h
  split at h
  · split at h <;> cases h
  · cases h
    unfold Binary.ofFields
    split
    · exact ⟨by simp only; omega, by simp, by simp, Or.inr rfl⟩
    · rename_i hE2047 hE0
      simp only [beq_iff_eq] at hE2047 hE0
      exact ⟨by simp only [Nat.pow_eq]; omega, by simp only; omega, by simp only; omega,
        Or.inl (by simp only [Nat.pow_eq]; omega)⟩

theorem Binary.toRat_pos {b : Binary} (hm : b.m ≠ 0) : 0 < b.toRat := by
  unfold Binary.toRat
  have : (0 : ℚ) < b.m := by exact_mod_cast Nat.pos_of_ne_zero hm
  positivity

theorem Binary.toRat_zero {b : Binary} (hm : b.m = 0) : b.toRat = 0 := by
  simp [Binary.toRat, hm]

/-- Of two magnitudes, the one with the smaller exponent is the smaller: a mantissa has at most 53
bits, and the other, with a larger exponent, has its leading one in place. -/
theorem Binary.toRat_lt_of_q_lt {b c : Binary} (hb : b.Canonical) (hc : c.Canonical)
    (hq : b.q < c.q) : b.toRat < c.toRat := by
  have hcm : 2 ^ 52 ≤ c.m := by
    rcases hc.normal with h | h
    · exact h
    · have := hb.q_ge
      omega
  have hb53 : (b.m : ℚ) < 2 ^ 53 := by exact_mod_cast hb.m_lt
  have hc52 : (2 : ℚ) ^ 52 ≤ c.m := by exact_mod_cast hcm
  have hpow : (2 : ℚ) ^ (b.q + 1) ≤ 2 ^ c.q := zpow_le_zpow_right₀ (by norm_num) (by omega)
  unfold Binary.toRat
  calc (b.m : ℚ) * 2 ^ b.q < 2 ^ 53 * 2 ^ b.q := by gcongr
    _ = 2 ^ 52 * 2 ^ (b.q + 1) := by rw [zpow_add₀ (by norm_num)]; ring
    _ ≤ c.m * 2 ^ c.q := by gcongr

theorem compares_scale {o : Ordering} {m n : Nat} (h : o.Compares m n) (q : ℤ) :
    o.Compares ((m : ℚ) * 2 ^ q) ((n : ℚ) * 2 ^ q) := by
  have hpos : (0 : ℚ) < 2 ^ q := zpow_pos (by norm_num) q
  cases o
  case lt => exact mul_lt_mul_of_pos_right (by exact_mod_cast h) hpos
  case eq => exact congrArg (fun k : ℕ => (k : ℚ) * 2 ^ q) h
  case gt => exact mul_lt_mul_of_pos_right (by exact_mod_cast h) hpos

theorem compares_neg {o : Ordering} {p q : ℚ} (h : o.Compares p q) : o.Compares (-q) (-p) := by
  cases o
  case lt => exact neg_lt_neg h
  case eq => exact congrArg Neg.neg h.symm
  case gt => exact neg_lt_neg h

/-- Two magnitudes compare as the model compares them: exponents first, then mantissas. -/
theorem Binary.compares {b c : Binary} (hb : b.Canonical) (hc : c.Canonical) :
    ((compare b.q c.q).then (compare b.m c.m)).Compares b.toRat c.toRat := by
  rcases lt_trichotomy b.q c.q with hq | hq | hq
  · rw [compare_lt_iff_lt.2 hq]
    exact Binary.toRat_lt_of_q_lt hb hc hq
  · rw [compare_eq_iff_eq.2 hq, Ordering.eq_then]
    unfold Binary.toRat
    rw [hq]
    exact compares_scale ((compare_iff _ _).1 rfl) c.q
  · rw [compare_gt_iff_gt.2 hq]
    exact Binary.toRat_lt_of_q_lt hc hb hq

/-! ## Values and their comparison -/

def Binary.signed (neg : Bool) (b : Binary) : ℚ := if neg then -b.toRat else b.toRat

/-- Where a decoded float stands among the rationals with both ends added; NaN stands nowhere. -/
def Decoded.value : Decoded → Option (WithBot (WithTop ℚ))
  | .nan => none
  | .infinite neg => some (if neg then ⊥ else ⊤)
  | .finite neg b => some ((b.signed neg : WithTop ℚ) : WithBot (WithTop ℚ))

/-- A decoded float whose magnitude, if it has one, is canonical. -/
def Decoded.Canonical : Decoded → Prop
  | .finite _ b => b.Canonical
  | _ => True

theorem canonical_decode (x : Float) : (decode x).Canonical := by
  cases h : decode x with
  | finite neg b => exact decode_canonical h
  | nan | infinite _ => trivial

theorem coe_lt_top (q : ℚ) : ((q : WithTop ℚ) : WithBot (WithTop ℚ)) < ⊤ :=
  WithBot.coe_lt_coe.2 (WithTop.coe_lt_top q)

theorem compares_coe {o : Ordering} {p q : ℚ} :
    o.Compares (((p : WithTop ℚ) : WithBot (WithTop ℚ))) ((q : WithTop ℚ) : WithBot (WithTop ℚ)) ↔
      o.Compares p q := by
  cases o <;> simp [Ordering.Compares]

/-- Two finite floats compare as their signed magnitudes: zeros of either sign are equal, the
signs decide between a negative and a positive, and the magnitudes between two of one sign. -/
theorem Decoded.compare_finite {s t : Bool} {b c : Binary} (hb : b.Canonical) (hc : c.Canonical) :
    ∃ o, (Decoded.finite s b).unpacked.compare (Decoded.finite t c).unpacked = some o ∧
      o.Compares (b.signed s) (c.signed t) := by
  by_cases hb0 : b.m = 0 <;> by_cases hc0 : c.m = 0
  · rw [Decoded.unpacked_zero hb0, Decoded.unpacked_zero hc0]
    refine ⟨.eq, rfl, ?_⟩
    simp [Ordering.Compares, Binary.signed, Binary.toRat_zero hb0, Binary.toRat_zero hc0]
  · rw [Decoded.unpacked_zero hb0, Decoded.unpacked_nonzero hc0]
    have := Binary.toRat_pos hc0
    cases t <;> refine ⟨_, rfl, ?_⟩ <;>
      simp [Ordering.Compares, Binary.signed, Binary.toRat_zero hb0, this]
  · rw [Decoded.unpacked_nonzero hb0, Decoded.unpacked_zero hc0]
    have := Binary.toRat_pos hb0
    cases s <;> refine ⟨_, rfl, ?_⟩ <;>
      simp [Ordering.Compares, Binary.signed, Binary.toRat_zero hc0, this]
  · rw [Decoded.unpacked_nonzero hb0, Decoded.unpacked_nonzero hc0]
    have hbpos := Binary.toRat_pos hb0
    have hcpos := Binary.toRat_pos hc0
    cases s <;> cases t
    · exact ⟨_, rfl, Binary.compares hb hc⟩
    · refine ⟨_, rfl, ?_⟩
      simp only [Ordering.Compares, Binary.signed, Bool.false_eq_true, ↓reduceIte]
      linarith
    · refine ⟨_, rfl, ?_⟩
      simp only [Ordering.Compares, Binary.signed, Bool.false_eq_true, ↓reduceIte]
      linarith
    · -- two negatives: the model swaps the comparison of the magnitudes
      exact ⟨_, rfl, Ordering.compares_swap.2 (compares_neg (Binary.compares hb hc))⟩

/-- An infinity is compared with a float that is not NaN by its sign alone. -/
theorem Decoded.compare_infinite_left (s : Bool) {e : Decoded} {v : WithBot (WithTop ℚ)}
    (hv : e.value = some v) :
    ∃ o, (Decoded.infinite s).unpacked.compare e.unpacked = some o ∧
      o.Compares (if s then ⊥ else ⊤) v := by
  cases e with
  | nan => cases hv
  | infinite t =>
    simp only [Decoded.value, Option.some.injEq] at hv
    subst hv
    cases s <;> cases t
    · exact ⟨.eq, rfl, rfl⟩
    · exact ⟨.gt, rfl, WithBot.bot_lt_coe _⟩
    · exact ⟨.lt, rfl, WithBot.bot_lt_coe _⟩
    · exact ⟨.eq, rfl, rfl⟩
  | finite t c =>
    simp only [Decoded.value, Option.some.injEq] at hv
    subst hv
    by_cases hc : c.m = 0
    · rw [Decoded.unpacked_zero hc]
      cases s <;> refine ⟨_, rfl, ?_⟩ <;> simp [Ordering.Compares, coe_lt_top]
    · rw [Decoded.unpacked_nonzero hc]
      cases s <;> cases t <;> refine ⟨_, rfl, ?_⟩ <;> simp [Ordering.Compares, coe_lt_top]

/-- A finite float is compared with an infinity by the infinity's sign alone. -/
theorem Decoded.compare_infinite_right {s t : Bool} {b : Binary} :
    ∃ o, (Decoded.finite s b).unpacked.compare (Decoded.infinite t).unpacked = some o ∧
      o.Compares ((b.signed s : WithTop ℚ) : WithBot (WithTop ℚ)) (if t then ⊥ else ⊤) := by
  by_cases hb : b.m = 0
  · rw [Decoded.unpacked_zero hb]
    cases t <;> refine ⟨_, rfl, ?_⟩ <;> simp [Ordering.Compares, coe_lt_top]
  · rw [Decoded.unpacked_nonzero hb]
    cases s <;> cases t <;> refine ⟨_, rfl, ?_⟩ <;> simp [Ordering.Compares, coe_lt_top]

/-- Two decoded floats that are not NaN compare, in the model, as the values they stand for. -/
theorem Decoded.compare_unpacked {d e : Decoded} (hd : d.Canonical) (he : e.Canonical)
    {u v : WithBot (WithTop ℚ)} (hu : d.value = some u) (hv : e.value = some v) :
    ∃ o, d.unpacked.compare e.unpacked = some o ∧ o.Compares u v := by
  cases d with
  | nan => cases hu
  | infinite s =>
    simp only [Decoded.value, Option.some.injEq] at hu
    subst hu
    exact Decoded.compare_infinite_left s hv
  | finite s b =>
    simp only [Decoded.value, Option.some.injEq] at hu
    subst hu
    cases e with
    | nan => cases hv
    | infinite t =>
      simp only [Decoded.value, Option.some.injEq] at hv
      subst hv
      exact Decoded.compare_infinite_right
    | finite t c =>
      simp only [Decoded.value, Option.some.injEq] at hv
      subst hv
      obtain ⟨o, ho, hc⟩ := Decoded.compare_finite (t := t) (c := c) hd he
      exact ⟨o, ho, compares_coe.2 hc⟩

theorem Decoded.compare_unpacked_none {d e : Decoded} (h : d.value = none ∨ e.value = none) :
    d.unpacked.compare e.unpacked = none := by
  rcases h with h | h
  · cases d with
    | nan => rfl
    | infinite _ | finite _ _ => cases h
  · cases e with
    | nan =>
      cases d with
      | nan | infinite _ => rfl
      | finite s b =>
        by_cases hb : b.m = 0 <;>
          simp [Decoded.unpacked, hb, Float.Model.UnpackedFloat.compare]
    | infinite _ | finite _ _ => cases h

/-- Where a float stands among the rationals with both ends added; NaN stands nowhere. -/
def extended (x : Float) : Option (WithBot (WithTop ℚ)) := (decode x).value

/-- The comparison the float model makes of two floats: `none` when one is NaN, and otherwise the
order of the values they stand for. -/
theorem compare_toModel (x y : Float) :
    (∀ u v, extended x = some u → extended y = some v →
      ∃ o, x.toModel.unpack.compare y.toModel.unpack = some o ∧ o.Compares u v) ∧
    (extended x = none ∨ extended y = none → x.toModel.unpack.compare y.toModel.unpack = none) := by
  rw [unpack_toModel, unpack_toModel]
  exact ⟨fun _ _ hu hv => Decoded.compare_unpacked (canonical_decode x) (canonical_decode y) hu hv,
    Decoded.compare_unpacked_none⟩

/-- `<` on floats is the order of the values they stand for; NaN is below and above nothing. -/
theorem lt_iff_extended (x y : Float) :
    x < y ↔ ∃ u v, extended x = some u ∧ extended y = some v ∧ u < v := by
  have hlt : x < y ↔ (x.toModel.unpack.compare y.toModel.unpack == some .lt) = true := by
    show decide (_ = true) = true ↔ _
    rw [decide_eq_true_iff]
    rfl
  rw [hlt]
  cases hx : extended x with
  | none => simp [(compare_toModel x y).2 (.inl hx)]
  | some u =>
    cases hy : extended y with
    | none => simp [(compare_toModel x y).2 (.inr hy)]
    | some v =>
      obtain ⟨o, ho, hc⟩ := (compare_toModel x y).1 u v hx hy
      rw [ho]
      simp [hc.eq_lt]

/-- `≤` on floats is the order of the values they stand for; NaN is below and above nothing. -/
theorem le_iff_extended (x y : Float) :
    x ≤ y ↔ ∃ u v, extended x = some u ∧ extended y = some v ∧ u ≤ v := by
  have hle : x ≤ y ↔ (x.toModel.unpack.compare y.toModel.unpack).any (·.isLE) = true := by
    show decide (_ = true) = true ↔ _
    rw [decide_eq_true_iff]
    rfl
  rw [hle]
  cases hx : extended x with
  | none => simp [(compare_toModel x y).2 (.inl hx)]
  | some u =>
    cases hy : extended y with
    | none => simp [(compare_toModel x y).2 (.inr hy)]
    | some v =>
      obtain ⟨o, ho, hc⟩ := (compare_toModel x y).1 u v hx hy
      rw [ho]
      simp [Ordering.isLE_iff_ne_gt, hc.ne_gt]

end Arson.Number
