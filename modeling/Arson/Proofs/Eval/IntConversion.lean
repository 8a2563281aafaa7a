import Arson.Proofs.Number.Rounding
import Arson.Eval.Conversion
/-!
# Converting values to integers

`int` accepts three kinds of value (`IntOf`). A finite number gives its truncation toward zero, a
boolean 0 or 1, and a text that is, after trimming blanks, an optional sign and one or more ASCII
digits (`SignedDigits`) gives the float nearest to the integer the digits denote
(`readInteger?_eq_some_iff`, `parseInt?_rounds`).

A number that is infinite is refused, but a text is not checked the same way: rounding a text of
digits whose value is at least `2^1024 - 2^970` gives an infinity, and `int` returns it
(`int_whole_or_text_overflow`, `int_of_four_hundred_nines`). Every other result stands for a whole
number.
-/
namespace Arson.Number

/-! ## Reading a signed run of digits -/

/-- `cs` is an optional sign, negative when `neg`, followed by the ASCII digits `ds`, at least
one. -/
inductive SignedDigits : List Char → Bool → List Char → Prop
  | plain {ds : List Char} : ds ≠ [] → (∀ c ∈ ds, c.isDigit) → SignedDigits ds false ds
  | plus {ds : List Char} : ds ≠ [] → (∀ c ∈ ds, c.isDigit) → SignedDigits ('+' :: ds) false ds
  | minus {ds : List Char} : ds ≠ [] → (∀ c ∈ ds, c.isDigit) → SignedDigits ('-' :: ds) true ds

theorem SignedDigits.digits {cs ds : List Char} {neg : Bool} (h : SignedDigits cs neg ds) :
    ds ≠ [] ∧ ∀ c ∈ ds, c.isDigit := by
  cases h <;> exact ⟨by assumption, by assumption⟩

theorem spanDigits_of_digits {ds : List Char} (hd : ∀ c ∈ ds, c.isDigit) :
    spanDigits ds = (ds, []) := by
  simp [spanDigits, List.takeWhile_eq_self_iff.2 hd, List.dropWhile_eq_nil_iff.2 hd]

/-- A run of digits is not one of the words the float grammar reads as a special value: each of
them has a letter. -/
theorem ofList_digits_ne {ds : List Char} (hd : ∀ c ∈ ds, c.isDigit) {w : String}
    (hw : ∃ c ∈ w.toList, c.isDigit = false) : String.ofList ds ≠ w := by
  rintro rfl
  obtain ⟨c, hc, hnd⟩ := hw
  rw [String.toList_ofList] at hc
  simp [hd c hc] at hnd

theorem toLower_of_isDigit {c : Char} (h : c.isDigit) : c.toLower = c := by
  have hn := Char.isDigit_iff_toNat.1 h
  unfold Char.toLower
  rw [dif_neg]
  rintro ⟨hA, -⟩
  have hA' : 'A'.toNat ≤ c.toNat := UInt32.le_iff_toNat_le.1 hA
  have h65 : 'A'.toNat = 65 := rfl
  have h57 : '9'.toNat = 57 := rfl
  omega

theorem readUnsigned?_digits {ds : List Char} (hne : ds ≠ []) (hd : ∀ c ∈ ds, c.isDigit) :
    readUnsigned? ds = some (ofDecimal (digitsValue ds) 0) := by
  unfold readUnsigned?
  rw [spanDigits_of_digits hd]
  simp [hne]

/-- The float grammar reads a signed run of digits as the decimal, negated after a minus: the
digits spell none of the special words. -/
theorem readFloat?_digits {cs ds : List Char} {neg : Bool} (h : SignedDigits cs neg ds) :
    readFloat? (String.ofList cs) =
      some (if neg then -ofDecimal (digitsValue ds) 0 else ofDecimal (digitsValue ds) 0) := by
  obtain ⟨hne, hd⟩ := h.digits
  have hword : String.ofList (ds.map Char.toLower) = String.ofList ds := by
    rw [List.map_congr_left (fun c hc => toLower_of_isDigit (hd c hc)), List.map_id']
  have hinf : (String.ofList ds == "inf") = false :=
    beq_eq_false_iff_ne.2 (ofList_digits_ne hd ⟨'i', by decide, by decide⟩)
  have hinfinity : (String.ofList ds == "infinity") = false :=
    beq_eq_false_iff_ne.2 (ofList_digits_ne hd ⟨'i', by decide, by decide⟩)
  have hnan : (String.ofList ds == "nan") = false :=
    beq_eq_false_iff_ne.2 (ofList_digits_ne hd ⟨'n', by decide, by decide⟩)
  unfold readFloat?
  rw [String.toList_ofList]
  cases h with
  | plain =>
    -- no sign: the first character is a digit
    simp only [Bool.false_eq_true, ↓reduceIte]
    split
    case h_1 => exact absurd (hd '+' List.mem_cons_self) (by decide)
    case h_2 => exact absurd (hd '-' List.mem_cons_self) (by decide)
    case h_3 => simp [hne, hword, hinf, hinfinity, hnan, readUnsigned?_digits hne hd]
  | plus => simp [hne, hword, hinf, hinfinity, hnan, readUnsigned?_digits hne hd]
  | minus => simp [hne, hword, hinf, hinfinity, hnan, readUnsigned?_digits hne hd]

/-- A signed run of digits is an integer, read as the decimal it denotes. -/
theorem readInteger?_signed {cs ds : List Char} {neg : Bool} (h : SignedDigits cs neg ds) :
    readInteger? (String.ofList cs) =
      some (if neg then -ofDecimal (digitsValue ds) 0 else ofDecimal (digitsValue ds) 0) := by
  obtain ⟨hne, hd⟩ := h.digits
  have hall : ds.all Char.isDigit := List.all_eq_true.2 hd
  unfold readInteger?
  rw [readFloat?_digits h, String.toList_ofList]
  cases h with
  | plain =>
    split
    case h_1 => exact absurd (hd '+' List.mem_cons_self) (by decide)
    case h_2 => exact absurd (hd '-' List.mem_cons_self) (by decide)
    case h_3 => simp [hne, hall]
  | plus => simp [hne, hall]
  | minus => simp [hne, hall]

theorem digits_of_guard {body : List Char} {y : Option Float} {x : Float}
    (h : (if (!body.isEmpty && body.all Char.isDigit) = true then y else none) = some x) :
    body ≠ [] ∧ ∀ c ∈ body, c.isDigit := by
  split at h
  case isTrue hc => simpa [List.all_eq_true] using hc
  case isFalse => cases h

/-- Only a signed run of digits is an integer. -/
theorem signedDigits_of_readInteger? {s : String} {x : Float} (h : readInteger? s = some x) :
    ∃ neg ds, SignedDigits s.toList neg ds := by
  unfold readInteger? at h
  generalize s.toList = cs at h ⊢
  split at h
  case h_1 r =>
    obtain ⟨hne, hd⟩ := digits_of_guard h
    exact ⟨false, r, .plus hne hd⟩
  case h_2 r =>
    obtain ⟨hne, hd⟩ := digits_of_guard h
    exact ⟨true, r, .minus hne hd⟩
  case h_3 =>
    obtain ⟨hne, hd⟩ := digits_of_guard h
    exact ⟨false, cs, .plain hne hd⟩

/-- The integers are the signed runs of digits, each read as its decimal with the sign. -/
theorem readInteger?_eq_some_iff (s : String) (x : Float) :
    readInteger? s = some x ↔ ∃ neg ds, SignedDigits s.toList neg ds ∧
      x = if neg then -ofDecimal (digitsValue ds) 0 else ofDecimal (digitsValue ds) 0 := by
  constructor
  · intro h
    obtain ⟨neg, ds, hs⟩ := signedDigits_of_readInteger? h
    have hread := readInteger?_signed hs
    rw [String.ofList_toList, h] at hread
    exact ⟨neg, ds, hs, Option.some.inj hread⟩
  · rintro ⟨neg, ds, hs, rfl⟩
    simpa only [String.ofList_toList] using readInteger?_signed hs

/-- A decimal with no exponent is converted as `Float.ofNat` converts it: the shortcut to the
infinity for more than 311 digits is taken only by numbers that round to it anyway. -/
theorem unpack_ofDecimal (N : Nat) :
    (ofDecimal N 0).toModel.unpack = (Float.ofNat N).toModel.unpack := by
  unfold ofDecimal
  split
  case isTrue h0 =>
    subst h0
    rfl
  case isFalse h0 =>
    have hlen := @Nat.length_toDigits_le_iff 10 N 311 (by decide) (by decide)
    have hpos : 0 < (Nat.toDigits 10 N).length := Nat.length_toDigits_pos
    dsimp only
    split
    case isTrue hwide =>
      -- at least `10^311`, beyond the largest float
      have hN : 2 ^ 1024 - 2 ^ 970 ≤ N := by
        have : 10 ^ 311 ≤ N := Nat.not_lt.1 (fun h => by omega)
        omega
      rw [(unpack_ofNat_rounded h0).2 hN]
      rfl
    case isFalse =>
      rw [if_neg (by omega)]
      rfl

theorem toRat_ofNat_of_lt {N : Nat} (hN : N < 2 ^ 53) : toRat? (Float.ofNat N) = some N := by
  by_cases h0 : N = 0
  · subst h0
    exact toRat_of_unpack_zero (s := .positive) rfl
  · rw [@toRat_of_unpack_finite _ false _ _ _ (unpack_ofNat h0 hN)]
    simp only [Binary.signed, Bool.false_eq_true, ↓reduceIte]
    exact congrArg some (Binary.ofNat_toRat N)

/-- The truncation of a finite float stands for the float's whole part toward zero. -/
theorem toRat_truncate {x : Float} {neg : Bool} {b : Binary} (hd : decode x = .finite neg b) :
    ∃ t : ℤ, truncInt? x = some t ∧ toRat? (truncate x) = some t := by
  obtain ⟨b', hd', hval⟩ := decode_truncate hd
  refine ⟨if neg then -(b.trunc : ℤ) else b.trunc, ?_, ?_⟩
  · simp only [truncInt?, toRat?, hd, Option.map_some]
    rw [towardZero_signed]
  · simp only [toRat?, hd', hval]
    split <;> simp

end Arson.Number

namespace Arson.Eval

open Arson.Number

theorem parseInt?_rounds {s : String} {x : Float} (h : parseInt? s = some x) :
    ∃ neg ds, SignedDigits (Text.trim s).toList neg ds ∧
      RoundsTo x (if neg then -(Nat.ofDigitChars 10 ds 0 : ℤ) else Nat.ofDigitChars 10 ds 0) := by
  obtain ⟨neg, ds, hs, rfl⟩ := (readInteger?_eq_some_iff _ _).1 h
  exact ⟨neg, ds, hs, roundsTo_of_unpack (unpack_ofDecimal _) neg⟩

theorem toInt_text {s : String} {x : Float} (h : parseInt? s = some x) :
    toInt (.str s) = .ok (.number x) := by
  unfold toInt
  simp only [h]

theorem int_text_overflow {s : String} {neg : Bool} {ds : List Char}
    (hs : SignedDigits (Text.trim s).toList neg ds)
    (hbig : 2 ^ 1024 - 2 ^ 970 ≤ Nat.ofDigitChars 10 ds 0) :
    ∃ x, toInt (.str s) = .ok (.number x) ∧ decode x = .infinite neg := by
  have hread := (readInteger?_eq_some_iff _ _).2 ⟨neg, ds, hs, rfl⟩
  refine ⟨_, toInt_text hread, ?_⟩
  exact (roundsTo_of_unpack (unpack_ofDecimal _) neg).infinite hbig

/-- What `int` gives for a value: for a finite number its truncation, which stands for the
number's whole part toward zero; for a boolean 0 or 1; and for a text that is, trimmed, a signed
run of digits, a float that rounds the integer the digits denote. -/
inductive IntOf : Value → Float → Prop
  | number {x : Float} {t : ℤ} : truncInt? x = some t → toRat? (truncate x) = some t →
      IntOf (.number x) (truncate x)
  | bool (b : Bool) : IntOf (.bool b) (if b then 1 else 0)
  | text {s : String} {neg : Bool} {ds : List Char} {x : Float} :
      SignedDigits (Text.trim s).toList neg ds →
      RoundsTo x (if neg then -(Nat.ofDigitChars 10 ds 0 : ℤ) else Nat.ofDigitChars 10 ds 0) →
      IntOf (.str s) x

/-- Whatever `int` returns is a number, the one `IntOf` describes for the value. -/
theorem toInt_intOf {v r : Value} (h : toInt v = .ok r) : ∃ x, r = .number x ∧ IntOf v x := by
  unfold toInt at h
  split at h
  case h_1 x =>
    split at h
    case isTrue hfin =>
      cases h
      unfold isFinite at hfin
      split at hfin
      case h_1 neg b hd =>
        obtain ⟨t, ht, hr⟩ := toRat_truncate hd
        exact ⟨_, rfl, .number ht hr⟩
      case h_2 => cases hfin
    case isFalse => cases h
  case h_2 s =>
    split at h
    case h_1 x hx =>
      cases h
      obtain ⟨neg, ds, hs, hr⟩ := parseInt?_rounds hx
      exact ⟨x, rfl, .text hs hr⟩
    case h_2 => cases h
  case h_3 b =>
    cases h
    exact ⟨_, rfl, .bool b⟩
  case h_4 => cases h

/-- `int` gives a whole number, with one exception: a digit text too large for a float reads as
an infinity, which `int` of a number would refuse. -/
theorem int_whole_or_text_overflow (v r : Value) (h : toInt v = .ok r) :
    ∃ x, r = .number x ∧ IntOf v x ∧
      ((∃ t : ℤ, toRat? x = some t) ∨
        ∃ s neg ds, v = .str s ∧ SignedDigits (Text.trim s).toList neg ds ∧
          2 ^ 1024 - 2 ^ 970 ≤ Nat.ofDigitChars 10 ds 0 ∧ decode x = .infinite neg) := by
  obtain ⟨x, rfl, hx⟩ := toInt_intOf h
  refine ⟨x, rfl, hx, ?_⟩
  cases hx with
  | number _ hr => exact .inl ⟨_, hr⟩
  | bool b =>
    left
    cases b
    · exact ⟨0, toRat_ofNat_of_lt (N := 0) (by decide)⟩
    · exact ⟨1, toRat_ofNat_of_lt (N := 1) (by decide)⟩
  | @text s neg ds x hs hr =>
    by_cases hN : Nat.ofDigitChars 10 ds 0 < 2 ^ 1024 - 2 ^ 970
    · exact .inl (hr.whole hN)
    · exact .inr ⟨s, neg, ds, rfl, hs, not_lt.1 hN, hr.infinite (not_lt.1 hN)⟩

/-- `int` of the text ` -42 `: the blanks trimmed, a sign and two digits. -/
theorem int_of_signed_digit_text :
    toInt (.str " -42 ") = .ok (.number (-42)) ∧
      ∃ x, Value.number (-42) = .number x ∧ IntOf (.str " -42 ") x ∧
        ((∃ t : ℤ, toRat? x = some t) ∨
          ∃ s neg ds, Value.str " -42 " = .str s ∧ SignedDigits (Text.trim s).toList neg ds ∧
            2 ^ 1024 - 2 ^ 970 ≤ Nat.ofDigitChars 10 ds 0 ∧ decode x = .infinite neg) := by
  have h : toInt (.str " -42 ") = .ok (.number (-42)) := by with_unfolding_all rfl
  exact ⟨h, int_whole_or_text_overflow _ _ h⟩

/-- Four hundred nines are read by `int` as the positive infinity. -/
theorem int_of_four_hundred_nines :
    ∃ x, toInt (.str (String.ofList (List.replicate 400 '9'))) = .ok (.number x) ∧
      decode x = .infinite false := by
  have hblank : Text.isBlank '9' = false := by
    simp [Text.isBlank, Text.CharClass.contains, Text.CharClass.searchCode, Text.blanks]
  have hdrop : (List.replicate 400 '9').dropWhile Text.isBlank = List.replicate 400 '9' := by
    rw [List.replicate_succ, List.dropWhile_cons_of_neg (by simp [hblank])]
  have htrim : (Text.trim (String.ofList (List.replicate 400 '9'))).toList =
      List.replicate 400 '9' := by
    unfold Text.trim
    simp only [String.toList_ofList]
    rw [hdrop, List.reverse_replicate, hdrop, List.reverse_replicate]
  have hs : SignedDigits (List.replicate 400 '9') false (List.replicate 400 '9') :=
    .plain (List.ne_nil_of_mem (List.mem_replicate.2 ⟨by decide, rfl⟩))
      (fun c hc => by rw [(List.mem_replicate.1 hc).2]; decide)
  have hbig : 2 ^ 1024 - 2 ^ 970 ≤ Nat.ofDigitChars 10 (List.replicate 400 '9') 0 := by
    decide +kernel
  have hs' : SignedDigits (Text.trim (String.ofList (List.replicate 400 '9'))).toList false
      (List.replicate 400 '9') := by
    rw [htrim]
    exact hs
  exact int_text_overflow hs' hbig

end Arson.Eval
