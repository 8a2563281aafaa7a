import Arson.Text.CharClass
/-!
# Code point order is byte order

Strings compare character by character, by code point; their UTF-8 encodings compare byte by
byte. The two orders agree. Where two characters have encodings of different lengths, the longer
one belongs to the larger code point and starts with a larger byte; where the lengths agree, the
encodings are the code points' base-64 digits behind fixed marks. Either way a larger code point
is written with a larger byte at the first place the two encodings differ, and neither encoding
begins the other, so the order survives whatever follows (`utf8EncodeChar_append_lt`) and carries
over to whole strings (`lt_iff_utf8Bytes_lt`).
-/
namespace Arson.Text

def utf8Bytes (s : String) : List UInt8 := s.toByteArray.data.toList

theorem utf8Bytes_eq_flatMap (s : String) :
    utf8Bytes s = s.toList.flatMap String.utf8EncodeChar := by
  conv => lhs; rw [← String.ofList_toList (s := s)]
  rw [utf8Bytes, String.toByteArray_ofList, List.utf8Encode, List.toList_data_toByteArray]

theorem lex_base64 {v w : Nat} (h : v < w) :
    v / 64 < w / 64 ∨ v / 64 = w / 64 ∧ v % 64 < w % 64 := by
  omega

theorem lex_base64_div {v w k : Nat} (h : v / k < w / k) :
    v / (k * 64) < w / (k * 64) ∨ v / (k * 64) = w / (k * 64) ∧ v / k % 64 < w / k % 64 := by
  have := lex_base64 h
  rwa [Nat.div_div_eq_div_mul, Nat.div_div_eq_div_mul] at this

/-- A smaller code point is encoded by a smaller byte at the first place the encodings differ,
before either ends. -/
theorem utf8EncodeChar_append_lt {c d : Char} (h : c < d) (r r' : List UInt8) :
    String.utf8EncodeChar c ++ r < String.utf8EncodeChar d ++ r' := by
  have hc := c.valid
  have hd := d.valid
  simp only [Nat.isValidChar, UInt32.isValidChar] at hc hd
  have hv : c.val.toNat < d.val.toNat := h
  -- the digits of the two code points, compared from the top: the quotients by 64, 4096, 262144
  have k1 := lex_base64 hv
  have k2 : c.val.toNat / 64 < d.val.toNat / 64 → _ := lex_base64_div (k := 64)
  have k3 : c.val.toNat / 4096 < d.val.toNat / 4096 → _ := lex_base64_div (k := 4096)
  simp only [Nat.reduceMul] at k2 k3
  simp only [String.utf8EncodeChar]
  repeat' split
  all_goals
    simp only [List.cons_append, List.nil_append, List.cons_lt_cons_iff, UInt8.lt_iff_toNat_lt,
      ← UInt8.toNat_inj, UInt8.toNat_ofNat'] <;>
    simp (disch := omega) only [Nat.mod_eq_of_lt] <;>
    omega

/-- Encoding keeps the order of lists of characters. -/
theorem flatMap_utf8EncodeChar_lt {l₁ l₂ : List Char} (h : l₁ < l₂) :
    l₁.flatMap String.utf8EncodeChar < l₂.flatMap String.utf8EncodeChar := by
  induction h with
  | nil =>
    rename_i b bs
    obtain ⟨x, xs, hx⟩ := List.exists_cons_of_ne_nil (String.utf8EncodeChar_ne_nil (c := b))
    simp only [List.flatMap_nil, List.flatMap_cons, hx, List.cons_append]
    exact List.Lex.nil
  | rel hab =>
    simp only [List.flatMap_cons]
    exact utf8EncodeChar_append_lt hab _ _
  | cons _ ih =>
    simp only [List.flatMap_cons]
    exact List.append_left_lt ih

/-- One string comes before another by code points exactly when its bytes come first. -/
theorem lt_iff_utf8Bytes_lt (s t : String) : s < t ↔ utf8Bytes s < utf8Bytes t := by
  rw [utf8Bytes_eq_flatMap, utf8Bytes_eq_flatMap]
  refine ⟨flatMap_utf8EncodeChar_lt, fun hb => ?_⟩
  -- otherwise `t ≤ s`: equal strings have equal bytes, and `t < s` puts the bytes the other way
  refine Classical.byContradiction fun hst => ?_
  by_cases heq : s = t
  · subst heq
    exact List.lt_irrefl _ hb
  · have hts : t < s := String.not_le.1 fun hle => heq (String.le_antisymm hle hst)
    exact List.lt_asymm hb (flatMap_utf8EncodeChar_lt hts)

end Arson.Text
