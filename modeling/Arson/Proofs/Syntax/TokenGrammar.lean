import Arson.Syntax.Lexer
/-!
# The token grammar

What reading a text as tokens should give, said without the lexer. `Lexeme` is the grammar of a
single token: a symbol, a comparison alone or followed by `=`, digits with an optional fraction,
a name (a keyword when the table spells one), or a quoted string. `Munch` reads a text left to
right: blanks are skipped, a comment runs from `#` up to a newline or the end, and each token is
the longest lexeme that starts where it stands. A token's line is one more than the newlines
before it, and its column one more than the characters since the last of them.

Every lexeme begins with a character of exactly one class (a symbol, a comparison, a quote, a
digit or a letter), and the lemmas at the end read off what a lexeme of each class is.
-/
namespace Arson.Syntax

/-- A character that separates tokens: a space, a tab, a carriage return or a newline. -/
def isSpacing (c : Char) : Bool := c = ' ' || c = '\t' || c = '\r' || c = '\n'

/-- The position of the character after the text `before`. -/
def positionAfter (before : List Char) : Cursor :=
  ⟨before.count '\n' + 1, (before.reverse.takeWhile (· ≠ '\n')).length + 1⟩

/-- The body of a string between its quotes, and the text it stands for: a backslash and the
character after it stand for that character's escape, and any other character but the quote
stands for itself. -/
inductive StringBody (q : Char) : List Char → List Char → Prop
  | nil : StringBody q [] []
  | plain {c : Char} {raw text : List Char} : c ≠ q → c ≠ '\\' → StringBody q raw text →
      StringBody q (c :: raw) (c :: text)
  | escape {e : Char} {raw text : List Char} : StringBody q raw text →
      StringBody q ('\\' :: e :: raw) (unescape e :: text)

/-- A run of one digit or more. -/
def IsDigits (ds : List Char) : Prop := ds ≠ [] ∧ ∀ d ∈ ds, d.isDigit

/-- The lexemes of the token grammar, each with the kind and the literal of its token. -/
inductive Lexeme (t : KeywordTable) : List Char → TokenKind → Literal → Prop
  | symbol {c : Char} {k : TokenKind} : symbolKind? c = some k → Lexeme t [c] k .empty
  | comparison {c : Char} {single double : TokenKind} :
      comparisonKinds? c = some (single, double) → Lexeme t [c] single .empty
  | comparisonEq {c : Char} {single double : TokenKind} :
      comparisonKinds? c = some (single, double) → Lexeme t [c, '='] double .empty
  | number {ds : List Char} : IsDigits ds → Lexeme t ds .number (.number (numberValue ds))
  | decimal {ds fs : List Char} : IsDigits ds → IsDigits fs →
      Lexeme t (ds ++ '.' :: fs) .number (.number (numberValue (ds ++ '.' :: fs)))
  | keyword {c : Char} {cs : List Char} {k : Keyword} : Text.isLetter c →
      (∀ d ∈ cs, isNameChar d) → t.keywordOf? (String.ofList (c :: cs)) = some k →
      Lexeme t (c :: cs) (.keyword k) .empty
  | identifier {c : Char} {cs : List Char} : Text.isLetter c → (∀ d ∈ cs, isNameChar d) →
      t.keywordOf? (String.ofList (c :: cs)) = none →
      Lexeme t (c :: cs) .identifier (.str (String.ofList (c :: cs)))
  | string {q : Char} {body text : List Char} : (q = '"' ∨ q = '\'') → StringBody q body text →
      Lexeme t (q :: body ++ [q]) .string (.str (String.ofList text))

/-- `lex` is a lexeme no shorter than any other that `lex ++ rest` begins with. -/
def Longest (t : KeywordTable) (lex rest : List Char) : Prop :=
  ∀ pre suf k lit, lex ++ rest = pre ++ suf → Lexeme t pre k lit → pre.length ≤ lex.length

/-- The token of a lexeme written after the text `before`. -/
def Token.ofLexeme (k : TokenKind) (lit : Literal) (lex before : List Char) : Token :=
  ⟨k, lit, String.ofList lex, (positionAfter before).line, (positionAfter before).column⟩

/-- Reading the text `cs`, which follows the text `before`, gives the tokens `toks`. -/
inductive Munch (t : KeywordTable) : List Char → List Char → List Token → Prop
  | done {before : List Char} : Munch t before [] []
  | spacing {before : List Char} {c : Char} {cs : List Char} {toks : List Token} :
      isSpacing c → Munch t (before ++ [c]) cs toks → Munch t before (c :: cs) toks
  | comment {before body rest : List Char} {toks : List Token} : '\n' ∉ body →
      (rest = [] ∨ rest.head? = some '\n') → Munch t (before ++ '#' :: body) rest toks →
      Munch t before ('#' :: body ++ rest) toks
  | token {before lex rest : List Char} {toks : List Token} {k : TokenKind} {lit : Literal} :
      Lexeme t lex k lit → Longest t lex rest → Munch t (before ++ lex) rest toks →
      Munch t before (lex ++ rest) (Token.ofLexeme k lit lex before :: toks)

/-! ## Positions -/

@[simp] theorem positionAfter_nil : positionAfter [] = ⟨1, 1⟩ := rfl

theorem Cursor.next_positionAfter (before : List Char) (c : Char) :
    (positionAfter before).next c = positionAfter (before ++ [c]) := by
  by_cases hc : c = '\n'
  · subst hc
    simp [Cursor.next, positionAfter]
  · simp [Cursor.next, positionAfter, hc]

theorem Cursor.skip_positionAfter (before cs : List Char) :
    (positionAfter before).skip cs = positionAfter (before ++ cs) := by
  induction cs generalizing before with
  | nil => simp [Cursor.skip]
  | cons c cs ih =>
    rw [Cursor.skip, List.foldl_cons, ← Cursor.skip, Cursor.next_positionAfter, ih,
      List.append_assoc, List.singleton_append]

/-! ## Strings -/

/-- A string body ends at the first quote that no backslash escapes, so two bodies that are both
followed by the quote are the same. -/
theorem StringBody.unique {q : Char} (hq : q ≠ '\\') {b₁ t₁ b₂ t₂ r₁ r₂ : List Char}
    (h₁ : StringBody q b₁ t₁) (h₂ : StringBody q b₂ t₂) (h : b₁ ++ q :: r₁ = b₂ ++ q :: r₂) :
    b₁ = b₂ ∧ t₁ = t₂ := by
  induction h₁ generalizing b₂ t₂ with
  | nil =>
    cases h₂ with
    | nil => exact ⟨rfl, rfl⟩
    | plain hc _ _ => exact absurd (List.cons.inj h).1.symm hc
    | escape _ => exact absurd (List.cons.inj h).1 hq
  | plain hc hb _ ih =>
    cases h₂ with
    | nil => exact absurd (List.cons.inj h).1 hc
    | plain _ _ h₂ =>
      obtain ⟨rfl, hrest⟩ := List.cons.inj h
      obtain ⟨rfl, rfl⟩ := ih h₂ hrest
      exact ⟨rfl, rfl⟩
    | escape _ => exact absurd (List.cons.inj h).1 hb
  | escape _ ih =>
    cases h₂ with
    | nil => exact absurd (List.cons.inj h).1.symm hq
    | plain _ hb _ => exact absurd (List.cons.inj h).1.symm hb
    | escape h₂ =>
      obtain ⟨-, he, hrest⟩ : _ ∧ _ ∧ _ := ⟨(List.cons.inj h).1, List.cons.inj (List.cons.inj h).2⟩
      subst he
      obtain ⟨rfl, rfl⟩ := ih h₂ hrest
      exact ⟨rfl, rfl⟩

/-! ## The first character of a lexeme -/

theorem symbolKind?_spec {c : Char} {k : TokenKind} (h : symbolKind? c = some k) :
    comparisonKinds? c = none ∧ c.isDigit = false ∧ Text.isLetter c = false ∧ c ≠ '"' ∧
      c ≠ '\'' := by
  unfold symbolKind? at h
  split at h <;> first | decide | cases h

theorem comparisonKinds?_spec {c : Char} {p : TokenKind × TokenKind}
    (h : comparisonKinds? c = some p) :
    symbolKind? c = none ∧ c.isDigit = false ∧ Text.isLetter c = false ∧ c ≠ '"' ∧
      c ≠ '\'' := by
  unfold comparisonKinds? at h
  split at h <;> first | decide | cases h

theorem quote_spec {q : Char} (hq : q = '"' ∨ q = '\'') :
    symbolKind? q = none ∧ comparisonKinds? q = none ∧ q.isDigit = false ∧
      Text.isLetter q = false := by
  rcases hq with rfl | rfl <;> decide

theorem digit_spec {c : Char} (h : c.isDigit) :
    symbolKind? c = none ∧ comparisonKinds? c = none ∧ c ≠ '"' ∧ c ≠ '\'' ∧
      Text.isLetter c = false := by
  refine ⟨?_, ?_, ?_, ?_, ?_⟩
  · cases hs : symbolKind? c with
    | none => rfl
    | some k => simp [(symbolKind?_spec hs).2.1] at h
  · cases hs : comparisonKinds? c with
    | none => rfl
    | some p => simp [(comparisonKinds?_spec hs).2.1] at h
  · rintro rfl
    cases h
  · rintro rfl
    cases h
  · -- the digits lie below the capital letters, among the first 128 characters
    have hd : (decide (c.val ≥ '0'.val) && decide (c.val ≤ '9'.val)) = true := h
    simp only [Bool.and_eq_true, decide_eq_true_eq, ge_iff_le, UInt32.le_iff_toNat_le] at hd
    simp at hd
    have hlt : c.toNat < 128 := by omega
    have halpha : c.isAlpha = false := by
      show (decide (c.val ≥ 'A'.val ∧ c.val ≤ 'Z'.val) ||
        (decide (c.val ≥ 'a'.val) && decide (c.val ≤ 'z'.val))) = false
      simp only [ge_iff_le, UInt32.le_iff_toNat_le]
      simp
      omega
    show (if c.toNat < 128 then c.isAlpha else Text.letters.contains c) = false
    rw [if_pos hlt, halpha]

theorem isSpacing_spec {c : Char} (h : isSpacing c ∨ c = '#') :
    symbolKind? c = none ∧ comparisonKinds? c = none ∧ c.isDigit = false ∧
      Text.isLetter c = false ∧ c ≠ '"' ∧ c ≠ '\'' := by
  simp only [isSpacing, Bool.or_eq_true, decide_eq_true_eq] at h
  rcases h with (((rfl | rfl) | rfl) | rfl) | rfl <;> decide

/-- Every lexeme begins with a symbol, a comparison, a quote, a digit or a letter. -/
theorem Lexeme.head {t : KeywordTable} {lex : List Char} {c : Char} {k : TokenKind}
    {lit : Literal} (h : Lexeme t lex k lit) (hc : lex.head? = some c) :
    symbolKind? c ≠ none ∨ comparisonKinds? c ≠ none ∨ (c = '"' ∨ c = '\'') ∨ c.isDigit ∨
      Text.isLetter c := by
  cases h with
  | symbol hs =>
    cases hc
    exact .inl (by simp [hs])
  | comparison hk =>
    cases hc
    exact .inr (.inl (by simp [hk]))
  | comparisonEq hk =>
    cases hc
    exact .inr (.inl (by simp [hk]))
  | number hd => exact .inr (.inr (.inr (.inl (hd.2 c (List.mem_of_head? hc)))))
  | decimal hd _ =>
    obtain ⟨d, ds, rfl⟩ := List.exists_cons_of_ne_nil hd.1
    cases hc
    exact .inr (.inr (.inr (.inl (hd.2 _ List.mem_cons_self))))
  | keyword hl _ _ =>
    cases hc
    exact .inr (.inr (.inr (.inr hl)))
  | identifier hl _ _ =>
    cases hc
    exact .inr (.inr (.inr (.inr hl)))
  | string hq _ =>
    cases hc
    exact .inr (.inr (.inl hq))

theorem IsDigits.head_isDigit {ds rest : List Char} {c : Char} (hd : IsDigits ds)
    (hc : (ds ++ rest).head? = some c) : c.isDigit := by
  obtain ⟨d, ds, rfl⟩ := List.exists_cons_of_ne_nil hd.1
  cases hc
  exact hd.2 _ List.mem_cons_self

section Classes

variable {t : KeywordTable} {lex : List Char} {c : Char} {k : TokenKind} {lit : Literal}

theorem Lexeme.ne_nil (h : Lexeme t lex k lit) : lex ≠ [] := by
  cases h with
  | number hd => exact hd.1
  | decimal hd _ => simp
  | string _ _ => simp
  | _ => simp

/-- A lexeme that begins with a symbol is that symbol alone. -/
theorem Lexeme.of_symbol {ks : TokenKind} (h : Lexeme t lex k lit) (hc : lex.head? = some c)
    (hs : symbolKind? c = some ks) : lex = [c] ∧ k = ks ∧ lit = .empty := by
  obtain ⟨hcmp, hdig, hlet, hq, hq'⟩ := symbolKind?_spec hs
  cases h with
  | symbol hk =>
    cases hc
    exact ⟨rfl, Option.some.inj (hk.symm.trans hs), rfl⟩
  | comparison hk | comparisonEq hk =>
    cases hc
    simp [hk] at hcmp
  | number hd => simp [hd.2 c (List.mem_of_head? hc)] at hdig
  | decimal hd _ => simp [hd.head_isDigit hc] at hdig
  | keyword hl _ _ | identifier hl _ _ =>
    cases hc
    simp [hl] at hlet
  | string hq'' _ =>
    cases hc
    rcases hq'' with rfl | rfl <;> contradiction

/-- A lexeme that begins with a comparison is it alone or followed by `=`. -/
theorem Lexeme.of_comparison {single double : TokenKind} (h : Lexeme t lex k lit)
    (hc : lex.head? = some c) (hk : comparisonKinds? c = some (single, double)) :
    (lex = [c] ∧ k = single ∨ lex = [c, '='] ∧ k = double) ∧ lit = .empty := by
  obtain ⟨hsym, hdig, hlet, hq, hq'⟩ := comparisonKinds?_spec hk
  cases h with
  | symbol hs =>
    cases hc
    simp [hs] at hsym
  | comparison hk' =>
    cases hc
    obtain ⟨rfl, -⟩ := Prod.mk.inj (Option.some.inj (hk'.symm.trans hk))
    exact ⟨.inl ⟨rfl, rfl⟩, rfl⟩
  | comparisonEq hk' =>
    cases hc
    obtain ⟨-, rfl⟩ := Prod.mk.inj (Option.some.inj (hk'.symm.trans hk))
    exact ⟨.inr ⟨rfl, rfl⟩, rfl⟩
  | number hd => simp [hd.2 c (List.mem_of_head? hc)] at hdig
  | decimal hd _ => simp [hd.head_isDigit hc] at hdig
  | keyword hl _ _ | identifier hl _ _ =>
    cases hc
    simp [hl] at hlet
  | string hq'' _ =>
    cases hc
    rcases hq'' with rfl | rfl <;> contradiction

/-- A lexeme that begins with a quote is a string. -/
theorem Lexeme.of_quote (h : Lexeme t lex k lit) (hc : lex.head? = some c)
    (hq : c = '"' ∨ c = '\'') :
    ∃ body text, lex = c :: body ++ [c] ∧ StringBody c body text ∧ k = .string ∧
      lit = .str (String.ofList text) := by
  obtain ⟨hsym, hcmp, hdig, hlet⟩ := quote_spec hq
  cases h with
  | symbol hs =>
    cases hc
    simp [hs] at hsym
  | comparison hk | comparisonEq hk =>
    cases hc
    simp [hk] at hcmp
  | number hd => simp [hd.2 c (List.mem_of_head? hc)] at hdig
  | decimal hd _ => simp [hd.head_isDigit hc] at hdig
  | keyword hl _ _ | identifier hl _ _ =>
    cases hc
    simp [hl] at hlet
  | string _ hb =>
    cases hc
    exact ⟨_, _, rfl, hb, rfl, rfl⟩

/-- A lexeme that begins with a digit is a number: digits, with a fraction or without. -/
theorem Lexeme.of_digit (h : Lexeme t lex k lit) (hc : lex.head? = some c) (hd : c.isDigit) :
    (IsDigits lex ∨ ∃ ds fs, lex = ds ++ '.' :: fs ∧ IsDigits ds ∧ IsDigits fs) ∧
      k = .number ∧ lit = .number (numberValue lex) := by
  obtain ⟨hsym, hcmp, hq, hq', hlet⟩ := digit_spec hd
  cases h with
  | symbol hs =>
    cases hc
    simp [hs] at hsym
  | comparison hk | comparisonEq hk =>
    cases hc
    simp [hk] at hcmp
  | number hds => exact ⟨.inl hds, rfl, rfl⟩
  | decimal hds hfs => exact ⟨.inr ⟨_, _, rfl, hds, hfs⟩, rfl, rfl⟩
  | keyword hl _ _ | identifier hl _ _ =>
    cases hc
    simp [hl] at hlet
  | string hq'' _ =>
    cases hc
    rcases hq'' with rfl | rfl <;> contradiction

/-- A lexeme that begins with a letter is a name: a keyword if the table spells one, and an
identifier otherwise. -/
theorem Lexeme.of_letter (h : Lexeme t lex k lit) (hc : lex.head? = some c)
    (hl : Text.isLetter c) :
    (∀ d ∈ lex.tail, isNameChar d) ∧
      ((∃ kw, t.keywordOf? (String.ofList lex) = some kw ∧ k = .keyword kw ∧ lit = .empty) ∨
        (t.keywordOf? (String.ofList lex) = none ∧ k = .identifier ∧
          lit = .str (String.ofList lex))) := by
  cases h with
  | symbol hs =>
    cases hc
    simp [(symbolKind?_spec hs).2.2.1] at hl
  | comparison hk | comparisonEq hk =>
    cases hc
    simp [(comparisonKinds?_spec hk).2.2.1] at hl
  | number hd => simp [(digit_spec (hd.2 c (List.mem_of_head? hc))).2.2.2.2] at hl
  | decimal hd _ => simp [(digit_spec (hd.head_isDigit hc)).2.2.2.2] at hl
  | keyword _ hcs hk => exact ⟨hcs, .inl ⟨_, hk, rfl, rfl⟩⟩
  | identifier _ hcs hk => exact ⟨hcs, .inr ⟨hk, rfl, rfl⟩⟩
  | string hq _ =>
    cases hc
    simp [(quote_spec hq).2.2.2] at hl

/-- No character a lexeme may begin with is a blank or starts a comment. -/
theorem not_gap_of_opens (h : symbolKind? c ≠ none ∨ comparisonKinds? c ≠ none ∨
    (c = '"' ∨ c = '\'') ∨ c.isDigit ∨ Text.isLetter c) : isSpacing c = false ∧ c ≠ '#' := by
  have hgap : ¬ (isSpacing c ∨ c = '#') := by
    intro hgap
    obtain ⟨hs, hk, hd, hl, hq, hq'⟩ := isSpacing_spec hgap
    rcases h with h | h | (h | h) | h | h
    · exact h hs
    · exact h hk
    · exact hq h
    · exact hq' h
    · rw [hd] at h
      cases h
    · rw [hl] at h
      cases h
  refine ⟨?_, fun hc => hgap (.inr hc)⟩
  cases hsp : isSpacing c
  · rfl
  · exact absurd (.inl hsp) hgap

theorem Lexeme.not_gap (h : Lexeme t lex k lit) (hc : lex.head? = some c) :
    isSpacing c = false ∧ c ≠ '#' :=
  not_gap_of_opens (h.head hc)

/-- A letter is of no other class. -/
theorem letter_spec (hl : Text.isLetter c) :
    symbolKind? c = none ∧ comparisonKinds? c = none ∧ ¬ (c = '"' ∨ c = '\'') ∧
      c.isDigit = false := by
  refine ⟨?_, ?_, fun hq => ?_, ?_⟩
  · cases hs : symbolKind? c with
    | none => rfl
    | some k => simp [(symbolKind?_spec hs).2.2.1] at hl
  · cases hk : comparisonKinds? c with
    | none => rfl
    | some p => simp [(comparisonKinds?_spec hk).2.2.1] at hl
  · simp [(quote_spec hq).2.2.2] at hl
  · cases hd : c.isDigit
    · rfl
    · simp [(digit_spec hd).2.2.2.2] at hl

/-- A lexeme has one kind and one literal. -/
theorem Lexeme.functional {k' : TokenKind} {lit' : Literal} (h : Lexeme t lex k lit)
    (h' : Lexeme t lex k' lit') : k = k' ∧ lit = lit' := by
  obtain ⟨c, cs, rfl⟩ := List.exists_cons_of_ne_nil h.ne_nil
  have hc : (c :: cs).head? = some c := rfl
  rcases h.head hc with hs | hk | hq | hd | hl
  · obtain ⟨ks, hs⟩ := Option.ne_none_iff_exists'.mp hs
    obtain ⟨-, rfl, rfl⟩ := h.of_symbol hc hs
    obtain ⟨-, rfl, rfl⟩ := h'.of_symbol hc hs
    exact ⟨rfl, rfl⟩
  · obtain ⟨⟨single, double⟩, hk⟩ := Option.ne_none_iff_exists'.mp hk
    obtain ⟨hshape, rfl⟩ := h.of_comparison hc hk
    obtain ⟨hshape', rfl⟩ := h'.of_comparison hc hk
    rcases hshape with ⟨hl, rfl⟩ | ⟨hl, rfl⟩ <;> rcases hshape' with ⟨hl', rfl⟩ | ⟨hl', rfl⟩
    · exact ⟨rfl, rfl⟩
    · simp [hl] at hl'
    · simp [hl] at hl'
    · exact ⟨rfl, rfl⟩
  · obtain ⟨body, text, hlex, hb, rfl, rfl⟩ := h.of_quote hc hq
    obtain ⟨body', text', hlex', hb', rfl, rfl⟩ := h'.of_quote hc hq
    have hq' : c ≠ '\\' := by rcases hq with rfl | rfl <;> decide
    have hsame : body ++ c :: [] = body' ++ c :: [] := by
      rw [List.cons_append] at hlex hlex'
      exact (List.cons.inj hlex).2.symm.trans (List.cons.inj hlex').2
    obtain ⟨-, rfl⟩ := hb.unique hq' hb' hsame
    exact ⟨rfl, rfl⟩
  · obtain ⟨-, rfl, rfl⟩ := h.of_digit hc hd
    obtain ⟨-, rfl, rfl⟩ := h'.of_digit hc hd
    exact ⟨rfl, rfl⟩
  · obtain ⟨-, hname⟩ := h.of_letter hc hl
    obtain ⟨-, hname'⟩ := h'.of_letter hc hl
    rcases hname with ⟨kw, hkw, rfl, rfl⟩ | ⟨hkw, rfl, rfl⟩ <;>
      rcases hname' with ⟨kw', hkw', rfl, rfl⟩ | ⟨hkw', rfl, rfl⟩
    · cases hkw.symm.trans hkw'
      exact ⟨rfl, rfl⟩
    · cases hkw.symm.trans hkw'
    · cases hkw.symm.trans hkw'
    · exact ⟨rfl, rfl⟩

theorem Lexeme.kind_ne_eof (h : Lexeme t lex k lit) : k ≠ .eof := by
  cases h with
  | symbol hs =>
    unfold symbolKind? at hs
    split at hs <;> (cases hs <;> decide)
  | comparison hk | comparisonEq hk =>
    unfold comparisonKinds? at hk
    split at hk <;> (cases hk <;> decide)
  | keyword => exact nofun
  | _ => decide

end Classes

theorem Munch.kind_ne_eof {t : KeywordTable} {before cs : List Char} {toks : List Token}
    (h : Munch t before cs toks) : ∀ tk ∈ toks, tk.kind ≠ .eof := by
  induction h with
  | done => simp
  | spacing _ _ ih => exact ih
  | comment _ _ _ ih => exact ih
  | token hl _ _ ih =>
    intro tk htk
    rcases List.mem_cons.mp htk with rfl | htk
    · exact hl.kind_ne_eof
    · exact ih tk htk

end Arson.Syntax
