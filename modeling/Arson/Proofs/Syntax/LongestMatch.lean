import Arson.Proofs.Syntax.TokenGrammar
import Mathlib.Data.List.TakeWhile
/-!
# The lexer reads the longest lexeme

`tokenize` is the reference reading `Munch` of the token grammar: when it succeeds, its tokens
are what `Munch` reads from the text, followed by one end mark (`tokenize_sound`), and whatever
`Munch` reads, `tokenize` gives (`tokenize_complete`).

One scan looks at the first character and takes a blank, a comment, or the longest lexeme that
starts there; `scanOne_spec` says this once, from one equation per branch of the scan and one
lemma per class of first character. The two directions are then inductions over the scans and
over `Munch`.
-/
namespace Arson.Syntax

/-! ## Lists -/

section Lists

variable {α : Type} {p : α → Bool}

theorem takeWhile_append_stop {xs ys : List α} (hall : ∀ x ∈ xs, p x)
    (hstop : ∀ y, ys.head? = some y → p y = false) : (xs ++ ys).takeWhile p = xs := by
  rw [List.takeWhile_append_of_pos hall]
  cases ys with
  | nil => simp
  | cons y ys => simp [hstop y rfl]

theorem dropWhile_append_stop {xs ys : List α} (hall : ∀ x ∈ xs, p x)
    (hstop : ∀ y, ys.head? = some y → p y = false) : (xs ++ ys).dropWhile p = ys := by
  rw [List.dropWhile_append_of_pos hall]
  cases ys with
  | nil => rfl
  | cons y ys => simp [hstop y rfl]

theorem length_le_takeWhile : ∀ {xs ys : List α}, (∀ x ∈ xs, p x) → xs <+: ys →
    xs.length ≤ (ys.takeWhile p).length
  | [], _, _, _ => Nat.zero_le _
  | x :: xs, _, hall, ⟨rest, rfl⟩ => by
    rw [List.cons_append, List.takeWhile_cons_of_pos (hall x List.mem_cons_self),
      List.length_cons, List.length_cons]
    exact Nat.succ_le_succ
      (length_le_takeWhile (fun y hy => hall y (List.mem_cons_of_mem x hy)) ⟨rest, rfl⟩)

theorem drop_length_takeWhile (l : List α) : l.drop (l.takeWhile p).length = l.dropWhile p := by
  have h : l.takeWhile p ++ l.dropWhile p = l := List.takeWhile_append_dropWhile
  calc l.drop (l.takeWhile p).length
      = (l.takeWhile p ++ l.dropWhile p).drop (l.takeWhile p).length := by rw [h]
    _ = l.dropWhile p := List.drop_left

theorem head_dropWhile_eq {l ds : List α} {d : α} (h : l.dropWhile p = d :: ds) : p d = false := by
  induction l with
  | nil => cases h
  | cons x xs ih =>
    by_cases hx : p x
    · rw [List.dropWhile_cons_of_pos hx] at h
      exact ih h
    · rw [List.dropWhile_cons_of_neg hx] at h
      cases h
      simpa using hx

theorem eq_of_prefix_of_length_eq {xs ys zs : List α} (hx : xs <+: zs) (hy : ys <+: zs)
    (hlen : xs.length = ys.length) : xs = ys := by
  rw [List.prefix_iff_eq_take.mp hx, List.prefix_iff_eq_take.mp hy, hlen]

theorem head?_of_append_eq {c : α} {cs pre suf : List α} (h : c :: cs = pre ++ suf)
    (hne : pre ≠ []) : pre.head? = some c := by
  obtain ⟨d, ds, rfl⟩ := List.exists_cons_of_ne_nil hne
  cases h
  rfl

end Lists

/-! ## One scan, branch by branch -/

section Scan

variable {t : KeywordTable} {c : Char} {rest : List Char} {p : Cursor}

theorem scanOne_spacing (h : isSpacing c) : scanOne t c rest p = .ok (none, []) := by
  unfold isSpacing at h
  simp only [scanOne, h, if_true]

theorem scanOne_comment : scanOne t '#' rest p = .ok (none, rest.takeWhile (· ≠ '\n')) := by
  simp only [scanOne]
  rfl

theorem scanOne_symbol {k : TokenKind} (hs : symbolKind? c = some k) :
    scanOne t c rest p = .ok (some ⟨k, .empty, String.ofList [c], p.line, p.column⟩, []) := by
  obtain ⟨hsp, hc⟩ := (Lexeme.symbol hs : Lexeme t [c] k .empty).not_gap rfl
  unfold isSpacing at hsp
  simp only [scanOne, hsp, hc, hs, Bool.false_eq_true, if_false]

theorem scanOne_comparisonEq {single double : TokenKind} {r : List Char}
    (hk : comparisonKinds? c = some (single, double)) :
    scanOne t c ('=' :: r) p =
      .ok (some ⟨double, .empty, String.ofList [c, '='], p.line, p.column⟩, ['=']) := by
  obtain ⟨hsp, hc⟩ := (Lexeme.comparison hk : Lexeme t [c] single .empty).not_gap rfl
  unfold isSpacing at hsp
  simp only [scanOne, hsp, hc, (comparisonKinds?_spec hk).1, hk, Bool.false_eq_true, if_false]

theorem scanOne_comparison {single double : TokenKind}
    (hk : comparisonKinds? c = some (single, double)) (hr : ∀ r, rest ≠ '=' :: r) :
    scanOne t c rest p =
      .ok (some ⟨single, .empty, String.ofList [c], p.line, p.column⟩, []) := by
  obtain ⟨hsp, hc⟩ := (Lexeme.comparison hk : Lexeme t [c] single .empty).not_gap rfl
  unfold isSpacing at hsp
  simp only [scanOne, hsp, hc, (comparisonKinds?_spec hk).1, hk, Bool.false_eq_true, if_false]

theorem scanOne_string {text raw : List Char} (hq : c = '"' ∨ c = '\'')
    (hb : stringBody c rest = some (text, raw)) :
    scanOne t c rest p = .ok (some ⟨.string, .str (String.ofList text), String.ofList (c :: raw),
      p.line, p.column⟩, raw) := by
  obtain ⟨hsym, hcmp, -, -⟩ := quote_spec hq
  obtain ⟨hsp, hc⟩ := not_gap_of_opens (.inr (.inr (.inl hq)))
  have hq' : (c = '"' || c = '\'') = true := by simpa using hq
  unfold isSpacing at hsp
  simp only [scanOne, hsp, hc, hsym, hcmp, hq', hb, Bool.false_eq_true, if_false, if_true]

theorem scanOne_unterminated (hq : c = '"' ∨ c = '\'') (hb : stringBody c rest = none) :
    scanOne t c rest p = .error (.unterminated p) := by
  obtain ⟨hsym, hcmp, -, -⟩ := quote_spec hq
  obtain ⟨hsp, hc⟩ := not_gap_of_opens (.inr (.inr (.inl hq)))
  have hq' : (c = '"' || c = '\'') = true := by simpa using hq
  unfold isSpacing at hsp
  simp only [scanOne, hsp, hc, hsym, hcmp, hq', hb, Bool.false_eq_true, if_false, if_true]

theorem scanOne_number (hd : c.isDigit) :
    scanOne t c rest p = .ok (some ⟨.number, .number (numberValue (c :: numberTail rest)),
      String.ofList (c :: numberTail rest), p.line, p.column⟩, numberTail rest) := by
  obtain ⟨hsym, hcmp, hq, hq', -⟩ := digit_spec hd
  obtain ⟨hsp, hc⟩ := not_gap_of_opens (.inr (.inr (.inr (.inl hd))))
  have hquote : (c = '"' || c = '\'') = false := by simpa using ⟨hq, hq'⟩
  unfold isSpacing at hsp
  simp only [scanOne, hsp, hc, hsym, hcmp, hquote, hd, Bool.false_eq_true, if_false, if_true]

theorem scanOne_keyword {k : Keyword} (hl : Text.isLetter c)
    (hk : t.keywordOf? (String.ofList (c :: rest.takeWhile isNameChar)) = some k) :
    scanOne t c rest p = .ok (some ⟨.keyword k, .empty,
      String.ofList (c :: rest.takeWhile isNameChar), p.line, p.column⟩,
      rest.takeWhile isNameChar) := by
  obtain ⟨hsym, hcmp, hq, hd⟩ := letter_spec hl
  obtain ⟨hsp, hc⟩ := not_gap_of_opens (.inr (.inr (.inr (.inr hl))))
  have hquote : (c = '"' || c = '\'') = false := by simpa using hq
  unfold isSpacing at hsp
  simp only [scanOne, hsp, hc, hsym, hcmp, hquote, hd, hl, hk, Bool.false_eq_true, if_false,
    if_true]

theorem scanOne_identifier (hl : Text.isLetter c)
    (hk : t.keywordOf? (String.ofList (c :: rest.takeWhile isNameChar)) = none) :
    scanOne t c rest p = .ok (some ⟨.identifier, .str (String.ofList (c :: rest.takeWhile isNameChar)),
      String.ofList (c :: rest.takeWhile isNameChar), p.line, p.column⟩,
      rest.takeWhile isNameChar) := by
  obtain ⟨hsym, hcmp, hq, hd⟩ := letter_spec hl
  obtain ⟨hsp, hc⟩ := not_gap_of_opens (.inr (.inr (.inr (.inr hl))))
  have hquote : (c = '"' || c = '\'') = false := by simpa using hq
  unfold isSpacing at hsp
  simp only [scanOne, hsp, hc, hsym, hcmp, hquote, hd, hl, hk, Bool.false_eq_true, if_false,
    if_true]

theorem scanOne_unexpected (hsp : isSpacing c = false) (hc : c ≠ '#')
    (hsym : symbolKind? c = none) (hcmp : comparisonKinds? c = none)
    (hq : ¬ (c = '"' ∨ c = '\'')) (hd : c.isDigit = false) (hl : Text.isLetter c = false) :
    scanOne t c rest p = .error (.unexpected c p) := by
  have hquote : (c = '"' || c = '\'') = false := by simpa using hq
  unfold isSpacing at hsp
  simp only [scanOne, hsp, hc, hsym, hcmp, hquote, hd, hl, Bool.false_eq_true, if_false]

end Scan

/-! ## Strings -/

section Strings

variable {q : Char}

/-- What `stringBody` reads is a string body and its closing quote, at the start of the text. -/
theorem stringBody_sound {cs text raw : List Char} (h : stringBody q cs = some (text, raw)) :
    ∃ body, raw = body ++ [q] ∧ StringBody q body text ∧ raw <+: cs := by
  fun_induction stringBody q cs generalizing text raw with
  | case1 => cases h
  | case2 rest =>
    obtain ⟨rfl, rfl⟩ := Prod.mk.inj (Option.some.inj h).symm
    exact ⟨[], rfl, .nil, ⟨rest, rfl⟩⟩
  | case3 => cases h
  | case4 e rest _ ih =>
    obtain ⟨⟨text', raw'⟩, h', heq⟩ := Option.map_eq_some_iff.mp h
    obtain ⟨rfl, rfl⟩ := Prod.mk.inj heq
    obtain ⟨body, rfl, hb, r, hr⟩ := ih h'
    exact ⟨'\\' :: e :: body, rfl, .escape hb, r, by rw [← hr]; rfl⟩
  | case5 c rest hcq hcb ih =>
    obtain ⟨⟨text', raw'⟩, h', heq⟩ := Option.map_eq_some_iff.mp h
    obtain ⟨rfl, rfl⟩ := Prod.mk.inj heq
    obtain ⟨body, rfl, hb, r, hr⟩ := ih h'
    exact ⟨c :: body, rfl, .plain hcq hcb hb, r, by rw [← hr]; rfl⟩

/-- A string body followed by its quote is read by `stringBody`, whatever follows. -/
theorem stringBody_complete (hq : q ≠ '\\') {body text : List Char} (hb : StringBody q body text)
    (r : List Char) : stringBody q (body ++ q :: r) = some (text, body ++ [q]) := by
  induction hb with
  | nil =>
    rw [List.nil_append, stringBody.eq_def]
    simp
  | plain hc hcb _ ih =>
    rw [List.cons_append, stringBody.eq_def]
    simp [hc, hcb, ih]
  | escape _ ih =>
    rw [List.cons_append, List.cons_append, stringBody.eq_def]
    simp [Ne.symm hq, ih]

end Strings

/-! ## The longest lexeme at each class of first character -/

section Bounds

variable {t : KeywordTable} {c : Char} {rest : List Char}

/-- Every lexeme that `c :: rest` begins with is at most `n` long. -/
def LexemesAtMost (t : KeywordTable) (cs : List Char) (n : Nat) : Prop :=
  ∀ pre suf k lit, cs = pre ++ suf → Lexeme t pre k lit → pre.length ≤ n

theorem longest_of_atMost {taken : List Char} (hpre : taken <+: rest)
    (h : LexemesAtMost t (c :: rest) (taken.length + 1)) :
    Longest t (c :: taken) (rest.drop taken.length) := by
  obtain ⟨r, rfl⟩ := hpre
  intro pre suf k lit heq hl
  rw [List.drop_left] at heq
  exact h pre suf k lit heq hl

theorem atMost_symbol {k : TokenKind} (hs : symbolKind? c = some k) :
    LexemesAtMost t (c :: rest) 1 := by
  intro pre suf k' lit heq hl
  obtain ⟨rfl, -, -⟩ := hl.of_symbol (head?_of_append_eq heq hl.ne_nil) hs
  exact Nat.le_refl _

theorem atMost_comparison {single double : TokenKind}
    (hk : comparisonKinds? c = some (single, double)) : LexemesAtMost t (c :: rest) 2 := by
  intro pre suf k lit heq hl
  obtain ⟨⟨rfl, -⟩ | ⟨rfl, -⟩, -⟩ := hl.of_comparison (head?_of_append_eq heq hl.ne_nil) hk
  · simp
  · exact Nat.le_refl _

theorem atMost_comparison_alone {single double : TokenKind}
    (hk : comparisonKinds? c = some (single, double)) (hr : ∀ r, rest ≠ '=' :: r) :
    LexemesAtMost t (c :: rest) 1 := by
  intro pre suf k lit heq hl
  obtain ⟨⟨rfl, -⟩ | ⟨rfl, -⟩, -⟩ := hl.of_comparison (head?_of_append_eq heq hl.ne_nil) hk
  · exact Nat.le_refl _
  · exact absurd (List.cons.inj heq).2 (hr suf)

theorem atMost_string {text raw : List Char} (hq : c = '"' ∨ c = '\'')
    (hb : stringBody c rest = some (text, raw)) : LexemesAtMost t (c :: rest) (raw.length + 1) := by
  have hqb : c ≠ '\\' := by rcases hq with rfl | rfl <;> decide
  obtain ⟨body, rfl, hbody, r, hr⟩ := stringBody_sound hb
  intro pre suf k lit heq hl
  obtain ⟨body', text', rfl, hbody', -, -⟩ := hl.of_quote (head?_of_append_eq heq hl.ne_nil) hq
  have hrest : rest = body' ++ c :: suf := by simpa using heq
  have hsame : body ++ c :: r = body' ++ c :: suf := by
    rw [← hrest, ← hr]
    simp
  obtain ⟨rfl, -⟩ := hbody.unique hqb hbody' hsame
  simp

/-- Where the closing quote is missing, no lexeme starts at the opening one. -/
theorem no_lexeme_unterminated (hq : c = '"' ∨ c = '\'') (hb : stringBody c rest = none) :
    ∀ pre suf k lit, c :: rest = pre ++ suf → ¬ Lexeme t pre k lit := by
  have hqb : c ≠ '\\' := by rcases hq with rfl | rfl <;> decide
  intro pre suf k lit heq hl
  obtain ⟨body, text, rfl, hbody, -, -⟩ := hl.of_quote (head?_of_append_eq heq hl.ne_nil) hq
  have hrest : rest = body ++ c :: suf := by simpa using heq
  rw [hrest, stringBody_complete hqb hbody suf] at hb
  cases hb

theorem atMost_name (hl : Text.isLetter c) :
    LexemesAtMost t (c :: rest) ((rest.takeWhile isNameChar).length + 1) := by
  intro pre suf k lit heq hlex
  obtain ⟨cs, rfl⟩ : ∃ cs, pre = c :: cs := by
    obtain ⟨d, cs, rfl⟩ := List.exists_cons_of_ne_nil hlex.ne_nil
    exact ⟨cs, (List.cons.inj heq).1.symm ▸ rfl⟩
  obtain ⟨hname, -⟩ := hlex.of_letter rfl hl
  have hcs : cs.length ≤ (rest.takeWhile isNameChar).length :=
    length_le_takeWhile hname ⟨suf, (List.cons.inj heq).2.symm⟩
  simpa using hcs

/-- A character of no class begins no lexeme. -/
theorem no_lexeme_unexpected (hsym : symbolKind? c = none) (hcmp : comparisonKinds? c = none)
    (hq : ¬ (c = '"' ∨ c = '\'')) (hd : c.isDigit = false) (hl : Text.isLetter c = false) :
    ∀ pre suf k lit, c :: rest = pre ++ suf → ¬ Lexeme t pre k lit := by
  intro pre suf k lit heq hlex
  rcases hlex.head (head?_of_append_eq heq hlex.ne_nil) with h | h | h | h | h
  · exact h hsym
  · exact h hcmp
  · exact hq h
  · rw [hd] at h
    cases h
  · rw [hl] at h
    cases h

/-- After its first digit, a number has the digits that follow, and a point and digits when a
digit comes after the point. -/
theorem numberTail_cases (rest : List Char) :
    (numberTail rest = rest.takeWhile Char.isDigit ∧
      ∀ d more, rest.dropWhile Char.isDigit = '.' :: d :: more → d.isDigit = false) ∨
    ∃ d more, rest.dropWhile Char.isDigit = '.' :: d :: more ∧ d.isDigit ∧
      numberTail rest = rest.takeWhile Char.isDigit ++ '.' :: d :: more.takeWhile Char.isDigit := by
  unfold numberTail
  split
  · rename_i d more hdrop
    split
    · rename_i hd
      exact .inr ⟨d, more, hdrop, hd, rfl⟩
    · rename_i hd
      refine .inl ⟨rfl, fun d' more' h' => ?_⟩
      rw [hdrop] at h'
      obtain ⟨rfl, -⟩ : d = d' ∧ more = more' := by simpa using h'
      simpa using hd
  · rename_i hno
    exact .inl ⟨rfl, fun d more h => absurd h (hno d more)⟩

theorem isDigits_cons_takeWhile {d : Char} (hd : d.isDigit) (cs : List Char) :
    IsDigits (d :: cs.takeWhile Char.isDigit) := by
  refine ⟨List.cons_ne_nil _ _, fun x hx => ?_⟩
  rcases List.mem_cons.mp hx with rfl | hx
  · exact hd
  · exact List.mem_takeWhile_imp hx

theorem number_lexeme (hd : c.isDigit) :
    Lexeme t (c :: numberTail rest) .number (.number (numberValue (c :: numberTail rest))) ∧
      numberTail rest <+: rest := by
  have hds := isDigits_cons_takeWhile hd rest
  rcases numberTail_cases rest with ⟨hnt, -⟩ | ⟨d, more, hdrop, hdd, hnt⟩
  · rw [hnt]
    exact ⟨.number hds, List.takeWhile_prefix _⟩
  · rw [hnt]
    refine ⟨.decimal hds (isDigits_cons_takeWhile hdd more), more.dropWhile Char.isDigit, ?_⟩
    rw [List.append_assoc, List.cons_append, List.cons_append, List.takeWhile_append_dropWhile,
      ← hdrop, List.takeWhile_append_dropWhile]

theorem atMost_number (hd : c.isDigit) :
    LexemesAtMost t (c :: rest) ((numberTail rest).length + 1) := by
  intro pre suf k lit heq hl
  obtain ⟨hshape, -, -⟩ := hl.of_digit (head?_of_append_eq heq hl.ne_nil) hd
  have htw : (rest.takeWhile Char.isDigit).length ≤ (numberTail rest).length := by
    rcases numberTail_cases rest with ⟨hnt, -⟩ | ⟨d, more, -, -, hnt⟩
    · rw [hnt]
    · rw [hnt, List.length_append]
      exact Nat.le_add_right _ _
  rcases hshape with hdig | ⟨ds, fs, rfl, hds, hfs⟩
  · -- digits alone: no more than the digits at the start
    have hrun := length_le_takeWhile hdig.2 ⟨suf, heq.symm⟩
    rw [List.takeWhile_cons_of_pos hd, List.length_cons] at hrun
    omega
  · -- a fraction: the digits before the point are all those at the start, and the point is
    -- followed by a digit, so the scan takes a fraction at least as long
    obtain ⟨c', ds', rfl⟩ := List.exists_cons_of_ne_nil hds.1
    obtain ⟨f, fs', rfl⟩ := List.exists_cons_of_ne_nil hfs.1
    obtain ⟨-, hrest⟩ : c = c' ∧ rest = ds' ++ '.' :: f :: (fs' ++ suf) := by simpa using heq
    have hds' : ∀ x ∈ ds', x.isDigit := fun x hx => hds.2 x (List.mem_cons_of_mem _ hx)
    have hstop : ∀ y, ('.' :: f :: (fs' ++ suf)).head? = some y → y.isDigit = false := by
      intro y hy
      cases hy
      decide
    have htake : rest.takeWhile Char.isDigit = ds' := by
      rw [hrest]
      exact takeWhile_append_stop hds' hstop
    have hdrop : rest.dropWhile Char.isDigit = '.' :: f :: (fs' ++ suf) := by
      rw [hrest]
      exact dropWhile_append_stop hds' hstop
    have hf : f.isDigit := hfs.2 f List.mem_cons_self
    rcases numberTail_cases rest with ⟨-, hno⟩ | ⟨d, more, hdrop', -, hnt⟩
    · rw [hno f (fs' ++ suf) hdrop] at hf
      cases hf
    · rw [hdrop] at hdrop'
      obtain ⟨rfl, rfl⟩ : f = d ∧ fs' ++ suf = more := by simpa using hdrop'
      have hfs' := length_le_takeWhile (fun x hx => hfs.2 x (List.mem_cons_of_mem _ hx))
        (List.prefix_append fs' suf)
      rw [hnt, htake]
      simp only [List.length_append, List.length_cons] at hfs' ⊢
      omega

end Bounds

/-! ## One scan -/

/-- One scan skips a blank, skips a comment up to the newline, reads the longest lexeme that
starts at the first character, or fails where no lexeme starts. -/
theorem scanOne_spec (t : KeywordTable) (c : Char) (rest : List Char) (p : Cursor) :
    (isSpacing c ∧ scanOne t c rest p = .ok (none, [])) ∨
    (c = '#' ∧ scanOne t c rest p = .ok (none, rest.takeWhile (· ≠ '\n'))) ∨
    (∃ taken k lit, Lexeme t (c :: taken) k lit ∧ Longest t (c :: taken) (rest.drop taken.length) ∧
      taken <+: rest ∧
      scanOne t c rest p = .ok (some ⟨k, lit, String.ofList (c :: taken), p.line, p.column⟩, taken)) ∨
    ((∀ pre suf k lit, c :: rest = pre ++ suf → ¬ Lexeme t pre k lit) ∧
      ∃ e, scanOne t c rest p = .error e) := by
  by_cases hsp : isSpacing c
  · exact .inl ⟨hsp, scanOne_spacing hsp⟩
  by_cases hc : c = '#'
  · subst hc
    exact .inr (.inl ⟨rfl, scanOne_comment⟩)
  refine .inr (.inr ?_)
  -- a token, by the class of the first character, in the order the scan tests the classes
  cases hsym : symbolKind? c
  case some k =>
    exact .inl ⟨[], k, .empty, .symbol hsym,
      longest_of_atMost List.nil_prefix (atMost_symbol hsym), List.nil_prefix, scanOne_symbol hsym⟩
  cases hcmp : comparisonKinds? c
  case some pair =>
    obtain ⟨single, double⟩ := pair
    by_cases hr : ∃ r, rest = '=' :: r
    · obtain ⟨r, rfl⟩ := hr
      exact .inl ⟨['='], double, .empty, .comparisonEq hcmp,
        longest_of_atMost ⟨r, rfl⟩ (atMost_comparison hcmp), ⟨r, rfl⟩, scanOne_comparisonEq hcmp⟩
    · have hr' : ∀ r, rest ≠ '=' :: r := fun r h => hr ⟨r, h⟩
      exact .inl ⟨[], single, .empty, .comparison hcmp,
        longest_of_atMost List.nil_prefix (atMost_comparison_alone hcmp hr'), List.nil_prefix,
        scanOne_comparison hcmp hr'⟩
  by_cases hq : c = '"' ∨ c = '\''
  · rcases hb : stringBody c rest with _ | ⟨text, raw⟩
    · exact .inr ⟨no_lexeme_unterminated hq hb, _, scanOne_unterminated hq hb⟩
    · obtain ⟨body, rfl, hbody, hpre⟩ := stringBody_sound hb
      exact .inl ⟨body ++ [c], .string, .str (String.ofList text), .string hq hbody,
        longest_of_atMost hpre (atMost_string hq hb), hpre, scanOne_string hq hb⟩
  by_cases hd : c.isDigit
  · obtain ⟨hlex, hpre⟩ := (number_lexeme hd : Lexeme t _ _ _ ∧ numberTail rest <+: rest)
    exact .inl ⟨numberTail rest, _, _, hlex, longest_of_atMost hpre (atMost_number hd), hpre,
      scanOne_number hd⟩
  by_cases hl : Text.isLetter c
  · have hname : ∀ d ∈ rest.takeWhile isNameChar, isNameChar d :=
      fun d hd => List.mem_takeWhile_imp hd
    have hlong : Longest t (c :: rest.takeWhile isNameChar)
        (rest.drop (rest.takeWhile isNameChar).length) :=
      longest_of_atMost (List.takeWhile_prefix _) (atMost_name hl)
    rcases hk : t.keywordOf? (String.ofList (c :: rest.takeWhile isNameChar)) with _ | kw
    · exact .inl ⟨_, _, _, .identifier hl hname hk, hlong, List.takeWhile_prefix _,
        scanOne_identifier hl hk⟩
    · exact .inl ⟨_, _, _, .keyword hl hname hk, hlong, List.takeWhile_prefix _,
        scanOne_keyword hl hk⟩
  · have hd' : c.isDigit = false := by simpa using hd
    have hl' : Text.isLetter c = false := by simpa using hl
    have hsp' : isSpacing c = false := by simpa using hsp
    exact .inr ⟨no_lexeme_unexpected hsym hcmp hq hd' hl', _,
      scanOne_unexpected hsp' hc hsym hcmp hq hd' hl'⟩


/-! ## Whole texts -/

section Texts

variable {t : KeywordTable} {c : Char} {rest taken : List Char} {pos last : Cursor}
  {acc : Array Token}

theorem scanFrom_nil : scanFrom t [] pos last acc = .ok (acc.push (Token.eof last.line last.column)) := by
  rw [scanFrom]

theorem scanFrom_skip (h : scanOne t c rest pos = .ok (none, taken)) :
    scanFrom t (c :: rest) pos last acc =
      scanFrom t (rest.drop taken.length) (pos.skip (c :: taken)) pos acc := by
  rw [scanFrom, h]

theorem scanFrom_token {tk : Token} (h : scanOne t c rest pos = .ok (some tk, taken)) :
    scanFrom t (c :: rest) pos last acc =
      scanFrom t (rest.drop taken.length) (pos.skip (c :: taken)) pos (acc.push tk) := by
  rw [scanFrom, h]

theorem scanFrom_error {e : LexError} (h : scanOne t c rest pos = .error e) :
    scanFrom t (c :: rest) pos last acc = .error e := by
  rw [scanFrom, h]

/-- What the scans give, when they all succeed, is what `Munch` reads, then an end mark. -/
theorem scanFrom_sound (t : KeywordTable) : ∀ (cs before : List Char) (last : Cursor)
    (acc out : Array Token), scanFrom t cs (positionAfter before) last acc = .ok out →
    ∃ body e, out.toList = acc.toList ++ body ++ [e] ∧ e.kind = .eof ∧ e.lexeme = "" ∧
      e.literal = .empty ∧ Munch t before cs body
  | [], before, last, acc, out, h => by
    rw [scanFrom_nil] at h
    cases h
    exact ⟨[], Token.eof last.line last.column, by simp, rfl, rfl, rfl, .done⟩
  | c :: rest, before, last, acc, out, h => by
    rcases scanOne_spec t c rest (positionAfter before) with
      ⟨hsp, hs⟩ | ⟨rfl, hs⟩ | ⟨taken, k, lit, hlex, hlong, hpre, hs⟩ | ⟨-, e, hs⟩
    · -- a blank
      rw [scanFrom_skip hs, Cursor.skip_positionAfter] at h
      obtain ⟨body, e, hout, he⟩ := scanFrom_sound t rest (before ++ [c]) _ acc out h
      exact ⟨body, e, hout, he.1, he.2.1, he.2.2.1, .spacing hsp he.2.2.2⟩
    · -- a comment, up to the newline or the end
      rw [scanFrom_skip hs, Cursor.skip_positionAfter] at h
      obtain ⟨body, e, hout, he⟩ := scanFrom_sound t _ _ _ acc out h
      have hnl : '\n' ∉ rest.takeWhile (· ≠ '\n') := fun hmem => by
        simpa using List.mem_takeWhile_imp hmem
      have hend : rest.dropWhile (· ≠ '\n') = [] ∨
          (rest.dropWhile (· ≠ '\n')).head? = some '\n' := by
        cases hd : rest.dropWhile (· ≠ '\n') with
        | nil => exact .inl rfl
        | cons d ds =>
          have hnot := head_dropWhile_eq hd
          simp only [decide_eq_false_iff_not, not_not] at hnot
          exact .inr (by rw [hnot]; rfl)
      rw [drop_length_takeWhile] at he
      have hm := Munch.comment hnl hend he.2.2.2
      rw [List.cons_append, List.takeWhile_append_dropWhile] at hm
      exact ⟨body, e, hout, he.1, he.2.1, he.2.2.1, hm⟩
    · -- the longest lexeme
      rw [scanFrom_token hs, Cursor.skip_positionAfter] at h
      obtain ⟨body, e, hout, he⟩ := scanFrom_sound t _ _ _ _ out h
      have hm := Munch.token hlex hlong he.2.2.2
      obtain ⟨r, rfl⟩ := hpre
      rw [List.drop_left] at hm
      refine ⟨_ :: body, e, ?_, he.1, he.2.1, he.2.2.1, hm⟩
      rw [hout, Array.toList_push]
      simp [Token.ofLexeme]
    · rw [scanFrom_error hs] at h
      cases h
termination_by cs => cs.length
decreasing_by
  all_goals simp only [List.length_drop, List.length_cons]
  all_goals omega

/-- Whatever `Munch` reads, the scans give, then an end mark. -/
theorem scanFrom_complete {before cs : List Char} {body : List Token} (h : Munch t before cs body) :
    ∀ (last : Cursor) (acc : Array Token), ∃ e out,
      scanFrom t cs (positionAfter before) last acc = .ok out ∧ out.toList = acc.toList ++ body ++ [e] := by
  induction h with
  | done => exact fun last acc => ⟨Token.eof last.line last.column, _, scanFrom_nil, by simp⟩
  | spacing hsp _ ih =>
    intro last acc
    rw [scanFrom_skip (scanOne_spacing hsp), Cursor.skip_positionAfter]
    exact ih _ acc
  | @comment before body rest toks hnl hend _ ih =>
    intro last acc
    -- the comment runs to the newline or the end, and no further
    have htake : (body ++ rest).takeWhile (· ≠ '\n') = body := by
      refine takeWhile_append_stop (fun x hx => ?_) (fun y hy => ?_)
      · have : x ≠ '\n' := fun h => hnl (h ▸ hx)
        simpa using this
      · rcases hend with rfl | hend
        · cases hy
        · rw [hend] at hy
          cases hy
          decide
    rw [List.cons_append, scanFrom_skip scanOne_comment, htake, List.drop_left,
      Cursor.skip_positionAfter]
    exact ih _ acc
  | @token before lex rest toks k lit hlex hlong _ ih =>
    intro last acc
    obtain ⟨c, lt, rfl⟩ := List.exists_cons_of_ne_nil hlex.ne_nil
    rcases scanOne_spec t c (lt ++ rest) (positionAfter before) with
      ⟨hsp, -⟩ | ⟨rfl, -⟩ | ⟨taken, k', lit', hlex', hlong', hpre', hs⟩ | ⟨hno, -⟩
    · rw [(hlex.not_gap rfl).1] at hsp
      cases hsp
    · exact absurd rfl (hlex.not_gap rfl).2
    · -- two longest lexemes at one place are the same
      obtain ⟨r, hr⟩ := hpre'
      have hdrop : (lt ++ rest).drop taken.length = r := by rw [← hr, List.drop_left]
      have hle : (c :: taken).length ≤ (c :: lt).length :=
        hlong _ r k' lit' (by rw [List.cons_append, List.cons_append, ← hr]) hlex'
      have hge : (c :: lt).length ≤ (c :: taken).length :=
        hlong' _ rest k lit (by rw [hdrop, List.cons_append, List.cons_append, hr]) hlex
      have htaken : taken = lt := eq_of_prefix_of_length_eq ⟨r, hr⟩ (List.prefix_append lt rest)
        (by simp only [List.length_cons] at hle hge; omega)
      subst htaken
      obtain ⟨rfl, rfl⟩ := hlex'.functional hlex
      rw [List.cons_append, scanFrom_token hs, List.drop_left, Cursor.skip_positionAfter]
      obtain ⟨e, out, hrun, hout⟩ := ih (positionAfter before) (acc.push _)
      refine ⟨e, out, hrun, ?_⟩
      rw [hout, Array.toList_push]
      simp [Token.ofLexeme]
    · exact absurd hlex (hno _ rest k lit rfl)

end Texts

/-- When the lexer succeeds, its tokens are what `Munch` reads from the text, then one end mark:
no lexeme, a token that starts nowhere. -/
theorem tokenize_sound {t : KeywordTable} {s : String} {toks : List Token}
    (h : tokenize t s = .ok toks) :
    ∃ body e, toks = body ++ [e] ∧ e.kind = .eof ∧ e.lexeme = "" ∧ e.literal = .empty ∧
      Munch t [] s.toList body := by
  unfold tokenize at h
  cases hrun : scanFrom t s.toList ⟨1, 1⟩ ⟨1, 1⟩ #[] with
  | error e =>
    rw [hrun] at h
    cases h
  | ok out =>
    rw [hrun] at h
    cases h
    obtain ⟨body, e, hout, he⟩ := scanFrom_sound t s.toList [] ⟨1, 1⟩ #[] out hrun
    exact ⟨body, e, by simpa using hout, he⟩

/-- Whatever `Munch` reads from a text, the lexer gives, followed by an end mark. -/
theorem tokenize_complete {t : KeywordTable} {s : String} {body : List Token}
    (h : Munch t [] s.toList body) : ∃ e, tokenize t s = .ok (body ++ [e]) := by
  obtain ⟨e, out, hrun, hout⟩ := scanFrom_complete h ⟨1, 1⟩ #[]
  rw [positionAfter_nil] at hrun
  refine ⟨e, ?_⟩
  unfold tokenize
  rw [hrun]
  show Except.ok out.toList = _
  rw [hout, Array.toList_empty, List.nil_append]


/-- The lexer is the longest-match reading of the token grammar, and is complete for it. -/
theorem tokenize_longest_match (t : KeywordTable) (s : String) :
    (∀ toks, tokenize t s = .ok toks → ∃ body e, toks = body ++ [e] ∧
      (∀ tk ∈ body, tk.kind ≠ .eof) ∧ e.kind = .eof ∧ e.lexeme = "" ∧ e.literal = .empty ∧
      Munch t [] s.toList body) ∧
    ∀ body, Munch t [] s.toList body → ∃ e, tokenize t s = .ok (body ++ [e]) := by
  refine ⟨fun toks h => ?_, fun body h => tokenize_complete h⟩
  obtain ⟨body, e, rfl, he, hlx, hlit, hm⟩ := tokenize_sound h
  exact ⟨body, e, rfl, hm.kind_ne_eof, he, hlx, hlit, hm⟩

/-- `a<=b` is read as a name, the comparison `<=` whole, and a name. -/
theorem less_equal_read_whole :
    Munch .standard [] "a<=b".toList
      [⟨.identifier, .str "a", "a", 1, 1⟩, ⟨.lessEq, .empty, "<=", 1, 2⟩,
        ⟨.identifier, .str "b", "b", 1, 4⟩] := by
  have htok : tokenize .standard "a<=b" =
      .ok ([⟨.identifier, .str "a", "a", 1, 1⟩, ⟨.lessEq, .empty, "<=", 1, 2⟩,
        ⟨.identifier, .str "b", "b", 1, 4⟩] ++ [Token.eof 1 4]) := by
    with_unfolding_all rfl
  obtain ⟨body, e, hsplit, -, -, -, -, hm⟩ := (tokenize_longest_match .standard "a<=b").1 _ htok
  obtain ⟨rfl, -⟩ := List.append_inj' hsplit rfl
  exact hm

end Arson.Syntax
