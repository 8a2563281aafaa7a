import Arson.Proofs.Syntax.LongestMatch
import Arson.Proofs.Syntax.ParseAlike
import Mathlib.Data.List.Nodup
/-!
# Spelling the keywords anew

A keyword table may spell every keyword anew. In a table that passes its check, every spelling
is a name and no two keywords share one, so a word that has the shape of a name reads as a
keyword exactly when it is one of the table's spellings, and a spelling alone reads as its
keyword and the end mark.

A text read under one table can be written for another (`respell`): each keyword is given the
other table's spelling, and blanks, comments and every other token stay as they stand. When no
name of the text is a spelling of the other table, the new text reads under the other table as
tokens of the same kinds, literals and lines, and so parses to the same program, or fails on the
same line. A spelling is a name, so it neither runs into the token after it nor splits; the
lexer looks ahead at most two characters past a token, and a respelled text begins like the text
it comes from, up to which letter comes first.
-/
namespace Arson.Syntax

theorem isNameChar_of_isLetter {c : Char} (h : Text.isLetter c) : isNameChar c := by
  unfold isNameChar Text.isLetterOrNumeral
  unfold Text.isLetter at h
  by_cases hc : c.toNat < 128
  · rw [if_pos hc] at h ⊢
    simp [Char.isAlphanum, h]
  · rw [if_neg hc] at h ⊢
    simp [h]

theorem isName_iff {s : String} :
    KeywordTable.isName s ↔
      ∃ c cs, s.toList = c :: cs ∧ Text.isLetter c ∧ ∀ d ∈ cs, isNameChar d := by
  unfold KeywordTable.isName
  split
  · rename_i h
    simp [h]
  · rename_i c rest h
    simp [h, isNameChar]

namespace Keyword

theorem mem_all (k : Keyword) : k ∈ all := by
  cases k <;> decide

theorem all_nodup : all.Nodup := by decide

end Keyword

namespace KeywordTable

variable {t : KeywordTable}

/-- What the check of a table finds from a list of seen spellings: every spelling checked is a
name, none was seen, and no two are the same. -/
theorem checkFrom_eq_none : ∀ {seen : List (String × Keyword)} {ks : List Keyword},
    t.checkFrom seen ks = none →
      (∀ k ∈ ks, KeywordTable.isName (t.spelling k)) ∧ (∀ k ∈ ks, ∀ p ∈ seen, p.1 ≠ t.spelling k) ∧
        (ks.map t.spelling).Nodup
  | _, [], _ => ⟨nofun, nofun, .nil⟩
  | seen, k :: ks, h => by
    simp only [checkFrom] at h
    split at h
    · cases h
    · rename_i hname
      split at h
      · cases h
      · rename_i hfind
        obtain ⟨hn, hs, hnd⟩ := checkFrom_eq_none h
        have hnew : ∀ p ∈ seen, p.1 ≠ t.spelling k := fun p hp heq => by
          simp only [List.find?_eq_none] at hfind
          exact hfind p hp (by simp [heq])
        refine ⟨?_, ?_, ?_⟩
        · intro j hj
          rcases List.mem_cons.mp hj with rfl | hj
          · simpa using hname
          · exact hn j hj
        · intro j hj p hp
          rcases List.mem_cons.mp hj with rfl | hj
          · exact hnew p hp
          · exact hs j hj p (List.mem_cons_of_mem _ hp)
        · refine List.nodup_cons.mpr ⟨fun hmem => ?_, hnd⟩
          obtain ⟨j, hj, heq⟩ := List.mem_map.mp hmem
          exact hs j hj (t.spelling k, k) List.mem_cons_self heq.symm

theorem isName_spelling (h : t.fault? = none) (k : Keyword) : isName (t.spelling k) :=
  (checkFrom_eq_none h).1 k (Keyword.mem_all k)

theorem spelling_injective (h : t.fault? = none) : Function.Injective t.spelling :=
  fun _ _ hjk => List.inj_on_of_nodup_map (checkFrom_eq_none h).2.2 (Keyword.mem_all _)
    (Keyword.mem_all _) hjk

theorem keywordOf?_eq_none_iff {w : String} : t.keywordOf? w = none ↔ ∀ k, t.spelling k ≠ w := by
  simp [keywordOf?, List.find?_eq_none, Keyword.mem_all]

/-- In a table that passes its check, a word spells a keyword exactly when it is its spelling. -/
theorem keywordOf?_eq_some_iff (h : t.fault? = none) {w : String} {k : Keyword} :
    t.keywordOf? w = some k ↔ t.spelling k = w := by
  constructor
  · intro hk
    simpa using List.find?_some hk
  · rintro rfl
    cases hf : t.keywordOf? (t.spelling k) with
    | none => exact absurd rfl (keywordOf?_eq_none_iff.mp hf k)
    | some j =>
      have hj : t.spelling j = t.spelling k := by simpa using List.find?_some hf
      rw [spelling_injective h hj]

end KeywordTable

/-! ## One word -/

section Word

variable {t : KeywordTable} {w : String}

theorem word_of_isName (hw : KeywordTable.isName w) :
    ∃ c cs, w.toList = c :: cs ∧ Text.isLetter c ∧ cs.takeWhile isNameChar = cs ∧
      String.ofList (c :: cs) = w := by
  obtain ⟨c, cs, hs, hl, hcs⟩ := isName_iff.mp hw
  exact ⟨c, cs, hs, hl, List.takeWhile_eq_self_iff.mpr hcs, by rw [← hs, String.ofList_toList]⟩

theorem tokenize_keyword_word (hw : KeywordTable.isName w) {k : Keyword}
    (hk : t.keywordOf? w = some k) :
    tokenize t w = .ok [⟨.keyword k, .empty, w, 1, 1⟩, Token.eof 1 1] := by
  obtain ⟨c, cs, hs, hl, htake, hword⟩ := word_of_isName hw
  have hscan := scanOne_keyword (p := ⟨1, 1⟩) hl (by rw [htake, hword]; exact hk)
  rw [htake, hword] at hscan
  simp only [tokenize, hs, scanFrom_token hscan, List.drop_length, scanFrom_nil]
  rfl

theorem tokenize_identifier_word (hw : KeywordTable.isName w) (hk : t.keywordOf? w = none) :
    tokenize t w = .ok [⟨.identifier, .str w, w, 1, 1⟩, Token.eof 1 1] := by
  obtain ⟨c, cs, hs, hl, htake, hword⟩ := word_of_isName hw
  have hscan := scanOne_identifier (p := ⟨1, 1⟩) hl (by rw [htake, hword]; exact hk)
  rw [htake, hword] at hscan
  simp only [tokenize, hs, scanFrom_token hscan, List.drop_length, scanFrom_nil]
  rfl

end Word

/-! ## Respelled texts -/

/-- The source text of a token read under one table, written for the table `t'`: a keyword in
`t'`'s spelling, and anything else as it stands. -/
def respelling (t' : KeywordTable) : Option TokenKind → List Char → List Char
  | some (.keyword k), _ => (t'.spelling k).toList
  | _, lexeme => lexeme

/-- A text read under `t`, written for `t'`: each keyword read is given its spelling in `t'`, and
blanks, comments and all other tokens stay as they stand. A text that does not read is kept as it
stands from where it fails. -/
def respell (t t' : KeywordTable) (cs : List Char) : List Char :=
  match cs with
  | [] => []
  | c :: rest =>
    match scanOne t c rest ⟨1, 1⟩ with
    | .ok (tk?, taken) =>
      respelling t' (tk?.map Token.kind) (c :: taken) ++ respell t t' (rest.drop taken.length)
    | .error _ => cs
termination_by cs.length
decreasing_by simp only [List.length_drop, List.length_cons]; omega

/-- A token and the same token read from the respelled text: one kind, one literal and one line,
and one source text unless it is a keyword. -/
def Token.Respelled (a b : Token) : Prop :=
  a.kind = b.kind ∧ a.literal = b.literal ∧ a.line = b.line ∧
    ((∀ k, a.kind ≠ .keyword k) → a.lexeme = b.lexeme)

/-- Moving over a text goes down one line for each newline in it. -/
theorem Cursor.skip_line (p : Cursor) (cs : List Char) :
    (p.skip cs).line = p.line + cs.count '\n' := by
  induction cs generalizing p with
  | nil => rfl
  | cons c cs ih =>
    rw [Cursor.skip, List.foldl_cons, ← Cursor.skip, ih, List.count_cons]
    unfold Cursor.next
    by_cases hc : c = '\n'
    · simp [hc]
      omega
    · simp [hc]

/-- Where a scan starts changes nothing but the position its token records. -/
theorem scanOne_moved {t : KeywordTable} {c : Char} {rest : List Char} {p : Cursor}
    {tk? : Option Token} {taken : List Char} (h : scanOne t c rest p = .ok (tk?, taken))
    (q : Cursor) :
    ∃ tk'? : Option Token, scanOne t c rest q = .ok (tk'?, taken) ∧
      tk'?.map Token.kind = tk?.map Token.kind := by
  by_cases hsp : isSpacing c
  · rw [scanOne_spacing hsp] at h ⊢
    cases h
    exact ⟨none, rfl, rfl⟩
  by_cases hc : c = '#'
  · subst hc
    rw [scanOne_comment] at h ⊢
    cases h
    exact ⟨none, rfl, rfl⟩
  cases hsym : symbolKind? c with
  | some k =>
    rw [scanOne_symbol hsym] at h ⊢
    cases h
    exact ⟨_, rfl, rfl⟩
  | none =>
  cases hcmp : comparisonKinds? c with
  | some pair =>
    obtain ⟨single, double⟩ := pair
    by_cases hr : ∃ r, rest = '=' :: r
    · obtain ⟨r, rfl⟩ := hr
      rw [scanOne_comparisonEq hcmp] at h ⊢
      cases h
      exact ⟨_, rfl, rfl⟩
    · have hr' : ∀ r, rest ≠ '=' :: r := fun r h' => hr ⟨r, h'⟩
      rw [scanOne_comparison hcmp hr'] at h ⊢
      cases h
      exact ⟨_, rfl, rfl⟩
  | none =>
  by_cases hq : c = '"' ∨ c = '\''
  · cases hb : stringBody c rest with
    | none =>
      rw [scanOne_unterminated hq hb] at h
      cases h
    | some body =>
      obtain ⟨text, raw⟩ := body
      rw [scanOne_string hq hb] at h ⊢
      cases h
      exact ⟨_, rfl, rfl⟩
  by_cases hd : c.isDigit
  · rw [scanOne_number hd] at h ⊢
    cases h
    exact ⟨_, rfl, rfl⟩
  by_cases hl : Text.isLetter c
  · cases hk : t.keywordOf? (String.ofList (c :: rest.takeWhile isNameChar)) with
    | some k =>
      rw [scanOne_keyword hl hk] at h ⊢
      cases h
      exact ⟨_, rfl, rfl⟩
    | none =>
      rw [scanOne_identifier hl hk] at h ⊢
      cases h
      exact ⟨_, rfl, rfl⟩
  · rw [scanOne_unexpected (by simpa using hsp) hc hsym hcmp hq (by simpa using hd)
      (by simpa using hl)] at h
    cases h

theorem symbolKind?_ne_keyword {c : Char} {k : Keyword} : symbolKind? c ≠ some (.keyword k) := by
  unfold symbolKind?
  split <;> simp

theorem comparisonKinds?_ne_keyword {c : Char} {single double : TokenKind}
    (h : comparisonKinds? c = some (single, double)) :
    (∀ k, single ≠ .keyword k) ∧ ∀ k, double ≠ .keyword k := by
  unfold comparisonKinds? at h
  split at h <;> cases h <;> exact ⟨nofun, nofun⟩

/-- Only a name can be a keyword, and a name begins with a letter. -/
theorem Lexeme.keyword_letter {t : KeywordTable} {lex : List Char} {k : Keyword} {lit : Literal}
    {c : Char} (h : Lexeme t lex (.keyword k) lit) (hc : lex.head? = some c) : Text.isLetter c := by
  cases h with
  | symbol hs => exact absurd hs symbolKind?_ne_keyword
  | comparison hk => exact absurd rfl ((comparisonKinds?_ne_keyword hk).1 k)
  | comparisonEq hk => exact absurd rfl ((comparisonKinds?_ne_keyword hk).2 k)
  | keyword hl _ _ =>
    cases hc
    exact hl

/-- A scan reads a keyword only at a letter. -/
theorem scanOne_keyword_letter {t : KeywordTable} {c : Char} {rest : List Char} {p : Cursor}
    {tk : Token} {taken : List Char} {k : Keyword} (h : scanOne t c rest p = .ok (some tk, taken))
    (hk : tk.kind = .keyword k) : Text.isLetter c := by
  rcases scanOne_spec t c rest p with
    ⟨-, hs⟩ | ⟨-, hs⟩ | ⟨taken', k', lit, hlex, -, -, hs⟩ | ⟨-, e, hs⟩
  · rw [hs] at h
    cases h
  · rw [hs] at h
    cases h
  · rw [hs] at h
    cases h
    cases hk
    exact hlex.keyword_letter rfl
  · rw [hs] at h
    cases h

section Respell

variable {t t' : KeywordTable} {c : Char} {rest : List Char}

theorem respell_nil : respell t t' [] = [] := by
  rw [respell]

theorem respell_cons {tk? : Option Token} {taken : List Char} {p : Cursor}
    (h : scanOne t c rest p = .ok (tk?, taken)) :
    respell t t' (c :: rest) =
      respelling t' (tk?.map Token.kind) (c :: taken) ++ respell t t' (rest.drop taken.length) := by
  obtain ⟨tk'?, h', hk⟩ := scanOne_moved h ⟨1, 1⟩
  rw [respell, h']
  dsimp only
  rw [hk]

theorem respelling_of_ne {kind? : Option TokenKind} (h : ∀ k, kind? ≠ some (.keyword k))
    (lexeme : List Char) : respelling t' kind? lexeme = lexeme := by
  unfold respelling
  split
  · exact absurd rfl (h _)
  · rfl

theorem respell_cons_spacing (h : isSpacing c) :
    respell t t' (c :: rest) = c :: respell t t' rest := by
  rw [respell_cons (scanOne_spacing (p := ⟨1, 1⟩) h)]
  rfl

theorem respell_cons_symbol {k : TokenKind} (h : symbolKind? c = some k) :
    respell t t' (c :: rest) = c :: respell t t' rest := by
  have hne : ∀ j, some k ≠ some (TokenKind.keyword j) := fun j hj => by
    rw [hj] at h
    exact symbolKind?_ne_keyword h
  rw [respell_cons (scanOne_symbol (p := ⟨1, 1⟩) h), Option.map_some, respelling_of_ne hne]
  rfl

/-- A text that does not begin with a letter is respelled after its first character. -/
theorem respell_cons_of_not_letter (hl : Text.isLetter c = false) :
    ∃ Y, respell t t' (c :: rest) = c :: Y := by
  cases hs : scanOne t c rest ⟨1, 1⟩ with
  | error e =>
    rw [respell, hs]
    exact ⟨rest, rfl⟩
  | ok res =>
    obtain ⟨tk?, taken⟩ := res
    -- only a name can be a keyword, and a name begins with a letter
    have hne : ∀ k, tk?.map Token.kind ≠ some (.keyword k) := fun k hk => by
      obtain ⟨tk, rfl, hkind⟩ := Option.map_eq_some_iff.mp hk
      rw [scanOne_keyword_letter hs hkind] at hl
      cases hl
    rw [respell_cons hs, respelling_of_ne hne]
    exact ⟨_, rfl⟩

/-- A text that begins with a letter is respelled to one that begins with a letter. -/
theorem respell_cons_of_letter (h' : t'.fault? = none) (hl : Text.isLetter c) :
    ∃ c' Y, respell t t' (c :: rest) = c' :: Y ∧ Text.isLetter c' := by
  cases hk : t.keywordOf? (String.ofList (c :: rest.takeWhile isNameChar)) with
  | some k =>
    rw [respell_cons (scanOne_keyword (p := ⟨1, 1⟩) hl hk)]
    obtain ⟨c', cs', hs', hl', -⟩ := isName_iff.mp (KeywordTable.isName_spelling h' k)
    simp only [Option.map_some, respelling, hs']
    exact ⟨c', _, rfl, hl'⟩
  | none =>
    rw [respell_cons (scanOne_identifier (p := ⟨1, 1⟩) hl hk)]
    exact ⟨c, _, rfl, hl⟩

/-- A respelled text begins with the same character, or with a letter where a letter stood. -/
theorem respell_cons_head (h' : t'.fault? = none) (c : Char) (rest : List Char) :
    ∃ c' Y, respell t t' (c :: rest) = c' :: Y ∧ (c' = c ∨ Text.isLetter c ∧ Text.isLetter c') := by
  cases hl : Text.isLetter c
  · obtain ⟨Y, hY⟩ : ∃ Y, respell t t' (c :: rest) = c :: Y := respell_cons_of_not_letter hl
    exact ⟨c, Y, hY, .inl rfl⟩
  · obtain ⟨c', Y, hY, hl'⟩ : ∃ c' Y, respell t t' (c :: rest) = c' :: Y ∧ Text.isLetter c' :=
      respell_cons_of_letter h' hl
    exact ⟨c', Y, hY, .inr ⟨rfl, hl'⟩⟩

/-- A respelled text that stood where no digit stood begins with no digit. -/
theorem respell_head_not_digit (h' : t'.fault? = none) {R : List Char}
    (hR : ∀ d, R.head? = some d → d.isDigit = false) :
    ∀ d, (respell t t' R).head? = some d → d.isDigit = false := by
  cases R with
  | nil =>
    rw [respell_nil]
    exact nofun
  | cons e es =>
    obtain ⟨e', Y, hY, he'⟩ := respell_cons_head (t := t) h' e es
    rw [hY]
    rintro d ⟨⟩
    rcases he' with rfl | ⟨-, hl⟩
    · exact hR _ rfl
    · exact (letter_spec hl).2.2.2

/-- A respelled text that stood where no name character stood begins with none. -/
theorem respell_head_not_nameChar {R : List Char}
    (hR : ∀ d, R.head? = some d → isNameChar d = false) :
    ∀ d, (respell t t' R).head? = some d → isNameChar d = false := by
  cases R with
  | nil =>
    rw [respell_nil]
    exact nofun
  | cons e es =>
    have hl : Text.isLetter e = false := by
      cases hl : Text.isLetter e
      · rfl
      · simpa [isNameChar_of_isLetter hl] using hR e rfl
    obtain ⟨Y, hY⟩ : ∃ Y, respell t t' (e :: es) = e :: Y := respell_cons_of_not_letter hl
    rw [hY]
    rintro d ⟨⟩
    exact hR _ rfl

/-! ### Numbers look two characters ahead -/

theorem numberTail_append_stop {ds X : List Char} (hds : ∀ d ∈ ds, d.isDigit)
    (hX : ∀ d, X.head? = some d → d.isDigit = false)
    (hdot : ∀ d more, X = '.' :: d :: more → d.isDigit = false) : numberTail (ds ++ X) = ds := by
  unfold numberTail
  rw [takeWhile_append_stop hds hX, dropWhile_append_stop hds hX]
  split
  · rename_i d more
    rw [if_neg (by simp [hdot d more rfl])]
  · rfl

theorem numberTail_append_fraction {ds ms X : List Char} {d : Char} (hds : ∀ x ∈ ds, x.isDigit)
    (hd : d.isDigit) (hms : ∀ x ∈ ms, x.isDigit) (hX : ∀ x, X.head? = some x → x.isDigit = false) :
    numberTail (ds ++ '.' :: d :: ms ++ X) = ds ++ '.' :: d :: ms := by
  have hdot : ∀ x, ('.' :: d :: (ms ++ X)).head? = some x → x.isDigit = false := by
    rintro x ⟨⟩
    rfl
  unfold numberTail
  rw [List.append_assoc, List.cons_append, List.cons_append, takeWhile_append_stop hds hdot,
    dropWhile_append_stop hds hdot]
  simp only [hd, if_true, takeWhile_append_stop hms hX]

/-- A number read under `t` is read to the same end in the respelled text: what follows it is
respelled to a text that begins with no digit, nor with a point and a digit where none stood. -/
theorem numberTail_respell (h' : t'.fault? = none) (rest : List Char) :
    numberTail (numberTail rest ++ respell t t' (rest.drop (numberTail rest).length)) =
      numberTail rest := by
  have hds : ∀ x ∈ rest.takeWhile Char.isDigit, x.isDigit := fun _ hx => List.mem_takeWhile_imp hx
  rcases numberTail_cases rest with ⟨hnt, hno⟩ | ⟨d, more, hdrop, hd, hnt⟩
  · -- digits alone: what follows is neither a digit nor a point before a digit
    rw [hnt, drop_length_takeWhile]
    have hR : ∀ x, (rest.dropWhile Char.isDigit).head? = some x → x.isDigit = false := by
      intro x hx
      cases hr : rest.dropWhile Char.isDigit with
      | nil => rw [hr] at hx; cases hx
      | cons y ys =>
        rw [hr] at hx
        cases hx
        exact head_dropWhile_eq hr
    refine numberTail_append_stop hds (respell_head_not_digit h' hR) fun e more' hx => ?_
    cases hr : rest.dropWhile Char.isDigit with
    | nil => rw [hr, respell_nil] at hx; cases hx
    | cons y ys =>
      rw [hr] at hx hR
      obtain ⟨y', Y, hY, hy'⟩ := respell_cons_head (t := t) h' y ys
      rw [hY] at hx
      obtain ⟨rfl, rfl⟩ := List.cons.inj hx
      -- the point stood there itself, since a point is no letter
      obtain rfl : y = '.' := by
        rcases hy' with h | ⟨-, hl⟩
        · exact h.symm
        · exact absurd hl (by decide)
      rw [respell_cons_symbol (k := .period) rfl] at hY
      obtain ⟨-, hY⟩ := List.cons.inj hY
      cases ys with
      | nil => rw [respell_nil] at hY; cases hY
      | cons z zs =>
        have hz := hno z zs hr
        exact respell_head_not_digit (t := t) h' (R := z :: zs)
          (fun x hx => by cases hx; exact hz) e (by rw [hY]; rfl)
  · -- a fraction: what follows is no digit
    have hrest : rest = (rest.takeWhile Char.isDigit ++ '.' :: d :: more.takeWhile Char.isDigit) ++
        more.dropWhile Char.isDigit := by
      rw [List.append_assoc, List.cons_append, List.cons_append, List.takeWhile_append_dropWhile,
        ← hdrop, List.takeWhile_append_dropWhile]
    have hR : ∀ x, (more.dropWhile Char.isDigit).head? = some x → x.isDigit = false := by
      intro x hx
      cases hr : more.dropWhile Char.isDigit with
      | nil => rw [hr] at hx; cases hx
      | cons y ys =>
        rw [hr] at hx
        cases hx
        exact head_dropWhile_eq hr
    have hafter : rest.drop (numberTail rest).length = more.dropWhile Char.isDigit := by
      rw [hnt]
      calc rest.drop _
          = ((rest.takeWhile Char.isDigit ++ '.' :: d :: more.takeWhile Char.isDigit) ++
            more.dropWhile Char.isDigit).drop _ := by rw [← hrest]
        _ = _ := List.drop_left
    rw [hafter, hnt]
    exact numberTail_append_fraction hds hd (fun _ hx => List.mem_takeWhile_imp hx)
      (respell_head_not_digit h' hR)

end Respell

/-! ### One scan and its respelling -/

/-- The scan of `c :: rest` under `t` took `taken` and read `tk?`; its respelling is a piece and
the respelling of what follows, and a scan of the piece under `t'` at `q` takes the piece, with
as many newlines, and reads a token respelled from `tk?`. -/
def ScanRespelled (t t' : KeywordTable) (q : Cursor) (c : Char) (rest taken : List Char)
    (tk? : Option Token) : Prop :=
  ∃ c' taken' tk'?,
    respell t t' (c :: rest) = c' :: (taken' ++ respell t t' (rest.drop taken.length)) ∧
    (c' :: taken').count '\n' = (c :: taken).count '\n' ∧
    scanOne t' c' (taken' ++ respell t t' (rest.drop taken.length)) q = .ok (tk'?, taken') ∧
    Option.Rel Token.Respelled tk? tk'?

section Scan

variable {t t' : KeywordTable} {c : Char} {rest : List Char} {p q : Cursor}

theorem ScanRespelled.kept {tk? tk'? : Option Token} {taken : List Char}
    (h : scanOne t c rest p = .ok (tk?, taken)) (hne : ∀ k, tk?.map Token.kind ≠ some (.keyword k))
    (h' : scanOne t' c (taken ++ respell t t' (rest.drop taken.length)) q = .ok (tk'?, taken))
    (hrel : Option.Rel Token.Respelled tk? tk'?) : ScanRespelled t t' q c rest taken tk? := by
  refine ⟨c, taken, tk'?, ?_, rfl, h', hrel⟩
  rw [respell_cons h, respelling_of_ne hne]
  rfl

theorem Token.respelled_moved {k : TokenKind} {lit : Literal} {lex : String}
    (hpq : p.line = q.line) :
    Token.Respelled ⟨k, lit, lex, p.line, p.column⟩ ⟨k, lit, lex, q.line, q.column⟩ :=
  ⟨rfl, rfl, hpq, fun _ => rfl⟩

theorem ScanRespelled.spacing (hsp : isSpacing c) : ScanRespelled t t' q c rest [] none :=
  .kept (scanOne_spacing (p := q) hsp) (fun _ => nofun) (scanOne_spacing hsp) .none

theorem ScanRespelled.comment :
    ScanRespelled t t' q '#' rest (rest.takeWhile (· ≠ '\n')) none := by
  refine .kept (scanOne_comment (p := q)) (fun _ => nofun) ?_ .none
  rw [scanOne_comment]
  -- the comment ends where it did: at a newline, which stays, or at the end
  have hstop : ∀ y, (respell t t' (rest.drop (rest.takeWhile (· ≠ '\n')).length)).head? = some y →
      decide (y ≠ '\n') = false := by
    rw [drop_length_takeWhile]
    cases hd : rest.dropWhile (· ≠ '\n') with
    | nil => rw [respell_nil]; exact nofun
    | cons e es =>
      have he : e = '\n' := by simpa using head_dropWhile_eq hd
      subst he
      rw [respell_cons_spacing (by decide)]
      rintro y ⟨⟩
      decide
  have hall : ∀ x ∈ rest.takeWhile (· ≠ '\n'), decide (x ≠ '\n') = true := fun x hx => by
    have hx' := List.mem_takeWhile_imp hx
    exact hx'
  rw [takeWhile_append_stop hall hstop]

theorem ScanRespelled.symbol {k : TokenKind} (hpq : p.line = q.line) (hs : symbolKind? c = some k) :
    ScanRespelled t t' q c rest [] (some ⟨k, .empty, String.ofList [c], p.line, p.column⟩) := by
  refine .kept (scanOne_symbol hs) (fun j hj => ?_) (scanOne_symbol hs)
    (.some (Token.respelled_moved hpq))
  simp only [Option.map_some, Option.some.injEq] at hj
  rw [hj] at hs
  exact symbolKind?_ne_keyword hs

theorem ScanRespelled.comparisonEq {single double : TokenKind} {r : List Char}
    (hpq : p.line = q.line) (hk : comparisonKinds? c = some (single, double)) :
    ScanRespelled t t' q c ('=' :: r) ['=']
      (some ⟨double, .empty, String.ofList [c, '='], p.line, p.column⟩) :=
  .kept (scanOne_comparisonEq hk)
    (fun j hj => (comparisonKinds?_ne_keyword hk).2 j (by simpa using hj))
    (scanOne_comparisonEq hk) (.some (Token.respelled_moved hpq))

theorem ScanRespelled.comparison (h' : t'.fault? = none) {single double : TokenKind}
    (hpq : p.line = q.line) (hk : comparisonKinds? c = some (single, double))
    (hr : ∀ r, rest ≠ '=' :: r) :
    ScanRespelled t t' q c rest []
      (some ⟨single, .empty, String.ofList [c], p.line, p.column⟩) := by
  refine .kept (scanOne_comparison hk hr)
    (fun j hj => (comparisonKinds?_ne_keyword hk).1 j (by simpa using hj)) ?_
    (.some (Token.respelled_moved hpq))
  -- what follows begins as before, so not with `=`, which is no letter
  refine scanOne_comparison hk fun r hr' => ?_
  simp only [List.length_nil, List.drop_zero, List.nil_append] at hr'
  cases rest with
  | nil => rw [respell_nil] at hr'; cases hr'
  | cons e es =>
    obtain ⟨e', Y, hY, he'⟩ := respell_cons_head (t := t) h' e es
    rw [hY] at hr'
    obtain ⟨rfl, -⟩ := List.cons.inj hr'
    rcases he' with rfl | ⟨-, hl⟩
    · exact hr es rfl
    · exact absurd hl (by decide)

theorem ScanRespelled.string {text raw : List Char} (hpq : p.line = q.line)
    (hq : c = '"' ∨ c = '\'') (hb : stringBody c rest = some (text, raw)) :
    ScanRespelled t t' q c rest raw (some ⟨.string, .str (String.ofList text),
      String.ofList (c :: raw), p.line, p.column⟩) := by
  refine .kept (scanOne_string hq hb) (fun _ => by simp) ?_ (.some (Token.respelled_moved hpq))
  -- a string ends at its closing quote, whatever follows
  obtain ⟨body, rfl, hbody, -⟩ := stringBody_sound hb
  have hq' : c ≠ '\\' := by rcases hq with rfl | rfl <;> decide
  have hb' := stringBody_complete hq' hbody (respell t t' (rest.drop (body ++ [c]).length))
  rw [← List.singleton_append, ← List.append_assoc] at hb'
  exact scanOne_string hq hb'

theorem ScanRespelled.number (h' : t'.fault? = none) (hpq : p.line = q.line) (hd : c.isDigit) :
    ScanRespelled t t' q c rest (numberTail rest) (some ⟨.number,
      .number (numberValue (c :: numberTail rest)), String.ofList (c :: numberTail rest),
      p.line, p.column⟩) := by
  have h₂ : scanOne t' c (numberTail rest ++ respell t t' (rest.drop (numberTail rest).length)) q =
      .ok _ := scanOne_number hd
  rw [numberTail_respell h'] at h₂
  exact .kept (scanOne_number hd) (fun _ => by simp) h₂ (.some (Token.respelled_moved hpq))

/-- After a name comes no name character, and none comes after it in the respelled text. -/
theorem respell_after_name :
    ∀ y, (respell t t' (rest.drop (rest.takeWhile isNameChar).length)).head? = some y →
      isNameChar y = false := by
  rw [drop_length_takeWhile]
  refine respell_head_not_nameChar fun y hy => ?_
  cases hd : rest.dropWhile isNameChar with
  | nil => rw [hd] at hy; cases hy
  | cons e es =>
    rw [hd] at hy
    cases hy
    exact head_dropWhile_eq hd

theorem count_newline_name {cs : List Char} (hcs : ∀ d ∈ cs, isNameChar d) :
    cs.count '\n' = 0 :=
  List.count_eq_zero.mpr fun hmem => absurd (hcs _ hmem) (by decide)

/-- A keyword is given the spelling of the other table, which reads as the same keyword: it is a
name, and no name character follows it. -/
theorem ScanRespelled.keyword (h' : t'.fault? = none) (hpq : p.line = q.line) {k : Keyword}
    (hl : Text.isLetter c)
    (hk : t.keywordOf? (String.ofList (c :: rest.takeWhile isNameChar)) = some k) :
    ScanRespelled t t' q c rest (rest.takeWhile isNameChar) (some ⟨.keyword k, .empty,
      String.ofList (c :: rest.takeWhile isNameChar), p.line, p.column⟩) := by
  obtain ⟨c', cs', hs', hl', hcs'⟩ := isName_iff.mp (KeywordTable.isName_spelling h' k)
  have htake : (cs' ++ respell t t' (rest.drop (rest.takeWhile isNameChar).length)).takeWhile
      isNameChar = cs' := takeWhile_append_stop hcs' respell_after_name
  have hk' : t'.keywordOf? (String.ofList (c' :: (cs' ++
      respell t t' (rest.drop (rest.takeWhile isNameChar).length)).takeWhile isNameChar)) =
        some k := by
    rw [htake, ← hs', String.ofList_toList]
    exact (KeywordTable.keywordOf?_eq_some_iff h').mpr rfl
  have hscan := scanOne_keyword (p := q) hl' hk'
  rw [htake] at hscan
  have hcs : ∀ d ∈ c :: rest.takeWhile isNameChar, isNameChar d := fun d hd => by
    rcases List.mem_cons.mp hd with rfl | hd
    · exact isNameChar_of_isLetter hl
    · exact List.mem_takeWhile_imp hd
  refine ⟨c', cs', _, ?_, ?_, hscan, .some ⟨rfl, rfl, hpq, fun hne => absurd rfl (hne k)⟩⟩
  · rw [respell_cons (scanOne_keyword (p := p) hl hk)]
    simp only [Option.map_some, respelling, hs']
    rfl
  · rw [count_newline_name hcs, count_newline_name fun d hd => ?_]
    rcases List.mem_cons.mp hd with rfl | hd
    · exact isNameChar_of_isLetter hl'
    · exact hcs' d hd

/-- A name that is no keyword under either table stays, and reads as the same name. -/
theorem ScanRespelled.identifier (hpq : p.line = q.line) (hl : Text.isLetter c)
    (hk : t.keywordOf? (String.ofList (c :: rest.takeWhile isNameChar)) = none)
    (hk' : ∀ k, t'.spelling k ≠ String.ofList (c :: rest.takeWhile isNameChar)) :
    ScanRespelled t t' q c rest (rest.takeWhile isNameChar) (some ⟨.identifier,
      .str (String.ofList (c :: rest.takeWhile isNameChar)),
      String.ofList (c :: rest.takeWhile isNameChar), p.line, p.column⟩) := by
  have htake : (rest.takeWhile isNameChar ++
      respell t t' (rest.drop (rest.takeWhile isNameChar).length)).takeWhile isNameChar =
      rest.takeWhile isNameChar :=
    takeWhile_append_stop (fun _ hx => List.mem_takeWhile_imp hx) respell_after_name
  have hnone := KeywordTable.keywordOf?_eq_none_iff.mpr hk'
  rw [← htake] at hnone
  have hscan := scanOne_identifier (p := q) hl hnone
  rw [htake] at hscan
  exact .kept (scanOne_identifier hl hk) (fun _ => by simp) hscan
    (.some (Token.respelled_moved hpq))

/-- One scan under `t` and the scan of its respelling under `t'`, for a scan that reads no name
that `t'` spells. -/
theorem scanOne_respelled (h' : t'.fault? = none) (hpq : p.line = q.line) {tk? : Option Token}
    {taken : List Char} (h : scanOne t c rest p = .ok (tk?, taken))
    (hid : ∀ tk, tk? = some tk → tk.kind = .identifier → ∀ k, t'.spelling k ≠ tk.text) :
    ScanRespelled t t' q c rest taken tk? := by
  -- by the class of the first character, in the order the scan tests the classes
  by_cases hsp : isSpacing c
  · rw [scanOne_spacing hsp] at h
    cases h
    exact .spacing hsp
  by_cases hc : c = '#'
  · subst hc
    rw [scanOne_comment] at h
    cases h
    exact .comment
  cases hsym : symbolKind? c with
  | some k =>
    rw [scanOne_symbol hsym] at h
    cases h
    exact .symbol hpq hsym
  | none =>
  cases hcmp : comparisonKinds? c with
  | some pair =>
    obtain ⟨single, double⟩ := pair
    by_cases hr : ∃ r, rest = '=' :: r
    · obtain ⟨r, rfl⟩ := hr
      rw [scanOne_comparisonEq hcmp] at h
      cases h
      exact .comparisonEq hpq hcmp
    · have hr' : ∀ r, rest ≠ '=' :: r := fun r h' => hr ⟨r, h'⟩
      rw [scanOne_comparison hcmp hr'] at h
      cases h
      exact .comparison h' hpq hcmp hr'
  | none =>
  by_cases hq : c = '"' ∨ c = '\''
  · cases hb : stringBody c rest with
    | none =>
      rw [scanOne_unterminated hq hb] at h
      cases h
    | some body =>
      obtain ⟨text, raw⟩ := body
      rw [scanOne_string hq hb] at h
      cases h
      exact .string hpq hq hb
  by_cases hd : c.isDigit
  · rw [scanOne_number hd] at h
    cases h
    exact .number h' hpq hd
  by_cases hl : Text.isLetter c
  · cases hk : t.keywordOf? (String.ofList (c :: rest.takeWhile isNameChar)) with
    | some k =>
      rw [scanOne_keyword hl hk] at h
      cases h
      exact .keyword h' hpq hl hk
    | none =>
      rw [scanOne_identifier hl hk] at h
      cases h
      exact .identifier hpq hl hk (hid _ rfl rfl)
  · rw [scanOne_unexpected (by simpa using hsp) hc hsym hcmp hq (by simpa using hd)
      (by simpa using hl)] at h
    cases h

end Scan

/-! ### Whole scans -/

section Run

variable {t t' : KeywordTable}

/-- The tokens gathered so far stay at the front of what a scan gives. -/
theorem scanFrom_extends : ∀ (cs : List Char) (pos last : Cursor) (acc out : Array Token),
    scanFrom t cs pos last acc = .ok out → acc.toList <+: out.toList
  | [], pos, last, acc, out, h => by
    rw [scanFrom_nil] at h
    cases h
    rw [Array.toList_push]
    exact List.prefix_append _ _
  | c :: rest, pos, last, acc, out, h => by
    cases hs : scanOne t c rest pos with
    | error e => rw [scanFrom_error hs] at h; cases h
    | ok r =>
      obtain ⟨tk?, taken⟩ := r
      cases tk? with
      | none =>
        rw [scanFrom_skip hs] at h
        exact scanFrom_extends _ _ _ acc out h
      | some tk =>
        rw [scanFrom_token hs] at h
        have hpre := scanFrom_extends _ _ _ _ out h
        rw [Array.toList_push] at hpre
        exact (List.prefix_append _ _).trans hpre
termination_by cs => cs.length
decreasing_by all_goals simp only [List.length_drop, List.length_cons]; omega

/-- A whole scan under `t`, and the scan of the respelled text under `t'` from a position on the
same line, with the tokens so far respelled one by one: the second succeeds too, and its tokens are
respelled one by one from the first's, as long as the first reads no name that `t'` spells. -/
theorem scanFrom_respelled (h' : t'.fault? = none) :
    ∀ (cs : List Char) (pos pos' last last' : Cursor) (acc acc' out : Array Token),
    pos.line = pos'.line → last.line = last'.line →
    List.Forall₂ Token.Respelled acc.toList acc'.toList →
    scanFrom t cs pos last acc = .ok out →
    (∀ tk ∈ out.toList, tk.kind = .identifier → ∀ k, t'.spelling k ≠ tk.text) →
    ∃ out', scanFrom t' (respell t t' cs) pos' last' acc' = .ok out' ∧
      List.Forall₂ Token.Respelled out.toList out'.toList
  | [], pos, pos', last, last', acc, acc', out, _, hlast, hacc, h, _ => by
    rw [scanFrom_nil] at h
    cases h
    refine ⟨_, by rw [respell_nil, scanFrom_nil], ?_⟩
    rw [Array.toList_push, Array.toList_push]
    exact List.rel_append hacc (.cons ⟨rfl, rfl, hlast, fun _ => rfl⟩ .nil)
  | c :: rest, pos, pos', last, last', acc, acc', out, hpos, _, hacc, h, hid => by
    cases hs : scanOne t c rest pos with
    | error e => rw [scanFrom_error hs] at h; cases h
    | ok r =>
      obtain ⟨tk?, taken⟩ := r
      -- the token read now is among those the whole scan gives
      have hid' : ∀ tk, tk? = some tk → tk.kind = .identifier → ∀ k, t'.spelling k ≠ tk.text := by
        rintro tk rfl
        rw [scanFrom_token hs] at h
        refine hid tk ((scanFrom_extends _ _ _ _ _ h).subset ?_)
        simp
      obtain ⟨c', taken', tk'?, hres, hcount, hscan, hrel⟩ := scanOne_respelled h' hpos hs hid'
      have hline : (pos.skip (c :: taken)).line = (pos'.skip (c' :: taken')).line := by
        rw [Cursor.skip_line, Cursor.skip_line, hpos, hcount]
      rw [hres]
      cases hrel with
      | none =>
        rw [scanFrom_skip hs] at h
        rw [scanFrom_skip hscan, List.drop_left]
        exact scanFrom_respelled h' _ _ _ _ _ _ _ out hline hpos hacc h hid
      | some hab =>
        rw [scanFrom_token hs] at h
        rw [scanFrom_token hscan, List.drop_left]
        refine scanFrom_respelled h' _ _ _ _ _ _ _ out hline hpos ?_ h hid
        rw [Array.toList_push, Array.toList_push]
        exact List.rel_append hacc (.cons hab .nil)
termination_by cs => cs.length
decreasing_by all_goals simp only [List.length_drop, List.length_cons]; omega

/-- The tokens of a text under `t`, and those of its respelling under a valid `t'`: the second
text is read too, token by token respelled from the first, as long as the first has no name that
`t'` spells. -/
theorem tokenize_respelled (h' : t'.fault? = none) {s : String} {toks : List Token}
    (h : tokenize t s = .ok toks)
    (hid : ∀ tk ∈ toks, tk.kind = .identifier → ∀ k, t'.spelling k ≠ tk.text) :
    ∃ toks', tokenize t' (String.ofList (respell t t' s.toList)) = .ok toks' ∧
      List.Forall₂ Token.Respelled toks toks' := by
  unfold tokenize at h ⊢
  cases hsc : scanFrom t s.toList ⟨1, 1⟩ ⟨1, 1⟩ #[] with
  | error e => rw [hsc] at h; cases h
  | ok out =>
    rw [hsc] at h
    cases h
    obtain ⟨out', hsc', hrel⟩ :=
      scanFrom_respelled h' _ _ ⟨1, 1⟩ _ ⟨1, 1⟩ _ #[] out rfl rfl .nil hsc hid
    refine ⟨out'.toList, ?_, hrel⟩
    rw [String.toList_ofList, hsc']
    rfl

end Run

/-! ### What the parser sees -/

/-- The parser cannot tell a token from its respelling: only a keyword's source text changes, and
the parser never reads it. -/
theorem Token.Respelled.alike {a b : Token} (h : a.Respelled b) : a.Alike b := by
  obtain ⟨hk, hl, hline, hlex⟩ := h
  refine ⟨hk, hl, hline, fun hname => ?_⟩
  have hne : ∀ k, a.kind ≠ .keyword k := fun k hk' => by
    rcases hname with h | h <;> rw [h] at hk' <;> cases hk'
  unfold Token.text
  rw [hl, hlex hne]

/-- Tokens respelled one by one have the same kinds, literals and lines. -/
theorem Token.Respelled.map_eq {toks toks' : List Token}
    (h : List.Forall₂ Token.Respelled toks toks') :
    toks'.map (fun tk => (tk.kind, tk.literal, tk.line)) =
      toks.map (fun tk => (tk.kind, tk.literal, tk.line)) := by
  induction h with
  | nil => rfl
  | cons hab _ ih =>
    obtain ⟨hk, hl, hline, -⟩ := hab
    rw [List.map_cons, List.map_cons, ih, hk, hl, hline]

/-- Two parses that are twins both give the same program, or both fail on one line. -/
theorem ParseError.Twins.same_or_line {α : Type} {x y : Except ParseError α}
    (h : ParseError.Twins x y) :
    (∃ a, x = .ok a ∧ y = .ok a) ∨
      ∃ e e', x = .error e ∧ y = .error e' ∧ e.token.line = e'.token.line := by
  rcases x with e | a <;> rcases y with e' | b
  · exact .inr ⟨e, e', rfl, rfl, (ParseError.Alike.token h).2.2.1⟩
  · exact h.elim
  · exact h.elim
  · have hab : a = b := h
    exact .inl ⟨a, rfl, hab ▸ rfl⟩

/-- Keywords can be respelled into any valid table without changing the program, provided no name
of the text collides with a new spelling. -/
theorem keyword_respelling :
    (∀ (t t' : KeywordTable) (s : String) (toks : List Token), t'.fault? = none →
      tokenize t s = .ok toks →
      (∀ tk ∈ toks, tk.kind = .identifier → ∀ k, t'.spelling k ≠ tk.text) →
      ∃ toks', tokenize t' (String.ofList (respell t t' s.toList)) = .ok toks' ∧
        toks'.map (fun tk => (tk.kind, tk.literal, tk.line)) =
          toks.map (fun tk => (tk.kind, tk.literal, tk.line)) ∧
        ((∃ prog, parse toks = .ok prog ∧ parse toks' = .ok prog) ∨
          ∃ e e', parse toks = .error e ∧ parse toks' = .error e' ∧
            e.token.line = e'.token.line)) ∧
    (∀ (t : KeywordTable) (k : Keyword), t.fault? = none →
      tokenize t (t.spelling k) = .ok [⟨.keyword k, .empty, t.spelling k, 1, 1⟩, Token.eof 1 1]) ∧
    (∀ (t : KeywordTable) (w : String), t.fault? = none → KeywordTable.isName w →
      ((∃ k, tokenize t w = .ok [⟨.keyword k, .empty, w, 1, 1⟩, Token.eof 1 1]) ↔
        ∃ k, t.spelling k = w)) := by
  refine ⟨fun t t' s toks h' h hid => ?_, fun t k h => ?_, fun t w h hw => ?_⟩
  · obtain ⟨toks', htok, hrel⟩ := tokenize_respelled h' h hid
    have htwins := parse_alike (hrel.imp fun _ _ hab => hab.alike)
    exact ⟨toks', htok, Token.Respelled.map_eq hrel, htwins.same_or_line⟩
  · exact tokenize_keyword_word (KeywordTable.isName_spelling h k)
      ((KeywordTable.keywordOf?_eq_some_iff h).mpr rfl)
  · constructor
    · rintro ⟨k, hk⟩
      cases hkw : t.keywordOf? w with
      | some j => exact ⟨j, (KeywordTable.keywordOf?_eq_some_iff h).mp hkw⟩
      | none =>
        rw [tokenize_identifier_word hw hkw] at hk
        cases hk
    · rintro ⟨k, rfl⟩
      exact ⟨k, tokenize_keyword_word hw ((KeywordTable.keywordOf?_eq_some_iff h).mpr rfl)⟩

/-- The tokens of `burn x = 1` under the standard table. -/
def declarationTokens : List Token :=
  [⟨.keyword .varKw, .empty, "burn", 1, 1⟩, ⟨.identifier, .str "x", "x", 1, 6⟩,
    ⟨.equal, .empty, "=", 1, 8⟩, ⟨.number, .number 1, "1", 1, 10⟩, Token.eof 1 10]

/-- With the variable keyword spelled `let`, `burn x = 1` is written `let x = 1`, which reads as the
same declaration. -/
theorem declaration_respelled_as_let :
    String.ofList (respell .standard (KeywordTable.standard.set .varKw "let") "burn x = 1".toList) =
        "let x = 1" ∧
      ∃ toks, tokenize (KeywordTable.standard.set .varKw "let") "let x = 1" = .ok toks ∧
        parse toks = .ok [.var "x" (.number 1)] := by
  have hr : String.ofList (respell .standard (KeywordTable.standard.set .varKw "let")
      "burn x = 1".toList) = "let x = 1" := by decide +kernel
  have htok : tokenize .standard "burn x = 1" = .ok declarationTokens := by with_unfolding_all rfl
  have hparse : parse declarationTokens = .ok [.var "x" (.number 1)] := by with_unfolding_all rfl
  -- the one name of the text, `x`, is no spelling of the new table
  have hid : ∀ tk ∈ declarationTokens, tk.kind = .identifier →
      ∀ k, (KeywordTable.standard.set .varKw "let").spelling k ≠ tk.text := by
    intro tk htk hk k
    simp only [declarationTokens, List.mem_cons, List.not_mem_nil, or_false] at htk
    rcases htk with rfl | rfl | rfl | rfl | rfl <;>
      first | exact absurd hk (by decide) | (cases k <;> decide)
  obtain ⟨toks', htok', -, hsame⟩ :=
    keyword_respelling.1 .standard _ "burn x = 1" _ (by decide +kernel) htok hid
  rw [hr] at htok'
  refine ⟨hr, toks', htok', ?_⟩
  rcases hsame with ⟨prog, h1, h2⟩ | ⟨e, _, h1, -⟩
  · rw [hparse, Except.ok.injEq] at h1
    exact h1 ▸ h2
  · rw [hparse] at h1
    cases h1

end Arson.Syntax
