import Arson.Proofs.Syntax.LongestMatch
import Arson.Proofs.Syntax.TokenBounds
import Mathlib.Data.List.Induction
/-!
# Where a syntax fault puts its caret

The lexer counts lines by newlines and columns by characters, a carriage return among them. It
puts every token and every lexing fault at the start of a scan, where the text has a character
(`OnChar`), and the end mark at the start of the last scan, or at 1:1 for an empty text. A parse
fault points at one of those tokens, and an empty text parses. So the report of a syntax fault
points at a character of the text (`syntax_fault_caret`): its line exists, `withSource` attaches
it, and the caret stands on a character of the line as the lexer counts it or right after its end.

The line attached is the line that `textLines` gives, which is the lexer's line with a carriage
return before the newline dropped. The caret of a fault at the newline of a line that ends with a
carriage return and a newline therefore stands one column past the end of the line shown
(`crlf_fault_caret_past_line`).
-/
namespace Arson.Syntax

/-! ## The lines of a text -/

section Lines

/-- The characters of a text after its last newline: its last line so far. -/
def lineSoFar (pre : List Char) : List Char := (pre.reverse.takeWhile (· ≠ '\n')).reverse

theorem lineSoFar_nil : lineSoFar [] = [] := rfl

theorem lineSoFar_newline (pre : List Char) : lineSoFar (pre ++ ['\n']) = [] := by
  simp [lineSoFar]

theorem lineSoFar_other {d : Char} (hd : d ≠ '\n') (pre : List Char) :
    lineSoFar (pre ++ [d]) = lineSoFar pre ++ [d] := by
  simp [lineSoFar, hd]

theorem positionAfter_column (pre : List Char) :
    (positionAfter pre).column = (lineSoFar pre).length + 1 := by
  simp [positionAfter, lineSoFar]

theorem length_splitOn_newline (cs : List Char) :
    (cs.splitOn '\n').length = cs.count '\n' + 1 := by
  induction cs with
  | nil => rfl
  | cons d cs ih =>
    rw [List.splitOn_cons_eq_if_modifyHead]
    by_cases hd : d = '\n'
    · simp [hd, ih]
    · simp [hd, ih]

/-- The first line of a text runs up to its first newline. -/
theorem splitOn_newline_first (rest : List Char) :
    (rest.splitOn '\n')[0]? = some (rest.takeWhile (· ≠ '\n')) := by
  induction rest with
  | nil => rfl
  | cons d rest ih =>
    rw [List.splitOn_cons_eq_if_modifyHead]
    by_cases hd : d = '\n'
    · simp [hd]
    · obtain ⟨ps, hps⟩ : ∃ ps, rest.splitOn '\n' = rest.takeWhile (· ≠ '\n') :: ps := by
        cases h : rest.splitOn '\n' with
        | nil => exact absurd h (List.splitOn_ne_nil _ _)
        | cons p ps => rw [h] at ih; cases ih; exact ⟨ps, rfl⟩
      simp [hd, hps]

/-- After the text `pre`, the line the lexer is on is the last line of `pre` continued up to
the next newline: the line numbered by the newlines of `pre`. -/
theorem splitOn_newline_count (pre rest : List Char) :
    ((pre ++ rest).splitOn '\n')[pre.count '\n']? =
      some (lineSoFar pre ++ rest.takeWhile (· ≠ '\n')) := by
  induction pre using List.reverseRecOn generalizing rest with
  | nil => simpa [lineSoFar_nil] using splitOn_newline_first rest
  | append_singleton init d ih =>
    rw [List.append_assoc, List.singleton_append]
    by_cases hd : d = '\n'
    · -- a newline closes the lines of `init` and the next line is the first of `rest`
      subst hd
      rw [List.splitOn_append_cons_self, List.count_append, List.count_singleton_self,
        ← length_splitOn_newline, List.getElem?_append_right (Nat.le_refl _), Nat.sub_self,
        lineSoFar_newline, List.nil_append]
      exact splitOn_newline_first rest
    · have hstep := ih (d :: rest)
      rw [List.takeWhile_cons_of_pos (by simpa using hd)] at hstep
      have hcount : (init ++ [d]).count '\n' = init.count '\n' := by simp [hd]
      rw [hcount, lineSoFar_other hd, List.append_assoc, List.singleton_append]
      exact hstep

theorem dropReturn_cases (p : List Char) : dropReturn p = p ∨ dropReturn p ++ ['\r'] = p := by
  unfold dropReturn
  split
  · rename_i h
    obtain ⟨ys, rfl⟩ := List.getLast?_eq_some_iff.mp h
    exact .inr (by rw [List.dropLast_concat])
  · exact .inl rfl

/-- Line `i` of `textLines` is the text's piece `i` between newlines, with a carriage return before
its newline dropped, for every piece but a last one that is empty. -/
theorem textLines_getElem? {s : String} {i : Nat} {raw : List Char}
    (h : (s.toList.splitOn '\n')[i]? = some raw)
    (hkept : raw ≠ [] ∨ i + 1 < (s.toList.splitOn '\n').length) :
    ∃ l, (textLines s)[i]? = some l ∧ (l.toList = raw ∨ l.toList ++ ['\r'] = raw) := by
  have hi : i < (s.toList.splitOn '\n').length := (List.getElem?_eq_some_iff.mp h).1
  unfold textLines
  dsimp only
  generalize s.toList.splitOn '\n' = pieces at h hkept hi
  by_cases hlast : i + 1 < pieces.length
  · -- a piece before the last one: its line, a carriage return dropped
    have hdrop : pieces.dropLast[i]? = some raw := by
      rw [List.getElem?_dropLast, if_pos (by omega), h]
    have hline : (pieces.dropLast.map fun p => String.ofList (dropReturn p))[i]? =
        some (String.ofList (dropReturn raw)) := by
      rw [List.getElem?_map, hdrop]
      rfl
    have hlen : i < (pieces.dropLast.map fun p => String.ofList (dropReturn p)).length := by
      simp only [List.length_map, List.length_dropLast]
      omega
    refine ⟨_, ?_, by rw [String.toList_ofList]; exact dropReturn_cases raw⟩
    split
    · split
      · exact hline
      · rw [List.getElem?_append_left hlen, hline]
    · exact hline
  · -- the last piece, not empty, kept as it is
    have hne : raw ≠ [] := hkept.resolve_right hlast
    have hget : pieces.getLast? = some raw := by
      rw [List.getLast?_eq_getElem?, show pieces.length - 1 = i by omega, h]
    refine ⟨String.ofList raw, ?_, .inl String.toList_ofList⟩
    rw [hget]
    dsimp only
    rw [if_neg (by simpa using hne), List.getElem?_append_right (by simp; omega)]
    simp only [List.length_map, List.length_dropLast]
    rw [show i - (pieces.length - 1) = 0 by omega]
    rfl

end Lines

/-! ## Positions on a character -/

/-- A position where the text has a character: after the characters `pre`, at the character
`c`. -/
def OnChar (cs : List Char) (p : Cursor) : Prop :=
  ∃ pre c post, cs = pre ++ c :: post ∧ p = positionAfter pre

/-- Where the lexer puts a token: on a character of the text, or at 1:1. -/
def Placed (cs : List Char) (p : Cursor) : Prop := p = ⟨1, 1⟩ ∨ OnChar cs p

theorem Placed.onChar {cs : List Char} {p : Cursor} (h : Placed cs p) (hne : cs ≠ []) :
    OnChar cs p := by
  rcases h with rfl | h
  · obtain ⟨c, post, rfl⟩ := List.exists_cons_of_ne_nil hne
    exact ⟨[], c, post, rfl, rfl⟩
  · exact h

/-- A position on a character of the text is on a line of `textLines`, at most one column past
its end: the lexer's line, with at most a carriage return dropped, and the caret's column at most
one past the end of the lexer's line. -/
theorem OnChar.line_exists {s : String} {p : Cursor} (h : OnChar s.toList p) :
    1 ≤ p.line ∧ 1 ≤ p.column ∧ ∃ raw l, (s.toList.splitOn '\n')[p.line - 1]? = some raw ∧
      p.column - 1 ≤ raw.length ∧ (textLines s)[p.line - 1]? = some l ∧
      (l.toList = raw ∨ l.toList ++ ['\r'] = raw) := by
  obtain ⟨pre, c, post, hs, rfl⟩ := h
  have hline : (positionAfter pre).line - 1 = pre.count '\n' := by simp [positionAfter]
  have hpiece := splitOn_newline_count pre (c :: post)
  rw [← hs, ← hline] at hpiece
  -- the line goes on to the next newline; at a newline, another piece follows
  have hkept : lineSoFar pre ++ (c :: post).takeWhile (· ≠ '\n') ≠ [] ∨
      (positionAfter pre).line - 1 + 1 < (s.toList.splitOn '\n').length := by
    by_cases hc : c = '\n'
    · refine .inr ?_
      rw [length_splitOn_newline, hs, hline, List.count_append, hc, List.count_cons_self]
      omega
    · exact .inl (by simp [hc])
  obtain ⟨l, hl, hraw⟩ := textLines_getElem? hpiece hkept
  refine ⟨by simp [positionAfter], by simp [positionAfter], _, l, hpiece, ?_, hl, hraw⟩
  rw [positionAfter_column, List.length_append]
  omega

/-! ## The lexer -/

section Lexer

variable {t : KeywordTable}

theorem scanOne_error_position {c : Char} {rest : List Char} {p : Cursor} {e : LexError}
    (h : scanOne t c rest p = .error e) : e.position = p := by
  dsimp only [scanOne] at h
  repeat' split at h
  all_goals first | (cases h; rfl) | cases h

/-- Every scan starts on a character of the text, and the end mark stands where the last scan
started: each token, each fault and the end mark is on a character, or the end mark of an empty
text at 1:1. -/
theorem scanFrom_onChar (t : KeywordTable) (src : List Char) :
    ∀ (cs before : List Char) (last : Cursor) (acc : Array Token), src = before ++ cs →
      Placed src last → (∀ tk ∈ acc.toList, OnChar src ⟨tk.line, tk.column⟩) →
      (∀ e, scanFrom t cs (positionAfter before) last acc = .error e → OnChar src e.position) ∧
      ∀ out, scanFrom t cs (positionAfter before) last acc = .ok out →
        ∀ tk ∈ out.toList, Placed src ⟨tk.line, tk.column⟩
  | [], before, last, acc, _, hlast, hacc => by
    refine ⟨fun e h => ?_, fun out h tk htk => ?_⟩
    · rw [scanFrom_nil] at h
      cases h
    · rw [scanFrom_nil] at h
      cases h
      rcases List.mem_append.mp (Array.toList_push ▸ htk) with htk | htk
      · exact .inr (hacc tk htk)
      · obtain rfl := List.mem_singleton.mp htk
        exact hlast
  | c :: rest, before, last, acc, hsrc, _, hacc => by
    have hon : OnChar src (positionAfter before) := ⟨before, c, rest, hsrc, rfl⟩
    -- what a scan takes is a prefix of the text after its first character
    have hnext : ∀ taken, taken <+: rest → src = (before ++ c :: taken) ++ rest.drop taken.length := by
      rintro taken ⟨r, rfl⟩
      simp [hsrc]
    rcases scanOne_spec t c rest (positionAfter before) with
      ⟨-, hs⟩ | ⟨-, hs⟩ | ⟨taken, k, lit, -, -, hpre, hs⟩ | ⟨-, e, hs⟩
    · rw [scanFrom_skip hs, Cursor.skip_positionAfter]
      exact scanFrom_onChar t src _ _ _ acc (hnext [] List.nil_prefix) (.inr hon) hacc
    · rw [scanFrom_skip hs, Cursor.skip_positionAfter]
      exact scanFrom_onChar t src _ _ _ acc (hnext _ (List.takeWhile_prefix _)) (.inr hon) hacc
    · rw [scanFrom_token hs, Cursor.skip_positionAfter]
      refine scanFrom_onChar t src _ _ _ _ (hnext taken hpre) (.inr hon) fun tk htk => ?_
      rcases List.mem_append.mp (Array.toList_push ▸ htk) with htk | htk
      · exact hacc tk htk
      · obtain rfl := List.mem_singleton.mp htk
        exact hon
    · rw [scanFrom_error hs]
      refine ⟨fun e' h => ?_, fun out h => nomatch h⟩
      cases h
      rw [scanOne_error_position hs]
      exact hon
termination_by cs => cs.length
decreasing_by
  all_goals simp only [List.length_drop, List.length_cons]
  all_goals omega

/-- A lexing fault stands on a character of the text, and every token the lexer gives on a
character or at 1:1. -/
theorem tokenize_onChar {s : String} :
    (∀ e, tokenize t s = .error e → OnChar s.toList e.position) ∧
    ∀ toks, tokenize t s = .ok toks → ∀ tk ∈ toks, Placed s.toList ⟨tk.line, tk.column⟩ := by
  have hscan := scanFrom_onChar t s.toList s.toList [] ⟨1, 1⟩ #[] rfl (.inl rfl) (by simp)
  rw [positionAfter_nil] at hscan
  unfold tokenize
  cases hrun : scanFrom t s.toList ⟨1, 1⟩ ⟨1, 1⟩ #[] with
  | error e =>
    refine ⟨fun e' h => ?_, fun _ h => nomatch h⟩
    cases h
    exact hscan.1 e hrun
  | ok out =>
    refine ⟨fun _ h => (nomatch h), fun toks h => ?_⟩
    cases h
    exact hscan.2 out hrun

theorem tokenize_empty {s : String} (hs : s.toList = []) : tokenize t s = .ok [Token.eof 1 1] := by
  unfold tokenize
  rw [hs, scanFrom_nil]
  rfl

end Lexer

/-! ## The parser -/

theorem parse_eof : parse [Token.eof 1 1] = .ok [] := by
  rw [parse, Reader.stmtsToEnd]
  exact if_pos rfl

/-- The token vector adds only an end mark at the last token's position, or at 1:1. -/
theorem withEndMark_placed {P : Cursor → Prop} {toks : List Token}
    (h : ∀ tk ∈ toks, P ⟨tk.line, tk.column⟩) (hstart : P ⟨1, 1⟩) :
    ∀ tk ∈ withEndMark toks, P ⟨tk.line, tk.column⟩ := by
  unfold withEndMark
  cases hl : toks.getLast? with
  | none =>
    intro tk htk
    obtain rfl := List.mem_singleton.mp htk
    exact hstart
  | some last =>
    dsimp only
    split
    · exact h
    · intro tk htk
      rcases List.mem_append.mp htk with htk | htk
      · exact h tk htk
      · obtain rfl := List.mem_singleton.mp htk
        exact h last (List.mem_of_getLast? hl)

/-- A parse fault points at a token of the token vector, so where the lexer puts tokens. -/
theorem parse_error_placed {cs : List Char} {toks : List Token} {e : ParseError}
    (htoks : ∀ tk ∈ toks, Placed cs ⟨tk.line, tk.column⟩) (h : parse toks = .error e) :
    Placed cs ⟨e.token.line, e.token.column⟩ := by
  have hmem : e.token ∈ withEndMark toks :=
    (withEndMark_begins_throughEnd toks).subset
      (Reader.stmtsToEnd_within _ (within_throughEnd toks) #[] e h)
  exact withEndMark_placed htoks (.inl rfl) _ hmem

/-! ## The caret -/

/-- Where a report puts its caret in a text: on a line that exists and that `withSource`
attaches, at a column at most one past the end of that line as the lexer counts it; the line
attached is the lexer's line, or it without the carriage return before its newline. -/
def CaretOnLine (s : String) (r : Report) : Prop :=
  1 ≤ r.line ∧ 1 ≤ r.column ∧ ∃ raw l, (s.toList.splitOn '\n')[r.line - 1]? = some raw ∧
    r.column - 1 ≤ raw.length ∧ (r.withSource s).sourceLine = some l ∧
    (l.toList = raw ∨ l.toList ++ ['\r'] = raw)

theorem OnChar.caretOnLine {s : String} {r : Report} (h : OnChar s.toList ⟨r.line, r.column⟩) :
    CaretOnLine s r := by
  obtain ⟨hline, hcol, raw, l, hraw, hle, hl, hlr⟩ := h.line_exists
  dsimp only at hline hcol hraw hle hl
  refine ⟨hline, hcol, raw, l, hraw, hle, ?_, hlr⟩
  rw [Report.withSource, if_neg (by omega), hl]

/-- The caret of a syntax fault always lands on the line it names, at most one column past its
end. -/
theorem syntax_fault_caret (t : KeywordTable) (s : String) :
    (∀ e, tokenize t s = .error e → CaretOnLine s e.report) ∧
    ∀ toks e, tokenize t s = .ok toks → parse toks = .error e → CaretOnLine s e.report := by
  refine ⟨fun e h => OnChar.caretOnLine (tokenize_onChar.1 e h), fun toks e htoks h => ?_⟩
  apply OnChar.caretOnLine
  have hplaced := parse_error_placed (tokenize_onChar.2 toks htoks) h
  -- an empty text parses, so the text has a character
  by_cases hs : s.toList = []
  · rw [tokenize_empty hs] at htoks
    cases htoks
    rw [parse_eof] at h
    cases h
  · exact hplaced.onChar hs

/-- A missing expression at the end of a line that ends with a carriage return and a newline. -/
theorem crlf_fault_caret_on_line :
    ∃ toks e, tokenize .standard "x = (\r\n" = .ok toks ∧ parse toks = .error e ∧
      CaretOnLine "x = (\r\n" e.report :=
  have htoks : tokenize .standard "x = (\r\n" = .ok [⟨.identifier, .str "x", "x", 1, 1⟩,
      ⟨.equal, .empty, "=", 1, 3⟩, ⟨.leftParen, .empty, "(", 1, 5⟩, Token.eof 1 7] := by
    with_unfolding_all rfl
  have hparse : parse [⟨.identifier, .str "x", "x", 1, 1⟩, ⟨.equal, .empty, "=", 1, 3⟩,
      ⟨.leftParen, .empty, "(", 1, 5⟩, Token.eof 1 7] =
        .error (.expected "expression" (Token.eof 1 7)) := by
    with_unfolding_all rfl
  ⟨_, _, htoks, hparse, (syntax_fault_caret .standard _).2 _ _ htoks hparse⟩

/-- With CRLF line ends the caret of a fault at the end mark lands two columns past the shown
line: the lexer counts the carriage return, the shown line drops it. -/
theorem crlf_fault_caret_past_line :
    ((Session.new .standard "").run "x = (\r\n").2.failure.map (fun f =>
      ((f.report.withSource "x = (\r\n").sourceLine, f.report.line, f.report.column)) =
      some (some "x = (", 1, 7) := by
  decide +kernel

end Arson.Syntax
