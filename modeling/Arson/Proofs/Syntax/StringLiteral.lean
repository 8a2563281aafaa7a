import Arson.Proofs.Syntax.LongestMatch
/-!
# String literals

A string is written between two equal quotes with a backslash before every backslash and every
quote of that kind (`escapeBody`). The lexer reads such a text back as one string token, whose
literal is the string and whose source text is the whole text, and then the end mark
(`tokenize_quoted`).

Conversely, the literal of every string token the lexer gives, from whatever text, is its source
text between the quotes read left to right by `decodeEscapes`: a backslash and the character
after it stand for a newline after `n`, a tab after `t`, and for that character otherwise
(`string_token_decodes`). Both rest on the string bodies of the token grammar (`StringBody`):
the written body of a string is one (`StringBody.escapeBody`), and every one decodes to its text
(`StringBody.decodeEscapes_eq`).
-/
namespace Arson.Syntax

/-- The body of a string written between quotes `q`: a backslash before every backslash and
every `q`. -/
def escapeBody (q : Char) : List Char → List Char
  | [] => []
  | c :: cs => if c = '\\' ∨ c = q then '\\' :: c :: escapeBody q cs else c :: escapeBody q cs

/-- The text a string body stands for, read left to right: a backslash and the character after it
stand for a newline after `n`, a tab after `t` and that character otherwise; every other
character stands for itself. -/
def decodeEscapes : List Char → List Char
  | '\\' :: 'n' :: cs => '\n' :: decodeEscapes cs
  | '\\' :: 't' :: cs => '\t' :: decodeEscapes cs
  | '\\' :: c :: cs => c :: decodeEscapes cs
  | c :: cs => c :: decodeEscapes cs
  | [] => []

theorem decodeEscapes_escape (e : Char) (cs : List Char) :
    decodeEscapes ('\\' :: e :: cs) = unescape e :: decodeEscapes cs := by
  by_cases hn : e = 'n'
  · subst hn
    rw [decodeEscapes]
    rfl
  · by_cases ht : e = 't'
    · subst ht
      rw [decodeEscapes]
      rfl
    · rw [decodeEscapes.eq_3 e cs hn ht]
      unfold unescape
      split <;> simp_all

theorem decodeEscapes_plain {c : Char} (hc : c ≠ '\\') (cs : List Char) :
    decodeEscapes (c :: cs) = c :: decodeEscapes cs := by
  rw [decodeEscapes.eq_def]
  split <;> simp_all

/-- Every string body decodes to the text it stands for. -/
theorem StringBody.decodeEscapes_eq {q : Char} {body text : List Char}
    (h : StringBody q body text) : decodeEscapes body = text := by
  induction h with
  | nil => rw [decodeEscapes]
  | plain _ hc _ ih => rw [decodeEscapes_plain hc, ih]
  | escape _ ih => rw [decodeEscapes_escape, ih]

/-- The written body of a string is a string body standing for it: an escaped backslash or quote
stands for itself. -/
theorem StringBody.escapeBody {q : Char} (hq : q = '"' ∨ q = '\'') :
    ∀ x : List Char, StringBody q (escapeBody q x) x
  | [] => .nil
  | c :: cs => by
    rw [Syntax.escapeBody]
    split
    case isTrue hc =>
      -- `\\` and `\q` are escapes that `unescape` leaves alone
      have hkeep : unescape c = c := by
        rcases hc with rfl | rfl
        · rfl
        · rcases hq with rfl | rfl <;> rfl
      simpa only [hkeep] using StringBody.escape (e := c) (StringBody.escapeBody hq cs)
    case isFalse hc =>
      rw [not_or] at hc
      exact .plain hc.2 hc.1 (StringBody.escapeBody hq cs)

/-- A string written between quotes is read back as one string token, holding the string and the
whole text, followed by the end mark. -/
theorem tokenize_quoted (t : KeywordTable) {q : Char} (hq : q = '"' ∨ q = '\'') (x : String) :
    tokenize t (String.ofList (q :: escapeBody q x.toList ++ [q])) =
      .ok [⟨.string, .str x, String.ofList (q :: escapeBody q x.toList ++ [q]), 1, 1⟩,
        Token.eof 1 1] := by
  have hqb : q ≠ '\\' := by rcases hq with rfl | rfl <;> decide
  have hbody : stringBody q (escapeBody q x.toList ++ [q]) =
      some (x.toList, escapeBody q x.toList ++ [q]) :=
    stringBody_complete hqb (StringBody.escapeBody hq x.toList) []
  have hscan := @scanOne_string t q (escapeBody q x.toList ++ [q]) ⟨1, 1⟩ _ _ hq hbody
  unfold tokenize
  rw [String.toList_ofList, List.cons_append, scanFrom_token hscan, List.drop_length,
    scanFrom_nil, String.ofList_toList]
  rfl

/-- Every token the lexer reads is a lexeme of the token grammar with the token's kind, literal
and source text. -/
theorem Munch.lexemes {t : KeywordTable} {before cs : List Char} {toks : List Token}
    (h : Munch t before cs toks) :
    ∀ tk ∈ toks, ∃ lex, Lexeme t lex tk.kind tk.literal ∧
      tk.lexeme = String.ofList lex := by
  induction h with
  | done => simp
  | spacing _ _ ih => exact ih
  | comment _ _ _ ih => exact ih
  | @token before lex rest toks k lit hl _ _ ih =>
    intro tk htk
    rcases List.mem_cons.mp htk with rfl | htk
    · exact ⟨lex, hl, rfl⟩
    · exact ih tk htk

/-- A lexeme of the string kind is a quoted string body. -/
theorem Lexeme.of_string {t : KeywordTable} {lex : List Char} {lit : Literal}
    (h : Lexeme t lex .string lit) :
    ∃ q body text, (q = '"' ∨ q = '\'') ∧ lex = q :: body ++ [q] ∧
      StringBody q body text ∧ lit = .str (String.ofList text) := by
  cases h with
  | symbol hs =>
    unfold symbolKind? at hs
    split at hs <;> cases hs
  | comparison hk | comparisonEq hk =>
    unfold comparisonKinds? at hk
    split at hk <;> cases hk
  | string hq hb => exact ⟨_, _, _, hq, rfl, hb, rfl⟩

/-- The literal of every string token the lexer gives is its source text between the quotes,
decoded. -/
theorem string_token_decodes {t : KeywordTable} {s : String} {toks : List Token}
    (h : tokenize t s = .ok toks) (tk : Token) (htk : tk ∈ toks) (hk : tk.kind = .string) :
    ∃ q body, (q = '"' ∨ q = '\'') ∧ tk.lexeme.toList = q :: body ++ [q] ∧
      tk.literal = .str (String.ofList (decodeEscapes body)) := by
  obtain ⟨body, e, rfl, he, -, -, hm⟩ := tokenize_sound h
  rcases List.mem_append.mp htk with htk | htk
  · obtain ⟨lex, hl, hlex⟩ := hm.lexemes tk htk
    rw [hk] at hl
    obtain ⟨q, b, text, hq, rfl, hb, hlit⟩ := hl.of_string
    refine ⟨q, b, hq, by rw [hlex, String.toList_ofList], ?_⟩
    rw [hlit, hb.decodeEscapes_eq]
  · rw [List.mem_singleton.mp htk, he] at hk
    cases hk

/-- Quoting a string and reading it back gives the string, under any keyword table. -/
theorem quoted_string_round_trip (t : KeywordTable) :
    (∀ q, (q = '"' ∨ q = '\'') → ∀ x : String,
      tokenize t (String.ofList (q :: escapeBody q x.toList ++ [q])) =
        .ok [⟨.string, .str x, String.ofList (q :: escapeBody q x.toList ++ [q]), 1, 1⟩,
          Token.eof 1 1]) ∧
    ∀ s toks, tokenize t s = .ok toks → ∀ tk ∈ toks, tk.kind = .string →
      ∃ q body, (q = '"' ∨ q = '\'') ∧ tk.lexeme.toList = q :: body ++ [q] ∧
        tk.literal = .str (String.ofList (decodeEscapes body)) :=
  ⟨fun _ hq x => tokenize_quoted t hq x,
    fun _ _ h tk htk hk => string_token_decodes h tk htk hk⟩

/-- A single-quoted string holding both quotes, a backslash and a newline. -/
theorem quoted_string_round_trip_mixed :
    ('\'' = '"' ∨ '\'' = '\'') ∧
      tokenize .standard (String.ofList ('\'' :: escapeBody '\'' "it's \\ \"ok\"\n".toList ++
        ['\''])) =
        .ok [⟨.string, .str "it's \\ \"ok\"\n",
          String.ofList ('\'' :: escapeBody '\'' "it's \\ \"ok\"\n".toList ++ ['\'']), 1, 1⟩,
          Token.eof 1 1] :=
  ⟨.inr rfl, (quoted_string_round_trip .standard).1 '\'' (.inr rfl) "it's \\ \"ok\"\n"⟩

example : escapeBody '"' "a\\\"b".toList = "a\\\\\\\"b".toList := by decide

end Arson.Syntax
