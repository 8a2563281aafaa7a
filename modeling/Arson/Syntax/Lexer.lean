import Arson.Syntax.Keywords
import Arson.Number.Reading
/-! # The lexer

Source text becomes tokens by longest match, left to right. Blanks (space, tab, carriage return,
newline) and comments from `#` up to the newline separate tokens. A string runs from a quote to
the next unescaped matching quote; `\n` and `\t` stand for a newline and a tab, and a backslash
before any other character stands for that character. The token list always ends with one end
mark, placed where the last scan began.
-/
namespace Arson.Syntax

/-- A position in the source: line and column, both counted from one. -/
structure Cursor where
  line : Nat
  column : Nat
deriving Repr, DecidableEq

/-- The position after one more character: a newline starts the next line. -/
def Cursor.next (p : Cursor) (c : Char) : Cursor :=
  if c = '\n' then ⟨p.line + 1, 1⟩ else ⟨p.line, p.column + 1⟩

def Cursor.skip (p : Cursor) (cs : List Char) : Cursor := cs.foldl Cursor.next p

/-- Why a text has no tokens. -/
inductive LexError where
  | unexpected (c : Char) (at_ : Cursor)
  | unterminated (at_ : Cursor)
deriving Repr, DecidableEq

/-- The message of a lexing fault. -/
def LexError.message : LexError → String
  | .unexpected c _ => "Unexpected character '" ++ String.singleton c ++ "'"
  | .unterminated _ => "Unterminated string"

/-- Where a lexing fault starts. -/
def LexError.position : LexError → Cursor
  | .unexpected _ p => p
  | .unterminated p => p

/-- The character that an escape stands for. -/
def unescape : Char → Char
  | 'n' => '\n'
  | 't' => '\t'
  | c => c

/-- The rest of a string after its opening quote: the decoded text and the source characters up to
and including the closing quote; `none` when the text ends first. -/
def stringBody (quote : Char) : List Char → Option (List Char × List Char)
  | [] => none
  | c :: rest =>
    if c = quote then some ([], [c])
    else if c = '\\' then
      match rest with
      | [] => none
      | e :: rest' => (stringBody quote rest').map fun (t, raw) => (unescape e :: t, c :: e :: raw)
    else (stringBody quote rest).map fun (t, raw) => (c :: t, c :: raw)

/-- The characters of a number after its first digit: more digits, then a point with digits. -/
def numberTail (rest : List Char) : List Char :=
  let ds := rest.takeWhile Char.isDigit
  match rest.dropWhile Char.isDigit with
  | '.' :: d :: more => if d.isDigit then ds ++ '.' :: d :: more.takeWhile Char.isDigit else ds
  | _ => ds

/-- The value of a number's source text: digits with an optional fraction. -/
def numberValue (cs : List Char) : Float :=
  let whole := cs.takeWhile Char.isDigit
  let frac := (cs.dropWhile Char.isDigit).drop 1
  Number.ofDecimal (Number.digitsValue (whole ++ frac)) (-(frac.length : Int))

def isNameChar (c : Char) : Bool := Text.isLetterOrNumeral c || c == '_'

/-- The token of a single-character symbol. -/
def symbolKind? : Char → Option TokenKind
  | '(' => some .leftParen | ')' => some .rightParen | '{' => some .leftBrace
  | '}' => some .rightBrace | '[' => some .leftBracket | ']' => some .rightBracket
  | ',' => some .comma | ':' => some .colon | '.' => some .period | '+' => some .plus
  | '-' => some .minus | '*' => some .times | '/' => some .divide | '%' => some .modulo
  | _ => none

/-- The two kinds of `=`, `<` and `>`: alone, and followed by `=`. -/
def comparisonKinds? : Char → Option (TokenKind × TokenKind)
  | '=' => some (.equal, .equality)
  | '<' => some (.lessThan, .lessEq)
  | '>' => some (.greaterThan, .greaterEq)
  | _ => none

/-- One scan: a token (or none for a blank or a comment) and the characters it took after the
first one; or the fault at the scan's start. -/
def scanOne (t : KeywordTable) (c : Char) (rest : List Char) (start : Cursor) :
    Except LexError (Option Token × List Char) :=
  let tok (k : TokenKind) (lit : Literal) (lexeme : List Char) : Option Token :=
    some ⟨k, lit, String.ofList lexeme, start.line, start.column⟩
  if c = ' ' || c = '\t' || c = '\r' || c = '\n' then .ok (none, [])
  else if c = '#' then .ok (none, rest.takeWhile (· ≠ '\n'))
  else match symbolKind? c with
  | some k => .ok (tok k .empty [c], [])
  | none => match comparisonKinds? c with
    | some (single, double) =>
      match rest with
      | '=' :: _ => .ok (tok double .empty [c, '='], ['='])
      | _ => .ok (tok single .empty [c], [])
    | none =>
      if c = '"' || c = '\'' then
        match stringBody c rest with
        | some (text, raw) => .ok (tok .string (.str (String.ofList text)) (c :: raw), raw)
        | none => .error (.unterminated start)
      else if c.isDigit then
        let more := numberTail rest
        .ok (tok .number (.number (numberValue (c :: more))) (c :: more), more)
      else if Text.isLetter c then
        let more := rest.takeWhile isNameChar
        let word := String.ofList (c :: more)
        match t.keywordOf? word with
        | some k => .ok (tok (.keyword k) .empty (c :: more), more)
        | none => .ok (tok .identifier (.str word) (c :: more), more)
      else .error (.unexpected c start)

/-- Scans the rest of a text from a position, with the start of the last scan for the end mark. -/
def scanFrom (t : KeywordTable) (cs : List Char) (pos last : Cursor) (acc : Array Token) :
    Except LexError (Array Token) :=
  match cs with
  | [] => .ok (acc.push (Token.eof last.line last.column))
  | c :: rest =>
    match scanOne t c rest pos with
    | .error e => .error e
    | .ok (tok?, taken) =>
      let acc := match tok? with
        | some tk => acc.push tk
        | none => acc
      scanFrom t (rest.drop taken.length) (pos.skip (c :: taken)) pos acc
termination_by cs.length
decreasing_by simp only [List.length_drop, List.length_cons]; omega

/-- The tokens of a source text under a keyword table. -/
def tokenize (t : KeywordTable) (source : String) : Except LexError (List Token) :=
  (scanFrom t source.toList ⟨1, 1⟩ ⟨1, 1⟩ #[]).map Array.toList

end Arson.Syntax
