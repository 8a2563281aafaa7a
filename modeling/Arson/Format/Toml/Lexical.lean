import Arson.Format.Toml.Failure
/-! # The lexical parts of TOML

Blanks, comments, newlines, the four kinds of strings and keys, each read from a position of the
document's characters. A newline is a line feed or a carriage return before one. A comment runs
to the end of its line over tabs, printable ASCII and any non-ASCII character. A basic string
takes the escapes `\b`, `\f`, `\n`, `\r`, `\t`, `\"`, `\\`, `\uXXXX` and `\UXXXXXXXX`; a
multi-line one drops a newline right after its opening quotes and a backslash that ends a line
together with the blanks and newlines after it. Literal strings take no escapes. A key is a
dotted sequence of bare words or one-line strings, with blanks around the dots.
-/
namespace Arson.Format.Toml

/-- Blanks: space and tab. -/
def isBlank (c : Char) : Bool := c == ' ' || c == '\t'

def isCommentChar (c : Char) : Bool := c == '\t' || (' ' ≤ c && c ≤ '~') || c.toNat ≥ 0x80

/-- Characters that stand for themselves in a basic string. -/
def isBasicChar (c : Char) : Bool :=
  isBlank c || c == '!' || ('#' ≤ c && c ≤ '[') || (']' ≤ c && c ≤ '~') || c.toNat ≥ 0x80

/-- Characters of a literal string. -/
def isLiteralChar (c : Char) : Bool :=
  c == '\t' || (' ' ≤ c && c ≤ '&') || ('(' ≤ c && c ≤ '~') || c.toNat ≥ 0x80

/-- Characters of a bare key. -/
def isBareChar (c : Char) : Bool := c.isAlphanum || c == '-' || c == '_'

def isHexDigit (c : Char) : Bool := c.isDigit || ('a' ≤ c && c ≤ 'f') || ('A' ≤ c && c ≤ 'F')

/-- The position after the run of characters of a class from `i`. -/
def scan (cs : Array Char) (p : Char → Bool) (i : Nat) : Nat :=
  if h : i < cs.size then
    if p cs[i] then scan cs p (i + 1) else i
  else i
termination_by cs.size - i

def textOf (cs : Array Char) (a b : Nat) : String := String.ofList (cs.extract a b).toList

/-- The position after the blanks from `i`. -/
def skipBlanks (cs : Array Char) (i : Nat) : Nat := scan cs isBlank i

/-- The position after a comment whose `#` stands at `i`. -/
def afterComment (cs : Array Char) (i : Nat) : Nat := scan cs isCommentChar (i + 1)

/-- Where a reader that took the first byte of the character at `i` stands: past an ASCII
character, and on a longer one, inside which no fault can stand. -/
def pastByte (cs : Array Char) (i : Nat) : Nat :=
  match cs[i]? with
  | some c => if c.toNat < 0x80 then i + 1 else i
  | none => i

/-- A newline. -/
def newline (cs : Array Char) (i : Nat) : Read Unit :=
  match cs[i]? with
  | some '\n' => .ok ((), i + 1)
  | some '\r' => if cs[i + 1]? == some '\n' then .ok ((), i + 2) else .error (miss (i + 1))
  | _ => .error (miss (pastByte cs i))

/-- A newline or the end of the text. -/
def lineEnding (cs : Array Char) (i : Nat) : Read Unit :=
  match newline cs i with
  | .ok r => .ok r
  | .error _ => if i ≥ cs.size then .ok ((), i) else .error (miss i)

/-- The rest of a line after a value or header: blanks, an optional comment, the line's end. -/
def lineTrailing (cs : Array Char) (i : Nat) : Read Unit :=
  let j := skipBlanks cs i
  lineEnding cs (if cs[j]? == some '#' then afterComment cs j else j)

/-- Blanks, comments and newlines, as around the values of an array; a comment there must end in
a newline. -/
def blankLines (cs : Array Char) (i : Nat) : Nat → Read Unit
  | 0 => .ok ((), i)
  | n + 1 =>
    let j := skipBlanks cs i
    match cs[j]? with
    | some '#' =>
      match newline cs (afterComment cs j) with
      | .ok (_, k) => blankLines cs k n
      | .error f => .error f
    | some '\n' | some '\r' =>
      match newline cs j with
      | .ok (_, k) => blankLines cs k n
      | .error f => .error f
    | _ => .ok ((), j)

/-- The value of hexadecimal digits. -/
def hexValue (ds : List Char) : Nat :=
  ds.foldl (fun acc c =>
    let d := if c.isDigit then c.toNat - '0'.toNat
      else if 'a' ≤ c && c ≤ 'f' then c.toNat - 'a'.toNat + 10
      else c.toNat - 'A'.toNat + 10
    16 * acc + d) 0

/-- The notes of an unknown escape. -/
def escapeNotes : List Note :=
  .label "escape sequence" ::
    (["b", "f", "n", "r", "t", "u", "U", "\\", "\""].map fun c => .expected ("`" ++ c ++ "`"))

/-- The character of exactly `width` hexadecimal digits at `i`, which must be a Unicode scalar
value. -/
def hexEscape (cs : Array Char) (i width : Nat) (label : String) : Read Char :=
  let ds := (cs.extract i (i + width)).toList.takeWhile isHexDigit
  if ds.length < width then .error (stop i [.label label])
  else
    let v := hexValue ds
    if (0xD800 ≤ v && v ≤ 0xDFFF) || v > 0x10FFFF then
      .error { stopWith i "value is out of range" with notes := [.label label] }
    else .ok (Char.ofNat v, i + width)

/-- An escape whose backslash stands at `i`. -/
def escaped (cs : Array Char) (i : Nat) : Read Char :=
  match cs[i + 1]? with
  | none => .error (miss (i + 1))
  | some 'b' => .ok ('\x08', i + 2)
  | some 'f' => .ok ('\x0c', i + 2)
  | some 'n' => .ok ('\n', i + 2)
  | some 'r' => .ok ('\r', i + 2)
  | some 't' => .ok ('\t', i + 2)
  | some '\\' => .ok ('\\', i + 2)
  | some '"' => .ok ('"', i + 2)
  | some 'u' => hexEscape cs (i + 2) 4 "unicode 4-digit hex code"
  | some 'U' => hexEscape cs (i + 2) 8 "unicode 8-digit hex code"
  | some _ => .error (stop (pastByte cs (i + 1)) escapeNotes)

/-- The close of a basic string at `j`, given its characters so far in reverse. -/
def basicClose (cs : Array Char) (j : Nat) (acc : List Char) : Read String :=
  if cs[j]? == some '"' then .ok (String.ofList acc.reverse, j + 1)
  else .error (stop j [.label "basic string"])

/-- The characters of a basic string from `j`, then its close. -/
def basicChars (cs : Array Char) (j : Nat) (acc : List Char) : Nat → Read String
  | 0 => basicClose cs j acc
  | n + 1 =>
    match cs[j]? with
    | some c =>
      if isBasicChar c then basicChars cs (j + 1) (c :: acc) n
      else if c == '\\' then
        match escaped cs j with
        | .ok (e, k) => basicChars cs k (e :: acc) n
        | .error f => if f.final then .error f else basicClose cs j acc
      else basicClose cs j acc
    | none => basicClose cs j acc

def basicString (cs : Array Char) (i : Nat) : Read String :=
  basicChars cs (i + 1) [] cs.size

/-- One or two quote marks `q` at `i` that `follows` accepts after them (two preferred): the
position after them. -/
def quotesAt (cs : Array Char) (q : Char) (i : Nat) (follows : Nat → Bool) : Option Nat :=
  if cs[i]? == some q && cs[i + 1]? == some q && follows (i + 2) then some (i + 2)
  else if cs[i]? == some q && follows (i + 1) then some (i + 1)
  else none

/-- Whether a character other than `q` stands at a position. -/
def otherThan (cs : Array Char) (q : Char) (k : Nat) : Bool :=
  match cs[k]? with
  | some c => c != q
  | none => false

/-- Whether three marks `q` stand at a position. -/
def tripleAt (cs : Array Char) (q : Char) (k : Nat) : Bool :=
  cs[k]? == some q && cs[k + 1]? == some q && cs[k + 2]? == some q

/-- The position after a newline at `i`, or `i`. -/
def optNewline (cs : Array Char) (i : Nat) : Nat :=
  match newline cs i with
  | .ok (_, j) => j
  | .error _ => i

/-- Blanks and newlines from `i`. -/
def blanksAndNewlines (cs : Array Char) (i : Nat) : Nat → Nat
  | 0 => i
  | n + 1 =>
    let j := skipBlanks cs i
    match newline cs j with
    | .ok (_, k) => blanksAndNewlines cs k n
    | .error _ => j

/-- Backslashes that end lines in a multi-line basic string, from `i`: each followed by blanks, a
newline, and any blanks and newlines. -/
def lineEndBackslashes (cs : Array Char) (i : Nat) : Nat → Option Nat
  | 0 => none
  | n + 1 =>
    if cs[i]? == some '\\' then
      match newline cs (skipBlanks cs (i + 1)) with
      | .ok (_, k) =>
        let j := blanksAndNewlines cs k cs.size
        some ((lineEndBackslashes cs j n).getD j)
      | .error _ => none
    else none

/-- One piece of the body of a multi-line basic string at `p`: its characters and the position
after it, or none. -/
def mlBasicPiece (cs : Array Char) (p : Nat) : Except Failure (Option (List Char × Nat)) :=
  match cs[p]? with
  | none => .ok none
  | some c =>
    if isBasicChar c then
      let q := scan cs isBasicChar p
      .ok (some ((cs.extract p q).toList, q))
    else if c == '\\' then
      match lineEndBackslashes cs p cs.size with
      | some q => .ok (some ([], q))
      | none =>
        match escaped cs p with
        | .ok (e, q) => .ok (some ([e], q))
        | .error f => if f.final then .error f else .ok none
    else
      match newline cs p with
      | .ok (_, q) => .ok (some (['\n'], q))
      | .error _ => .ok none

/-- The pieces of the body of a multi-line basic string from `p`. -/
def mlBasicPieces (cs : Array Char) (p : Nat) (acc : List Char) :
    Nat → Except Failure (List Char × Nat)
  | 0 => .ok (acc, p)
  | n + 1 =>
    match mlBasicPiece cs p with
    | .error f => .error f
    | .ok none => .ok (acc, p)
    | .ok (some (more, q)) => mlBasicPieces cs q (acc ++ more) n

/-- The body of a multi-line basic string from `p`: pieces, with one or two quotes between them,
and up to two quotes before the closing ones. -/
def mlBasicBody (cs : Array Char) (p : Nat) (acc : List Char) :
    Nat → Except Failure (List Char × Nat)
  | 0 => .ok (acc, p)
  | n + 1 =>
    match quotesAt cs '"' p (otherThan cs '"') with
    | some q =>
      match mlBasicPiece cs q with
      | .error f => .error f
      | .ok none => .ok (acc, q)
      | .ok (some _) =>
        match mlBasicPieces cs q (acc ++ List.replicate (q - p) '"') cs.size with
        | .error f => .error f
        | .ok (acc, r) => mlBasicBody cs r acc n
    | none => .ok (acc, p)

/-- A multi-line basic string whose opening quotes stand at `i`. -/
def mlBasicString (cs : Array Char) (i : Nat) : Read String :=
  let body : Except Failure (List Char × Nat) := do
    let (acc, p) ← mlBasicPieces cs (optNewline cs (i + 3)) [] cs.size
    let (acc, p) ← mlBasicBody cs p acc cs.size
    pure (match quotesAt cs '"' p (tripleAt cs '"') with
      | some q => (acc ++ List.replicate (q - p) '"', q)
      | none => (acc, p))
  match body with
  | .error f => .error (f.addNotes [.label "multiline basic string"])
  | .ok (acc, p) =>
    if tripleAt cs '"' p then .ok (String.ofList acc, p + 3)
    else .error (stop p [.label "multiline basic string"])

/-- A literal string whose quote stands at `i`. -/
def literalString (cs : Array Char) (i : Nat) : Read String :=
  let j := scan cs isLiteralChar (i + 1)
  if cs[j]? == some '\'' then .ok (textOf cs (i + 1) j, j + 1)
  else .error (stop j [.label "literal string"])

/-- One character or newline of a multi-line literal string at `p`. -/
def mlLiteralPiece (cs : Array Char) (p : Nat) : Option Nat :=
  match cs[p]? with
  | some c =>
    if isLiteralChar c then some (p + 1)
    else match newline cs p with
      | .ok (_, q) => some q
      | .error _ => none
  | none => none

/-- The characters and newlines of a multi-line literal string from `p`. -/
def mlLiteralPieces (cs : Array Char) (p : Nat) : Nat → Nat
  | 0 => p
  | n + 1 =>
    match mlLiteralPiece cs p with
    | some q => mlLiteralPieces cs q n
    | none => p

/-- The body of a multi-line literal string from `p`: runs of pieces with one or two marks
between them that a piece follows. -/
def mlLiteralBody (cs : Array Char) (p : Nat) : Nat → Nat
  | 0 => p
  | n + 1 =>
    match quotesAt cs '\'' p (otherThan cs '\'') with
    | some q =>
      match mlLiteralPiece cs q with
      | some _ => mlLiteralBody cs (mlLiteralPieces cs q cs.size) n
      | none => p
    | none => p

/-- Replaces each carriage return before a line feed by nothing. -/
def dropReturns : List Char → List Char
  | '\r' :: '\n' :: rest => '\n' :: dropReturns rest
  | c :: rest => c :: dropReturns rest
  | [] => []

/-- A multi-line literal string whose opening marks stand at `i`. -/
def mlLiteralString (cs : Array Char) (i : Nat) : Read String :=
  let j := optNewline cs (i + 3)
  let p := mlLiteralBody cs (mlLiteralPieces cs j cs.size) cs.size
  let r := (quotesAt cs '\'' p (tripleAt cs '\'')).getD p
  if tripleAt cs '\'' r then .ok (String.ofList (dropReturns (cs.extract j r).toList), r + 3)
  else .error (stop r [.label "multiline literal string"])

/-- A string of any kind whose first quote stands at `i`. -/
def stringAt (cs : Array Char) (i : Nat) : Read String :=
  if cs[i]? == some '"' then
    if tripleAt cs '"' i then mlBasicString cs i else basicString cs i
  else if tripleAt cs '\'' i then mlLiteralString cs i
  else literalString cs i

/-- A part of a key: its name, and the positions of its first character and after its last. -/
structure KeyPart where
  name : String
  first : Nat
  past : Nat
deriving Repr, Inhabited

/-- A simple key at `i`: a basic or literal string on one line, or a bare word. -/
def simpleKey (cs : Array Char) (i : Nat) : Read String :=
  match cs[i]? with
  | some '"' => basicString cs i
  | some '\'' => literalString cs i
  | _ =>
    let j := scan cs isBareChar i
    if j == i then .error (miss i) else .ok (textOf cs i j, j)

/-- The parts of a dotted key after its first, from `c`; a dot that no part follows is left. -/
def moreKeyParts (cs : Array Char) (parts : List KeyPart) (c : Nat) :
    Nat → Read (List KeyPart)
  | 0 => .ok (parts, c)
  | n + 1 =>
    if cs[c]? == some '.' then
      let a := skipBlanks cs (c + 1)
      match simpleKey cs a with
      | .ok (name, b) => moreKeyParts cs (parts ++ [⟨name, a, b⟩]) (skipBlanks cs b) n
      | .error f => if f.final then .error f else .ok (parts, c)
    else .ok (parts, c)

/-- How deep values may nest, and how many parts a key may have: fewer than this. -/
def nestingLimit : Nat := 80

/-- The cause of a fault of too deep a nesting. -/
def tooDeep : String := "recursion limit exceeded"

/-- A key at `i`, with the blanks around its parts; a key of too many parts is refused at `i`. -/
def key (cs : Array Char) (i : Nat) : Read (List KeyPart) :=
  let a := skipBlanks cs i
  let parts : Read (List KeyPart) := match simpleKey cs a with
    | .ok (name, b) => moreKeyParts cs [⟨name, a, b⟩] (skipBlanks cs b) cs.size
    | .error f => .error f
  match parts.addNotes [.label "key"] with
  | .ok (ps, j) =>
    if nestingLimit ≤ ps.length then .error { pos := i, cause := some tooDeep } else .ok (ps, j)
  | other => other

end Arson.Format.Toml
