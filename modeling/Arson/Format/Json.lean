/-! # JSON documents

A small JSON value type with two writers: compact, and pretty with two spaces of indentation per
level. Numbers are kept as their written text, so that the writer of a number decides its form.
Strings escape the quote, the backslash and the control characters; all else is written as is.
-/
namespace Arson.Format

/-- A JSON value; a number is its text. -/
inductive Json where
  | null
  | bool (b : Bool)
  | number (text : String)
  | str (s : String)
  | arr (items : List Json)
  | obj (fields : List (String × Json))
deriving Repr, Inhabited

/-- The four hexadecimal digits of a code unit below `0x10000`, in lower case. -/
def hex4 (n : Nat) : String :=
  let d (k : Nat) : Char := (Nat.toDigits 16 ((n / Nat.pow 16 k) % 16)).headD '0'
  String.ofList [d 3, d 2, d 1, d 0]

/-- The escape of one character inside a JSON string. -/
def escapeChar (c : Char) : String :=
  match c with
  | '"' => "\\\""
  | '\\' => "\\\\"
  | '\n' => "\\n"
  | '\t' => "\\t"
  | '\r' => "\\r"
  | '\x08' => "\\b"
  | '\x0c' => "\\f"
  | c => if c.toNat < 0x20 then "\\u" ++ hex4 c.toNat else String.singleton c

def quote (s : String) : String :=
  "\"" ++ String.join (s.toList.map escapeChar) ++ "\""

mutual
/-- The compact text of a value. -/
def Json.compact : Json → String
  | .null => "null"
  | .bool b => if b then "true" else "false"
  | .number t => t
  | .str s => quote s
  | .arr items => "[" ++ compactItems items ++ "]"
  | .obj fields => "\x7b" ++ compactFields fields ++ "\x7d"

/-- The compact texts of array items, joined by commas. -/
def compactItems : List Json → String
  | [] => ""
  | [x] => x.compact
  | x :: xs => x.compact ++ "," ++ compactItems xs

/-- The compact texts of object fields, joined by commas. -/
def compactFields : List (String × Json) → String
  | [] => ""
  | [(k, v)] => quote k ++ ":" ++ v.compact
  | (k, v) :: kvs => quote k ++ ":" ++ v.compact ++ "," ++ compactFields kvs
end

def indent (level : Nat) : String := String.ofList (List.replicate (2 * level) ' ')

mutual
/-- The pretty text of a value at an indentation level. -/
def Json.pretty (level : Nat) : Json → String
  | .arr [] => "[]"
  | .obj [] => "\x7b\x7d"
  | .arr items => "[\n" ++ prettyItems (level + 1) items ++ "\n" ++ indent level ++ "]"
  | .obj fields => "\x7b\n" ++ prettyFields (level + 1) fields ++ "\n" ++ indent level ++ "\x7d"
  | v => v.compact

/-- Pretty array items, one a line. -/
def prettyItems (level : Nat) : List Json → String
  | [] => ""
  | [x] => indent level ++ x.pretty level
  | x :: xs => indent level ++ x.pretty level ++ ",\n" ++ prettyItems level xs

/-- Pretty object fields, one a line. -/
def prettyFields (level : Nat) : List (String × Json) → String
  | [] => ""
  | [(k, v)] => indent level ++ quote k ++ ": " ++ v.pretty level
  | (k, v) :: kvs =>
    indent level ++ quote k ++ ": " ++ v.pretty level ++ ",\n" ++ prettyFields level kvs
end

end Arson.Format
