import Arson.Format.Json
import Arson.Syntax.Token
import Arson.Number.Layout
/-! # The token dump

Tokens as JSON objects with the fields `type`, `value`, `content`, `line` and `column`, in that
order. The value is the decoded number or text, or null; numbers are written in the dump's number
format, where infinity is null.
-/
namespace Arson.Format

open Arson.Syntax

/-- The JSON of a token's decoded value. -/
def literalJson : Literal → Json
  | .empty => .null
  | .number x => .number (Number.dumpText x)
  | .str s => .str s

def tokenJson (t : Token) : Json :=
  .obj [("type", .str t.kind.name), ("value", literalJson t.literal), ("content", .str t.lexeme),
    ("line", .number (toString t.line)), ("column", .number (toString t.column))]

/-- The token dump: a pretty JSON array of the tokens, with no final newline. -/
def dumpTokens (ts : List Token) : String := (Json.arr (ts.map tokenJson)).pretty 0

end Arson.Format
