/-! # Tokens

The words of the language: names, numbers, strings, the keywords of a keyword table, punctuation
and operators, and the end mark. Every token keeps its source text and the line and column of its
first character, both counted from one in characters.
-/
namespace Arson.Syntax

/-- The keywords; each has a spelling in a keyword table. -/
inductive Keyword where
  | varKw | funcKw | callKw | returnKw | ifKw | elifKw | elseKw | whileKw | forKw | rangeKw
  | trueKw | falseKw | andKw | orKw | classKw | constructorKw | selfKw | newKw | importKw
  | exportKw | moduleKw
deriving Repr, DecidableEq, Inhabited

namespace Keyword

/-- All keywords, in the order in which a table is checked. -/
def all : List Keyword :=
  [varKw, funcKw, callKw, returnKw, ifKw, elifKw, elseKw, whileKw, forKw, rangeKw, trueKw,
    falseKw, andKw, orKw, classKw, constructorKw, selfKw, newKw, importKw, exportKw, moduleKw]

/-- The name of a keyword's token kind. -/
def name : Keyword → String
  | varKw => "Var" | funcKw => "Func" | callKw => "CallMarker" | returnKw => "Return"
  | ifKw => "If" | elifKw => "Elif" | elseKw => "Else" | whileKw => "While" | forKw => "For"
  | rangeKw => "Range" | trueKw => "True" | falseKw => "False" | andKw => "And" | orKw => "Or"
  | classKw => "Class" | constructorKw => "Constructor" | selfKw => "SelfKw" | newKw => "New"
  | importKw => "Import" | exportKw => "Export" | moduleKw => "Module"

/-- The key that sets a keyword's spelling in a keyword file. -/
def key : Keyword → String
  | varKw => "var" | funcKw => "func" | callKw => "call" | returnKw => "return" | ifKw => "if"
  | elifKw => "elif" | elseKw => "else" | whileKw => "while" | forKw => "for"
  | rangeKw => "range" | trueKw => "true" | falseKw => "false" | andKw => "and" | orKw => "or"
  | classKw => "class" | constructorKw => "constructor" | selfKw => "self" | newKw => "new"
  | importKw => "import" | exportKw => "export" | moduleKw => "module"

/-- The spelling of a keyword when no table changes it. -/
def defaultSpelling : Keyword → String
  | varKw => "burn" | funcKw => "prepmatch" | callKw => "lightmatch" | returnKw => "return"
  | ifKw => "if" | elifKw => "elif" | elseKw => "else" | whileKw => "while" | forKw => "for"
  | rangeKw => "through" | trueKw => "true" | falseKw => "false" | andKw => "and"
  | orKw => "or" | classKw => "lightertype" | constructorKw => "ignite" | selfKw => "self"
  | newKw => "pullout" | importKw => "being" | exportKw => "leave" | moduleKw => "containing"

/-- Keywords that are recognised but have no grammar. -/
def isReserved : Keyword → Bool
  | classKw | constructorKw | selfKw | newKw | importKw | exportKw | moduleKw => true
  | _ => false

end Keyword

/-- The kind of a token. -/
inductive TokenKind where
  | identifier | number | string
  | keyword (k : Keyword)
  | leftParen | rightParen | leftBrace | rightBrace | leftBracket | rightBracket
  | comma | colon | period
  | plus | minus | times | divide | modulo
  | equal | equality | lessThan | lessEq | greaterThan | greaterEq
  | eof
deriving Repr, DecidableEq, Inhabited

/-- The name of a token kind, as error messages and the token dump write it. -/
def TokenKind.name : TokenKind → String
  | identifier => "Identifier" | number => "Number" | string => "String"
  | keyword k => k.name
  | leftParen => "LeftParen" | rightParen => "RightParen" | leftBrace => "LeftBrace"
  | rightBrace => "RightBrace" | leftBracket => "LeftBracket" | rightBracket => "RightBracket"
  | comma => "Comma" | colon => "Colon" | period => "Period"
  | plus => "Plus" | minus => "Minus" | times => "Times" | divide => "Divide"
  | modulo => "Modulo" | equal => "Equal" | equality => "Equality" | lessThan => "LessThan"
  | lessEq => "LessThanOrEqual" | greaterThan => "GreaterThan"
  | greaterEq => "GreaterThanOrEqual" | eof => "Eof"

/-- All token kinds, in the order of their names' listing. -/
def TokenKind.all : List TokenKind :=
  [identifier, number, string] ++ Keyword.all.map keyword ++
  [leftParen, rightParen, leftBrace, rightBrace, leftBracket, rightBracket, comma, colon, period,
    plus, minus, times, divide, modulo, equal, equality, lessThan, lessEq, greaterThan,
    greaterEq, eof]

def TokenKind.ofName? (s : String) : Option TokenKind :=
  TokenKind.all.find? (·.name == s)

/-- The decoded value a token carries. -/
inductive Literal where
  | empty
  | number (x : Float)
  | str (s : String)
deriving Repr, Inhabited

/-- A token with its source text and position. -/
structure Token where
  kind : TokenKind
  literal : Literal
  lexeme : String
  line : Nat
  column : Nat
deriving Repr, Inhabited

/-- The text of a name or a string: its decoded text, or its source text if it has none. -/
def Token.text (t : Token) : String :=
  match t.literal with
  | .str s => s
  | _ => t.lexeme

def Token.eof (line column : Nat) : Token := ⟨.eof, .empty, "", line, column⟩

end Arson.Syntax
