/-! # Fault reports

Every fault, from reading a keyword table to running a program, is reported as a kind, a message,
and optionally a position, the source line at that position, a file name, a help text and a
suggested name. A report is rendered line by line: the title of the kind and the message, the
position, the source line with a caret under the column, the help and the suggestion.
-/
namespace Arson

/-- The kinds of faults; a panic is a fault of the runtime itself, not of the program. -/
inductive FaultKind where
  | lexError | parseError | nameError | typeError | indexError | valueError | recursionError
  | ioError | configError | panic
deriving Repr, DecidableEq, Inhabited

/-- The tag of a kind. -/
def FaultKind.tag : FaultKind → String
  | .lexError => "LexError" | .parseError => "ParseError" | .nameError => "NameError"
  | .typeError => "TypeError" | .indexError => "IndexError" | .valueError => "ValueError"
  | .recursionError => "RecursionError" | .ioError => "IoError" | .configError => "ConfigError"
  | .panic => "Panic"

/-- The title of a kind, as a rendered report begins. -/
def FaultKind.title : FaultKind → String
  | .lexError => "Lex Error" | .parseError => "Parse Error" | .nameError => "Name Error"
  | .typeError => "Type Error" | .indexError => "Index Error" | .valueError => "Value Error"
  | .recursionError => "Recursion Error" | .ioError => "I/O Error"
  | .configError => "Config Error" | .panic => "Panic"

/-- A fault as it is reported. A line of 0 means the position is unknown. -/
structure Report where
  kind : FaultKind
  message : String
  help : Option String := none
  line : Nat := 0
  column : Nat := 0
  file : Option String := none
  sourceLine : Option String := none
  suggestion : Option String := none
deriving Repr, Inhabited

/-- Drops one carriage return at the end of a piece. -/
def dropReturn (p : List Char) : List Char :=
  if p.getLast? = some '\r' then p.dropLast else p

/-- The lines of a text, each without its line break; a carriage return before a newline goes
with the break, and a final break starts no further line. -/
def textLines (s : String) : List String :=
  let pieces := s.toList.splitOn '\n'
  let lines := pieces.dropLast.map fun p => String.ofList (dropReturn p)
  match pieces.getLast? with
  | some last => if last.isEmpty then lines else lines ++ [String.ofList last]
  | none => lines

/-- A number right-aligned in three columns. -/
def pad3 (n : Nat) : String :=
  let s := toString n
  String.ofList (List.replicate (3 - s.length) ' ') ++ s

namespace Report

/-- Attaches the line of the source at the report's position, when it has one and the line
exists. -/
def withSource (r : Report) (source : String) : Report :=
  if r.line = 0 then r
  else match (textLines source)[r.line - 1]? with
    | some l => { r with sourceLine := some l }
    | none => r

def withFile (r : Report) (file : String) : Report := { r with file := some file }

/-- The rendered report; every line ends with a newline. -/
def render (r : Report) : String :=
  let head := r.kind.title ++ ": " ++ r.message ++ "\n"
  let pos :=
    if r.line = 0 then ""
    else
      let at_ := toString r.line ++ ":" ++ toString r.column
      "  --> " ++ (match r.file with | some f => f ++ ":" ++ at_ | none => at_) ++ "\n"
  let excerpt := match r.sourceLine with
    | some l =>
      "   |\n" ++ pad3 r.line ++ " | " ++ l ++ "\n" ++
        "   | " ++ String.ofList (List.replicate (r.column - 1) ' ') ++ "^\n" ++ "   |\n"
    | none => ""
  let help := match r.help with
    | some h => "   = help: " ++ h ++ "\n"
    | none => ""
  let sugg := match r.suggestion with
    | some s => "   = Did you mean '" ++ s ++ "'?\n"
    | none => ""
  head ++ pos ++ excerpt ++ help ++ sugg

end Report

end Arson
