/-! # Faults of TOML documents

A reading fault stands at one position of the document, a character index. On its way out of the
reader it gathers notes, innermost first: labels naming what was being read and the tokens that
could have stood there; it may also carry a cause. Its message names the first label ("invalid
integer"), then every expected token, then the cause, one per line. A final fault ends the reading
at once; any other lets an alternative be tried.

A fault is shown with the line it stands on and carets under the characters it spans. The column
counts characters when the character at the position is ASCII and bytes when it is not; a fault
at the end of the text stands one column past the last character of the last line.
-/
namespace Arson.Format.Toml

/-- A note a fault gathers on its way out of the reader. -/
inductive Note where
  /-- What was being read. -/
  | label (what : String)
  /-- A token that could have stood at the position. -/
  | expected (what : String)
deriving Repr, DecidableEq

/-- A reading fault: its position, its notes, its cause, and whether it ends the reading. -/
structure Failure where
  pos : Nat
  notes : List Note := []
  cause : Option String := none
  final : Bool := false
deriving Repr, Inhabited

/-- The outcome of reading from a position: a value and the position after it. -/
abbrev Read (α : Type) := Except Failure (α × Nat)

/-- A fault at a position that lets an alternative be tried. -/
def miss (pos : Nat) : Failure := { pos }

/-- A fault at a position that ends the reading, with its notes. -/
def stop (pos : Nat) (notes : List Note) : Failure := { pos, notes, final := true }

/-- A fault that ends the reading, with the cause it names. -/
def stopWith (pos : Nat) (cause : String) : Failure := { pos, cause := some cause, final := true }

def Failure.cut (f : Failure) : Failure := { f with final := true }

def Failure.addNotes (f : Failure) (ns : List Note) : Failure := { f with notes := f.notes ++ ns }

/-- A reading whose fault, if any, ends the reading. -/
def Read.cut {α : Type} (r : Read α) : Read α := r.mapError Failure.cut

/-- A reading whose fault, if any, gathers more notes. -/
def Read.addNotes {α : Type} (r : Read α) (ns : List Note) : Read α :=
  r.mapError (·.addNotes ns)

def Read.mapValue {α β : Type} (r : Read α) (f : α → β) : Read β :=
  r.map fun (a, j) => (f a, j)

/-- A reading, or, when it fails without ending the reading, another one. -/
def Read.orElse {α : Type} (r : Read α) (other : Unit → Read α) : Read α :=
  match r with
  | .error f => if f.final then .error f else other ()
  | ok => ok

/-- The message of a fault: the first label, the expected tokens and the cause, a line each. -/
def Failure.message (f : Failure) : String :=
  let label := f.notes.findSome? fun | .label s => some s | _ => none
  let expected := f.notes.filterMap fun | .expected s => some s | _ => none
  let parts := (label.map ("invalid " ++ ·)).toList ++
    (if expected.isEmpty then [] else ["expected " ++ ", ".intercalate expected]) ++ f.cause.toList
  "\n".intercalate parts

/-- A fault as it is shown: its message and where it stands, if anywhere: its first character and
its width in bytes. -/
structure Fault where
  span : Option (Nat × Nat)
  message : String
deriving Repr, Inhabited

/-- The number of bytes of the characters from `a` up to `b`. -/
def byteWidth (cs : Array Char) (a b : Nat) : Nat :=
  (cs.extract a b).foldl (fun n c => n + c.utf8Size) 0

/-- The fault of a failure: it spans the character at its position, or nothing at the end. -/
def Failure.toFault (f : Failure) (cs : Array Char) : Fault :=
  ⟨some (f.pos, byteWidth cs f.pos (f.pos + 1)), f.message⟩

/-- The place of the characters from `a` up to `b`: the first one and their width in bytes. -/
def place (cs : Array Char) (a b : Nat) : Nat × Nat := (a, byteWidth cs a b)

/-- The line and column of a position, both from zero. -/
def position (cs : Array Char) (i : Nat) : Nat × Nat :=
  if cs.size = 0 then (0, i) else
  let safe := min i (cs.size - 1)
  let past := i - safe
  let before := (cs.extract 0 safe).toList
  let lineStart := safe - (before.reverse.takeWhile (· ≠ '\n')).length
  let line := (before.take lineStart).count '\n'
  let ascii := match cs[safe]? with
    | some c => c.toNat < 0x80
    | none => true
  let column := if past > 0 || ascii then safe - lineStart else byteWidth cs lineStart safe
  (line, column + past)

def spaces (n : Nat) : String := String.ofList (List.replicate n ' ')

/-- A fault shown with its line and carets under its span; a fault without a span is its message
alone. -/
def Fault.render (f : Fault) (text : String) : String :=
  match f.span with
  | none => f.message ++ "\n"
  | some (a, width) =>
    let cs := text.toList.toArray
    let (line, column) := position cs a
    let lineNo := toString (line + 1)
    let gutter := spaces (lineNo.length + 1)
    let content := ((text.splitOn "\n")[line]?).getD ""
    let room := max 1 (content.utf8ByteSize - column)
    let carets := max 1 (min width room)
    "TOML parse error at line " ++ lineNo ++ ", column " ++ toString (column + 1) ++ "\n" ++
      gutter ++ "|\n" ++ lineNo ++ " | " ++ content ++ "\n" ++
      gutter ++ "|" ++ spaces (column + 1) ++ String.ofList (List.replicate carets '^') ++ "\n" ++
      f.message ++ "\n"

end Arson.Format.Toml
