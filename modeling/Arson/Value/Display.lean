import Arson.Value.Basic
import Arson.Number.Layout
import Arson.Text.Quoted
/-! # How values are written

Two forms: the display form, which `fire` and `str` write, and the debug form, which shows the
kind of each scalar. Containers are written element by element; a container met again while it is
still being written (a cycle) is written `[...]` or `{...}`. Dict entries appear in ascending order
of their keys.
-/
namespace Arson

/-- The display form of a value that is not a container. -/
def Value.scalarDisplay (h : Heap) : Value → String
  | .number x => Number.display x
  | .str s => s
  | .bool b => if b then "true" else "false"
  | .null => "null"
  | .builtin b => "<builtin " ++ b ++ ">"
  | .method _ n => "<method " ++ n ++ ">"
  | .function r =>
    match (h.closure r).name with
    | some n => "<function " ++ n ++ ">"
    | none => "<function>"
  | .array _ => "[...]"
  | .dict _ => "\x7b...\x7d"

/-- The list of strings written as the debug form of a list. -/
def debugStrings (xs : List String) : String :=
  "[" ++ ", ".intercalate (xs.map Text.quoted) ++ "]"

/-- The debug form of a value that is not a container. -/
def Value.scalarDebug (h : Heap) : Value → String
  | .number x => "Number(" ++ Number.display x ++ ")"
  | .str s => "Str(" ++ Text.quoted s ++ ")"
  | .bool b => "Bool(" ++ (if b then "true" else "false") ++ ")"
  | .null => "Null"
  | .builtin b => "NativeFunction(" ++ b ++ ")"
  | .method _ n => "Method(" ++ n ++ ")"
  | .function r =>
    let c := h.closure r
    "Function(" ++ c.label ++ ", " ++ debugStrings c.params ++ ", " ++
      toString c.body.length ++ " stmts)"
  | .array _ => "[...]"
  | .dict _ => "\x7b...\x7d"

/-- Writes a value with the containers on `path` still open; `debug` picks the debug form for
scalars. -/
def Value.render (debug : Bool) (h : Heap) (path : List Ref) (v : Value) : String :=
  match v with
  | .array r =>
    if r ∈ path then "[...]"
    else if _hp : path.length < h.size then
      "[" ++ ", ".intercalate ((h.items r).toList.map (Value.render debug h (r :: path))) ++ "]"
    else "[...]"
  | .dict r =>
    if r ∈ path then "\x7b...\x7d"
    else if _hp : path.length < h.size then
      "\x7b" ++ ", ".intercalate ((h.entries r).map fun (k, x) =>
        "\"" ++ k ++ "\": " ++ Value.render debug h (r :: path) x) ++ "\x7d"
    else "\x7b...\x7d"
  | v => if debug then v.scalarDebug h else v.scalarDisplay h
termination_by h.size - path.length

def Value.display (h : Heap) (v : Value) : String := v.render false h []

def Value.debug (h : Heap) (v : Value) : String := v.render true h []

end Arson
