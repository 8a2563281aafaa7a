import Arson.Syntax.Keywords
import Arson.Format.Toml.Document
import Arson.Number.Layout
/-! # Keyword files

A keyword file is a TOML document whose root table may set the spelling of any keyword by its key
(`var`, `func`, …); keys it leaves out keep their standard spelling. Each setting must be a known
key with a string value; the first setting that is not, in the order of the document, is the
fault. The table that results must then be valid.
-/
namespace Arson.Syntax

open Arson.Format

/-- Why a keyword file is refused. -/
inductive ConfigFault where
  /-- The document is not TOML, or sets something other than a keyword to a string. -/
  | document (f : Toml.Fault)
  | table (f : KeywordTable.Fault)
deriving Repr

/-- How a float setting is shown: its display, with `.0` when it is finite and has no point. -/
def floatShown (x : Float) : String :=
  let d := Number.display x
  if x.isFinite && !d.any (· == '.') then d ++ ".0" else d

/-- What a setting that is not a string holds, as the type fault says. -/
def heldShown : Toml.Held → String
  | .value (.string s) => "string \"" ++ s ++ "\""
  | .value (.integer n) => "integer `" ++ toString n ++ "`"
  | .value (.float x) => "floating point `" ++ floatShown x ++ "`"
  | .value (.boolean b) => "boolean `" ++ (if b then "true" else "false") ++ "`"
  | .value .datetime => "map"
  | .value .array => "sequence"
  | .value (.table _) => "map"
  | .table => "map"
  | .tables => "sequence"

/-- The keys a keyword file may set. -/
def keyList : String :=
  ", ".intercalate (Keyword.all.map fun k => "`" ++ k.key ++ "`")

/-- Applies one setting of a keyword file to a table. A fault about what a setting holds stands
where that stands, or at its key when that is not known. -/
def applySetting (t : KeywordTable) (s : Toml.Setting) : Except ConfigFault KeywordTable :=
  match Keyword.all.find? (·.key == s.key) with
  | none =>
    let message := "unknown field `" ++ s.key ++ "`, expected one of " ++ keyList
    .error (.document ⟨some s.keySpan, message⟩)
  | some k =>
    match s.held with
    | .value (.string v) => .ok (t.set k v)
    | h =>
      let message := "invalid type: " ++ heldShown h ++ ", expected a string"
      .error (.document ⟨some (s.span.getD s.keySpan), message⟩)

/-- Reads a keyword file into a valid table. -/
def KeywordTable.ofToml (text : String) : Except ConfigFault KeywordTable := do
  let settings ← (Toml.settings text).mapError ConfigFault.document
  let t ← settings.foldlM applySetting KeywordTable.standard
  match t.fault? with
  | some f => throw (.table f)
  | none => pure t

/-- The message of a refused keyword file. -/
def ConfigFault.message (text : String) : ConfigFault → String
  | .document f => "Invalid keyword table: " ++ f.render text
  | .table f => f.message

end Arson.Syntax
