import Arson.Syntax.Token
import Arson.Text.Letter
/-! # Keyword tables

Every keyword can be spelled anew. A table is valid when each spelling is a name (a letter, then
letters, numerals or `_`) and no two keywords share a spelling; the first fault in the order of
`Keyword.all` is reported.
-/
namespace Arson.Syntax

/-- A spelling for each keyword. -/
structure KeywordTable where
  spelling : Keyword → String

namespace KeywordTable

/-- The spellings that no file changes. -/
def standard : KeywordTable := ⟨Keyword.defaultSpelling⟩

def set (t : KeywordTable) (k : Keyword) (s : String) : KeywordTable :=
  ⟨fun j => if j = k then s else t.spelling j⟩

/-- The keyword that a word spells, if any. A table with a spelling shared by two keywords gives
it to the later one, as a map filled in the order of `Keyword.all` keeps the last entry. -/
def keywordOf? (t : KeywordTable) (word : String) : Option Keyword :=
  Keyword.all.reverse.find? (fun k => t.spelling k == word)

/-- Why a table is refused. -/
inductive Fault where
  | badSpelling (k : Keyword) (s : String)
  | sharedSpelling (s : String) (earlier later : Keyword)
deriving Repr, DecidableEq

/-- The message of a refused table. -/
def Fault.message : Fault → String
  | .badSpelling k s => "Keyword " ++ k.name ++ " has invalid spelling '" ++ s ++ "'"
  | .sharedSpelling s j k =>
    "Spelling '" ++ s ++ "' is used by both " ++ j.name ++ " and " ++ k.name

/-- A name: a letter, then letters, numerals or `_`. -/
def isName (s : String) : Bool :=
  match s.toList with
  | [] => false
  | c :: rest => Text.isLetter c && rest.all (fun d => Text.isLetterOrNumeral d || d == '_')

/-- Checks the keywords in order against the spellings already seen. -/
def checkFrom (t : KeywordTable) (seen : List (String × Keyword)) : List Keyword → Option Fault
  | [] => none
  | k :: ks =>
    let s := t.spelling k
    if !isName s then some (.badSpelling k s)
    else match seen.find? (·.1 == s) with
      | some (_, j) => some (.sharedSpelling s j k)
      | none => t.checkFrom ((s, k) :: seen) ks

/-- The first fault of a table, in the order of `Keyword.all`. -/
def fault? (t : KeywordTable) : Option Fault := t.checkFrom [] Keyword.all

/-- The spelling of each keyword kind's name, in the order of `Keyword.all`. -/
def entries (t : KeywordTable) : List (String × String) :=
  Keyword.all.map fun k => (k.name, t.spelling k)

end KeywordTable

end Arson.Syntax
