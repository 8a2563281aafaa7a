import Arson.Text.Letter
import Arson.Text.Blank
/-! # Log filters

A filter is a comma-separated list of directives. A directive is read character by character
after its surrounding blanks are trimmed, while the texts it names are cut from the untrimmed
directive at the same byte positions, so that leading blanks shift them. It starts with a letter,
a numeral, `-`, `:`, `_` or `[`. A target runs up to `=` or `[`; a span is written in brackets,
optionally with fields in braces; a level follows `=`. A directive with neither `=` nor a span is a
level if it reads as one and a target otherwise. A level is a number from 0 to 5 (an optional `+`,
then digits), one of `off`, `error`, `warn`, `info`, `debug`, `trace` in any case, or nothing,
which means `error`. An event is shown when the directive with the longest target that is a prefix
of the event's target allows its level; a directive with no target concerns every target and a
directive naming a span or fields concerns no event here, since no event is inside a span. Text
that is no directive is passed over with a warning.
-/
namespace Arson.Cli

/-- Levels of events, from the most severe. -/
inductive Level where
  | error | warn | info | debug | trace
deriving Repr, DecidableEq

/-- The rank of a level: more verbose levels rank higher. -/
def Level.rank : Level → Nat
  | .error => 1 | .warn => 2 | .info => 3 | .debug => 4 | .trace => 5

/-- How a level is written at the start of a log line, right-aligned in five columns. -/
def Level.tag : Level → String
  | .error => "ERROR" | .warn => " WARN" | .info => " INFO" | .debug => "DEBUG" | .trace => "TRACE"

/-- A directive: the target it concerns (none for all) and the highest rank it allows. -/
structure Directive where
  target : Option String
  allows : Nat
deriving Repr

/-- The rank a level text allows, or none if it is no level. -/
def readLevel? (s : String) : Option Nat :=
  let digits := match s.toList with
    | '+' :: r => r
    | r => r
  if !digits.isEmpty && digits.all Char.isDigit then
    let n := digits.foldl (fun a c => 10 * a + (c.toNat - '0'.toNat)) 0
    if n ≤ 5 then some n else none
  else
    match String.ofList (s.toList.map Char.toLower) with
    | "" => some 1 | "off" => some 0 | "error" => some 1 | "warn" => some 2 | "info" => some 3
    | "debug" => some 4 | "trace" => some 5
    | _ => none

/-- Characters that may start a directive besides `[`. -/
def startsTarget (c : Char) : Bool :=
  Text.isLetterOrNumeral c || c == '-' || c == ':' || c == '_'

/-- Where the reading of a directive stands; positions are byte offsets where a text begins. -/
inductive Stage where
  | start
  /-- A word that is a level or a target. -/
  | levelOrTarget (first : Nat)
  /-- After a span: only `=` may follow. -/
  | afterSpan
  | span (first : Nat)
  | field (first : Nat)
  /-- After the fields of a span: only `]` may follow. -/
  | afterFields
  | level (first : Nat)
deriving Repr

/-- What a directive reads as. -/
inductive Parsed where
  /-- A directive for events. -/
  | directive (d : Directive)
  /-- A directive that names a span or fields, and so concerns no event outside a span. -/
  | spans
  /-- Text that is no directive. -/
  | unreadable
  /-- A directive whose level is no level. -/
  | badLevel
deriving Repr

/-- Reads the characters of a trimmed directive, each with its byte offset, given how to cut a
text between two offsets; returns the stage reached, the target and whether a span was named. -/
def readStages (cut : Nat → Nat → String) :
    List (Nat × Char) → Stage → Option String → Bool → Except Parsed (Stage × Option String × Bool)
  | [], st, target, spans => .ok (st, target, spans)
  | (i, c) :: rest, st, target, spans =>
    match st with
    | .start =>
      if c == '[' then readStages cut rest (.span (i + 1)) target spans
      else if startsTarget c then readStages cut rest (.levelOrTarget i) target spans
      else .error .unreadable
    | .levelOrTarget a =>
      if c == '=' then readStages cut rest (.level (i + 1)) (some (cut a i)) spans
      else if c == '[' then readStages cut rest (.span (i + 1)) (some (cut a i)) spans
      else readStages cut rest st target spans
    | .afterSpan =>
      if c == '=' then readStages cut rest (.level (i + 1)) target spans else .error .unreadable
    | .span _ =>
      if c == ']' then readStages cut rest .afterSpan target true
      else if c == '{' then readStages cut rest (.field (i + 1)) target true
      else readStages cut rest st target spans
    | .field a =>
      if c == '}' then
        if cut a i == "" then .error .unreadable else readStages cut rest .afterFields target spans
      else readStages cut rest st target spans
    | .afterFields =>
      if c == ']' then readStages cut rest .afterSpan target spans else .error .unreadable
    | .level _ => readStages cut rest st target spans

/-- Reads one directive. -/
def Directive.read (s : String) : Parsed :=
  let bytes := s.toUTF8
  let cut (a b : Nat) : String := (String.fromUTF8? (bytes.extract a b)).getD ""
  let trimmed := Text.trim s
  let indexed := (trimmed.toList.foldl (fun (acc, off) c => (acc ++ [(off, c)], off + c.utf8Size))
    (([] : List (Nat × Char)), 0)).1
  let done (target : Option String) (allows : Nat) (spans : Bool) : Parsed :=
    if spans then .spans else .directive ⟨target, allows⟩
  match readStages cut indexed .start none false with
  | .error p => p
  | .ok (st, target, spans) =>
    match st with
    | .levelOrTarget a =>
      let word := cut a bytes.size
      if word == "" then done none 5 spans
      else match readLevel? word with
        | some r => done none r spans
        | none => done (some word) 5 spans
    | .level a =>
      match readLevel? (cut a bytes.size) with
      | some r => done target r spans
      | none => .badLevel
    | .span _ | .field _ => .unreadable
    | .start | .afterSpan | .afterFields => done target 5 spans

abbrev LogFilter := List Directive

def directives (s : String) : List String := (s.splitOn ",").filter (!·.isEmpty)

/-- Reads a filter. -/
def LogFilter.read (s : String) : LogFilter :=
  (directives s).filterMap fun d =>
    match Directive.read d with
    | .directive x => some x
    | _ => none

/-- The warnings about the directives of a filter that are passed over, one line each. -/
def LogFilter.warnings (s : String) : String :=
  String.join ((directives s).filterMap fun d =>
    match Directive.read d with
    | .unreadable => some ("ignoring `" ++ d ++ "`: invalid filter directive\n")
    | .badLevel => some ("ignoring `" ++ d ++ "`: error parsing level filter: expected one of " ++
        "\"off\", \"error\", \"warn\", \"info\", \"debug\", \"trace\", or a number 0-5\n")
    | _ => none)

/-- Whether an event of a level at a target is shown. -/
def LogFilter.shows (f : LogFilter) (target : String) (l : Level) : Bool :=
  let concerns := f.filter fun d =>
    match d.target with
    | some t => target.startsWith t
    | none => true
  let length (d : Directive) : Nat := (d.target.map String.length).getD 0
  let best := concerns.foldl (fun (b : Option Directive) d =>
    match b with
    | some bd => if length d ≥ length bd then some d else b
    | none => some d) none
  match best with
  | some d => l.rank ≤ d.allows
  | none => false

def logLine (l : Level) (target message : String) : String :=
  l.tag ++ " " ++ target ++ ": " ++ message ++ "\n"

end Arson.Cli
