import Arson.Eval.Interpreter
import Arson.Syntax.Lexer
import Arson.Syntax.Parser
import Arson.Syntax.KeywordFile
import Arson.Report
/-! # Sessions

A session runs source texts one after another on one machine: each text is split into tokens,
parsed, and run, and the bindings, the heap and the input it leaves are there for the next text.
Each step reports its own output and its fault, if any.
-/
namespace Arson

open Arson.Syntax Arson.Eval

/-- The fuel of a run: more steps than any program that ends takes. -/
def runFuel : Nat := Nat.pow 2 62

/-- Why a step failed. -/
inductive Failure where
  | lex (e : LexError)
  | parse (e : ParseError)
  | run (f : Eval.Fault)
  | fuel

/-- The report of a lexing fault, at its position. -/
def Syntax.LexError.report (e : LexError) : Report :=
  { kind := .lexError, message := e.message, line := e.position.line, column := e.position.column }

/-- The report of a parse fault, at its token. -/
def Syntax.ParseError.report (e : ParseError) : Report :=
  { kind := .parseError, message := e.message, help := e.help, line := e.token.line,
    column := e.token.column }

/-- The report of a runtime fault; runtime faults have no position. -/
def Eval.Fault.report (f : Eval.Fault) : Report :=
  { kind := f.cause.kind, message := f.cause.message, help := f.help, suggestion := f.suggestion }

/-- The report of a refused keyword file. -/
def Syntax.ConfigFault.report (text : String) (f : ConfigFault) : Report :=
  { kind := .configError, message := f.message text }

/-- The report of a failed step. -/
def Failure.report : Failure → Report
  | .lex e => e.report
  | .parse e => e.report
  | .run f => f.report
  | .fuel => { kind := .valueError, message := "Evaluation ran out of fuel" }

/-- A session: the keyword table and the machine. -/
structure Session where
  table : KeywordTable
  machine : Machine

/-- What one step did: its output and its failure. -/
structure Step where
  output : String
  failure : Option Failure

/-- A fresh session reading the given input. -/
def Session.new (table : KeywordTable) (input : String) (tracing : Bool := false) : Session :=
  ⟨table, { input := input.toList, tracing := tracing }⟩

/-- Runs a parsed program on the session's machine. -/
def Session.runProgram (s : Session) (prog : List Stmt) : Session × Step :=
  let m := { s.machine with output := "" }
  let (res, m') := (Eval.runProgram runFuel prog).run.run m
  let failure := match res with
    | .ok () => none
    | .error (.fault f) => some (.run f)
    | .error .outOfFuel => some .fuel
  ({ s with machine := m' }, ⟨m'.output, failure⟩)

/-- Runs a source text: its tokens, its program, its run. -/
def Session.run (s : Session) (source : String) : Session × Step :=
  match tokenize s.table source with
  | .error e => (s, ⟨"", some (.lex e)⟩)
  | .ok toks =>
    match parse toks with
    | .error e => (s, ⟨"", some (.parse e)⟩)
    | .ok prog => s.runProgram prog

/-- Runs a program given as tokens. -/
def Session.runTokens (s : Session) (toks : List Token) : Session × Step :=
  match parse toks with
  | .error e => (s, ⟨"", some (.parse e)⟩)
  | .ok prog => s.runProgram prog

/-- The bindings of the top-level scope, by name. -/
def Session.globals (s : Session) : List (String × Value) :=
  s.machine.env.current.mergeSort fun a b => decide (a.1 ≤ b.1)

def Session.heap (s : Session) : Heap := s.machine.heap

/-- The name to suggest for a fault at top level: the nearest of the globals and the builtins,
when exactly one name is nearest. -/
def Session.soleSuggestion (s : Session) : Failure → Option String
  | .run f =>
    match f.help, f.cause with
    | none, .undefinedName n =>
      Text.uniqueNearest n (s.globals.map Prod.fst ++ Builtin.all.map Builtin.name)
    | _, _ => none
  | _ => none

end Arson
