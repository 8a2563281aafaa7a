import Arson.Cli.Arguments
import Arson.Cli.LogFilter
import Arson.Cli.Files
import Arson.Session
import Arson.Format.TokenDump
/-! # The command

`arson FILE` reads the keyword file (when one is named), then the script, splits it into tokens,
writes the token dump (when asked, even if parsing then fails), parses and runs it. Faults before
the run end the command with status 1, a fault of the run with status 2 and a panic of the
runtime with status 101; lexing and parsing faults show the script's line. With a log filter, the stages and the run's events are logged on
the error stream.
-/
namespace Arson.Cli

open Arson.Syntax Arson.Eval Arson.Format

/-- What the command did: its exit status and the texts of its two output streams. -/
structure Outcome where
  status : Nat
  stdout : String
  stderr : String
deriving Repr

/-- The log line of an event of the run. -/
def eventLine (f : LogFilter) : Event → String
  | .builtinCall name n =>
    if f.shows "arson::interpreter" .trace then
      logLine .trace "arson::interpreter"
        ("calling builtin builtin=" ++ Text.quoted name ++ " args=" ++ toString n)
    else ""
  | .functionCall label depth =>
    if f.shows "arson::interpreter" .trace then
      logLine .trace "arson::interpreter"
        ("calling function function=" ++ Text.quoted label ++ " depth=" ++ toString depth)
    else ""
  | .autoInvoke attr =>
    if f.shows "arson::interpreter" .trace then
      logLine .trace "arson::interpreter" ("auto-invoking attribute attribute=" ++ attr)
    else ""
  | .topReturn shown =>
    if f.shows "arson::interpreter" .debug then
      logLine .debug "arson::interpreter" ("program returned at top level value=" ++ shown)
    else ""

/-- A debug line of a stage, when the filter shows it. -/
def stageLine (f : LogFilter) (target message : String) : String :=
  if f.shows target .debug then logLine .debug target message else ""

/-- What the error stream shows of a panic of the thread that runs the script. -/
def panicText (message : String) : String :=
  "thread 'arson' panicked:\n" ++ message ++ "\n"

/-- Runs a parsed program as the command does, after the lines logged so far. -/
def runParsed (f : LogFilter) (logged : String) (table : KeywordTable) (file stdin : String)
    (prog : List Stmt) : Outcome :=
  let count := toString prog.length
  let logged := logged ++ stageLine f "arson::parser" ("parsed program statements=" ++ count)
  let logged := logged ++ stageLine f "arson::interpreter" ("running program statements=" ++ count)
  let (s, st) := (Session.new table stdin !f.isEmpty).runProgram prog
  let logged := logged ++ String.join (s.machine.events.toList.map (eventLine f))
  match st.failure with
  | none => ⟨0, st.output, logged⟩
  | some fl =>
    if fl.report.kind = .panic then ⟨101, st.output, logged ++ panicText fl.report.message⟩
    else ⟨2, st.output, logged ++ (fl.report.withFile file).render⟩

/-- Runs the script that the options name, with a log filter. -/
def runOptions {m : Type → Type} [Monad m] [FileAccess m] (o : Options) (stdin : String)
    (f : LogFilter) : m Outcome := do
  let fail (r : Report) : Outcome := ⟨1, "", r.render⟩
  let table : Except Outcome KeywordTable ← match o.keywords with
    | none => pure (.ok KeywordTable.standard)
    | some p => do
      match ← FileAccess.readFile p with
      | .error e =>
        let message := "Cannot read '" ++ p ++ "': " ++ e
        pure (.error (fail { kind := .configError, message := message }))
      | .ok text =>
        match KeywordTable.ofToml text with
        | .ok t => pure (.ok t)
        | .error c => pure (.error (fail (c.report text)))
  match table with
  | .error out => pure out
  | .ok table =>
    match ← FileAccess.readFile o.file with
    | .error e =>
      pure (fail { kind := .ioError, message := "Cannot read '" ++ o.file ++ "': " ++ e })
    | .ok source =>
      match tokenize table source with
      | .error e => pure (fail ((e.report.withSource source).withFile o.file))
      | .ok toks =>
        let logged :=
          stageLine f "arson::lexer" ("tokenized source count=" ++ toString toks.length)
        let dumped : Except Outcome Unit ← match o.dumpTokens with
          | none => pure (.ok ())
          | some p => do
            match ← FileAccess.writeFile p (dumpTokens toks) with
            | .ok () => pure (.ok ())
            | .error e =>
              pure (.error ⟨1, "", logged ++ Report.render
                { kind := .ioError, message := "Cannot write '" ++ p ++ "': " ++ e }⟩)
        match dumped with
        | .error out => pure out
        | .ok () =>
          match parse toks with
          | .error e =>
            pure ⟨1, "", logged ++ ((e.report.withSource source).withFile o.file).render⟩
          | .ok prog => pure (runParsed f logged table o.file stdin prog)

/-- The command on a command line, a standard input and an optional log filter; the warnings
about the filter come first on the error stream. -/
def runCommand {m : Type → Type} [Monad m] [FileAccess m] (args : List String) (stdin : String)
    (logSpec : Option String) : m Outcome := do
  match readCommandLine args with
  | .help => pure ⟨0, helpText, ""⟩
  | .version => pure ⟨0, versionText, ""⟩
  | .usage msg => pure ⟨1, "", msg⟩
  | .run o =>
    let out ← runOptions o stdin ((logSpec.map LogFilter.read).getD [])
    pure { out with stderr := (logSpec.map LogFilter.warnings).getD "" ++ out.stderr }

end Arson.Cli
