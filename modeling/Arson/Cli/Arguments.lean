/-! # Command-line arguments

The command takes one script path and two options that take a path each, `--dump-tokens` and
`--keywords`, written `--name value` or `--name=value`. Arguments are read left to right: `-h` or
`--help` asks for the help text and `-V` or `--version` for the version at the point where they
stand. A value is taken into its argument only when the next option, flag or path comes, or at
the end; a value that is missing, empty, or given twice to one option is refused then. An unknown
option or a second path stops the reading at once, and a fault in a value still pending is passed
over for it. After `--` every argument is a path.
-/
namespace Arson.Cli

/-- What the command line asks for when it asks to run a script. -/
structure Options where
  file : String
  dumpTokens : Option String := none
  keywords : Option String := none
deriving Repr

/-- The outcome of reading the command line. -/
inductive Request where
  | run (o : Options)
  | help
  | version
  /-- A usage fault, with the whole message. -/
  | usage (message : String)
deriving Repr

/-- The help text. -/
def helpText : String :=
  "Arson: a small dynamically typed scripting language\n\n" ++
  "Usage: arson [OPTIONS] <FILE>\n\n" ++
  "Arguments:\n  <FILE>  Path to the .arson script\n\n" ++
  "Options:\n" ++
  "      --dump-tokens <PATH>  Write the token stream to PATH as JSON\n" ++
  "      --keywords <PATH>     TOML file overriding keyword spellings\n" ++
  "  -h, --help                Print help\n" ++
  "  -V, --version             Print version\n"

def versionText : String := "arson 0.3.0\n"

/-- The closing line of every usage message. -/
def moreInfo : String := "For more information, try '--help'.\n"

/-- The similarity of two texts by the Jaro measure, as a fraction `num / den`. -/
def jaro (a b : List Char) : Nat × Nat :=
  let la := a.length
  let lb := b.length
  if la = 0 || lb = 0 then (if la = 0 && lb = 0 then (1, 1) else (0, 1)) else
  let range := (max la lb) / 2 - 1
  -- mark matches: each character of `a` takes the first free equal character of `b` in range
  let (aFlags, bFlags) := (a.zipIdx).foldl (fun (af, bf) (c, i) =>
    let lo := i - range
    let hi := min lb (i + range + 1)
    match (List.range hi).find? (fun j => lo ≤ j && b[j]? == some c && !(bf.getD j false)) with
    | some j => (af.set i true, bf.set j true)
    | none => (af, bf)) (List.replicate la false, List.replicate lb false)
  let m := (aFlags.filter id).length
  if m = 0 then (0, 1) else
  let am := (a.zip aFlags).filterMap fun (c, f) => if f then some c else none
  let bm := (b.zip bFlags).filterMap fun (c, f) => if f then some c else none
  let t := ((am.zip bm).filter fun (x, y) => x ≠ y).length / 2
  -- (m/la + m/lb + (m-t)/m) / 3
  (m * lb * m + m * la * m + (m - t) * la * lb, 3 * la * lb * m)

/-- The long option names, in the order in which the command lists them. -/
def longNames : List String := ["dump-tokens", "keywords", "help", "version"]

/-- The long option most like an unknown one, if any is more than 0.7 alike; the last of the most
alike wins. -/
def similarLong (name : String) : Option String :=
  let scored := longNames.filterMap fun n =>
    let (p, q) := jaro name.toList n.toList
    if 10 * p > 7 * q then some (n, p, q) else none
  (scored.foldl (fun best c =>
    match best with
    | none => some c
    | some (_, bp, bq) => if c.2.1 * bq ≥ bp * c.2.2 then some c else best) none).map (·.1)

/-- The arguments the command knows: the script path, the two options and the two flags. -/
inductive Slot where
  | file | dumpTokens | keywords | help | version
deriving DecidableEq, Repr

/-- How an argument is written in usage lines and messages. -/
def Slot.usage : Slot → String
  | .file => "<FILE>"
  | .dumpTokens => "--dump-tokens <PATH>"
  | .keywords => "--keywords <PATH>"
  | .help => "--help"
  | .version => "--version"

/-- The argument of a long option name. -/
def Slot.ofLong? (name : String) : Option Slot :=
  if name == "dump-tokens" then some .dumpTokens
  else if name == "keywords" then some .keywords
  else if name == "help" then some .help
  else if name == "version" then some .version
  else none

def fullUsage : String := "Usage: arson [OPTIONS] <FILE>\n"

/-- The usage line naming the arguments used, options first in the order of their use, then the
script; with nothing used it is the usage line of the whole command. -/
def usedUsage (used : List Slot) : String :=
  if used.isEmpty then fullUsage
  else
    let options := (used.filter (· != .file)).eraseDups
    "Usage: arson" ++ String.join (options.map (" " ++ ·.usage)) ++ " <FILE>\n"

/-- The group of all the arguments the command takes, as usage lines write it. -/
def groupUsage : String := "<FILE|--dump-tokens <PATH>|--keywords <PATH>>"

/-- The usage line of a flag given a value: the flag, then the script path; once an argument has
been taken, the group of all the arguments stands for the path. -/
def flagUsage (s : Slot) (used : List Slot) : String :=
  "Usage: arson " ++ s.usage ++ " " ++ (if used.isEmpty then "<FILE>" else groupUsage) ++ "\n"

/-- The message of an unknown argument, with a tip: the similar option, or how to pass the
argument as a value. -/
def unknownArgument (arg : String) (similar : Option String) (usage : String) : String :=
  let tip := match similar with
    | some n => "  tip: a similar argument exists: '--" ++ n ++ "'\n\n"
    | none => "  tip: to pass '" ++ arg ++ "' as a value, use '-- " ++ arg ++ "'\n\n"
  "error: unexpected argument '" ++ arg ++ "' found\n\n" ++ tip ++ usage ++ "\n" ++ moreInfo

/-- The message of an argument with no value, or an empty one. -/
def emptyValue (s : Slot) : String :=
  "error: a value is required for '" ++ s.usage ++ "' but none was supplied\n\n" ++ moreInfo

/-- The message of an option given twice. -/
def repeated (s : Slot) : String :=
  "error: the argument '" ++ s.usage ++ "' cannot be used multiple times\n\n" ++ fullUsage ++
    "\n" ++ moreInfo

/-- The message of a value given to a flag. -/
def unwantedValue (v : String) (s : Slot) (usage : String) : String :=
  "error: unexpected value '" ++ v ++ "' for '" ++ s.usage ++
    "' found; no more were expected\n\n" ++
    usage ++ "\n" ++ moreInfo

/-- The message of a second path. -/
def extraPath (arg : String) : String :=
  "error: unexpected argument '" ++ arg ++ "' found\n\n" ++ fullUsage ++ "\n" ++ moreInfo

/-- The message of a missing script path. -/
def missingFile (used : List Slot) : String :=
  "error: the following required arguments were not provided:\n  <FILE>\n\n" ++
    usedUsage (used ++ [.file]) ++ "\n" ++ moreInfo

/-- The state of reading the command line. A value is taken into its argument only when the
next argument that needs it settled comes, or at the end: until then it is pending. -/
structure Reading where
  /-- `--` has been passed: every argument after it is a path. -/
  trailing : Bool := false
  /-- The option that waits for its value. -/
  awaiting : Option Slot := none
  /-- The argument whose values are not taken yet, with those values. -/
  pending : Option (Slot × List String) := none
  /-- The arguments taken, in the order of their first use. -/
  used : List Slot := []
  /-- Whether a path has been seen. -/
  fileSeen : Bool := false
  file : Option String := none
  dumpTokens : Option String := none
  keywords : Option String := none

/-- Stores the value of an argument. -/
def Reading.store (r : Reading) (s : Slot) (v : String) : Reading :=
  match s with
  | .file => { r with file := some v }
  | .dumpTokens => { r with dumpTokens := some v }
  | .keywords => { r with keywords := some v }
  | _ => r

/-- Takes the pending values into their argument: none at all is refused before the argument
counts as used; a second use of an option, or an empty value, after it. Returns the reading that
results even when the values are refused, since some faults are passed over. -/
def Reading.settle (r : Reading) : Reading × Option String :=
  match r.pending with
  | none => (r, none)
  | some (s, vals) =>
    let r := { r with pending := none }
    match vals with
    | [] => (r, some (emptyValue s))
    | v :: _ =>
      if r.used.contains s then ({ r with used := r.used.erase s }, some (repeated s))
      else
        let r := { r with used := r.used ++ [s] }
        if v.isEmpty then (r, some (emptyValue s)) else (r.store s v, none)

/-- Settles the pending values, stopping at a fault. -/
def Reading.settled (r : Reading) : Except Request Reading :=
  match r.settle with
  | (_, some msg) => .error (.usage msg)
  | (r, none) => .ok r

/-- Reads a long option `--name` or `--name=value`. -/
def Reading.long (r : Reading) (body : String) : Except Request Reading :=
  let (name, inline) := match body.splitOn "=" with
    | n :: v :: vs => (n, some ("=".intercalate (v :: vs)))
    | _ => (body, none)
  match Slot.ofLong? name, inline with
  | some .help, none => do let _ ← r.settled; throw .help
  | some .version, none => do let _ ← r.settled; throw .version
  | some s@(.help), some v | some s@(.version), some v =>
    throw (.usage (unwantedValue v s (flagUsage s r.used)))
  | some s@(.dumpTokens), some v | some s@(.keywords), some v => do
    let r ← r.settled
    let r ← { r with pending := some (s, [v]) }.settled
    pure { r with awaiting := none }
  | some s@(.dumpTokens), none | some s@(.keywords), none => do
    let r ← r.settled
    pure { r with pending := some (s, []), awaiting := some s }
  | _, _ =>
    let r := r.settle.1
    let similar := similarLong name
    let used := match similar.bind Slot.ofLong? with
      | some s => if r.used.contains s then r.used else r.used ++ [s]
      | none => r.used
    throw (.usage (unknownArgument ("--" ++ name) similar (usedUsage used)))

/-- Reads a cluster of short flags `-abc`: the first one decides. -/
def Reading.short (r : Reading) (c : Char) : Except Request Reading :=
  if c == 'h' then do let _ ← r.settled; throw .help
  else if c == 'V' then do let _ ← r.settled; throw .version
  else throw (.usage (unknownArgument ("-" ++ String.singleton c) none fullUsage))

/-- Reads an argument that is a value: the awaited option's, or the path. -/
def Reading.value (r : Reading) (arg : String) : Except Request Reading :=
  match r.awaiting, r.trailing with
  | some s, false => pure { r with pending := some (s, [arg]), awaiting := none }
  | _, _ =>
    if r.fileSeen then throw (.usage (extraPath arg))
    else do
      let r ← r.settled
      pure { r with pending := some (.file, [arg]), fileSeen := true, awaiting := none }

/-- Reads one argument. -/
def Reading.step (r : Reading) (arg : String) : Except Request Reading :=
  if r.trailing then r.value arg
  else if arg == "--" then pure { r with trailing := true }
  else if arg.startsWith "--" then r.long (arg.drop 2).toString
  else match arg.toList with
    | '-' :: c :: _ => r.short c
    | _ => r.value arg

/-- What the arguments ask for once all are read. -/
def Reading.finish (r : Reading) : Request :=
  match r.settled with
  | .error req => req
  | .ok r =>
    match r.file with
    | some f => .run { file := f, dumpTokens := r.dumpTokens, keywords := r.keywords }
    | none => .usage (missingFile r.used)

/-- Reads a command line. -/
def readCommandLine (args : List String) : Request :=
  match args.foldlM Reading.step {} with
  | .error req => req
  | .ok r => r.finish

end Arson.Cli
