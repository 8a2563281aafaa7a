import Arson.Eval.Conversion
import Arson.Eval.Containers
import Arson.Eval.Operators
import Arson.Text.Distance
/-! # The running machine

The state of a running program: the current environment, the heap, the output written so far, the
input not yet read, the names of the user calls in progress, the source of random draws with the
number drawn so far, and the events a tracer can show. Evaluation is
a computation that either gives a value or stops, with a fault or for want of fuel, and keeps the
state it reached in both cases.

The runtime draws from the host's generator, which promises only that a draw lies between its
bounds. The machine takes the generator as a parameter with that promise (`Draws`), so whatever is
proved of a run holds for every generator; a fresh machine starts with one that cycles through the
range.
-/
namespace Arson.Eval

open Arson.Syntax

/-- What a tracer can show of a run. -/
inductive Event where
  | builtinCall (name : String) (args : Nat)
  | functionCall (label : String) (depth : Nat)
  | autoInvoke (attr : String)
  | topReturn (shown : String)
deriving Repr

/-- A source of random whole numbers: the `n`th draw between `lo` and `hi` lies between them,
both included, whenever `lo ≤ hi`. -/
structure Draws where
  pick : Nat → Int → Int → Int
  pick_mem : ∀ n lo hi, lo ≤ hi → lo ≤ pick n lo hi ∧ pick n lo hi ≤ hi

/-- The source a fresh machine starts with: it runs through the range in turn, the `n`th draw
being `lo + n mod (hi - lo + 1)`, so that repeated draws reach every value. -/
def Draws.cycling : Draws where
  pick n lo hi := lo + (n : Int) % (hi - lo + 1)
  pick_mem n lo hi h := by
    have hd : 0 < hi - lo + 1 := by omega
    have hlo := Int.emod_nonneg (n : Int) (Int.ne_of_gt hd)
    have hhi := Int.emod_lt_of_pos (n : Int) hd
    omega

instance : Inhabited Draws := ⟨Draws.cycling⟩

/-- The state of a running program. -/
structure Machine where
  env : Env := Env.root
  heap : Heap := {}
  output : String := ""
  input : List Char := []
  stack : List String := []
  draws : Draws := Draws.cycling
  drawn : Nat := 0
  events : Array Event := #[]
  tracing : Bool := false
deriving Inhabited

/-- Why evaluation stopped early. -/
inductive Stop where
  | fault (f : Fault)
  | outOfFuel
deriving Inhabited

abbrev EvalM := ExceptT Stop (StateM Machine)

def raise {α : Type} (c : Cause) : EvalM α := throw (.fault (Fault.ofCause c))

/-- Takes the value of a step that may fail with a cause. -/
def orRaise {α : Type} : Except Cause α → EvalM α
  | .ok a => pure a
  | .error c => raise c

/-- Records an event, when tracing. -/
def emit (e : Event) : EvalM Unit :=
  modify fun m => if m.tracing then { m with events := m.events.push e } else m

def write (s : String) : EvalM Unit :=
  modify fun m => { m with output := m.output ++ s }

def heap : EvalM Heap := do return (← get).heap

def defineVar (name : String) (v : Value) : EvalM Unit :=
  modify fun m => { m with env := m.env.define name v }

def alloc (c : Cell) : EvalM Ref :=
  modifyGet fun m => let (h, r) := m.heap.alloc c; (r, { m with heap := h })

/-- Runs a step on the heap that may change it. -/
def onHeap {α : Type} (f : Heap → Except Cause (Heap × α)) : EvalM α := do
  let m ← get
  match f m.heap with
  | .ok (h, a) => set { m with heap := h }; pure a
  | .error c => raise c

/-- Splits off one line of input: up to a newline, which is dropped with a carriage return before
it; the end of the input gives what is left, possibly nothing. -/
def splitLine (input : List Char) : String × List Char :=
  let line := input.takeWhile (· ≠ '\n')
  match input.dropWhile (· ≠ '\n') with
  | _ :: rest =>
    let line := match line.getLast? with
      | some '\r' => line.dropLast
      | _ => line
    (String.ofList line, rest)
  | [] => (String.ofList line, [])

/-- Removes one line break at the end of a text: a newline, with a carriage return before it. -/
def chomp (s : String) : String :=
  match s.toList.reverse with
  | '\n' :: '\r' :: rest => String.ofList rest.reverse
  | '\n' :: rest => String.ofList rest.reverse
  | _ => s

def readLine : EvalM String :=
  modifyGet fun m => let (line, rest) := splitLine m.input; (line, { m with input := rest })

/-- Draws a whole number from `lo` to `hi`, both included (with `lo ≤ hi`): the next draw of the
machine's source. -/
def draw (lo hi : Int) : EvalM Int :=
  modifyGet fun m => (m.draws.pick m.drawn lo hi, { m with drawn := m.drawn + 1 })

/-- The value of a name: the environment first, then the builtins; a missing name suggests the
nearest visible name or builtin. -/
def lookup (name : String) : EvalM Value := do
  let m ← get
  match m.env.get? name with
  | some v => pure v
  | none =>
    match Builtin.ofName? name with
    | some b => pure (.builtin b.name)
    | none =>
      let near := Text.nearest name (m.env.names ++ Builtin.all.map Builtin.name)
      throw (.fault { cause := .undefinedName name, suggestion := near })

/-- Runs a builtin on evaluated arguments. -/
def runBuiltin (b : Builtin) (args : List Value) : EvalM Value := do
  let first := args.headD .null
  match b with
  | .fire =>
    let h ← heap
    write (" ".intercalate (args.map (·.display h)) ++ "\n")
    pure .null
  | .load =>
    orRaise (expectArity b.name args 1)
    match first with
    | .str prompt =>
      write prompt
      return .str (← readLine)
    | v => raise (.promptType v.type)
  | .random =>
    orRaise (expectArity b.name args 2)
    let lo ← orRaise (randomBound "min" first)
    let hi ← orRaise (randomBound "max" (args.getD 1 .null))
    if hi < lo then raise (.randomInverted lo hi)
    else return .number (Float.ofInt (← draw lo hi))
  | .int =>
    orRaise (expectArity b.name args 1)
    orRaise (toInt first)
  | .float =>
    orRaise (expectArity b.name args 1)
    orRaise (toFloat first)
  | .str =>
    orRaise (expectArity b.name args 1)
    return .str (first.display (← heap))
  | .bool =>
    orRaise (expectArity b.name args 1)
    return .bool (first.truthy (← heap))

/-- Runs the builtin of a name; a name that is no builtin's is refused. -/
def callBuiltin (name : String) (args : List Value) : EvalM Value :=
  match Builtin.ofName? name with
  | some b => runBuiltin b args
  | none => raise (.unknownNative name)

end Arson.Eval
