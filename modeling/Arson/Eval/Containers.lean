import Arson.Eval.Fault
import Arson.Number.Arith
/-! # Containers: indexing and methods

An array is indexed by a number truncated toward zero, which must lie in `[0, length)`; a NaN
index passes that check and picks the first position, which an empty array does not have: reading
or updating there is a panic of the runtime. A dict is indexed by a string key that it holds. Arrays have the
methods `length`, `push`, `pop` and `update`; dicts have `update`, `length`, `keys` and `has`.
An attribute of a container is a method bound to it, resolved before its arguments are evaluated;
its arity is checked before all else when it runs.
-/
namespace Arson

open Arson.Eval

def arrayMethods : List String := ["length", "push", "pop", "update"]

def dictMethods : List String := ["update", "length", "keys", "has"]

/-- The type of a receiver, as messages name it. -/
def Receiver.type : Receiver → ValueType
  | .array _ => .array
  | .dict _ => .dict

/-- The method names a receiver answers to. -/
def Receiver.methodNames : Receiver → List String
  | .array _ => arrayMethods
  | .dict _ => dictMethods

/-- Resolves a method name against the names a receiver answers to. -/
def getNamed (recv : Receiver) (name : String) : Except Cause String :=
  match recv.methodNames.find? (· == name) with
  | some m => .ok m
  | none => .error (.noAttribute recv.type name)

/-- The attribute `.name` of a value: only containers have attributes, and they are all methods
bound to the container. -/
def Value.attribute (v : Value) (name : String) : Except Cause Value :=
  match v with
  | .array r => (getNamed (.array r) name).map (.method (.array r))
  | .dict r => (getNamed (.dict r) name).map (.method (.dict r))
  | _ => .error (.noAttribute v.type name)

namespace Eval

/-- The position that a number picks in an array of a given length. -/
def position (key : Value) (len : Nat) : Except Cause Nat :=
  match key with
  | .number x =>
    let raw := Number.truncate x
    if raw < 0 || Float.ofNat len ≤ raw then .error (.indexRange raw len)
    else .ok ((Number.toInt64? raw).map Int.toNat |>.getD 0)
  | v => .error (.indexType v.type)

/-- The item at a position; past the end, a panic. -/
def itemAt (xs : Array Value) (i : Nat) : Except Cause Value :=
  if h : i < xs.size then .ok xs[i] else .error (.outOfBounds i xs.size)

/-- Replaces the item at a position; past the end, a panic. -/
def setAt (xs : Array Value) (i : Nat) (v : Value) : Except Cause (Array Value) :=
  if i < xs.size then .ok (xs.set! i v) else .error (.outOfBounds i xs.size)

def keyText (context : String) : Value → Except Cause String
  | .str s => .ok s
  | v => .error (.keyType context v.type)

/-- Reads an item of a container. -/
def indexValue (h : Heap) (v key : Value) : Except Cause Value :=
  match v with
  | .array r =>
    let xs := h.items r
    position key xs.size >>= itemAt xs
  | .dict r => do
    let k ← keyText "lookup" key
    match (h.entries r).lookup k with
    | some x => .ok x
    | none => .error (.missingKey k)
  | _ => .error (.notIndexable v.type)

/-- Checks the number of arguments of a builtin or a method. -/
def expectArity (name : String) (args : List Value) (n : Nat) : Except Cause Unit :=
  if args.length = n then .ok () else .error (.builtinArity name n args.length)

/-- Runs a method of an array by its name; a name no arm takes is resolved once more, which
fails for every name but the four. -/
def invokeArrayMethod (h : Heap) (r : Ref) (name : String) (args : List Value) :
    Except Cause (Heap × Value) := do
  match name with
  | "length" =>
    expectArity name args 0
    pure (h, .number (Float.ofNat (h.items r).size))
  | "push" =>
    expectArity name args 1
    pure (h.put r (.array ((h.items r).push (args.headD .null))), .null)
  | "pop" =>
    expectArity name args 0
    let xs := h.items r
    match xs.back? with
    | some x => pure (h.put r (.array xs.pop), x)
    | none => throw .popEmpty
  | "update" =>
    expectArity name args 2
    let xs := h.items r
    let i ← position (args.headD .null) xs.size
    let ys ← setAt xs i (args.getD 1 .null)
    pure (h.put r (.array ys), .null)
  | _ => (getNamed (.array r) name).map fun _ => (h, .null)

/-- Runs a method of a dict by its name; a name no arm takes is resolved once more. -/
def invokeDictMethod (h : Heap) (r : Ref) (name : String) (args : List Value) :
    Except Cause (Heap × Value) := do
  match name with
  | "update" =>
    expectArity name args 2
    let k ← keyText name (args.headD .null)
    pure (h.put r (.dict ((h.entries r).insert k (args.getD 1 .null))), .null)
  | "length" =>
    expectArity name args 0
    pure (h, .number (Float.ofNat (h.entries r).length))
  | "keys" =>
    expectArity name args 0
    let (h', r') := h.alloc (.array ((h.entries r).map (fun (k, _) => Value.str k)).toArray)
    pure (h', .array r')
  | "has" =>
    expectArity name args 1
    let k ← keyText name (args.headD .null)
    pure (h, .bool ((h.entries r).lookup k).isSome)
  | _ => (getNamed (.dict r) name).map fun _ => (h, .null)

/-- Calls a method bound to a container. -/
def invokeMethod (h : Heap) (recv : Receiver) (name : String) (args : List Value) :
    Except Cause (Heap × Value) :=
  match recv with
  | .array r => invokeArrayMethod h r name args
  | .dict r => invokeDictMethod h r name args

end Eval

end Arson
