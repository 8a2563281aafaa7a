import Arson.Syntax.Ast
/-! # Values and the heap

A value is a number, a string, a boolean, null, a builtin function, or a reference into the heap.
The heap holds the containers (arrays and dicts) and the user functions; a reference is how they
are shared, so a container can hold itself and two names can see one array. A user function is
one heap cell, which gives it an identity: two functions are the same only if they are one cell.
-/
namespace Arson

open Arson.Syntax

/-- The builtin functions, which every program sees unless it binds their names itself. -/
inductive Builtin where
  | fire | load | random | int | float | str | bool
deriving Repr, DecidableEq, Inhabited

/-- All builtins, in the order of their listing. -/
def Builtin.all : List Builtin := [.fire, .load, .random, .int, .float, .str, .bool]

def Builtin.name : Builtin → String
  | .fire => "fire" | .load => "load" | .random => "random" | .int => "int"
  | .float => "float" | .str => "str" | .bool => "bool"

def Builtin.ofName? (s : String) : Option Builtin := Builtin.all.find? (·.name == s)

/-- The names of the builtins, as the builtin table lists them. -/
def builtinNames : List String := Builtin.all.map Builtin.name

abbrev Ref := Nat

/-- A container that a method is bound to. -/
inductive Receiver where
  | array (r : Ref)
  | dict (r : Ref)
deriving Repr, DecidableEq

/-- The values of the language. A builtin is known by its name; a method is a container's method
resolved by name and waiting to be called. -/
inductive Value where
  | number (x : Float)
  | str (s : String)
  | bool (b : Bool)
  | null
  | builtin (name : String)
  | array (r : Ref)
  | dict (r : Ref)
  | function (r : Ref)
  | method (recv : Receiver) (name : String)
deriving Repr, Inhabited

/-- The types of values, as messages and the globals listing name them. -/
inductive ValueType where
  | number | string | bool | array | dict | function | builtin | method | null
deriving Repr, DecidableEq

/-- The name of a type. -/
def ValueType.name : ValueType → String
  | .number => "number" | .string => "string" | .bool => "bool" | .array => "array"
  | .dict => "dict" | .function => "function" | .builtin => "builtin" | .method => "method"
  | .null => "null"

/-- The type of a value. -/
def Value.type : Value → ValueType
  | .number _ => .number | .str _ => .string | .bool _ => .bool | .null => .null
  | .builtin _ => .builtin | .array _ => .array | .dict _ => .dict | .function _ => .function
  | .method _ _ => .method

/-- Functions, builtins and methods can be called. -/
def Value.isCallable : Value → Bool
  | .function _ | .builtin _ | .method _ _ => true
  | _ => false

/-- One scope: names bound to values, each name at most once. -/
abbrev Scope := List (String × Value)

/-- Binds a name in a scope, in place of an earlier binding of it. -/
def Scope.set : Scope → String → Value → Scope
  | [], k, v => [(k, v)]
  | (k', v') :: rest, k, v => if k' = k then (k, v) :: rest else (k', v') :: Scope.set rest k v

def Scope.get? (s : Scope) (k : String) : Option Value := s.lookup k

/-- An environment: the current scope first, then the scopes it was made in. -/
structure Env where
  scopes : List Scope
deriving Inhabited

namespace Env

/-- The environment of a program: one empty scope. -/
def root : Env := ⟨[[]]⟩

def enclose (e : Env) : Env := ⟨[] :: e.scopes⟩

/-- Binds a name in the current scope; with no scope there is nothing to bind in. -/
def define (e : Env) (k : String) (v : Value) : Env :=
  match e.scopes with
  | [] => e
  | s :: rest => ⟨s.set k v :: rest⟩

/-- The value of a name, from the innermost scope outward. -/
def get? (e : Env) (k : String) : Option Value :=
  e.scopes.findSome? (·.get? k)

/-- The names visible in an environment, innermost scope first. -/
def names (e : Env) : List String :=
  e.scopes.flatMap (·.map Prod.fst)

def current (e : Env) : Scope := e.scopes.headD []

end Env

/-- A user function: its name (none for a lambda), parameters, body, and the environment it was
made in. -/
structure Closure where
  name : Option String
  params : List String
  body : List Stmt
  env : Env
deriving Inhabited

/-- The name a function goes by in messages and call stacks. -/
def Closure.label (c : Closure) : String := c.name.getD "<lambda>"

/-- A dict: entries in ascending order of their keys, each key once. -/
abbrev Entries := List (String × Value)

/-- Sets a key of a dict, keeping the keys in order. -/
def Entries.insert : Entries → String → Value → Entries
  | [], k, v => [(k, v)]
  | (k', v') :: rest, k, v =>
    if k = k' then (k, v) :: rest
    else if k < k' then (k, v) :: (k', v') :: rest
    else (k', v') :: Entries.insert rest k v

/-- A heap cell. -/
inductive Cell where
  | array (items : Array Value)
  | dict (entries : Entries)
  | function (c : Closure)
deriving Inhabited

/-- The heap: cells addressed by their position. -/
structure Heap where
  cells : Array Cell := #[]
deriving Inhabited

namespace Heap

def size (h : Heap) : Nat := h.cells.size

def get? (h : Heap) (r : Ref) : Option Cell := h.cells[r]?

def alloc (h : Heap) (c : Cell) : Heap × Ref := (⟨h.cells.push c⟩, h.cells.size)

def put (h : Heap) (r : Ref) (c : Cell) : Heap := ⟨h.cells.set! r c⟩

/-- The items of an array cell (none for another cell). -/
def items (h : Heap) (r : Ref) : Array Value :=
  match h.get? r with
  | some (.array xs) => xs
  | _ => #[]

/-- The entries of a dict cell. -/
def entries (h : Heap) (r : Ref) : Entries :=
  match h.get? r with
  | some (.dict es) => es
  | _ => []

/-- The function of a function cell. -/
def closure (h : Heap) (r : Ref) : Closure :=
  match h.get? r with
  | some (.function c) => c
  | _ => default

end Heap

/-- Truthiness: false, zero, the empty string, empty containers and null are false. -/
def Value.truthy (h : Heap) : Value → Bool
  | .number x => x != 0
  | .str s => !s.isEmpty
  | .bool b => b
  | .null => false
  | .builtin _ => true
  | .function _ => true
  | .method _ _ => true
  | .array r => !(h.items r).isEmpty
  | .dict r => !(h.entries r).isEmpty

end Arson
