import Arson.Format.Toml.Scalar
/-! # TOML values

A value is a string, a number, a boolean, a date or time, an array or an inline table, told apart
by its first character. An array holds values parted by commas, with blanks, newlines and
comments around them and an optional comma after the last. An inline table holds key/value pairs
on one line, parted by commas with none after the last; a dotted key makes the tables it names,
and no key may be set twice nor extend a value that is not a table. A value that does not start
like any of these is reported as a string that lacks its quote.
-/
namespace Arson.Format.Toml

/-- What a key of a table holds, as far as later keys can extend it. -/
inductive Kind where
  /-- A value, by the name of its type. -/
  | value (typeName : String)
  /-- A table, made by a dotted key or written whole. -/
  | table (dotted : Bool)
deriving Repr, DecidableEq

/-- A value. An inline table keeps what its keys hold, by their paths. -/
inductive Datum where
  | string (s : String)
  | integer (n : Int)
  | float (x : Float)
  | boolean (b : Bool)
  | datetime
  | array
  | table (entries : List (List String × Kind))
deriving Repr, Inhabited

/-- The name of the type of a value, as faults about extending it say. -/
def Datum.typeName : Datum → String
  | .string _ => "string" | .integer _ => "integer" | .float _ => "float"
  | .boolean _ => "boolean" | .datetime => "datetime" | .array => "array"
  | .table _ => "inline table"

/-- The fault of a dotted key that goes through a value. -/
def extendFault (path : List String) (typeName : String) : String :=
  "dotted key `" ++ ".".intercalate path ++ "` attempted to extend non-table type (" ++
    typeName ++ ")"

/-- The fault of a key set twice, naming the table when it is known. -/
def duplicateFault (key : String) (table : Option (List String)) : String :=
  "duplicate key `" ++ key ++ "`" ++
    match table with
    | none => ""
    | some [] => " in document root"
    | some t => " in table `" ++ ".".intercalate t ++ "`"

/-- Adds a key/value pair of an inline table to what its keys hold so far. -/
def addPair (entries : List (List String × Kind)) (parts : List String) (d : Datum) :
    Except String (List (List String × Kind)) := do
  let dotted := parts.dropLast
  let leaf := parts.getLastD ""
  let entries ← (List.range dotted.length).foldlM (fun es k =>
    let path := dotted.take (k + 1)
    match es.lookup path with
    | none => pure (es ++ [(path, .table true)])
    | some (.value t) => throw (extendFault path t)
    | some (.table _) => pure es) entries
  if !dotted.isEmpty && entries.lookup dotted == some (.table false) then
    throw (duplicateFault leaf none)
  let path := dotted ++ [leaf]
  if (entries.lookup path).isSome then throw (duplicateFault leaf none)
  match d with
  | .table inner => pure (entries ++ [(path, .table false)] ++ inner.map fun (p, k) => (path ++ p, k))
  | other => pure (entries ++ [(path, .value other.typeName)])

/-- The notes of a value that does not start like one. -/
def stringNotes : List Note := [.label "string", .expected "`\"`", .expected "`'`"]

/-- A word at `i`: its value, or a fault at `i`. -/
def wordAt (cs : Array Char) (i : Nat) (w : String) (d : Datum) (final : Bool) : Read Datum :=
  if textOf cs i (i + w.length) == w then .ok (d, i + w.length) else .error { pos := i, final }

mutual

/-- A value at `i`, inside which `room` more arrays or inline tables may open. -/
def value (cs : Array Char) (i room : Nat) : Nat → Read Datum
  | 0 => .error (miss i)
  | n + 1 =>
    match cs[i]? with
    | none => .error (miss i)
    | some c =>
      if c == '"' || c == '\'' then (stringAt cs i).mapValue .string
      else if (c == '[' || c == '{') && room == 0 then .error (stopWith i tooDeep)
      else if c == '[' then array cs i (room - 1) n
      else if c == '{' then inlineTable cs i (room - 1) n
      else if c == '+' || c == '-' || c.isDigit then
        ((dateTime cs i).mapValue fun _ => Datum.datetime).orElse fun _ =>
          ((float cs i).mapValue .float).orElse fun _ => (integer cs i).mapValue .integer
      else if c == '_' then
        ((integer cs i).mapValue .integer).addNotes [.expected "leading digit"]
      else if c == '.' then
        ((float cs i).mapValue .float).addNotes [.expected "leading digit"]
      else
        let r : Read Datum :=
          if c == 't' then wordAt cs i "true" (.boolean true) true
          else if c == 'f' then wordAt cs i "false" (.boolean false) true
          else if c == 'i' then wordAt cs i "inf" (.float Number.infinity) false
          else if c == 'n' then wordAt cs i "nan" (.float Number.notANumber) false
          else .error (miss i)
        r.addNotes stringNotes
termination_by structural fuel => fuel

/-- A value of an array at `p`, with the blanks, newlines and comments around it. -/
def arrayItem (cs : Array Char) (p room : Nat) : Nat → Read Unit
  | 0 => .error (miss p)
  | n + 1 =>
    match blankLines cs p cs.size with
    | .error f => .error f
    | .ok (_, a) =>
      match value cs a room n with
      | .error f => .error f
      | .ok (_, b) => blankLines cs b cs.size
termination_by structural fuel => fuel

/-- The values of an array after its first, from `p`: where they end. A comma that no value
follows ends them, and is taken. -/
def arrayItems (cs : Array Char) (p room : Nat) : Nat → Except Failure Nat
  | 0 => .ok p
  | n + 1 =>
    if cs[p]? == some ',' then
      match arrayItem cs (p + 1) room n with
      | .ok (_, q) => arrayItems cs q room n
      | .error f => if f.final then .error f else .ok (p + 1)
    else .ok p
termination_by structural fuel => fuel

/-- An array whose bracket stands at `i`. -/
def array (cs : Array Char) (i room : Nat) : Nat → Read Datum
  | 0 => .error (miss i)
  | n + 1 =>
    let items : Except Failure Nat := match arrayItem cs (i + 1) room n with
      | .error f => if f.final then .error f else .ok (i + 1)
      | .ok (_, p) => arrayItems cs p room n
    match items with
    | .error f => .error f
    | .ok p =>
      match blankLines cs p cs.size with
      | .error f => .error f.cut
      | .ok (_, r) =>
        if cs[r]? == some ']' then .ok (.array, r + 1)
        else .error (stop r [.label "array", .expected "`]`"])
termination_by structural fuel => fuel

/-- A key/value pair of an inline table at `p`: the names of the key's parts and the value. -/
def inlinePair (cs : Array Char) (p room : Nat) : Nat → Read (List String × Datum)
  | 0 => .error (miss p)
  | n + 1 =>
    match key cs p with
    | .error f => .error f
    | .ok (parts, k) =>
      if cs[k]? != some '=' then .error (stop k [.expected "`.`", .expected "`=`"])
      else
        match value cs (skipBlanks cs (k + 1)) room n with
        | .error f => .error f.cut
        | .ok (d, v) => .ok ((parts.map (·.name), d), skipBlanks cs v)
termination_by structural fuel => fuel

/-- The pairs of an inline table after its first, from `p`. -/
def inlinePairs (cs : Array Char) (acc : List (List String × Datum)) (p room : Nat) :
    Nat → Except Failure (List (List String × Datum) × Nat)
  | 0 => .ok (acc, p)
  | n + 1 =>
    if cs[p]? == some ',' then
      match inlinePair cs (p + 1) room n with
      | .ok (kv, q) => inlinePairs cs (acc ++ [kv]) q room n
      | .error f => if f.final then .error f else .ok (acc, p)
    else .ok (acc, p)
termination_by structural fuel => fuel

/-- An inline table whose brace stands at `i`. -/
def inlineTable (cs : Array Char) (i room : Nat) : Nat → Read Datum
  | 0 => .error (miss i)
  | n + 1 =>
    let pairs : Except Failure (List (List String × Datum) × Nat) :=
      match inlinePair cs (i + 1) room n with
      | .error f => if f.final then .error f else .ok ([], i + 1)
      | .ok (kv, p) => inlinePairs cs [kv] p room n
    match pairs with
    | .error f => .error f
    | .ok (kvs, p) =>
      match kvs.foldlM (fun es (parts, d) => addPair es parts d) [] with
      | .error msg => .error (stopWith (i + 1) msg)
      | .ok entries =>
        let q := skipBlanks cs p
        if cs[q]? == some '}' then .ok (.table entries, q + 1)
        else .error (stop q [.label "inline table", .expected "`\x7d`"])
termination_by structural fuel => fuel

end

end Arson.Format.Toml
