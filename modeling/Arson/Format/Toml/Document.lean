import Arson.Format.Toml.Value
/-! # TOML documents

A document is a sequence of lines: blank lines, comments, key/value pairs and table headers. A
key/value pair sets its key in the current table, the one the last header opened, or the root
table before any header; a dotted key makes the tables it names on its way. A header `[a.b]` opens
a table, making the tables on its path; a header `[[a.b]]` opens the next table of an array of
tables, and the keys of the tables before it are no longer in reach.

No key may be set twice in one table, nor go through a value, and a table written whole, by a
header, cannot be extended by dotted keys, nor a table made by dotted keys be opened by a header.
A table made on the way to another by a header may be opened by a header of its own later, once.

The reader keeps what each path of the document holds, and the entries of the root table in their
order, with where their keys and values stand: that is what a reader of settings needs.
-/
namespace Arson.Format.Toml

/-- What a path of a document holds so far. -/
inductive Node where
  /-- A value, by the name of its type. -/
  | value (typeName : String)
  /-- A table: made on the way to another (implicit), and by a dotted key or by a header. -/
  | table (implicit dotted : Bool)
  /-- An array of tables; the paths below it are those of its last table. -/
  | tables
deriving Repr, DecidableEq

/-- What an entry of the root table holds. -/
inductive Held where
  | value (d : Datum)
  | table
  | tables
deriving Repr, Inhabited

/-- An entry of the root table while the document is read: where its key stands and where what it
holds stands, if known, each from the first character up to the one after the last. -/
structure Entry where
  key : String
  keyRange : Nat × Nat
  held : Held
  range : Option (Nat × Nat)
deriving Repr, Inhabited

/-- A table header: the parts of its key, and whether it opens a table of an array. -/
structure Header where
  path : List KeyPart
  isArray : Bool
deriving Repr, Inhabited

/-- How a character of a key is written between double quotes. -/
def keyChar (c : Char) : String :=
  if c == '\x08' then "\\b" else if c == '\t' then "\\t" else if c == '\n' then "\\n"
  else if c == '\x0c' then "\\f" else if c == '\r' then "\\r" else if c == '"' then "\\\""
  else if c == '\\' then "\\\\"
  else if c.toNat ≤ 0x1F || c.toNat == 0x7F then
    let hex := String.ofList (Nat.toDigits 16 c.toNat) |>.toUpper
    "\\u" ++ String.ofList (List.replicate (4 - hex.length) '0') ++ hex
  else String.singleton c

/-- How a key is written when faults name it: bare when every character may stand in a bare key,
else as a basic string. -/
def keyText (name : String) : String :=
  if !name.isEmpty && name.all isBareChar then name
  else "\"" ++ String.join (name.toList.map keyChar) ++ "\""

/-- What the reader knows of a document so far. -/
structure Doc where
  /-- What each path holds. -/
  nodes : List (List String × Node) := []
  /-- The entries of the root table, in order. -/
  root : List Entry := []
  /-- The header of the current table; none for the root table. -/
  header : Option Header := none
  /-- Where the current table stands: from its header to the end of its last value. -/
  range : Option (Nat × Nat) := none
deriving Repr, Inhabited

namespace Doc

def find? (d : Doc) (path : List String) : Option Node := d.nodes.lookup path

def put (d : Doc) (path : List String) (n : Node) : Doc :=
  { d with nodes := (path, n) :: d.nodes.filter (·.1 != path) }

def addRoot (d : Doc) (e : Entry) : Doc := { d with root := d.root ++ [e] }

def current (d : Doc) : List String := (d.header.map (·.path.map (·.name))).getD []

/-- Goes through the tables on a path below `base`, making those that are missing, as a dotted
key or as a header makes them. A table made at the top is an entry of the root table. -/
def descend (d : Doc) (base : List String) (parts : List KeyPart) (dotted : Bool) :
    Except String Doc :=
  let names := parts.map (·.name)
  (List.range parts.length).foldlM (fun d k =>
    let path := names.take (k + 1)
    match d.find? (base ++ path) with
    | none =>
      let d := d.put (base ++ path) (.table true dotted)
      if base.isEmpty && k == 0 then
        let part := parts.headD default
        pure (d.addRoot ⟨part.name, (part.first, part.past), .table, none⟩)
      else pure d
    | some (.value t) => throw (extendFault path t)
    | some _ => pure d) d

/-- Sets a key to a value in the current table; the value stands from `v.1` up to `v.2`. -/
def keyval (d : Doc) (parts : List KeyPart) (datum : Datum) (v : Nat × Nat) :
    Except String Doc := do
  let base := d.current
  let d := { d with range := d.range.map fun (r : Nat × Nat) => (r.1, v.2) }
  let dotted := parts.dropLast
  let leaf := parts.getLastD default
  let d ← d.descend base dotted true
  let above := dotted.map (·.name)
  if !above.isEmpty then
    match d.find? (base ++ above) with
    | some (.table _ false) | some .tables => throw (duplicateFault leaf.name none)
    | _ => pure ()
  let path := base ++ above ++ [leaf.name]
  if (d.find? path).isSome then throw (duplicateFault leaf.name (some base))
  let d := d.put path (.value datum.typeName)
  if path.length == 1 then
    pure (d.addRoot ⟨leaf.name, (leaf.first, leaf.past), .value datum, some v⟩)
  else pure d

/-- Closes the current table: a table of the root enters it now, and a table of an array of the
root stretches the array's range. -/
def close (d : Doc) : Doc :=
  match d.header with
  | none => d
  | some h =>
    let leaf := h.path.getLastD default
    if h.path.length != 1 then d
    else if h.isArray then
      { d with root := d.root.map fun e =>
          if e.key != leaf.name then e
          else
            let start := match e.range, d.range with
              | some (a, _), _ => some a
              | none, some (a, _) => some a
              | none, none => none
            { e with range := match start, d.range with
                | some a, some (_, b) => some (a, b)
                | _, _ => none } }
    else d.addRoot ⟨leaf.name, (leaf.first, leaf.past), .table, d.range⟩

/-- Opens the table of a header that stands from `h.1` up to `h.2`, closing the current one. -/
def openTable (d : Doc) (h : Header) (r : Nat × Nat) : Except String Doc := do
  let d := d.close
  let parent := h.path.dropLast
  let leaf := h.path.getLastD default
  let d ← d.descend [] parent false
  let parentNames := parent.map (·.name)
  let path := parentNames ++ [leaf.name]
  let d ← if h.isArray then
      match d.find? path with
      | none =>
        let d := d.put path .tables
        pure (if parent.isEmpty then d.addRoot ⟨leaf.name, (leaf.first, leaf.past), .tables, none⟩
          else d)
      | some .tables =>
        pure { d with nodes := d.nodes.filter fun (p, _) => !(path.isPrefixOf p && p != path) }
      | some _ => throw (duplicateFault (keyText leaf.name) (some parentNames))
    else
      match d.find? path with
      | none => pure (d.put path (.table false false))
      | some (.table true false) =>
        let d := d.put path (.table false false)
        pure (if parent.isEmpty then { d with root := d.root.filter (·.key != leaf.name) } else d)
      | some _ => throw (duplicateFault (keyText leaf.name) (some parentNames))
  pure { d with header := some h, range := some r }

end Doc

/-- A table header at `i`, its line and the table it opens. -/
def headerLine (cs : Array Char) (i : Nat) (d : Doc) : Read Doc :=
  match cs[i + 1]? with
  | none => .error (stop i [.label "table header"])
  | some c =>
    let isArray := c == '['
    let close := if isArray then "]]" else "]"
    match key cs (if isArray then i + 2 else i + 1) with
    | .error f => .error (f.addNotes [.label "table header"]).cut
    | .ok (parts, k) =>
      if textOf cs k (k + close.length) != close then
        .error (stop k [.expected "`.`", .expected ("`" ++ close ++ "`"), .label "table header"])
      else
        let e := k + close.length
        match lineTrailing cs e with
        | .error f =>
          .error (f.addNotes [.expected "newline", .expected "`#`", .label "table header"]).cut
        | .ok (_, j) =>
          match d.openTable ⟨parts, isArray⟩ (i, e) with
          | .error msg => .error { stop i [.label "table header"] with cause := some msg }
          | .ok d => .ok (d, j)

/-- A key/value line at `i` and the setting it makes. -/
def keyvalLine (cs : Array Char) (i : Nat) (d : Doc) : Read Doc :=
  match key cs i with
  | .error f => .error f.cut
  | .ok (parts, k) =>
    if cs[k]? != some '=' then .error (stop k [.expected "`.`", .expected "`=`"])
    else
      let a := skipBlanks cs (k + 1)
      match value cs a (nestingLimit - 1) (4 * cs.size + 16) with
      | .error f => .error f.cut
      | .ok (datum, b) =>
        match lineTrailing cs b with
        | .error f => .error (f.addNotes [.expected "newline", .expected "`#`"]).cut
        | .ok (_, j) =>
          match d.keyval parts datum (a, b) with
          | .error msg => .error (stopWith i msg)
          | .ok d => .ok (d, j)

/-- The lines of a document from `i`. -/
def lines (cs : Array Char) (i : Nat) (d : Doc) : Nat → Except Failure Doc
  | 0 => .ok d
  | n + 1 =>
    let i := skipBlanks cs i
    match cs[i]? with
    | none => .ok d
    | some c =>
      let next : Read Doc :=
        if c == '#' then Read.cut ((lineEnding cs (afterComment cs i)).map fun (_, j) => (d, j))
        else if c == '[' then headerLine cs i d
        else if c == '\n' || c == '\r' then
          match newline cs i with
          | .ok (_, j) => .ok (d, j)
          | .error _ => .error (stop i [])
        else keyvalLine cs i d
      match next with
      | .ok (d, j) => lines cs j d n
      | .error f => .error f

/-- The entries of the root table of a document, after its tables close. A byte order mark at
the start is passed over. -/
def readDocument (cs : Array Char) : Except Failure Doc :=
  let start := if cs[0]? == some '\uFEFF' then 1 else 0
  (lines cs start {} (cs.size + 1)).map Doc.close

/-- A setting of the root table: its key and what it holds, and where the key and what it holds
stand, each as its first character and its width in bytes. -/
structure Setting where
  key : String
  keySpan : Nat × Nat
  held : Held
  span : Option (Nat × Nat)
deriving Repr, Inhabited

/-- The settings of the root table of a document, in order. -/
def settings (text : String) : Except Fault (List Setting) :=
  let cs := text.toList.toArray
  match readDocument cs with
  | .error f => .error (f.toFault cs)
  | .ok d => .ok (d.root.map fun e =>
      ⟨e.key, place cs e.keyRange.1 e.keyRange.2, e.held,
        e.range.map fun (a, b) => place cs a b⟩)

end Arson.Format.Toml
