/-! # Files as the command sees them

The command reads its script and keyword file and writes its token dump through an interface to
files, so that the same steps run on the real file system and on a model of one. The model is a
working directory holding some files, with directories being the folders that hold some file,
inside a small fixed world: its parent directory, the root with the usual top directories, and the
null device `/dev/null`. A path is followed part by part as the system does: each part before the
last must be a directory that exists, `..` climbs after its folder is found, and a final `/` asks
for a directory. Faults are the operating system's texts.
-/
namespace Arson.Cli

/-- Reading and writing whole files; a fault is the operating system's text. -/
class FileAccess (m : Type → Type) where
  readFile : String → m (Except String String)
  writeFile : String → String → m (Except String Unit)

/-- The text of an operating system fault by its number. -/
def osFault (code : Nat) : String :=
  let text := match code with
    | 1 => "Operation not permitted"
    | 2 => "No such file or directory"
    | 13 => "Permission denied"
    | 17 => "File exists"
    | 20 => "Not a directory"
    | 21 => "Is a directory"
    | 28 => "No space left on device"
    | 30 => "Read-only file system"
    | 36 => "File name too long"
    | _ => "Unknown error " ++ toString code
  text ++ " (os error " ++ toString code ++ ")"

/-- A model of a working directory: the files under it by path parts. -/
structure FileTree where
  files : List (List String × String)
  /-- The paths of the files the command wrote, in the order of their first writing. -/
  written : List (List String) := []
deriving Repr, Inhabited

/-- The parts of a relative path naming a file of the tree, with `.` dropped and `..` going up;
none for a path that leaves the directory or starts at the root. -/
def pathParts (p : String) : Option (List String) :=
  if p.startsWith "/" then none else
  (p.splitOn "/").foldl (fun acc part =>
    acc.bind fun parts =>
      if part.isEmpty || part == "." then some parts
      else if part == ".." then (if parts.isEmpty then none else some parts.dropLast)
      else some (parts ++ [part])) (some [])

/-- The directories at the top of the root. -/
def topDirectories : List String :=
  ["bin", "boot", "dev", "etc", "home", "lib", "lib64", "media", "mnt", "opt", "proc", "root",
    "run", "sbin", "srv", "sys", "tmp", "usr", "var"]

/-- Where a path leads, part by part. -/
inductive Spot where
  /-- A directory of the tree, by its parts. -/
  | folder (parts : List String)
  | root
  /-- The directory of devices. -/
  | devices
  /-- A directory outside the tree whose contents the model does not know. -/
  | elsewhere
  /-- A file of the tree. -/
  | file (parts : List String)
  /-- The null device: reads as empty and takes any writing. -/
  | sink
  /-- Nothing, in a directory that exists; the parts it would have in the tree, if inside it. -/
  | absent (parts : Option (List String))
deriving Repr, DecidableEq

namespace FileTree

def ofList (fs : List (String × String)) : FileTree :=
  ⟨fs.filterMap fun (p, c) => (pathParts p).map (·, c), []⟩

def find? (t : FileTree) (parts : List String) : Option String := t.files.lookup parts

/-- Whether a path is a directory of the tree: the top, or a folder that holds a file. -/
def isDir (t : FileTree) (parts : List String) : Bool :=
  parts.isEmpty || t.files.any fun (q, _) => q.length > parts.length && q.take parts.length == parts

/-- One step along a path: the spot a part leads to, or the fault number. -/
def step (t : FileTree) (s : Spot) (part : String) : Except Nat Spot :=
  match s with
  | .file _ | .sink => .error 20
  | .absent _ => .error 2
  | dir =>
    if part.isEmpty || part == "." then .ok dir
    else if part == ".." then
      .ok (match dir with
        | .folder [] => .elsewhere
        | .folder ps => .folder ps.dropLast
        | .devices => .root
        | other => other)
    else
      .ok (match dir with
        | .folder ps =>
          let q := ps ++ [part]
          if (t.find? q).isSome then .file q else if t.isDir q then .folder q else .absent (some q)
        | .root =>
          if part == "dev" then .devices
          else if topDirectories.contains part then .elsewhere else .absent none
        | .devices => if part == "null" then .sink else .absent none
        | _ => .absent none)

/-- Follows a path: the spot it leads to and whether it ends in `/`. -/
def locate (t : FileTree) (p : String) : Except Nat (Spot × Bool) :=
  let (start, parts) := if p.startsWith "/" then (Spot.root, (p.splitOn "/").drop 1)
    else (Spot.folder [], p.splitOn "/")
  let trailing := parts.length > 1 && parts.getLast? == some ""
  let parts := if trailing then (parts.reverse.dropWhile String.isEmpty).reverse else parts
  (parts.foldlM (t.step) start).map (·, trailing)

/-- Reads a file. -/
def read (t : FileTree) (p : String) : Except String String :=
  match t.locate p with
  | .error n => .error (osFault n)
  | .ok (s, trailing) =>
    match s with
    | .file q => if trailing then .error (osFault 20) else .ok ((t.find? q).getD "")
    | .sink => if trailing then .error (osFault 20) else .ok ""
    | .absent _ => .error (osFault 2)
    | _ => .error (osFault 21)

/-- Writes a file, creating or replacing it. -/
def write (t : FileTree) (p : String) (content : String) : Except String FileTree :=
  let record (q : List String) : FileTree :=
    let files := if (t.find? q).isSome then
        t.files.map fun (r, c) => if r == q then (r, content) else (r, c)
      else t.files ++ [(q, content)]
    ⟨files, if t.written.contains q then t.written else t.written ++ [q]⟩
  match t.locate p with
  | .error n => .error (osFault n)
  | .ok (s, trailing) =>
    match s with
    | .file q => if trailing then .error (osFault 20) else .ok (record q)
    | .sink => if trailing then .error (osFault 20) else .ok t
    | .absent q =>
      if trailing then .error (osFault 21)
      else match q with
        | some q => .ok (record q)
        | none => .ok t
    | _ => .error (osFault 21)

end FileTree

instance : FileAccess (StateM FileTree) where
  readFile p := do return (← get).read p
  writeFile p c := do
    match (← get).write p c with
    | .ok t => set t; pure (.ok ())
    | .error e => pure (.error e)

end Arson.Cli
