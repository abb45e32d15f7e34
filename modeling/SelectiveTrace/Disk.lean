import SelectiveTrace.Path
import SelectiveTrace.Table

/-! The files a run can see: a tree of directories and files, each known by the names that lead to
it from the root. -/
namespace SelectiveTrace

inductive FileError where
  | notFound
  | notADirectory
  | isADirectory
  | notText
deriving DecidableEq

def FileError.message : FileError → String
  | .notFound => "No such file or directory (os error 2)"
  | .notADirectory => "Not a directory (os error 20)"
  | .isADirectory => "Is a directory (os error 21)"
  | .notText => "stream did not contain valid UTF-8"

inductive DiskEntry where
  | directory
  | file (contents : ByteArray)

/-- A disk; relative paths are seen from `current`. -/
structure Disk where
  entries : Table (List String) DiskEntry := {}
  current : Path := ⟨"/"⟩

namespace Disk

def absolute (d : Disk) (path : Path) : Path :=
  d.current.join path

def item? (d : Disk) (names : List String) : Option DiskEntry :=
  if names.isEmpty then some .directory else d.entries.get? names

def walkStep (d : Disk) (names : List String) (c : Path.Component) :
    Except FileError (List String) :=
  match c with
  | .root => .ok []
  | .here => .ok names
  | .up => enter names.dropLast
  | .name s => enter (names ++ [s])
where
  enter (next : List String) : Except FileError (List String) :=
    match d.item? names with
    | some .directory => .ok next
    | some (.file _) => .error .notADirectory
    | none => .error .notFound

/-- The place a path leads to, whether or not something is there. Everything passed on the way has
to be a directory, and so has a place whose path ends with a slash. -/
def locate (d : Disk) (path : Path) : Except FileError (List String) := do
  if path.text.isEmpty then throw .notFound
  let names ← (d.absolute path).components.foldlM d.walkStep []
  if path.text.endsWith "/" || path.text.endsWith "/." then
    match d.item? names with
    | some (.file _) => throw .notADirectory
    | _ => pure ()
  return names

def read (d : Disk) (path : Path) : Except FileError ByteArray := do
  match d.item? (← d.locate path) with
  | some (.file contents) => return contents
  | some .directory => throw .isADirectory
  | none => throw .notFound

def pathExists (d : Disk) (path : Path) : Bool :=
  match d.locate path with
  | .ok names => (d.item? names).isSome
  | .error _ => false

def update (d : Disk) (path : Path) (change : ByteArray → ByteArray) : Except FileError Disk := do
  let names ← d.locate path
  match d.item? names with
  | some .directory => throw .isADirectory
  | some (.file old) => return { d with entries := d.entries.insert names (.file (change old)) }
  | none =>
    match d.item? names.dropLast with
    | some .directory =>
      if path.text.endsWith "/" then throw .isADirectory
      if path.text.endsWith "/." then throw .notFound
      return { d with entries := d.entries.insert names (.file (change ByteArray.empty)) }
    | some (.file _) => throw .notADirectory
    | none => throw .notFound

def write (d : Disk) (path : Path) (contents : ByteArray) : Except FileError Disk :=
  d.update path fun _ => contents

def append (d : Disk) (path : Path) (contents : ByteArray) : Except FileError Disk :=
  d.update path fun old => old ++ contents

def spelledNames (d : Disk) (path : Path) : List String :=
  (d.absolute path).components.filterMap fun
    | .name s => some s
    | _ => none

def makeDirectories (d : Disk) (names : List String) : Disk :=
  let ways := (List.range names.length).map fun n => names.take (n + 1)
  { d with entries := ways.foldl (fun t way => t.insertNew way .directory) d.entries }

def place (d : Disk) (path : Path) (contents : ByteArray) : Disk :=
  let names := d.spelledNames path
  let d := d.makeDirectories names.dropLast
  { d with entries := d.entries.insert names (.file contents) }

def remove (d : Disk) (path : Path) : Disk :=
  { d with entries := d.entries.erase (d.spelledNames path) }

end Disk
end SelectiveTrace
