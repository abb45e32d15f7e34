import SelectiveTrace.Scope.Index
import SelectiveTrace.Text.Utf8

/-! What a run finds around it: the disk, the place standard error goes to, the clock, and the scope
indexes made so far. An index is made once for each file and stays as it was. -/
namespace SelectiveTrace

structure Surroundings where
  disk : Disk := {}
  /-- The file that standard error goes to, if it goes to one. -/
  standardError : Option Path := none
  /-- Nanoseconds since some start. -/
  now : Nat := 0
  indexes : Table (List Path.Component) ScopeIndex := {}

instance : Inhabited Surroundings := ⟨{}⟩

namespace Surroundings

def absolute (w : Surroundings) (path : Path) : Path :=
  w.disk.absolute path

def readText (w : Surroundings) (path : Path) : Except FileError String := do
  match Text.ofUtf8? (← w.disk.read path) with
  | some s => return s
  | none => throw .notText

def write (w : Surroundings) (path : Path) (text : String) : Except FileError Surroundings := do
  return { w with disk := ← w.disk.write path text.toUTF8 }

def append (w : Surroundings) (path : Path) (text : String) : Except FileError Surroundings := do
  return { w with disk := ← w.disk.append path text.toUTF8 }

end Surroundings

def ScopeIndex.load (w : Surroundings) (path : Path) : Except Error ScopeIndex :=
  match w.disk.read path with
  | .ok bytes => ScopeIndex.ofSource (Text.ofUtf8Lossy bytes)
  | .error e => .error (.file e)

/-- The index of a file, made at the first request and kept; a file that cannot be read has an
empty one. -/
def Surroundings.index (w : Surroundings) (path : Path) : ScopeIndex × Surroundings :=
  let file := w.absolute path
  match w.indexes.get? file.components with
  | some ix => (ix, w)
  | none =>
    let ix := match ScopeIndex.load w file with
      | .ok ix => ix
      | .error _ => {}
    (ix, { w with indexes := w.indexes.insert file.components ix })

end SelectiveTrace
