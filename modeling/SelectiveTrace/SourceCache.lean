import SelectiveTrace.Surroundings

/-! The lines of source files. The files read last are kept up to a capacity; texts that were
registered stand for their files and are never dropped. -/
namespace SelectiveTrace

structure SourceCache where
  /-- At least one file is kept. -/
  capacity : Nat := 256
  files : Table (List Path.Component) (List String) := {}
  registered : Table (List Path.Component) (List String) := {}

instance : Inhabited SourceCache := ⟨{}⟩

namespace SourceCache

def unavailable : String := "SOURCE IS UNAVAILABLE"

def ofCapacity (n : Nat) : SourceCache :=
  { capacity := max 1 n }

def split (text : String) : List String :=
  (Text.lines text).map Text.trimEnd

def register (c : SourceCache) (path : Path) (text : String) : SourceCache :=
  { c with registered := c.registered.insert path.components (split text) }

def keep (c : SourceCache) (path : Path) (lines : List String) : SourceCache :=
  { c with files := (c.files.insert path.components lines).takeRecent c.capacity }

/-- The lines of a file on disk; one without lines counts as unreadable. -/
def readLines (w : Surroundings) (path : Path) : Option (List String) :=
  match w.disk.read path with
  | .ok bytes =>
    let lines := split (Text.ofUtf8Lossy bytes)
    if lines.isEmpty then none else some lines
  | .error _ => none

/-- All lines of `path`: the registered ones, the ones kept, or the ones on disk. -/
def lines (c : SourceCache) (w : Surroundings) (path : Path) :
    Option (List String) × SourceCache :=
  match c.registered.get? path.components with
  | some ls => (some ls, c)
  | none =>
    match c.files.get? path.components with
    | some ls => (some ls, c.keep path ls)
    | none =>
      match readLines w path with
      | some ls => (some ls, c.keep path ls)
      | none => (none, c)

/-- Line `n` among `ls`, counted from one; zero means the first one too. -/
def lineAt (ls : Option (List String)) (n : Nat) : String :=
  (ls.bind fun ls => ls[n - 1]?).getD unavailable

def line (c : SourceCache) (w : Surroundings) (path : Path) (n : Nat) : String × SourceCache :=
  let (ls, c) := c.lines w path
  (lineAt ls n, c)

def rangeAt (ls : List String) (start stop : Nat) : Option (List String) :=
  if start - 1 < min stop ls.length then some ((ls.take stop).drop (start - 1)) else none

def range (c : SourceCache) (w : Surroundings) (path : Path) (start stop : Nat) :
    Option (List String) × SourceCache :=
  let (ls, c) := c.lines w path
  (ls.bind fun ls => rangeAt ls start stop, c)

def size (c : SourceCache) : Nat :=
  c.files.size + c.registered.size

end SourceCache
end SelectiveTrace
