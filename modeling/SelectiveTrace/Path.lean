import SelectiveTrace.Text.Blank

/-! File paths. A path keeps its spelling; two spellings name the same file when they have the same
components. -/
namespace SelectiveTrace

structure Path where
  text : String
deriving DecidableEq, Inhabited

namespace Path

inductive Component where
  | root
  | here
  | up
  | name (s : String)
deriving DecidableEq, Inhabited

def segments (p : Path) : List String :=
  Text.split '/' p.text

def isAbsolute (p : Path) : Bool :=
  Text.startsWith p.text "/"

/-- Empty segments and dots mean nothing, except that a relative path may begin with a dot. -/
def component? : String → Option Component
  | "" => none
  | "." => none
  | ".." => some .up
  | s => some (.name s)

def components (p : Path) : List Component :=
  let parts := p.segments.filterMap component?
  if p.isAbsolute then .root :: parts
  else if p.segments.head? = some "." then .here :: parts
  else parts

def same (p q : Path) : Bool :=
  p.components = q.components

def startsWith (p start : Path) : Bool :=
  start.components.isPrefixOf p.components

def fileName? (p : Path) : Option String :=
  match p.components.getLast? with
  | some (.name s) => some s
  | _ => none

def join (base p : Path) : Path :=
  if p.isAbsolute then p
  else if base.text.isEmpty || base.text.endsWith "/" then ⟨base.text ++ p.text⟩
  else ⟨base.text ++ "/" ++ p.text⟩

end Path
end SelectiveTrace
