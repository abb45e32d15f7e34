import SelectiveTrace.Text.Blank
import SelectiveTrace.Text.Shorten
import SelectiveTrace.Value.Repr

/-! How values are shown on trace lines. Custom formats come first, in the order they were added;
the text is then put on one line, freed of addresses if asked, and shortened. -/
namespace SelectiveTrace

structure CustomFormat where
  applies : Value → Bool
  format : Value → Except String String

structure Renderer where
  custom : List CustomFormat := []
  maxLength : Option Nat := some 100
  normalize : Bool := false

namespace Renderer

def register (r : Renderer) (f : CustomFormat) : Renderer :=
  { r with custom := r.custom ++ [f] }

def repr (r : Renderer) (v : Value) : Except String String :=
  match r.custom.find? fun f => f.applies v with
  | some f => f.format v
  | none => .ok v.repr

def oneLine (s : String) : String :=
  String.ofList (s.toList.filter fun c => c ≠ '\r' ∧ c ≠ '\n')

def fit (r : Renderer) (s : String) : String :=
  let s := oneLine s
  let s := if r.normalize then Text.normalize s else s
  match r.maxLength with
  | some max => Text.shorten max s
  | none => s

def render (r : Renderer) (v : Value) : Except String String :=
  (r.repr v).map r.fit

def renderAll (r : Renderer) : List (String × Value) → Except String (List (String × String))
  | [] => .ok []
  | (name, v) :: rest =>
    match r.render v with
    | .error e => .error e
    | .ok text => (r.renderAll rest).map ((name, text) :: ·)

end Renderer

structure Template where
  kind : Option ValueKind := none
  typeName : Option String := none
  /-- The text, or the failure that takes its place. -/
  text : Except String String

namespace Template

def applies (t : Template) (v : Value) : Bool :=
  t.kind.all (· = v.kind) && t.typeName.all (· = v.typeName)

def fill (text : String) (v : Value) : String :=
  Text.replace (Text.replace text "\x7brepr\x7d" v.repr) "\x7btype\x7d" v.typeName

def format (t : Template) (v : Value) : Except String String :=
  t.text.map fun text => fill text v

def custom (t : Template) : CustomFormat :=
  ⟨t.applies, t.format⟩

end Template
end SelectiveTrace
