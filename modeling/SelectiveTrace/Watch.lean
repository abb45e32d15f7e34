import SelectiveTrace.Namespace
import SelectiveTrace.Render

/-! Watched expressions: dotted paths that start at a local, or else at a global, and go on through
attributes, keys and positions. A watch may also show the parts of the value it finds. -/
namespace SelectiveTrace

inductive Watch where
  | path (source : String)
  | explode (source : String)
deriving DecidableEq

namespace Watch

def source : Watch → String
  | .path s | .explode s => s

def follow : Value → List String → Option Value
  | v, [] => some v
  | v, part :: parts => (v.child part).bind fun v => follow v parts

def resolve (source : String) (locals globals : Namespace) : Option Value :=
  match Text.split '.' source with
  | [] => none
  | head :: parts => ((locals.get? head).or (globals.get? head)).bind fun v => follow v parts

def parts (source : String) : Value → List (String × Value)
  | .object _ _ attributes _ => attributes.map fun (name, v) => (source ++ "." ++ name, v)
  | .dict entries => entries.map fun (k, v) => (source ++ "[" ++ k.repr ++ "]", v)
  | .list items | .tuple items =>
    items.zipIdx.map fun (v, i) => (source ++ "[" ++ toString i ++ "]", v)
  | _ => []

def values (w : Watch) (locals globals : Namespace) : List (String × Value) :=
  match resolve w.source locals globals with
  | none => []
  | some v =>
    match w with
    | .path s => [(s, v)]
    | .explode s => (s, v) :: parts s v

def items (w : Watch) (locals globals : Namespace) (r : Renderer) :
    Except String (List (String × String)) :=
  r.renderAll (w.values locals globals)

end Watch
end SelectiveTrace
