import SelectiveTrace.Path

/-! Runtime values as a host shows them to the tracers: a snapshot with no identity but the
addresses it carries. -/
namespace SelectiveTrace

structure Function where
  name : String
  file : Option Path := none
  line : Option Nat := none
  /-- The line its definition begins with. -/
  definition : Option String := none
  address : Nat := 0

inductive Value where
  | none
  | bool (b : Bool)
  | int (i : Int)
  | float (f : Float)
  | str (s : String)
  | list (items : List Value)
  | tuple (items : List Value)
  | dict (entries : List (Value × Value))
  | set (items : List Value)
  | callable (f : Function)
  /-- An instance of the class `class_` of a module, with its attributes. -/
  | object (module class_ : String) (attributes : List (String × Value)) (address : Nat)

instance : Inhabited Value := ⟨.none⟩

inductive ValueKind where
  | scalar
  | sequence
  | mapping
  | set
  | callable
  | object
deriving DecidableEq

namespace Value

def kind : Value → ValueKind
  | .none | .bool _ | .int _ | .float _ | .str _ => .scalar
  | .list _ | .tuple _ => .sequence
  | .dict _ => .mapping
  | .set _ => .set
  | .callable _ => .callable
  | .object .. => .object

def typeName : Value → String
  | .none => "NoneType"
  | .bool _ => "bool"
  | .int _ => "int"
  | .float _ => "float"
  | .str _ => "str"
  | .list _ => "list"
  | .tuple _ => "tuple"
  | .dict _ => "dict"
  | .set _ => "set"
  | .callable _ => "function"
  | .object _ class_ _ _ => class_

end Value
end SelectiveTrace
