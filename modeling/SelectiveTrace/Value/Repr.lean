import SelectiveTrace.Decimal.Shortest
import SelectiveTrace.Text.Natural
import SelectiveTrace.Text.Quoted
import SelectiveTrace.Value.Basic

/-! The text of a value as the traced program would print it, and the parts of a value that such
texts can name. -/
namespace SelectiveTrace

def hexText (n : Nat) : String :=
  String.ofList (Nat.toDigits 16 n)

namespace Value

def signText (negative : Bool) : String :=
  if negative then "-" else ""

/-- A whole number below `10 ^ 16` shows one place, any other double its shortest digits, and
neither ever an exponent. -/
def floatText (f : Float) : String :=
  match Decimal.reading f with
  | .nan => "nan"
  | .infinite negative => signText negative ++ "inf"
  | .finite negative magnitude =>
    signText negative ++
      match magnitude.whole? with
      | some n => if n < Nat.pow 10 16 then toString n ++ ".0" else magnitude.shortest.positional
      | .none => magnitude.shortest.positional

mutual

def repr : Value → String
  | .none => "None"
  | .bool true => "True"
  | .bool false => "False"
  | .int i => toString i
  | .float f => floatText f
  | .str s => Text.quote s
  | .list items => "[" ++ ", ".intercalate (reprs items) ++ "]"
  | .tuple [item] => "(" ++ repr item ++ ",)"
  | .tuple items => "(" ++ ", ".intercalate (reprs items) ++ ")"
  | .set [] => "set()"
  | .set items => "\x7b" ++ ", ".intercalate (reprs items) ++ "\x7d"
  | .dict entries => "\x7b" ++ ", ".intercalate (entryReprs entries) ++ "\x7d"
  | .callable f => "<function " ++ f.name ++ " at 0x" ++ hexText f.address ++ ">"
  | .object module class_ _ address =>
    "<" ++ module ++ "." ++ class_ ++ " object at 0x" ++ hexText address ++ ">"

def reprs : List Value → List String
  | [] => []
  | v :: vs => repr v :: reprs vs

def entryReprs : List (Value × Value) → List String
  | [] => []
  | (k, v) :: entries => (repr k ++ ": " ++ repr v) :: entryReprs entries

end

def display : Value → String
  | .str s => s
  | v => v.repr

/-- The attribute, entry or item that `key` names, an item by its position; the first one if several
do. -/
def child (key : String) : Value → Option Value
  | .object _ _ attributes _ => (attributes.find? fun a => a.1 = key).map (·.2)
  | .dict entries =>
    (entries.find? fun e => e.1.display = key || e.1.repr = key).map (·.2)
  | .list items | .tuple items => (Text.natural? 64 key).bind fun i => items[i]?
  | _ => .none

end Value
end SelectiveTrace
