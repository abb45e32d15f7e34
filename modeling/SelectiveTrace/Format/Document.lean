/-! Documents: the data that a configuration or an artifact holds, whatever format it was read
from. Tables keep their entries in order and may hold a name twice. -/
namespace SelectiveTrace

inductive Document where
  | null
  | bool (b : Bool)
  | int (i : Int)
  /-- A number that is not written as a whole one; its size never matters. -/
  | real
  | str (s : String)
  | list (items : List Document)
  | table (entries : List (String × Document))

instance : Inhabited Document := ⟨.null⟩

namespace Document

def asBool? : Document → Option Bool
  | .bool b => some b
  | _ => none

def asString? : Document → Option String
  | .str s => some s
  | _ => none

def asInt? (low high : Int) : Document → Option Int
  | .int i => if low ≤ i ∧ i < high then some i else none
  | _ => none

def asNat? (bits : Nat) (d : Document) : Option Nat :=
  (d.asInt? 0 (Nat.pow 2 bits)).map Int.toNat

def asList? {α : Type} (read : Document → Option α) : Document → Option (List α)
  | .list items => items.mapM read
  | _ => none

def asOptional? {α : Type} (read : Document → Option α) : Document → Option (Option α)
  | .null => some none
  | d => (read d).map some

def item? (entries : List (String × Document)) (name : String) : Option (Option Document) :=
  match entries.filter fun e => e.1 = name with
  | [] => some none
  | [e] => some (some e.2)
  | _ => none

/-- The fields of a record: by name from a table, by position from a list. Entries with other names
are passed over, and so are the items beyond the record unless it is read exactly. -/
def fields? (exact : Bool) (names : List String) : Document → Option (List (Option Document))
  | .table entries => names.mapM (item? entries)
  | .list items =>
    if exact && names.length < items.length then none
    else some ((List.range names.length).map fun i => items[i]?)
  | _ => none

def orDefault {α : Type} (standard : α) (read : Document → Option α) :
    Option Document → Option α
  | none => some standard
  | some d => read d

def ofOption {α : Type} (write : α → Document) : Option α → Document
  | some a => write a
  | none => .null

end Document
end SelectiveTrace
