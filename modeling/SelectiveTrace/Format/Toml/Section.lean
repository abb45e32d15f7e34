import SelectiveTrace.Bindings
import SelectiveTrace.Format.Document

/-! The tables of a TOML text while it is read. A table can be opened once, by a header of its own or
by dotted keys; a table that only stands on the way to another one can still get a header. -/
namespace SelectiveTrace.Toml

/-- What made a table: its own header, the header of a table inside it, or a dotted key. -/
inductive Origin where
  | header
  | passage
  | dotted
deriving DecidableEq

inductive Item where
  | value (d : Document)
  | table (origin : Origin) (entries : List (String × Item))
  /-- A list of tables; only the last one is still open. -/
  | tables (closed : List Document) (last : List (String × Item))

abbrev Entries := List (String × Item)

namespace Item

mutual

def toDocument : Item → Document
  | .value d => d
  | .table _ entries => .table (toDocuments entries)
  | .tables closed last => .list (closed ++ [.table (toDocuments last)])

def toDocuments : List (String × Item) → List (String × Document)
  | [] => []
  | (k, i) :: rest => (k, toDocument i) :: toDocuments rest

end

end Item

namespace Entries

def toDocument (es : Entries) : Document :=
  .table (Item.toDocuments es)

def within (change : Entries → Option Entries) : List String → Entries → Option Entries
  | [], es => change es
  | k :: ks, es =>
    match Bindings.get? k es with
    | none => (within change ks []).map fun sub => Bindings.set k (.table .passage sub) es
    | some (.value _) => none
    | some (.table origin sub) =>
      (within change ks sub).map fun sub => Bindings.set k (.table origin sub) es
    | some (.tables closed last) =>
      (within change ks last).map fun last => Bindings.set k (.tables closed last) es

def openTable (k : String) (es : Entries) : Option Entries :=
  match Bindings.get? k es with
  | none => some (Bindings.set k (.table .header []) es)
  | some (.table .passage sub) => some (Bindings.set k (.table .header sub) es)
  | some _ => none

def addTable (k : String) (es : Entries) : Option Entries :=
  match Bindings.get? k es with
  | none => some (Bindings.set k (.tables [] []) es)
  | some (.tables closed last) =>
    some (Bindings.set k (.tables (closed ++ [toDocument last]) []) es)
  | some _ => none

/-- Binds a dotted key. It may pass through tables that have no header, and the table that gets the
value is the open one itself or one that dotted keys made. -/
def put (d : Document) : Bool → List String → Entries → Option Entries
  | _, [], _ => none
  | isOpen, [k], es =>
    if isOpen && (Bindings.get? k es).isNone then some (Bindings.set k (.value d) es) else none
  | _, k :: ks, es =>
    match Bindings.get? k es with
    | none => (put d true ks []).map fun sub => Bindings.set k (.table .dotted sub) es
    | some (.value _) => none
    | some (.table .header _) => none
    | some (.table origin sub) =>
      (put d (origin = .dotted) ks sub).map fun sub => Bindings.set k (.table origin sub) es
    | some (.tables closed last) =>
      (put d false ks last).map fun last => Bindings.set k (.tables closed last) es

end Entries
end SelectiveTrace.Toml
