import SelectiveTrace.Format.Json
import SelectiveTrace.Surroundings
import SelectiveTrace.Text.Natural

/-! Questions about scopes, the answers to them on the wire, and those who answer: the index of the
file, a fixed table, or a child process that is asked and prints one reply. -/
namespace SelectiveTrace

inductive ScopeQuery where
  | statementRange (line : Nat)
  | belongingMethod (line : Nat)
  | methodRange (name : String)
deriving DecidableEq

namespace ScopeQuery

def ofParts? (op param : String) : Option ScopeQuery :=
  match op with
  | "get_statement_range" => (Text.natural? 32 param).map .statementRange
  | "get_belonging_method" => (Text.natural? 32 param).map .belongingMethod
  | "get_method_range" => some (.methodRange param)
  | _ => none

def opName : ScopeQuery → String
  | .statementRange _ => "get_statement_range"
  | .belongingMethod _ => "get_belonging_method"
  | .methodRange _ => "get_method_range"

def param : ScopeQuery → String
  | .statementRange line | .belongingMethod line => toString line
  | .methodRange name => name

def answer (ix : ScopeIndex) : ScopeQuery → Option LineSpan
  | .statementRange line => ix.statementRange line
  | .belongingMethod line => ix.enclosingMethod line
  | .methodRange name => ix.methodRange name

end ScopeQuery

structure ScopeReply where
  start : Option Nat := none
  stop : Option Nat := none
deriving DecidableEq

namespace ScopeReply

def ofSpan : Option LineSpan → ScopeReply
  | some s => ⟨some s.start, some s.stop⟩
  | none => {}

def span? (r : ScopeReply) : Option LineSpan :=
  match r.start, r.stop with
  | some start, some stop => if start ≤ stop then some ⟨start, stop⟩ else none
  | _, _ => none

open Document in
def ofDocument? (d : Document) : Option ScopeReply := do
  match d with
  | .list items => if items.length ≠ 2 then none
  | _ => pure ()
  match ← d.fields? true ["start_line", "end_line"] with
  | [start, stop] =>
    return {
      start := ← orDefault none (asOptional? (asNat? 32)) start
      stop := ← orDefault none (asOptional? (asNat? 32)) stop }
  | _ => none

def toDocument (r : ScopeReply) : Document :=
  .table [("start_line", .ofOption (fun n : Nat => .int n) r.start),
    ("end_line", .ofOption (fun n : Nat => .int n) r.stop)]

def parse (text : String) : Option ScopeReply :=
  (Json.parse (Text.trim text)).bind ofDocument?

def text (r : ScopeReply) : String :=
  Json.compact r.toDocument

end ScopeReply

/-- Someone who answers queries about files; the answer may fail with a text. -/
structure Resolver where
  ask : ScopeQuery → Path → Surroundings → Except String (Option LineSpan) × Surroundings

namespace Resolver

def indexed : Resolver where
  ask query file w :=
    let (ix, w) := w.index file
    (.ok (query.answer ix), w)

abbrev Ranges := List (Path × List (String × LineSpan))

def Ranges.find? (t : Ranges) (file : Path) (key : String) : Option LineSpan :=
  (List.find? (fun e => e.1.same file) t).bind fun e => Bindings.get? key e.2

/-- Answers from tables; with a broken one a question about a statement fails. -/
def tabled (statements enclosing methods : Ranges) (broken : Bool) : Resolver where
  ask query file w :=
    match query with
    | .statementRange _ =>
      if broken then (.error "statement index corrupted", w)
      else (.ok (statements.find? file query.param), w)
    | .belongingMethod _ => (.ok (enclosing.find? file query.param), w)
    | .methodRange _ => (.ok (methods.find? file query.param), w)

/-- A child process that answers: the arguments in front of the query, what it prints and how it
exits. One that does not exist never runs. -/
inductive Child where
  | missing
  | running (args : List String) (output : String) (exit : Int)

def Child.arguments (query : ScopeQuery) (file : Path) : Child → Option (List String)
  | .missing => none
  | .running args _ _ => some (args ++ [query.opName, file.text, query.param])

def Child.answer : Child → Option LineSpan
  | .missing => none
  | .running _ output exit =>
    if exit = 0 then (ScopeReply.parse output).bind ScopeReply.span? else none

def process (child : Child) : Resolver where
  ask _ _ w := (.ok child.answer, w)

end Resolver
end SelectiveTrace
