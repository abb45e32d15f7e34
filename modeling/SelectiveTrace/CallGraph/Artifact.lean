import SelectiveTrace.CallGraph.Basic
import SelectiveTrace.Format.Json
import SelectiveTrace.Surroundings

/-! Call graphs as files: written as indented text and read back. -/
namespace SelectiveTrace

namespace CallNode

def toDocument (n : CallNode) : Document :=
  .table [("depth", .int n.depth), ("content", .list (n.content.map .str))]

open Document in
def ofDocument? (d : Document) : Option CallNode := do
  match ← d.fields? true ["depth", "content"] with
  | [some depth, some content] =>
    return ⟨← depth.asInt? (-Nat.pow 2 63) (Nat.pow 2 63), ← content.asList? asString?⟩
  | _ => none

def listOfDocument? (d : Document) : Option (List CallNode) :=
  d.asList? ofDocument?

def listText (nodes : List CallNode) : String :=
  Json.pretty (.list (nodes.map toDocument))

def listOfText? (text : String) : Option (List CallNode) :=
  (Json.parse text).bind listOfDocument?

def load (w : Surroundings) (path : Path) : Except Error (List CallNode) :=
  match w.readText path with
  | .error e => .error (.file e)
  | .ok text =>
    match listOfText? text with
    | some nodes => .ok nodes
    | none => .error .json

end CallNode

namespace CallGraph

def text (g : CallGraph) : String :=
  CallNode.listText g.nodes

def flush (g : CallGraph) (w : Surroundings) : Except Error Surroundings :=
  match g.output with
  | none => .ok w
  | some path =>
    match w.write path g.text with
    | .ok w => .ok w
    | .error e => .error (.file e)

end CallGraph
end SelectiveTrace
