import SelectiveTrace.CallGraph.Artifact
import SelectiveTrace.CallGraph.Tree
import SelectiveTrace.CommandLine.Arguments
import SelectiveTrace.Scope.Query

/-! What the commands print. -/
namespace SelectiveTrace

def ScopeRange.toDocument (name : String) (r : ScopeRange) : Document :=
  .table [("name", .str name), ("kind", .str r.kind.name),
    ("start_line", .int r.span.start), ("end_line", .int r.span.stop)]

def ScopeKind.keyword : ScopeKind → String
  | .class_ => "class"
  | .method => "def"

def ScopeRange.listing (name : String) (r : ScopeRange) : String :=
  Text.padLeft 5 ' ' (toString r.span.start) ++ "-" ++ Text.padRight 5 (toString r.span.stop) ++
    " " ++ Text.padRight 5 r.kind.keyword ++ " " ++ name ++ "\n"

namespace Command

def scopeText (op : String) (file : Path) (param : String) (w : Surroundings) :
    Except Error (String × Surroundings) :=
  match ScopeQuery.ofParts? op param with
  | none => .error (.invalidTarget (.unknownQuery op param))
  | some query =>
    let (ix, w) := w.index (w.absolute file)
    .ok ((ScopeReply.ofSpan (query.answer ix)).text ++ "\n", w)

def outlineText (file : Path) (json : Bool) (w : Surroundings) : String × Surroundings :=
  let file := w.absolute file
  let (ix, w) := w.index file
  let entries := ix.outline
  if json then
    (Json.pretty (.list (entries.map fun (name, r) => r.toDocument name)) ++ "\n", w)
  else if entries.isEmpty then
    ("No classes or functions found in " ++ file.text ++ "\n", w)
  else (String.join (entries.map fun (name, r) => r.listing name), w)

def graphText (nodes : List CallNode) (json : Bool) : String :=
  if json then CallNode.listText nodes ++ "\n" else CallNode.tree nodes

def run (c : Command) (w : Surroundings) : Except Error (String × Surroundings) :=
  match c with
  | .scope op file param => scopeText op file param w
  | .outline file json => .ok (outlineText file json w)
  | .renderGraph file json =>
    match CallNode.load w file with
    | .ok nodes => .ok (graphText nodes json, w)
    | .error e => .error e

end Command
end SelectiveTrace
