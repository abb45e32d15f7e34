import SelectiveTrace.Error
import SelectiveTrace.Grammar.Statement
import SelectiveTrace.Scope.Span

/-! The lines of the constructs of one source text: how far the constructs that start on a line
reach, and where each class and function stands. -/
namespace SelectiveTrace

inductive ScopeKind where
  | method
  | class_
deriving DecidableEq

def ScopeKind.name : ScopeKind → String
  | .method => "method"
  | .class_ => "class"

structure ScopeRange where
  kind : ScopeKind
  span : LineSpan
deriving DecidableEq

structure ScopeIndex where
  /-- The furthest last line of the constructs that start on a line. -/
  statementEnds : Table Nat Nat := {}
  /-- Classes and functions by dotted name, the enclosing ones first. -/
  ranges : Table String ScopeRange := {}

instance : Inhabited ScopeIndex := ⟨{}⟩

namespace NodeKind

def isStatement : NodeKind → Bool
  | .module | .block | .comment | .decorated | .elseClause | .finallyClause => false
  | .classDefinition | .functionDefinition | .plain => true

def scope? : NodeKind → Option ScopeKind
  | .classDefinition => some .class_
  | .functionDefinition => some .method
  | _ => none

end NodeKind

/-- The lines of a node. One that stops at the start of a line does not reach that line. -/
def SyntaxNode.span (n : SyntaxNode) : LineSpan :=
  let last := if n.stop.column = 0 ∧ n.start.row < n.stop.row then n.stop.row - 1 else n.stop.row
  ⟨n.start.row + 1, last + 1⟩

namespace ScopeIndex

def addStatement (ix : ScopeIndex) (s : LineSpan) : ScopeIndex :=
  let stop := match ix.statementEnds.get? s.start with
    | some stop => max stop s.stop
    | none => s.stop
  { ix with statementEnds := ix.statementEnds.insert s.start stop }

def dotted (names : List String) : String :=
  ".".intercalate names

def addRange (ix : ScopeIndex) (names : List String) (r : ScopeRange) : ScopeIndex :=
  { ix with ranges := ix.ranges.insert (dotted names) r }

structure Collector where
  index : ScopeIndex := {}
  names : List String := []

namespace Collector

def addStatement (c : Collector) (s : LineSpan) : Collector :=
  { c with index := c.index.addStatement s }

def enter (c : Collector) (name : String) (r : ScopeRange) : Collector :=
  let names := c.names ++ [name]
  { index := c.index.addRange names r, names }

def leave (c : Collector) : Collector :=
  { c with names := c.names.dropLast }

end Collector

mutual

def collect : SyntaxNode → Collector → Collector
  | .node kind start stop name children, c =>
    let span := (SyntaxNode.node kind start stop name children).span
    let c := if kind.isStatement then c.addStatement span else c
    match kind.scope?, name with
    | some k, some n => (collectAll children (c.enter n ⟨k, span⟩)).leave
    | _, _ => collectAll children c

def collectAll : List SyntaxNode → Collector → Collector
  | [], c => c
  | n :: ns, c => collectAll ns (collect n c)

end

def ofTree (root : SyntaxNode) : ScopeIndex :=
  (collectAll root.children {}).index

def ofSource (source : String) : Except Error ScopeIndex :=
  match Grammar.parse source with
  | some root => .ok (ofTree root)
  | none => .error .unparsable

def isEmpty (ix : ScopeIndex) : Bool :=
  ix.statementEnds.entries.isEmpty && ix.ranges.entries.isEmpty

def statementRange (ix : ScopeIndex) (line : Nat) : Option LineSpan :=
  (ix.statementEnds.get? line).map fun stop => ⟨line, stop⟩

/-- Whether `a` lies further inside than `b`: it is shorter, or as long and starts later. -/
def isInner (a b : LineSpan) : Bool :=
  a.length < b.length || (a.length = b.length && b.start < a.start)

def innermost : List LineSpan → Option LineSpan
  | [] => none
  | s :: ss =>
    match innermost ss with
    | some t => if isInner t s then some t else some s
    | none => some s

def methodsAround (ix : ScopeIndex) (line : Nat) : List LineSpan :=
  (ix.ranges.entries.map (·.2)).filterMap fun r =>
    if r.kind = .method && r.span.contains line then some r.span else none

def enclosingMethod (ix : ScopeIndex) (line : Nat) : Option LineSpan :=
  innermost (ix.methodsAround line)

def methodRange (ix : ScopeIndex) (name : String) : Option LineSpan :=
  (ix.ranges.get? name).map (·.span)

def outline (ix : ScopeIndex) : List (String × ScopeRange) :=
  ix.ranges.entries.mergeSort fun a b =>
    a.2.span.start < b.2.span.start || (a.2.span.start = b.2.span.start && a.1 ≤ b.1)

end ScopeIndex
end SelectiveTrace
