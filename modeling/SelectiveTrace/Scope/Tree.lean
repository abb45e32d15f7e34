/-! Syntax trees of program text: one node for each construct, with the places where it starts and
stops. -/
namespace SelectiveTrace

/-- A place in a text: the line and the character on it, both counted from zero. -/
structure Place where
  row : Nat
  column : Nat
deriving DecidableEq, Inhabited

inductive NodeKind where
  | module
  | block
  | comment
  | decorated
  | elseClause
  | finallyClause
  | classDefinition
  | functionDefinition
  | plain
deriving DecidableEq, Inhabited

inductive SyntaxNode where
  | node (kind : NodeKind) (start stop : Place) (name : Option String)
      (children : List SyntaxNode)

instance : Inhabited SyntaxNode := ⟨.node .plain ⟨0, 0⟩ ⟨0, 0⟩ none []⟩

namespace SyntaxNode

def kind : SyntaxNode → NodeKind
  | .node k _ _ _ _ => k

def start : SyntaxNode → Place
  | .node _ s _ _ _ => s

def stop : SyntaxNode → Place
  | .node _ _ s _ _ => s

def name? : SyntaxNode → Option String
  | .node _ _ _ n _ => n

def children : SyntaxNode → List SyntaxNode
  | .node _ _ _ _ cs => cs

end SyntaxNode
end SelectiveTrace
