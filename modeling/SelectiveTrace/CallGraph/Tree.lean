import SelectiveTrace.CallGraph.Basic

/-! Call graphs drawn as trees: the lines of each node behind guides, one for each level between the
node and the shallowest one. -/
namespace SelectiveTrace.CallNode

def guide : List Char := "│   ".toList
def branch : List Char := "├─ ".toList
def continuation : List Char := "│  ".toList

def baseDepth : List CallNode → Int
  | [] => 0
  | [n] => n.depth
  | n :: ns => min n.depth (baseDepth ns)

def guides : Nat → List Char
  | 0 => []
  | n + 1 => guide ++ guides n

def drawLine (level : Nat) (mark : List Char) (line : String) : List Char :=
  guides level ++ mark ++ line.toList ++ ['\n']

def draw (level : Nat) : List String → List Char
  | [] => []
  | first :: rest => drawLine level branch first ++ rest.flatMap (drawLine level continuation)

def treeChars (nodes : List CallNode) : List Char :=
  nodes.flatMap fun n => draw (n.depth - baseDepth nodes).toNat n.content

def tree (nodes : List CallNode) : String :=
  String.ofList (treeChars nodes)

end SelectiveTrace.CallNode
