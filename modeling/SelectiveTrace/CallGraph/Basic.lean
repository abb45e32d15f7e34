import SelectiveTrace.Error

/-! Call graphs. A node is opened by a call and closed by the end of that call; nodes stand in the
order of the calls, and their depths tell which call was made inside which. -/
namespace SelectiveTrace

structure CallNode where
  depth : Int
  content : List String
deriving DecidableEq, Inhabited

namespace CallNode

def callMark : String := "Call ... "
def returnMark : String := "Return ... "
def valueMark : String := "Return value:.. "
def pathMark : String := "Source path:... "
def startingMark : String := "Starting var:.. "
def brokenOff : String := "Call ended by exception"

def opening (sourceLine sourcePath : String) (starting : Option String) : List String :=
  [callMark ++ sourceLine, pathMark ++ sourcePath] ++ (starting.map (startingMark ++ ·)).toList

def isClosing (line : String) : Bool :=
  Text.startsWith line valueMark || line = brokenOff

def isClosed (n : CallNode) : Bool :=
  n.content.getLast?.any isClosing

def add (n : CallNode) (lines : List String) : CallNode :=
  { n with content := n.content ++ lines }

end CallNode

structure CallGraph where
  nodes : List CallNode := []
  /-- The nodes of the calls that have not ended, by position. -/
  pending : Table FrameId Nat := {}
  /-- The file that the graph is written to. -/
  output : Option Path := none

instance : Inhabited CallGraph := ⟨{}⟩

namespace CallGraph

def openCall (g : CallGraph) (frame : FrameId) (depth : Int) (sourceLine sourcePath : String)
    (starting : Option String) : CallGraph :=
  { g with
    nodes := g.nodes ++ [⟨depth, CallNode.opening sourceLine sourcePath starting⟩]
    pending := g.pending.insert frame g.nodes.length }

def isOpen (g : CallGraph) (frame : FrameId) : Bool :=
  g.pending.contains frame

def close (g : CallGraph) (frame : FrameId) (lines : List String) : Except Error CallGraph :=
  match g.pending.get? frame with
  | some i =>
    .ok { g with nodes := g.nodes.modify i (·.add lines), pending := g.pending.erase frame }
  | none => .error (.unmatchedReturn frame)

def closeReturn (g : CallGraph) (frame : FrameId) (sourceLine value : String) :
    Except Error CallGraph :=
  g.close frame [CallNode.returnMark ++ sourceLine, CallNode.valueMark ++ value]

def closeException (g : CallGraph) (frame : FrameId) : Except Error CallGraph :=
  g.close frame [CallNode.brokenOff]

@[simp] theorem isOpen_openCall (g : CallGraph) (frame : FrameId) (depth : Int)
    (line path : String) (starting : Option String) :
    (g.openCall frame depth line path starting).isOpen frame = true := by
  simp [openCall, isOpen, Table.contains]

theorem pending_openCall_eq_some_iff {g : CallGraph} {frame j : FrameId} {depth : Int}
    {line path : String} {starting : Option String} {i : Nat} :
    (g.openCall frame depth line path starting).pending.get? j = some i ↔
      j = frame ∧ i = g.nodes.length ∨ j ≠ frame ∧ g.pending.get? j = some i :=
  Table.get?_insert_eq_some_iff

theorem nodes_openCall_of_lt {g : CallGraph} {frame : FrameId} {depth : Int}
    {line path : String} {starting : Option String} {i : Nat} (h : i < g.nodes.length) :
    (g.openCall frame depth line path starting).nodes[i]? = g.nodes[i]? :=
  List.getElem?_append_left h

theorem length_nodes_openCall (g : CallGraph) (frame : FrameId) (depth : Int)
    (line path : String) (starting : Option String) :
    (g.openCall frame depth line path starting).nodes.length = g.nodes.length + 1 := by
  simp [openCall]

end CallGraph
end SelectiveTrace
