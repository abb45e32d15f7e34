import SelectiveTrace.Host.Frame

/-! What a tracer remembers while it runs: its targets, the depth of each thread, and for each frame
the texts of its variables, the hits of its lines and the start of its clock. -/
namespace SelectiveTrace

structure VarDiff where
  added : List (String × String)
  modified : List (String × String)
deriving DecidableEq

def VarDiff.isEmpty (d : VarDiff) : Bool :=
  d.added.isEmpty && d.modified.isEmpty

def VarDiff.between (old new : List (String × String)) : VarDiff where
  added := new.filter fun v => (Bindings.get? v.1 old).isNone
  modified := new.filter fun v => (Bindings.get? v.1 old).any (· ≠ v.2)

structure Session where
  targetCodes : List CodeId := []
  targetFrames : List FrameId := []
  /-- The variables of each frame as they were shown last. -/
  snapshots : Table FrameId (List (String × String)) := {}
  lineHits : Table FrameId (Table Nat Nat) := {}
  /-- By thread; a thread that is absent is at minus one. -/
  depths : Table Nat Int := {}
  /-- The threads in the order they were seen first. -/
  threads : List Nat := []
  timers : Table FrameId Nat := {}

instance : Inhabited Session := ⟨{}⟩

namespace Session

def isTarget (s : Session) (code : CodeId) (frame : FrameId) : Bool :=
  s.targetCodes.contains code || s.targetFrames.contains frame

def addCode (s : Session) (code : CodeId) : Session :=
  { s with targetCodes := s.targetCodes.insert code }

def attach (s : Session) (frame : FrameId) : Session :=
  { s with targetFrames := s.targetFrames.insert frame }

def detach (s : Session) (frame : FrameId) : Session :=
  { s with targetFrames := s.targetFrames.filter (· ≠ frame) }

def depth (s : Session) (thread : Nat) : Int :=
  (s.depths.get? thread).getD (-1)

def setDepth (s : Session) (thread : Nat) (n : Int) : Session :=
  { s with depths := s.depths.insert thread n }

def adjustDepth (s : Session) (thread : Nat) (by' : Int) : Session :=
  s.setDepth thread (s.depth thread + by')

def seeThread (s : Session) (thread : Nat) : Session :=
  if s.threads.contains thread then s else { s with threads := s.threads ++ [thread] }

def threadNumber (s : Session) (thread : Nat) : Nat :=
  s.threads.idxOf thread + 1

def hits (s : Session) (frame : FrameId) (line : Nat) : Nat :=
  ((s.lineHits.get? frame).bind fun t => t.get? line).getD 0

/-- One more hit of a line. The count has no bound here; a word of 32 bits holds it until the line is
hit `2 ^ 32` times in one activation. -/
def recordHit (s : Session) (frame : FrameId) (line : Nat) : Session :=
  let t := (s.lineHits.get? frame).getD {}
  { s with lineHits := s.lineHits.insert frame (t.insert line (s.hits frame line + 1)) }

def snapshot (s : Session) (frame : FrameId) : List (String × String) :=
  (s.snapshots.get? frame).getD []

def diff (s : Session) (frame : FrameId) (vars : List (String × String)) : VarDiff × Session :=
  (.between (s.snapshot frame) vars, { s with snapshots := s.snapshots.insert frame vars })

def hasSnapshot (s : Session) (frame : FrameId) : Bool :=
  s.snapshots.contains frame

def dropSnapshot (s : Session) (frame : FrameId) : Session :=
  { s with snapshots := s.snapshots.erase frame }

def startTimer (s : Session) (frame : FrameId) (now : Nat) : Session :=
  { s with timers := s.timers.insertNew frame now }

def dropTimer (s : Session) (frame : FrameId) : Session :=
  { s with timers := s.timers.erase frame }

def evict (s : Session) (frame : FrameId) : Session :=
  { s with
    snapshots := s.snapshots.erase frame
    lineHits := s.lineHits.erase frame
    timers := s.timers.erase frame }

def trackedFrames (s : Session) : Nat :=
  (s.snapshots.keys ++ s.lineHits.keys ++ s.timers.keys).eraseDups.length

@[simp] theorem depth_setDepth_self (s : Session) (thread : Nat) (n : Int) :
    (s.setDepth thread n).depth thread = n := by
  simp [depth, setDepth]

theorem depth_setDepth_of_ne (s : Session) {thread other : Nat} (n : Int) (h : other ≠ thread) :
    (s.setDepth thread n).depth other = s.depth other := by
  simp [depth, setDepth, Table.get?_insert_of_ne _ _ h]

theorem depth_adjustDepth (s : Session) (thread : Nat) (n : Int) :
    (s.adjustDepth thread n).depth thread = s.depth thread + n := by
  simp [adjustDepth]

theorem hits_recordHit_self (s : Session) (frame : FrameId) (line : Nat) :
    (s.recordHit frame line).hits frame line = s.hits frame line + 1 := by
  simp [recordHit, hits]

@[simp] theorem snapshot_diff (s : Session) (frame : FrameId) (vars : List (String × String)) :
    (s.diff frame vars).2.snapshot frame = vars := by
  simp [diff, snapshot]

end Session
end SelectiveTrace
