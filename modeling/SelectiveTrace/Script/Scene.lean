import SelectiveTrace.Script.Hook
import SelectiveTrace.Script.Step

/-! The state of a running script: its hooks, a machine for each thread, the frames by label, and
the log, which tells after each step what it gave and what the hooks put out. -/
namespace SelectiveTrace

structure SessionView where
  hits : Nat
  hasSnapshot : Bool
  /-- The frame itself is a target. -/
  isAttached : Bool
  /-- The frame or its code is a target; absent for a dead frame. -/
  isTarget : Option Bool

structure FrameView where
  function : String
  line : Nat
  file : Path
  /-- The label of the frame behind. -/
  back : Option String
  locals : List (String × String)
  opcode : Option Opcode

inductive Result where
  | nothing
  | text (s : String)
  | panicked (text : String)
  | raised (text : String)
  | missing
  | session (v : SessionView)
  | frame (v : FrameView)
  | names (bindings : List (String × String))

/-- What a hook shows after a step: the depth of the running thread and the frames kept, for a
tracer; the verdict so far, for a probe; and what is new. -/
structure HookReport where
  depth : Option Int := none
  tracked : Option Nat := none
  isGlobal : Option Bool := none
  output : List Output := []
  faults : List Error := []

structure Entry where
  word : String
  /-- The label of the current frame. -/
  current : Option String
  live : Nat
  result : Result
  hooks : List (String × HookReport)

inductive Exit where
  | done
  | failed (e : Raised)
  | panicked (text : String)
deriving DecidableEq

structure Scene where
  audience : Audience := {}
  /-- One machine for each thread, by key; the main thread has none. -/
  machines : Table (Option String) Machine := {}
  running : Option String := none
  /-- The frame that a label stands for. -/
  frames : Table String FrameId := {}
  /-- The label that a frame got. -/
  labels : Table FrameId String := {}
  /-- All frames, in the order they were made. -/
  births : List FrameId := []
  /-- How many machines there were. -/
  made : Nat := 1
  /-- Blocks are not traced. -/
  isDisabled : Bool := false
  /-- How many pieces and faults of each hook the log has told. -/
  told : Table String (Nat × Nat) := {}
  log : List Entry := []

instance : Inhabited Scene := ⟨{}⟩

namespace Scene

def machine (s : Scene) : Machine :=
  (s.machines.get? s.running).getD {}

def setMachine (s : Scene) (m : Machine) : Scene :=
  { s with machines := s.machines.insert s.running m }

def around (s : Scene) : Surroundings :=
  s.audience.around

def setAround (s : Scene) (around : Surroundings) : Scene :=
  { s with audience := { s.audience with around } }

def number (s : Scene) (frame : FrameId) : Nat :=
  s.births.idxOf frame + 1

def openThread (s : Scene) (key : String) (name : Option String) : Scene :=
  if s.machines.contains (some key) then s
  else
    { s with
      machines := s.machines.insert (some key) { id := s.made, thread := ⟨s.made, name⟩ }
      made := s.made + 1 }

def restart (s : Scene) (name : HookName) (hook : Hook) : Scene :=
  { audience := { s.audience with hooks := [(name, hook)] }
    machines := (⟨[]⟩ : Table _ _).insert none { id := s.made }
    births := s.births
    made := s.made + 1 }

def operate (s : Scene) (op : Op FrameId) : Exit × Scene :=
  let r := s.machine.step Audience.deliver s.audience op
  let s := { s.setMachine r.machine with audience := r.state }
  match r.panic with
  | none => (.done, s)
  | some text => (.panicked text, s)

def bind (s : Scene) (label : String) (frame : FrameId) : Scene :=
  { s with frames := s.frames.insert label frame, labels := s.labels.insert frame label }

/-- An operation on frames by label. A new frame is numbered at once, and gets its label when the
operation is over; an operation on an unknown label does nothing. -/
def host (s : Scene) (label : Option String) (op : Op String) : Exit × Scene :=
  if op.frame?.any fun l => !s.frames.contains l then (.done, s)
  else
    let frame := s.machine.nextId
    let s := if op.isBirth then { s with births := s.births ++ [frame] } else s
    match s.operate (op.map fun l => (s.frames.get? l).getD frame) with
    | (.done, s) =>
      match label with
      | some label => (.done, s.bind label frame)
      | none => (.done, s)
    | r => r

def tracer? (s : Scene) (name : String) : Option Tracer :=
  match Bindings.get? name s.audience.hooks with
  | some (.tracer t) => some t
  | _ => none

def setTracer (s : Scene) (name : String) (t : Tracer) : Scene :=
  { s with audience := { s.audience with hooks := Bindings.set name (.tracer t) s.audience.hooks } }

def onTracer (s : Scene) (name : String)
    (change : Tracer → Surroundings → Tracer × Surroundings) : Scene :=
  match s.tracer? name with
  | some t =>
    let (t, around) := change t s.around
    (s.setTracer name t).setAround around
  | none => s

def enter (s : Scene) (tracer : String) (frame : FrameId) : Scene :=
  s.onTracer tracer fun t w => (t.enter w frame, w)

def exit (s : Scene) (tracer : String) (frame : FrameId) : Scene :=
  s.onTracer tracer fun t w => t.exit w s.machine.thread frame

def noCode : CodeId := ⟨"", "", 0⟩

def sessionView (s : Scene) (t : Tracer) (frame : FrameId) (line : Nat) : SessionView where
  hits := t.session.hits frame line
  hasSnapshot := t.session.hasSnapshot frame
  isAttached := t.session.isTarget noCode frame
  isTarget := (s.machine.frame? frame).map fun f => t.session.isTarget f.code frame

def frameView (s : Scene) (f : Frame) : FrameView where
  function := f.function
  line := f.line
  file := f.file
  back := f.back.bind s.labels.get?
  locals := f.locals.reprs
  opcode := f.lastOpcode

def place (s : Scene) (file : Path) (contents : Option ByteArray) : Scene :=
  let w := s.around
  match contents with
  | some bytes => s.setAround { w with disk := w.disk.place file bytes }
  | none => s.setAround { w with disk := w.disk.remove file }

def read (s : Scene) (file : Path) : Result :=
  match s.around.disk.read file with
  | .ok bytes => .text (Text.ofUtf8Lossy bytes)
  | .error _ => .missing

def currentLabel (s : Scene) : Option String :=
  s.machine.current.map fun f => (s.labels.get? f).getD "?"

def reportOf (s : Scene) (name : String) (h : Hook) : HookReport :=
  let (pieces, faults) := (s.told.get? name).getD (0, 0)
  let report : HookReport := { output := h.outputSince pieces, faults := h.faults.drop faults }
  match h with
  | .tracer t =>
    { report with
      depth := some (t.session.depth s.machine.thread.id)
      tracked := some t.session.trackedFrames }
  | .probe p => { report with isGlobal := some p.isGlobal }
  | .recorder _ | .history _ => report

def note (s : Scene) (word : String) (result : Result) : Scene :=
  let hooks := s.audience.hooks
  { s with
    log := s.log ++ [{
      word, current := s.currentLabel, live := s.machine.frames.size, result
      hooks := hooks.map fun (name, h) => (name, s.reportOf name h) }]
    told := hooks.foldl (fun t (name, h) => t.insert name (h.output.length, h.faults.length))
      s.told }

end Scene
end SelectiveTrace
