import SelectiveTrace.CallGraph.Artifact
import SelectiveTrace.Config
import SelectiveTrace.Sink
import SelectiveTrace.SourceCache
import SelectiveTrace.Text.Elapsed
import SelectiveTrace.Tracer.Session
import SelectiveTrace.Watch

/-! Tracers: what they are made of, how they are set up, and how they attach to frames. -/
namespace SelectiveTrace

structure Tracer where
  config : TracerConfig := {}
  /-- The region that is traced, its file made absolute. -/
  observed : Option Region := none
  session : Session := {}
  renderer : Renderer := {}
  sources : SourceCache := {}
  sink : Sink := .standardError
  watches : List Watch := []
  /-- The calls so far, where a graph is collected instead of lines. -/
  graph : Option CallGraph := none
  /-- The source path written last. -/
  lastPath : Option String := none
  /-- The width of the longest thread label so far. -/
  threadWidth : Nat := 0
  faults : List Error := []

instance : Inhabited Tracer := ⟨{}⟩

namespace Tracer

def ofConfig (c : TracerConfig) (disk : Disk) : Except Error Tracer :=
  match c.validate disk with
  | .error e => .error e
  | .ok _ =>
    .ok {
      config := c
      observed := c.observed.map fun r => { r with file := disk.absolute r.file }
      renderer := { maxLength := c.lengthLimit, normalize := c.normalize }
      watches := c.watch.map .path ++ c.watchExplode.map .explode
      graph := c.callGraph.map fun output => { output } }

def keepFiles (t : Tracer) (n : Nat) : Tracer :=
  { t with sources := .ofCapacity n }

def onSession (t : Tracer) (change : Session → Session) : Tracer :=
  { t with session := change t.session }

def fault (t : Tracer) (e : Error) : Tracer :=
  { t with faults := t.faults ++ [e] }

/-- Traces every activation of a function. An observed region takes no targets. -/
def targetCode (t : Tracer) (code : CodeId) : Tracer :=
  if t.observed.isSome then t else t.onSession (·.addCode code)

def indentation (depth : Int) : String :=
  String.ofList (List.replicate (4 * depth.toNat) ' ')

def write (t : Tracer) (w : Surroundings) : List String → Tracer × Surroundings
  | [] => (t, w)
  | line :: lines =>
    if t.graph.isSome then (t, w)
    else
      let (sink, w) := t.sink.writeLine (t.config.linePrefix ++ line) w
      write { t with sink } w lines

def enter (t : Tracer) (w : Surroundings) (frame : FrameId) : Tracer :=
  if t.observed.isSome then t
  else t.onSession fun s => (s.attach frame).startTimer frame w.now

def elapsedLine (depth : Int) (time : Nat) : String :=
  indentation (depth + 1) ++ "Elapsed time: " ++ Text.elapsed time

def exit (t : Tracer) (w : Surroundings) (thread : Thread) (frame : FrameId) :
    Tracer × Surroundings :=
  if t.observed.isSome then (t, w)
  else
    let started := t.session.timers.get? frame
    let t := t.onSession fun s => ((s.detach frame).dropSnapshot frame).dropTimer frame
    match started with
    | some start => t.write w [elapsedLine (t.session.depth thread.id) (w.now - start)]
    | none => (t, w)

def flush (t : Tracer) (w : Surroundings) : Tracer × Surroundings :=
  match t.graph with
  | none => (t, w)
  | some g =>
    match g.flush w with
    | .ok w => (t, w)
    | .error e => (t.fault e, w)

end Tracer
end SelectiveTrace
