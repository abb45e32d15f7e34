import SelectiveTrace.History.Probe
import SelectiveTrace.History.Tracer
import SelectiveTrace.Tracer.Rendering

/-! The hooks a script can install: tracers, variable histories, probes, and recorders, which write
down each event as they get it and answer as they are told. -/
namespace SelectiveTrace

structure Sighting where
  function : String
  event : String
  line : Nat
  /-- The returned value or the exception, as text. -/
  payload : Option String
  opcode : Option Opcode
  endedOnReturn : Bool
  isTerminal : Bool
  /-- The function of the frame behind. -/
  caller : Option String
  locals : List (String × String)
  globals : List (String × String)

namespace Sighting

def payloadOf : Event → Option String
  | .ret v => some v.repr
  | .exception e => some e.text
  | .call | .line | .discard => none

def callerOf (ctx : Context) : Option String :=
  ctx.frame.back.map fun id =>
    match ctx.frames.get? id with
    | some f => f.function
    | none => "<gone>"

def ofContext (ctx : Context) : Sighting where
  function := ctx.frame.function
  event := ctx.event.name
  line := ctx.frame.line
  payload := payloadOf ctx.event
  opcode := ctx.frame.lastOpcode
  endedOnReturn := ctx.frame.endedOnReturn
  isTerminal := ctx.event.isTerminal
  caller := callerOf ctx
  locals := ctx.frame.locals.reprs
  globals := ctx.globals.reprs

def subject (s : Sighting) : String :=
  s.function ++ ":" ++ s.event

end Sighting

/-- A hook that only looks. It fails at some events, and it skips some functions altogether or from
some of their events on. -/
structure Recorder where
  skipped : List String := []
  failing : List String := []
  sightings : List Sighting := []

namespace Recorder

def answer (r : Recorder) (s : Sighting) : Answer :=
  if r.failing.contains s.subject then .panicked ("hook failed at " ++ s.subject)
  else if r.skipped.contains s.function || r.skipped.contains s.subject then .skipFrame
  else .proceed

def onEvent (r : Recorder) (ctx : Context) : Answer × Recorder :=
  let s := Sighting.ofContext ctx
  (r.answer s, { r with sightings := r.sightings ++ [s] })

end Recorder

inductive Hook where
  | tracer (t : Tracer)
  | recorder (r : Recorder)
  | history (t : VariableTracer)
  | probe (p : Probe)

inductive Output where
  | line (text : String)
  | sighting (s : Sighting)
  | change (c : Change)

namespace Hook

def onEvent (h : Hook) (ctx : Context) (w : Surroundings) : Answer × Hook × Surroundings :=
  match h with
  | .tracer t => let (answer, t, w) := t.onEvent ctx w; (answer, .tracer t, w)
  | .recorder r => let (answer, r) := r.onEvent ctx; (answer, .recorder r, w)
  | .history t => let (answer, t, w) := t.onEvent ctx w; (answer, .history t, w)
  | .probe p => let (answer, p) := p.onEvent ctx; (answer, .probe p, w)

def output : Hook → List Output
  | .tracer t => t.sink.written.map .line
  | .recorder r => r.sightings.map .sighting
  | .history t => t.history.map .change
  | .probe _ => []

def outputSince (h : Hook) (n : Nat) : List Output :=
  match h with
  | .tracer { sink := .stream written _, .. } =>
    if n < written.length then [.line (String.join (written.drop n))] else []
  | h => h.output.drop n

def faults : Hook → List Error
  | .tracer t => t.faults
  | .history t => t.faults
  | .recorder _ | .probe _ => []

end Hook

structure Audience where
  hooks : List (HookName × Hook) := []
  around : Surroundings := {}

instance : Inhabited Audience := ⟨{}⟩

def Audience.deliver : Deliver Audience := fun name ctx a =>
  match Bindings.get? name a.hooks with
  | none => (.proceed, a)
  | some h =>
    let (answer, h, around) := h.onEvent ctx a.around
    (answer, ⟨Bindings.set name h a.hooks, around⟩)

end SelectiveTrace
