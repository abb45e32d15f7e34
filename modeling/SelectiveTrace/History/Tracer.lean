import SelectiveTrace.History.Report
import SelectiveTrace.History.Request
import SelectiveTrace.Scope.Query
import SelectiveTrace.SourceCache
import SelectiveTrace.Value.Description

/-! Following one variable through a run. A change shows only at the event after the statement that
made it, so it is credited to the place the frame was at before. With a scope, only events inside the
method around the variable count, and its locals are looked at; otherwise the globals of its
file. -/
namespace SelectiveTrace

structure VariableTracer where
  entry : Path
  file : Option Path
  name : String
  /-- The method around the variable; without one the variable is global. -/
  scope : Option LineSpan
  loopLimit : Nat
  resolver : Resolver
  started : Bool := false
  /-- A call inside the scope has been seen. -/
  entered : Bool := false
  lastValue : Option String := none
  /-- Where each frame was at its previous event. -/
  places : Table FrameId (Path × Nat) := {}
  lineHits : Table FrameId (Table Nat Nat) := {}
  history : List Change := []
  sources : SourceCache := {}
  faults : List Error := []

namespace VariableTracer

def isGlobal (t : VariableTracer) : Bool :=
  t.scope.isNone

def scopeOf (resolver : Resolver) (isGlobal : Bool) (location : Option (Path × Nat))
    (w : Surroundings) : Except String (Option LineSpan) × Surroundings :=
  match isGlobal, location with
  | false, some (file, line) => resolver.ask (.belongingMethod line) file w
  | _, _ => (.ok none, w)

def ofRequest (r : VariableRequest) (isGlobal : Bool) (resolver : Resolver) (loopLimit : Nat)
    (w : Surroundings) : Except Error VariableTracer × Surroundings :=
  match r.location w with
  | .error e => (.error e, w)
  | .ok location =>
    let (scope, w) := scopeOf resolver isGlobal location w
    (.ok {
      entry := r.entry, file := r.file, name := r.name
      scope := scope.toOption.join, loopLimit, resolver }, w)

def watched (t : VariableTracer) : Path :=
  t.file.getD t.entry

def hits (t : VariableTracer) (frame : FrameId) (line : Nat) : Nat :=
  ((t.lineHits.get? frame).bind fun hits => hits.get? line).getD 0

/-- One more hit of a line. The count has no bound here; a word of 32 bits holds it until the line is
hit `2 ^ 32` times before the tracer lets go of the frame. -/
def recordHit (t : VariableTracer) (frame : FrameId) (line : Nat) : VariableTracer :=
  let hits := (t.lineHits.get? frame).getD {}
  { t with lineHits := t.lineHits.insert frame (hits.insert line (t.hits frame line + 1)) }

def forget (t : VariableTracer) (frame : FrameId) : VariableTracer :=
  { t with places := t.places.erase frame, lineHits := t.lineHits.erase frame }

def missingStatement (line : Nat) : String :=
  "<error extracting statement: no statement at line " ++ toString line ++ ">"

def unreadableStatement (file : Path) : String :=
  "<error extracting statement: cannot read " ++ file.text ++ ">"

def statement (t : VariableTracer) (file : Path) (line : Nat) (w : Surroundings) :
    Except String (String × LineSpan) × VariableTracer × Surroundings :=
  match t.resolver.ask (.statementRange line) file w with
  | (.error e, w) => (.error e, t, w)
  | (.ok none, w) => (.ok (missingStatement line, .single line), t, w)
  | (.ok (some s), w) =>
    let (lines, sources) := t.sources.range w file s.start s.stop
    let t := { t with sources }
    match lines with
    | some ls => (.ok ("\n".intercalate ls, s), t, w)
    | none => (.ok (unreadableStatement file, .single line), t, w)

def current? (t : VariableTracer) (ctx : Context) : Option String :=
  let names := if t.isGlobal then ctx.globals else ctx.frame.locals
  (names.get? t.name).map Value.describe

def record (t : VariableTracer) (ctx : Context) (value : String) (w : Surroundings) :
    Option String × VariableTracer × Surroundings :=
  let f := ctx.frame
  let (file, line) := (t.places.get? f.id).getD (f.file, f.line)
  match t.statement file line w with
  | (.error e, t, w) => (some e, t, w)
  | (.ok (code, location), t, w) =>
    let looped := t.loopLimit < t.hits f.id line
    (none, { t with history := t.history ++ [⟨file, location, value, code, looped⟩] }, w)

def settle (t : VariableTracer) (f : Frame) (value : Option String) : VariableTracer :=
  { t with lastValue := value, places := t.places.insert f.id (f.file, f.line) }

def observe (t : VariableTracer) (ctx : Context) (w : Surroundings) :
    Option String × VariableTracer × Surroundings :=
  match t.current? ctx with
  | none => (none, t.settle ctx.frame none, w)
  | some value =>
    if t.lastValue = some value then (none, t.settle ctx.frame (some value), w)
    else
      match t.record ctx value w with
      | (some e, t, w) => (some e, t, w)
      | (none, t, w) => (none, t.settle ctx.frame (some value), w)

/-- Looks at an event; nothing is kept for a frame that ends with it. -/
def inspect (t : VariableTracer) (ctx : Context) (w : Surroundings) :
    Option String × VariableTracer × Surroundings :=
  let f := ctx.frame
  match (t.recordHit f.id f.line).observe ctx w with
  | (some e, t, w) => (some e, t, w)
  | (none, t, w) => (none, if ctx.event.isTerminal then t.forget f.id else t, w)

inductive Attention where
  | skip
  | pass
  | forget
  | inspect
deriving DecidableEq

/-- Whether an event inside a scope counts: the first one to count is a call. -/
def isInScope (t : VariableTracer) (ctx : Context) : Bool :=
  t.scope.all fun s => s.contains ctx.frame.line && (t.entered || ctx.event.isCall)

def attention (t : VariableTracer) (ctx : Context) : Attention :=
  if !t.started && !ctx.frame.file.same t.entry then .skip
  else if !ctx.frame.file.startsWith t.watched then .skip
  else if ctx.event.isDiscard then .forget
  else if t.isInScope ctx then .inspect
  else .pass

def start (t : VariableTracer) (ctx : Context) : VariableTracer :=
  { t with started := t.started || ctx.frame.file.same t.entry }

/-- Handles an event. What fails on the way becomes a fault and never reaches the program. -/
def onEvent (t : VariableTracer) (ctx : Context) (w : Surroundings) :
    Answer × VariableTracer × Surroundings :=
  let t' := t.start ctx
  match t.attention ctx with
  | .skip => (.skipFrame, t', w)
  | .pass => (.proceed, t', w)
  | .forget => (.proceed, t'.forget ctx.frame.id, w)
  | .inspect =>
    match { t' with entered := t'.entered || t'.scope.isSome }.inspect ctx w with
    | (none, t, w) => (.proceed, t, w)
    | (some e, t, w) =>
      (.proceed, { t with faults := t.faults ++ [.handling ctx.event.name e] }, w)

def report (t : VariableTracer) : String :=
  Change.report t.history

end VariableTracer
end SelectiveTrace
