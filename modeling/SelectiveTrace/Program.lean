import SelectiveTrace.CallGraph.Tree
import SelectiveTrace.Script.Run

/-! Runs of a whole program under one tracer: the trace or the call graph of one method, and the
history of one variable. A program that ends with an exception still has its output. -/
namespace SelectiveTrace

inductive Breakdown where
  | error (e : Error)
  | panic (text : String)

/-- The output of a run, what failed inside the tracer, and the exception that ended the program. -/
structure Traced (α : Type) where
  output : α
  faults : List Error
  failure : Option Raised

structure GraphReport where
  nodes : List CallNode
  tree : String

structure VariableReport where
  isGlobal : Bool
  history : List Change
  report : String

namespace Program

def hookName : HookName := "hook"

def runUnder (program : Program) (hook : Hook) (s : Scene) :
    Except Breakdown (Option Raised × Hook × Scene) :=
  let (exit, s) := SelectiveTrace.runUnder hookName program (s.restart hookName hook)
  let hook := (Bindings.get? hookName s.audience.hooks).getD hook
  match exit with
  | .done => .ok (none, hook, s)
  | .failed e => .ok (some e, hook, s)
  | .panicked text => .error (.panic text)

def ask (resolver : Resolver) (query : ScopeQuery) (file : Path) (s : Scene) :
    Except Breakdown (Option LineSpan × Scene) :=
  match resolver.ask query file s.around with
  | (.ok span, w) => .ok (span, s.setAround w)
  | (.error text, _) => .error (.panic text)

def observing (c : Config) (file : Path) (span : LineSpan) : Config :=
  { c with tracer := { c.tracer with observed := some ⟨file, span.start, span.stop⟩ } }

def tracerOf (c : Config) (s : Scene) : Except Breakdown Tracer :=
  match Tracer.ofConfig c.tracer s.around.disk with
  | .ok t => .ok (t.keepFiles c.maxFiles)
  | .error e => .error (.error e)

def methodTracer (file : Path) (method : String) (c : Config) (resolver : Resolver) (s : Scene) :
    Except Breakdown (Tracer × Scene) := do
  let file := s.around.absolute file
  match ← ask resolver (.methodRange method) file s with
  | (none, _) => throw (.error (.methodNotFound file method))
  | (some span, s) => return (← tracerOf (observing c file span) s, s)

def runTracer (program : Program) (t : Tracer) (s : Scene) :
    Except Breakdown (Option Raised × Tracer × Scene) := do
  match ← program.runUnder (.tracer t) s with
  | (failure, .tracer t, s) =>
    let (t, w) := t.flush s.around
    return (failure, t, s.setAround w)
  | (failure, _, s) => return (failure, t, s)

def traceMethod (program : Program) (file : Path) (method : String) (c : Config)
    (resolver : Resolver) (s : Scene) : Except Breakdown (Traced (List String) × Scene) := do
  let (t, s) ← methodTracer file method c resolver s
  let (failure, t, s) ← program.runTracer { t with sink := .lines [] } s
  return (⟨t.sink.written, t.faults, failure⟩, s)

def callGraph (program : Program) (file : Path) (method : String) (c : Config)
    (resolver : Resolver) (output : Option Path) (s : Scene) :
    Except Breakdown (Traced GraphReport × Scene) := do
  let c := { c with tracer := { c.tracer with callGraph := some output } }
  let (t, s) ← methodTracer file method c resolver s
  let (failure, t, s) ← program.runTracer t s
  let nodes := t.graph.elim [] CallGraph.nodes
  return (⟨⟨nodes, CallNode.tree nodes⟩, t.faults, failure⟩, s)

/-- Whether the variable of a request is global: it has no location, its line is outside of every
method, or a run of the program never shows it among the locals of the method. -/
def judgeGlobal (program : Program) (r : VariableRequest) (resolver : Resolver) (s : Scene) :
    Except Breakdown (Bool × Scene) := do
  match r.location s.around with
  | .error e => throw (.error e)
  | .ok none => return (true, s)
  | .ok (some (file, line)) =>
    match ← ask resolver (.belongingMethod line) file s with
    | (none, s) => return (true, s)
    | (some scope, s) =>
      let probe : Probe := { entry := r.entry, file, name := r.name, scope }
      match ← program.runUnder (.probe probe) s with
      | (_, .probe p, s) => return (p.isGlobal, s)
      | (_, _, s) => return (true, s)

/-- The history of a variable. The program runs twice: once to tell whether the variable is global,
and once under the tracer that follows it. -/
def traceVariable (program : Program) (r : VariableRequest) (c : Config) (resolver : Resolver)
    (s : Scene) : Except Breakdown (Traced VariableReport × Scene) := do
  let (isGlobal, s) ← program.judgeGlobal r resolver s
  match VariableTracer.ofRequest r isGlobal resolver c.historyLoop s.around with
  | (.error e, _) => throw (.error e)
  | (.ok t, w) =>
    let report (t : VariableTracer) : VariableReport := ⟨t.isGlobal, t.history, t.report⟩
    match ← program.runUnder (.history t) (s.setAround w) with
    | (failure, .history t, s) => return (⟨report t, t.faults, failure⟩, s)
    | (failure, _, s) => return (⟨report t, t.faults, failure⟩, s)

end Program
end SelectiveTrace
