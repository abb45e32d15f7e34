import SelectiveTrace.Script.Scene

/-! Running scripts. A step that ends in another way than done adds nothing to the log, and the blocks
around it are left, each giving back what it took. -/
namespace SelectiveTrace

def Action.run (a : Action) (s : Scene) : Exit × Result × Scene :=
  let on (label : String) (f : FrameId → Result × Scene) : Exit × Result × Scene :=
    match s.frames.get? label with
    | some id => (.done, f id)
    | none => (.done, .nothing, s)
  match a with
  | .host label op => let (end_, s) := s.host label op; (end_, .nothing, s)
  | .installed => (.done, s.machine.hook.elim .nothing .text, s)
  | .panic text => (.panicked text, .nothing, s)
  | .fail e => (.failed e, .nothing, s)
  | .target tracer code =>
    (.done, .nothing, s.onTracer tracer fun t w => (t.targetCode code, w))
  | .enter tracer label => on label fun f => (.nothing, s.enter tracer f)
  | .exit tracer label => on label fun f => (.nothing, s.exit tracer f)
  | .finish tracer => (.done, .nothing, s.onTracer tracer Tracer.flush)
  | .register tracer file text =>
    (.done, .nothing, s.onTracer tracer fun t w =>
      ({ t with sources := t.sources.register file text }, w))
  | .session tracer label line => on label fun f =>
    ((s.tracer? tracer).elim .nothing fun t => .session (s.sessionView t f line), s)
  | .place file contents => (.done, .nothing, s.place file contents)
  | .read file => (.done, s.read file, s)
  | .frame label => on label fun f =>
    ((s.machine.frame? f).elim .nothing fun f => .frame (s.frameView f), s)
  | .globals file =>
    (.done, (s.machine.globalsOf? file).elim .nothing fun ns => .names ns.reprs, s)

namespace Scene

/-- The current frame is traced from its next event on. -/
def beginBlock (s : Scene) (tracer : String) : Scene :=
  match s.machine.current with
  | some frame => ((s.enter tracer frame).operate (.traceFrame frame)).2
  | none => s

def endBlock (s : Scene) (tracer : String) : Option FrameId → Scene
  | some frame => s.exit tracer frame
  | none => s

def close (word : String) : Exit × Scene → Exit × Scene
  | (.done, s) => (.done, s.note word .nothing)
  | r => r

end Scene

mutual

def Step.run : Step → Scene → Exit × Scene
  | .act a, s =>
    match a.run s with
    | (.done, result, s) => (.done, s.note a.word result)
    | (exit, _, s) => (exit, s)
  | .trace hook body, s => Scene.close "with" (runUnder hook body s)
  | .snoop tracer body, s =>
    if s.isDisabled then Scene.close "snoop" (runAll body s)
    else
      let frame := s.machine.current
      let (exit, s) := runUnder tracer body (s.beginBlock tracer)
      Scene.close "snoop" (exit, s.endBlock tracer frame)
  | .guard body, s =>
    match runAll body s with
    | (.panicked text, s) => (.done, s.note "catch" (.panicked text))
    | r => Scene.close "catch" r
  | .attempt body, s =>
    match runAll body s with
    | (.failed e, s) => (.done, s.note "try" (.raised e.text))
    | r => Scene.close "try" r
  | .thread key name body, s =>
    let (exit, s') := runAll body { s.openThread key name with running := some key }
    let s := { s' with running := s.running }
    match exit with
    | .panicked text => (.done, s.note "thread" (.panicked text))
    | exit => Scene.close "thread" (exit, s)

def runAll : List Step → Scene → Exit × Scene
  | [], s => (.done, s)
  | step :: steps, s =>
    match step.run s with
    | (.done, s) => runAll steps s
    | r => r

/-- Runs steps under a hook and gives the hook before it back, however they end. -/
def runUnder (hook : HookName) (body : List Step) (s : Scene) : Exit × Scene :=
  let (exit, s) := runAll body (s.operate (.pushTrace hook)).2
  (exit, (s.operate .popTrace).2)

end

def Scene.play (s : Scene) (program : Program) : Exit × Scene :=
  let (exit, s) := runAll program s
  (exit, s.note "end" .nothing)

end SelectiveTrace
