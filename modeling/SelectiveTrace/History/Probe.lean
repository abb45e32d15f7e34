import SelectiveTrace.Host.Frame
import SelectiveTrace.Scope.Span

/-! Telling a local variable from a global one: a probe watches a run for the name among the locals
of the method around the variable. -/
namespace SelectiveTrace

structure Probe where
  entry : Path
  file : Path
  name : String
  scope : LineSpan
  started : Bool := false
  /-- A call inside the scope has been seen. -/
  entered : Bool := false
  isGlobal : Bool := true

namespace Probe

def start (p : Probe) (ctx : Context) : Probe :=
  { p with started := p.started || ctx.frame.file.same p.entry }

def counts (p : Probe) (ctx : Context) : Bool :=
  p.scope.contains ctx.frame.line && (p.entered || ctx.event.isCall)

def onEvent (p : Probe) (ctx : Context) : Answer × Probe :=
  let p' := p.start ctx
  if !p'.started then (.skipFrame, p')
  else if !ctx.frame.file.startsWith p.file then (.skipFrame, p')
  else if !p.counts ctx then (.proceed, p')
  else
    (.proceed, { p' with
      entered := true
      isGlobal := p.isGlobal && !ctx.frame.locals.contains p.name })

end Probe
end SelectiveTrace
