import SelectiveTrace.Tracer.Basic

/-! Which events a tracer shows. An event is shown when its frame is a target, or when a target stands
close enough above it; a frame just beyond may show its calls and returns. With an observed region
the frames inside the region are the targets. -/
namespace SelectiveTrace

/-- What becomes of an event: it ends the frame's tracing, it is passed over, the levels above it are
too many to be counted, or it is shown. -/
inductive Verdict where
  | skip
  | ignore
  | overflow
  | show_ (expanded : Bool)
deriving DecidableEq

def Region.containsLine (r : Region) (line : Nat) : Bool :=
  r.start ≤ line && line ≤ r.stop

/-- Whether a frame stands inside the region; its file may be spelled relative to the current
directory. -/
def Region.holds (r : Region) (w : Surroundings) (f : Frame) : Bool :=
  (f.file.same r.file || (w.absolute f.file).same r.file) && r.containsLine f.line

namespace Tracer

/-- A call or a line inside the region makes its frame a target; the first one starts at depth
zero. -/
def activate (s : Session) (now : Nat) (f : Frame) (isFirst : Bool) : Session :=
  let s := (s.attach f.id).startTimer f.id now
  if isFirst then s.setDepth f.thread.id 0 else s

def deactivate (s : Session) (f : Frame) : Session :=
  ((s.adjustDepth f.thread.id (-1)).detach f.id).evict f.id

/-- What an observed region says about an event before any other rule; nothing if the other rules
decide. -/
def gate (r : Region) (w : Surroundings) (s : Session) (ctx : Context) :
    Option Verdict × Session :=
  let f := ctx.frame
  let inside := r.holds w f
  let activating := ctx.event.isCall || ctx.event.isLine
  if s.targetFrames.isEmpty then
    if !f.file.same r.file then (some .skip, s)
    else if !inside || !activating then (some .ignore, s)
    else (none, activate s w.now f true)
  else if inside then
    if activating && !s.targetFrames.contains f.id then (none, activate s w.now f false)
    else (none, s)
  else if s.targetFrames.contains f.id then
    (some .ignore, if ctx.event.isTerminal then deactivate s f else s)
  else (none, s)

def overflowText : String :=
  "attempt to add with overflow"

def gated (t : Tracer) (w : Surroundings) (ctx : Context) : Option Verdict × Session :=
  match t.observed with
  | some r => gate r w t.session ctx
  | none => (none, t.session)

def isSource (t : Tracer) (w : Surroundings) (f : Frame) : Bool :=
  t.session.targetCodes.contains f.code ||
    (t.session.targetFrames.contains f.id && t.observed.all fun r => r.holds w f)

def isExhausted (t : Tracer) (f : Frame) : Bool :=
  t.config.hitLimit.any fun limit => limit < t.session.hits f.id f.line

/-- No target stands close enough: frames of the observed file are still watched. -/
def unrelated (t : Tracer) (ctx : Context) : Verdict :=
  if t.observed.any fun r => ctx.frame.file.same r.file then .ignore else .skip

/-- Looks for a target among the `n` frames above `f`. The last of them makes the event expanded if
the tracer expands. -/
def inheritFrom (t : Tracer) (w : Surroundings) (ctx : Context) : Nat → Frame → Verdict
  | 0, _ => t.unrelated ctx
  | n + 1, f =>
    match f.back.bind ctx.frames.get? with
    | none => .skip
    | some above =>
      if t.isSource w above then
        if t.isExhausted above then .skip
        else if t.config.expands && n = 0 then
          if ctx.event.isLine then .ignore else .show_ true
        else .show_ false
      else inheritFrom t w ctx n above

/-- How many levels above a frame are looked at; none where they are too many to be counted. -/
def levels (c : TracerConfig) : Nat :=
  if c.overflows then 0 else if c.expands then c.depth else c.depth - 1

def verdict (t : Tracer) (w : Surroundings) (ctx : Context) : Verdict :=
  if t.session.isTarget ctx.frame.code ctx.frame.id then .show_ false
  else if t.config.overflows then .overflow
  else t.inheritFrom w ctx (levels t.config) ctx.frame

/-- Counts a hit where hits are limited and tells whether the event is beyond the limit. Calls are
shown even so, and the end of a frame is no hit. -/
def countHit (t : Tracer) (ctx : Context) : Bool × Tracer :=
  match t.config.hitLimit with
  | none => (false, t)
  | some limit =>
    if ctx.event.isTerminal then (false, t)
    else
      let f := ctx.frame
      (ctx.event.isLine && limit ≤ t.session.hits f.id f.line,
        t.onSession (·.recordHit f.id f.line))

def decide (t : Tracer) (w : Surroundings) (ctx : Context) : Verdict × Tracer :=
  match t.gated w ctx with
  | (some v, session) => (v, { t with session })
  | (none, session) =>
    let t := { t with session }
    match t.verdict w ctx with
    | .show_ expanded =>
      let (suppressed, t) := t.countHit ctx
      (if suppressed then .ignore else .show_ expanded, t)
    | v => (v, t)

end Tracer
end SelectiveTrace
