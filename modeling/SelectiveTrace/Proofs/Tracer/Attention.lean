import SelectiveTrace.Proofs.Host.Hooks
import SelectiveTrace.Proofs.Host.WellMade
import SelectiveTrace.Proofs.Tracer.Upkeep

/-! A host that never gives up a frame, and reports every event of every frame. Under a tracer of
target codes it comes to the same as the one that heeds the tracer: what is reported in addition
changes nothing. -/
namespace SelectiveTrace
namespace Machine
variable {σ : Type} {deliver : Deliver σ} {m : Machine} {s : σ} {op : Op FrameId}

def attentive (deliver : Deliver σ) : Deliver σ := fun hook ctx s =>
  match deliver hook ctx s with
  | (.skipFrame, s) => (.proceed, s)
  | answered => answered

def attending (m : Machine) : Machine :=
  { m with untraced := [] }

theorem attending_heed (m : Machine) (id : FrameId) (e : Event) (a : Answer) :
    (m.heed id e a).attending = m.attending := by
  rw [heed_eq]
  rfl

/-! An operation does not look at the frames that were given up. -/

theorem attending_before (m : Machine) (op : Op FrameId) :
    (op.before m).attending = op.before m.attending := by
  have hattending : ∀ m : Machine, m.attending = m.withHooks { m.hooks with untraced := [] } :=
    fun _ => rfl
  cases own : op.isTracing with
  | true => cases op <;> first | rfl | cases own
  | false => rw [hattending, hooks_before own, withHooks_before m _ own, ← hattending]

theorem attending_after (m : Machine) (op : Op FrameId) :
    (op.after m).attending = op.after m.attending := by
  cases op <;> rfl

theorem event?_attending (m : Machine) (op : Op FrameId) : op.event? m.attending = op.event? m := by
  cases op <;> rfl

theorem isDisciplined_attending : op.IsDisciplined m.attending ↔ op.IsDisciplined m := by
  cases op <;> rfl

theorem hears_attending (m : Machine) (id : FrameId) (e : Event) :
    m.attending.hears id e = true := by
  simp [hears, attending]

variable {hook : HookName} {f : Frame} {e : Event}

/-- An event as the attentive host reports it. -/
theorem step_attentive (hd : op.IsDisciplined m) (installed : (op.before m).hook = some hook)
    (event : op.event? m = some (f.id, e)) (live : (op.before m).frames.get? f.id = some f)
    {a : Answer} {s' : σ} (answer : deliver hook ((op.before m).context f e) s = (a, s'))
    (calm : ∀ text, a ≠ .panicked text) :
    m.attending.step (attentive deliver) s op = ⟨(op.after (op.before m)).attending, s', none⟩ := by
  have hcontext : (op.before m.attending).context f e = (op.before m).context f e := by
    rw [← attending_before]
    rfl
  have answer' : attentive deliver hook ((op.before m.attending).context f e) s =
      (.proceed, s') := by
    rw [hcontext, attentive, answer]
    cases a with
    | skipFrame | proceed => rfl
    | panicked text => exact absurd rfl (calm text)
  have heard : (op.before m.attending).hears f.id e = true := by
    rw [← attending_before]
    exact hears_attending _ _ _
  have hstep := step_of_heard (isDisciplined_attending.mpr hd)
    (by rw [← attending_before]; exact installed) ((event?_attending m op).trans event)
    (by rw [← attending_before]; exact live) heard answer' (by simp)
  have hheed : (op.before m.attending).heed f.id e .proceed = op.before m.attending := by
    rw [← attending_before]
    unfold heed
    cases e.isCall <;> rfl
  rw [hstep, hheed, attending_after, attending_before]

end Machine

/-- Nothing happens by dropping a frame for which nothing is kept. -/
theorem Tracer.dropFrame_of_forgotten {t : Tracer} {id : FrameId} (ho : t.observed = none)
    (h : ¬ t.Holds id) : t.dropFrame id = t := by
  obtain ⟨hr, hopen⟩ := not_or.mp h
  have hs : (t.onSession fun s => (s.evict id).detach id) = t := by
    unfold onSession
    dsimp only
    rw [Session.evict_of_forgotten hr, Session.detach_of_forgotten hr]
  unfold dropFrame
  rw [hs]
  dsimp only
  cases hg : t.graph with
  | none => rfl
  | some g =>
    have hpending : g.pending.get? id = none := by
      simpa [ho, opens, hg, CallGraph.isOpen, Table.contains] using hopen
    simp [CallGraph.closeException, CallGraph.close, hpending]

/-- Where the levels are too many to be counted no frame is given up. -/
theorem Tracer.onEvent_ne_skipFrame {t : Tracer} (observed : t.observed = none)
    (overflows : t.config.overflows = true) (ctx : Context) (w : Surroundings) :
    (t.onEvent ctx w).1 ≠ .skipFrame := by
  cases live : ctx.event.isDiscard with
  | true => simp [onEvent_of_discard live]
  | false =>
    have hno : (t.decide w ctx).1 ≠ .skip := by
      rw [decide_of_unobserved observed, verdict, overflows]
      cases t.session.isTarget ctx.frame.code ctx.frame.id with
      | true =>
        simp only [if_true]
        split <;> simp
      | false => simp
    cases hv : (t.decide w ctx).1.isShow with
    | true =>
      obtain ⟨expanded, hshow⟩ := Verdict.isShow_iff.mp hv
      obtain ⟨s, hs⟩ := t.decide_session w ctx
      obtain ⟨t', w', he, -⟩ := onEvent_of_shown live (Prod.ext hshow hs)
      simp [he]
    | false =>
      obtain ⟨a, he, -, gives⟩ := onEvent_of_hidden live hv
      rw [he]
      exact fun ha => hno (gives ha)

namespace Homed
open Machine
variable {m : Machine} {s : Tracer × Surroundings} {op : Op FrameId} {hook : HookName}

theorem untraced_of_overflow (region : s.1.observed = none)
    (overflows : s.1.config.overflows = true) (untraced : m.untraced = []) :
    (m.step Tracer.deliver s op).machine.untraced = [] := by
  refine List.eq_nil_iff_forall_not_mem.mpr fun j hj => ?_
  rcases mem_untraced_heardBy calm_deliver hj with ⟨hin, -⟩ | ⟨x, e, -, -, gives⟩
  · rw [untraced] at hin
    cases hin
  · exact Tracer.onEvent_ne_skipFrame region overflows x.2 s.2 gives

/-- The event of the frame on top of `rest`, on both hosts. -/
theorem told_attentive (h : Homed m s []) (region : s.1.observed = none)
    (heeds : s.1.config.overflows = true → m.untraced = []) (hk : m.hook = some hook)
    (hd : op.IsDisciplined m) (keeps : op.KeepsHook m) {f : Frame} {e : Event}
    {rest : List FrameId} (reports : op.Reports m f e rest) :
    m.attending.step (attentive Tracer.deliver) s op =
      ⟨(m.step Tracer.deliver s op).machine.attending, (m.step Tracer.deliver s op).state,
        none⟩ := by
  have off := reports.off h.linked hd
  obtain ⟨a, t', w', ha, handles⟩ := h.unentered.handles s.2 ((op.before m).context f e)
    (h.linked.before hd) rfl reports.running reports.below reports.back off
  rw [framesAt_before reports.event off] at handles
  rw [Machine.step_attentive hd (keeps.trans hk) reports.event reports.live ha handles.calm]
  cases hu : (op.before m).hears f.id e with
  | true =>
    have hstep : m.step Tracer.deliver s op =
        ⟨op.after ((op.before m).heed f.id e a), (t', w'), none⟩ :=
      step_of_heard hd (keeps.trans hk) reports.event reports.live hu ha handles.calm
    rw [hstep]
    dsimp only
    rw [attending_after, attending_after, attending_heed]
  | false =>
    have hstep : m.step Tracer.deliver s op = ⟨op.after (op.before m), s, none⟩ :=
      step_of_unheard hd (keeps.trans hk) reports.event reports.live hu
    obtain ⟨hcall, hmem⟩ := mem_untraced_of_unheard hu
    have counted : s.1.config.overflows = false := by
      refine Bool.eq_false_iff.mpr fun overflows => ?_
      rw [heeds overflows] at hmem
      cases hmem
    -- the other host reports it, and it changes nothing
    obtain ⟨-, rfl, -, same⟩ := handles.blind region ((h.known reports hcall).2 hmem)
    rw [hstep, same counted]

/-- A generator that is dropped, on both hosts. -/
theorem dropped_attentive (h : Homed m s []) (region : s.1.observed = none)
    (hk : m.hook = some hook) (hd : op.IsDisciplined m) (keeps : op.KeepsHook m) {f : Frame}
    (drops : op.Drops m f) :
    m.attending.step (attentive Tracer.deliver) s op =
      ⟨(m.step Tracer.deliver s op).machine.attending, (m.step Tracer.deliver s op).state,
        none⟩ := by
  have hgone : ¬ s.1.Holds f.id := by
    intro hold
    obtain ⟨x, hx, -⟩ := h.endOf_of_off drops.off hold
    cases hx
  have ha : Tracer.deliver hook ((op.before m).context f .discard) s = (.proceed, s) :=
    congrArg (fun t => (Answer.proceed, t, s.2)) (Tracer.dropFrame_of_forgotten region hgone)
  rw [Machine.step_attentive hd (keeps.trans hk) drops.event drops.live ha (by simp)]
  cases hu : (op.before m).hears f.id .discard with
  | true =>
    have hstep := step_of_heard hd (keeps.trans hk) drops.event drops.live hu ha (by simp)
    rw [hstep]
    dsimp only
    rw [attending_after, attending_after, attending_heed]
  | false => rw [step_of_unheard hd (keeps.trans hk) drops.event drops.live hu]

/-- One operation on both hosts. -/
theorem step_attentive (h : Homed m s []) (region : s.1.observed = none)
    (heeds : s.1.config.overflows = true → m.untraced = []) (hk : m.hook = some hook)
    (hd : op.IsDisciplined m) (keeps : op.KeepsHook m) :
    m.attending.step (attentive Tracer.deliver) s op =
      ⟨(m.step Tracer.deliver s op).machine.attending, (m.step Tracer.deliver s op).state,
        none⟩ := by
  cases Op.Telling.of_disciplined h.linked hd with
  | nothing event stack =>
    rw [step_of_quiet (isDisciplined_attending.mpr hd) ((event?_attending m op).trans event),
      step_of_quiet hd event, attending_before]
  | event f e rest reports => exact h.told_attentive region heeds hk hd keeps reports
  | drop f drops => exact h.dropped_attentive region hk hd keeps drops

/-- A whole run on both hosts. -/
theorem run_attentive (h : Homed m s []) (total : s.1.renderer.IsTotal)
    (region : s.1.observed = none) (heeds : s.1.config.overflows = true → m.untraced = [])
    (hk : m.hook = some hook) {ops : List (Op FrameId)}
    (hd : m.Disciplined Tracer.deliver s ops) :
    m.attending.run (attentive Tracer.deliver) s ops =
      ⟨(m.run Tracer.deliver s ops).machine.attending, (m.run Tracer.deliver s ops).state,
        none⟩ := by
  induction ops generalizing m s with
  | nil => rfl
  | cons op ops ih =>
    obtain ⟨hop, keeps, hrest⟩ := hd
    obtain ⟨hobserved, hrenderer, -⟩ := mishaps_step m s op
    have hnext := h.step_of_isTotal total hk hop keeps
    have hstep := h.step_attentive region heeds hk hop keeps
    have heeds' : (m.step Tracer.deliver s op).state.1.config.overflows = true →
        (m.step Tracer.deliver s op).machine.untraced = [] := by
      rw [config_step]
      exact fun overflows => untraced_of_overflow region overflows (heeds overflows)
    rw [run_of_calm (panic_step calm_deliver m s op), run_of_calm (by rw [hstep]), hstep]
    exact ih hnext (hrenderer ▸ total) (hobserved.trans region) heeds'
      ((hook_step keeps).trans hk) hrest

end Homed

/-- Under target codes it makes no difference whether the host heeds a hook that gives frames up: a
host that goes on with every frame, and reports all of its events, brings the tracer and its
surroundings to the same state by every run that keeps to the stack. -/
theorem giving_frames_up_changes_nothing {c : TracerConfig} {disk : Disk} {codes : List CodeId}
    {custom : List CustomFormat} {sources : SourceCache} {sink : Sink} {t : Tracer}
    {w : Surroundings} {m : Machine} {hook : HookName} {ops : List (Op FrameId)}
    (setup : Tracer.outfit c disk codes custom sources sink = .ok t) (region : c.observed = none)
    (formats : ∀ f ∈ custom, ∀ v, ∃ text, f.format v = .ok text)
    (fresh : m.IsFresh) (installed : m.hook = some hook)
    (disciplined : m.Disciplined Tracer.deliver (t, w) ops) :
    let r := m.run Tracer.deliver (t, w) ops
    let r' := m.run (Machine.attentive Tracer.deliver) (t, w) ops
    r.panic = none ∧ r'.panic = none ∧ r'.state = r.state ∧
      r'.machine = { r.machine with untraced := [] } := by
  intro r r'
  have hnew := Tracer.isNew_of_outfit setup
  have hm : m.attending = m := by
    unfold Machine.attending
    rw [← fresh.untraced]
  have hrun := (hnew.homed fresh w).run_attentive (hnew.isTotal formats)
    (Tracer.isOutfit_of_outfit setup region).observed (fun _ => fresh.untraced) installed disciplined
  rw [hm] at hrun
  have hr : r' = ⟨r.machine.attending, r.state, none⟩ := hrun
  rw [hr]
  exact ⟨Machine.panic_run Machine.calm_deliver m (t, w) ops, rfl, rfl, rfl⟩

def passedOverGenerator : List (Op FrameId) :=
  let target : Code := ⟨"target", ⟨"/p.py"⟩, 1⟩
  let steps : Code := ⟨"steps", ⟨"/p.py"⟩, 5⟩
  [.call target [], .line ⟨0, 0⟩ 2, .line ⟨0, 0⟩ 2, .call steps [], .line ⟨0, 1⟩ 6,
    .yieldValue ⟨0, 1⟩ (.int 1), .line ⟨0, 0⟩ 3, .resume ⟨0, 1⟩, .line ⟨0, 1⟩ 7,
    .yieldValue ⟨0, 1⟩ (.int 2), .line ⟨0, 0⟩ 2, .resume ⟨0, 1⟩, .yieldValue ⟨0, 1⟩ (.int 3),
    .discard ⟨0, 1⟩, .unwind ⟨0, 0⟩]

theorem giving_frames_up_changes_nothing_for_generator :
    let c : TracerConfig := { depth := 2, depthExpanded := false, loopLimit := some 1 }
    let codes : List CodeId := [⟨"/p.py", "target", 1⟩]
    let t : Tracer := { config := c, session := { targetCodes := codes }, sink := .lines [] }
    let m : Machine := { hook := some "trace" }
    Tracer.outfit c {} codes [] {} (.lines []) = .ok t ∧ m.IsFresh ∧
      m.Disciplined Tracer.deliver (t, {}) passedOverGenerator ∧
      let r := m.run Tracer.deliver (t, {}) passedOverGenerator
      let r' := m.run (Machine.attentive Tracer.deliver) (t, {}) passedOverGenerator
      r.panic = none ∧ r'.panic = none ∧ r'.state = r.state ∧
        r'.machine = { r.machine with untraced := [] } := by
  intro c codes t m
  have setup : Tracer.outfit c {} codes [] {} (.lines []) = .ok t := rfl
  have fresh : m.IsFresh := ⟨rfl, rfl, rfl, rfl⟩
  have disciplined : m.Disciplined Tracer.deliver (t, {}) passedOverGenerator := by decide +kernel
  refine ⟨setup, fresh, disciplined, ?_⟩
  refine giving_frames_up_changes_nothing setup rfl ?_ fresh rfl disciplined
  intro f hf
  cases hf

/-- The generator is given up at first, heard when it is resumed from another line, and given up
again. -/
example :
    let t : Tracer :=
      { config := { depth := 2, depthExpanded := false, loopLimit := some 1 }
        session := { targetCodes := [⟨"/p.py", "target", 1⟩] }, sink := .lines [] }
    let givenUp := fun n =>
      (Machine.run Tracer.deliver { hook := some "trace" } (t, {})
        (passedOverGenerator.take n)).machine.untraced
    givenUp 4 = [⟨0, 1⟩] ∧ givenUp 8 = [] ∧ givenUp 12 = [⟨0, 1⟩] := by
  decide +kernel

end SelectiveTrace
