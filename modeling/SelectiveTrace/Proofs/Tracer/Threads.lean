import SelectiveTrace.Proofs.Host.Fleet
import SelectiveTrace.Proofs.Host.WellMade
import SelectiveTrace.Proofs.Sources.Coherent
import SelectiveTrace.Proofs.Tracer.Written

/-! Several threads under one tracer of target codes that writes lines. What it writes for one of them does
not depend on the others, but for the lines that tell a new source path. -/
namespace SelectiveTrace

namespace Session
variable {s s' s'' : Session} {machine thread : Nat}

/-- The sessions agree in the targets, and in all that decides about the frames of a machine and about its
thread. -/
structure AgreesOn (s s' : Session) (machine thread : Nat) : Prop where
  codes : s'.targetCodes = s.targetCodes
  hits : ∀ id : FrameId, id.machine = machine → s'.lineHits.get? id = s.lineHits.get? id
  snapshots : ∀ id : FrameId, id.machine = machine → s'.snapshots.get? id = s.snapshots.get? id
  depth : s'.depth thread = s.depth thread

namespace AgreesOn

theorem refl (s : Session) (machine thread : Nat) : AgreesOn s s machine thread :=
  ⟨rfl, fun _ _ => rfl, fun _ _ => rfl, rfl⟩

theorem trans (h : AgreesOn s s' machine thread) (h' : AgreesOn s' s'' machine thread) :
    AgreesOn s s'' machine thread :=
  ⟨h'.codes.trans h.codes, fun id hid => (h'.hits id hid).trans (h.hits id hid),
    fun id hid => (h'.snapshots id hid).trans (h.snapshots id hid), h'.depth.trans h.depth⟩

/-! The same change on both sides. -/

theorem adjustDepth (h : AgreesOn s s' machine thread) (other : Nat) (n : Int) :
    AgreesOn (s.adjustDepth other n) (s'.adjustDepth other n) machine thread := by
  refine ⟨h.codes, h.hits, h.snapshots, ?_⟩
  by_cases ho : thread = other
  · subst ho
    rw [depth_adjustDepth, depth_adjustDepth, h.depth]
  · unfold Session.adjustDepth
    rw [depth_setDepth_of_ne _ _ ho, depth_setDepth_of_ne _ _ ho, h.depth]

theorem recordHit (h : AgreesOn s s' machine thread) (id : FrameId) (line : Nat) :
    AgreesOn (s.recordHit id line) (s'.recordHit id line) machine thread := by
  refine ⟨h.codes, ?_, h.snapshots, h.depth⟩
  intro j hj
  unfold Session.recordHit
  dsimp only
  by_cases he : j = id
  · subst he
    unfold Session.hits
    rw [Table.get?_insert_self, Table.get?_insert_self, h.hits j hj]
  · rw [Table.get?_insert_of_ne _ _ he, Table.get?_insert_of_ne _ _ he, h.hits j hj]

theorem diff (h : AgreesOn s s' machine thread) (id : FrameId) (vars : List (String × String)) :
    AgreesOn (s.diff id vars).2 (s'.diff id vars).2 machine thread := by
  refine ⟨h.codes, h.hits, ?_, h.depth⟩
  intro j hj
  unfold Session.diff
  dsimp only
  rw [Table.get?_insert, Table.get?_insert, h.snapshots j hj]

theorem evict (h : AgreesOn s s' machine thread) (id : FrameId) :
    AgreesOn (s.evict id) (s'.evict id) machine thread := by
  refine ⟨h.codes, ?_, ?_, h.depth⟩
  · intro j hj
    unfold Session.evict
    dsimp only
    rw [Table.get?_erase, Table.get?_erase, h.hits j hj]
  · intro j hj
    unfold Session.evict
    dsimp only
    rw [Table.get?_erase, Table.get?_erase, h.snapshots j hj]

end AgreesOn

/-! A change for a frame of another machine and for its thread. -/

theorem agreesOn_adjustDepth (s : Session) (machine : Nat) {other : Nat} (h : thread ≠ other)
    (n : Int) : AgreesOn s (s.adjustDepth other n) machine thread :=
  ⟨rfl, fun _ _ => rfl, fun _ _ => rfl, depth_setDepth_of_ne s _ h⟩

section
variable {id : FrameId} (foreign : id.machine ≠ machine)
include foreign

theorem agreesOn_recordHit (s : Session) (thread line : Nat) :
    AgreesOn s (s.recordHit id line) machine thread := by
  refine ⟨rfl, ?_, fun _ _ => rfl, rfl⟩
  intro j hj
  have hne : j ≠ id := fun he => foreign (he ▸ hj)
  exact Table.get?_insert_of_ne _ _ hne

theorem agreesOn_diff (s : Session) (thread : Nat) (vars : List (String × String)) :
    AgreesOn s (s.diff id vars).2 machine thread := by
  refine ⟨rfl, fun _ _ => rfl, ?_, rfl⟩
  intro j hj
  have hne : j ≠ id := fun he => foreign (he ▸ hj)
  exact Table.get?_insert_of_ne _ _ hne

theorem agreesOn_evict (s : Session) (thread : Nat) : AgreesOn s (s.evict id) machine thread := by
  have hne : ∀ j : FrameId, j.machine = machine → j ≠ id := fun j hj he => foreign (he ▸ hj)
  exact ⟨rfl, fun j hj => Table.get?_erase_of_ne _ (hne j hj),
    fun j hj => Table.get?_erase_of_ne _ (hne j hj), rfl⟩

end

theorem detach_of_none (h : s.targetFrames = []) (id : FrameId) : s.detach id = s := by
  cases s
  cases h
  rfl

def afterShown (s : Session) (ctx : Context) (vars : List (String × String)) : Session :=
  let called := if ctx.event.isCall then s.adjustDepth ctx.frame.thread.id 1 else s
  let noted := (called.diff ctx.frame.id vars).2
  if ctx.event.isTerminal then (noted.evict ctx.frame.id).adjustDepth ctx.frame.thread.id (-1)
  else noted

theorem AgreesOn.afterShown (h : AgreesOn s s' machine thread) (ctx : Context)
    (vars : List (String × String)) :
    AgreesOn (s.afterShown ctx vars) (s'.afterShown ctx vars) machine thread := by
  unfold Session.afterShown
  dsimp only
  have hcalled : AgreesOn (if ctx.event.isCall then s.adjustDepth ctx.frame.thread.id 1 else s)
      (if ctx.event.isCall then s'.adjustDepth ctx.frame.thread.id 1 else s') machine thread := by
    split
    · exact h.adjustDepth _ _
    · exact h
  have hnoted := hcalled.diff ctx.frame.id vars
  split
  · exact (hnoted.evict _).adjustDepth _ _
  · exact hnoted

theorem agreesOn_afterShown (s : Session) {ctx : Context} (foreign : ctx.frame.id.machine ≠ machine)
    (elsewhere : thread ≠ ctx.frame.thread.id) (vars : List (String × String)) :
    AgreesOn s (s.afterShown ctx vars) machine thread := by
  unfold afterShown
  dsimp only
  have hcalled : AgreesOn s (if ctx.event.isCall then s.adjustDepth ctx.frame.thread.id 1 else s)
      machine thread := by
    split
    · exact agreesOn_adjustDepth s machine elsewhere 1
    · exact AgreesOn.refl s machine thread
  have hnoted := hcalled.trans (agreesOn_diff foreign _ thread vars)
  split
  · exact (hnoted.trans (agreesOn_evict foreign _ thread)).trans
      (agreesOn_adjustDepth _ machine elsewhere (-1))
  · exact hnoted

end Session

namespace Tracer

def bodyLines (t : Tracer) (w : Surroundings) (ctx : Context) (expanded : Bool) : List String :=
  let x := t.showing w ctx expanded
  let indent := indentation (t.level ctx)
  variableLines indent ctx.event.isCall expanded x.diff ++
    (eventLines indent x.thread ctx expanded x.source ++ t.resultLines ctx indent x.result)

def output (t : Tracer) (w : Surroundings) (ctx : Context) : List String × List String :=
  if ctx.event.isDiscard then ([], [])
  else
    let t' := (t.decide w ctx).2
    match (t.decide w ctx).1 with
    | .show_ expanded => ((t'.descend ctx).pathLines ctx, t'.bodyLines w ctx expanded)
    | .skip | .ignore | .overflow => ([], [])

/-- A tracer of target codes that writes lines without the labels of threads. Every value has a text, and
its lines go nowhere near the files, of which any two spellings read alike. -/
structure Plain (t : Tracer) (w : Surroundings) (files : Path → Prop) : Prop extends t.ByCode where
  graph : t.graph = none
  labels : t.config.threadInfo = false
  total : t.renderer.IsTotal
  alike : ∀ f g, files f → files g → f.components = g.components →
    SourceCache.readLines w f = SourceCache.readLines w g
  coherent : t.sources.Coherent w files
  spares : ∀ f, files f → t.sink.Spares w f

structure Preserves (t : Tracer) (w : Surroundings) (files : Path → Prop) (t' : Tracer)
    (w' : Surroundings) : Prop where
  config : t'.config = t.config
  renderer : t'.renderer = t.renderer
  watches : t'.watches = t.watches
  registered : t'.sources.registered = t.sources.registered
  same : ∀ f, files f → SourceCache.readLines w' f = SourceCache.readLines w f

namespace Plain
variable {t : Tracer} {w : Surroundings} {files : Path → Prop} {ctx : Context}

theorem onSession (h : t.Plain w files) {s : Session} (frames : s.targetFrames = []) :
    Plain { t with session := s } w files :=
  ⟨⟨h.observed, frames⟩, h.graph, h.labels, h.total, h.alike, h.coherent, h.spares⟩

theorem fault (h : t.Plain w files) (e : Error) : (t.fault e).Plain w files :=
  ⟨⟨h.observed, h.frames⟩, h.graph, h.labels, h.total, h.alike, h.coherent, h.spares⟩

theorem feed (h : t.Plain w files) (lines : List String) :
    (∀ f, files f → SourceCache.readLines (t.feed w lines).2 f = SourceCache.readLines w f) ∧
      ∀ f, files f → (t.feed w lines).1.Spares (t.feed w lines).2 f := by
  have hf : t.feed w lines = t.sink.writeLines w (lines.map (t.config.linePrefix ++ ·)) := by
    unfold Tracer.feed
    rw [h.graph]
    rfl
  rw [hf]
  exact ⟨fun f hfile => ((h.spares f hfile).writeLines _).1,
    fun f hfile => ((h.spares f hfile).writeLines _).2⟩

/-- The line that is shown for an event depends on no cache. -/
theorem sourceLine (h : t.Plain w files) (hf : files ctx.frame.file) (expanded : Bool) :
    (t.sourceLine w ctx expanded).1 = t.sources.plainLine w ctx ∧
      (t.sourceLine w ctx expanded).2.Coherent w files ∧
      (t.sourceLine w ctx expanded).2.registered = t.sources.registered :=
  h.coherent.shown h.alike (h.feed _).1 (h.feed _).1 hf

theorem session_ended (h : t.Plain w files) (ctx : Context) (expanded : Bool) :
    ((t.told w ctx expanded).ended ctx).session = t.session.afterShown ctx (t.texts ctx) := by
  have hdesc : (t.descend ctx).session =
      if ctx.event.isCall then t.session.adjustDepth ctx.frame.thread.id 1 else t.session := by
    unfold descend
    split <;> rfl
  have htold := session_told_of_unlabelled h.labels w ctx expanded
  rw [hdesc] at htold
  have hcode : (t.told w ctx expanded).ByCode := by
    refine ⟨?_, ?_⟩
    · rw [told_eq]
      exact h.observed
    · rw [session_told]
      exact h.frames
  unfold ended Session.afterShown
  split
  · have hrelease := hcode.release (t.told w ctx expanded).session hcode.frames ctx.frame.id
    simp only [Tracer.onSession]
    rw [hrelease, htold]
  · exact htold

/-- Showing an event, all of it. -/
theorem render (h : t.Plain w files) (ctx : Context) (expanded : Bool) :
    t.render w ctx expanded =
      let lines := (t.descend ctx).pathLines ctx ++ t.bodyLines w ctx expanded
      ({ t with
          session := t.session.afterShown ctx (t.texts ctx)
          sources := (t.sourceLine w ctx expanded).2
          sink := (t.feed w lines).1
          lastPath := some (t.displayPath ctx.frame.file)
          threadWidth := (t.told w ctx expanded).threadWidth },
        (t.feed w lines).2, none) := by
  have hlines : (t.descend ctx).pathLines ctx ++ t.bodyLines w ctx expanded =
      t.eventText w ctx expanded ++
        t.resultLines ctx (indentation (t.level ctx)) (t.outcome ctx) := by
    unfold bodyLines eventText Showing.lines
    simp only [List.append_assoc]
    rfl
  rw [render_written (mishap?_of_isTotal h.total ctx) h.graph, hlines, ended_told_eq, h.session_ended]

/-- What the tracer is after an event that it has shown. -/
theorem onRender (h : t.Plain w files) (hf : files ctx.frame.file) (expanded : Bool) :
    let r := t.render w ctx expanded
    r.1.Plain r.2.1 files ∧ t.Preserves w files r.1 r.2.1 := by
  intro r
  have hr : r = t.render w ctx expanded := rfl
  rw [h.render] at hr
  obtain ⟨-, hcoherent, hregistered⟩ := h.sourceLine hf expanded
  obtain ⟨hread, hspares⟩ := h.feed ((t.descend ctx).pathLines ctx ++ t.bodyLines w ctx expanded)
  have hframes : (t.session.afterShown ctx (t.texts ctx)).targetFrames = [] := by
    rw [← h.frames]
    unfold Session.afterShown
    dsimp only
    split <;> split <;> rfl
  rw [hr]
  refine ⟨⟨⟨h.observed, hframes⟩, h.graph, h.labels, h.total, ?_, ?_, hspares⟩, ?_⟩
  · intro f g hf hg he
    dsimp only
    rw [hread f hf, hread g hg]
    exact h.alike f g hf hg he
  · exact hcoherent.moved hread
  · exact ⟨rfl, rfl, rfl, hregistered, hread⟩

end Plain

theorem Preserves.refl (t : Tracer) (w : Surroundings) (files : Path → Prop) :
    t.Preserves w files t w :=
  ⟨rfl, rfl, rfl, rfl, fun _ _ => rfl⟩

theorem Preserves.symm {t t' : Tracer} {w w' : Surroundings} {files : Path → Prop}
    (h : t.Preserves w files t' w') : t'.Preserves w' files t w :=
  ⟨h.config.symm, h.renderer.symm, h.watches.symm, h.registered.symm, fun f hf => (h.same f hf).symm⟩

theorem Preserves.trans {t t' t'' : Tracer} {w w' w'' : Surroundings} {files : Path → Prop}
    (h : t.Preserves w files t' w') (h' : t'.Preserves w' files t'' w'') :
    t.Preserves w files t'' w'' :=
  ⟨h'.config.trans h.config, h'.renderer.trans h.renderer, h'.watches.trans h.watches,
    h'.registered.trans h.registered, fun f hf => (h'.same f hf).trans (h.same f hf)⟩

end Tracer

/-- The event is about a frame of the machine, which runs on this thread and sees frames of the machine
only. -/
structure Context.IsOf (ctx : Context) (machine thread : Nat) (files : Path → Prop) : Prop where
  id : ctx.frame.id.machine = machine
  thread : ctx.frame.thread.id = thread
  file : files ctx.frame.file
  frames : ∀ id f, ctx.frames.get? id = some f → f.id.machine = machine

theorem Machine.WellMade.isOf_heardBy {m : Machine} {files : Path → Prop} (h : m.WellMade files)
    {op : Op FrameId} (starts : ∀ code, op.code? = some code → files code.file) {hook : HookName}
    {ctx : Context} (heard : m.heardBy? op = some (hook, ctx)) :
    ctx.IsOf m.id m.thread.id files := by
  obtain ⟨id, owns, hframes⟩ := h.owns_heardBy starts heard
  have hid := Machine.id_before m op
  refine ⟨?_, ?_, owns.file, ?_⟩
  · rw [owns.known, owns.machine, hid]
  · rw [owns.thread, Op.thread_before]
  · intro j f hf
    rw [hframes] at hf
    have hj := (h.before starts).frames j f hf
    rw [hj.known, hj.machine, hid]

namespace Tracer
variable {t t' : Tracer} {w w' : Surroundings} {files : Path → Prop} {machine thread : Nat}
  {ctx : Context}

structure Peers (t : Tracer) (w : Surroundings) (files : Path → Prop) (machine thread : Nat)
    (t' : Tracer) (w' : Surroundings) : Prop extends t.Preserves w files t' w' where
  agrees : t.session.AgreesOn t'.session machine thread

theorem Peers.refl (t : Tracer) (w : Surroundings) (files : Path → Prop) (machine thread : Nat) :
    t.Peers w files machine thread t w :=
  ⟨Preserves.refl t w files, Session.AgreesOn.refl _ _ _⟩

theorem Peers.trans {t'' : Tracer} {w'' : Surroundings} (h : t.Peers w files machine thread t' w')
    (h' : t'.Peers w' files machine thread t'' w'') : t.Peers w files machine thread t'' w'' :=
  ⟨h.toPreserves.trans h'.toPreserves, h.agrees.trans h'.agrees⟩

/-! What is decided about a frame depends on its machine alone. -/

theorem ByCode.inheritFrom_congr (ht : t.ByCode) (ht' : t'.ByCode) (config : t'.config = t.config)
    (agrees : t.session.AgreesOn t'.session machine thread) (of : ctx.IsOf machine thread files)
    (n : Nat) (f : Frame) : t'.inheritFrom w' ctx n f = t.inheritFrom w ctx n f := by
  induction n generalizing f with
  | zero => simp only [inheritFrom, unrelated, ht.observed, ht'.observed]
  | succ n ih =>
    simp only [inheritFrom]
    cases hb : f.back.bind ctx.frames.get? with
    | none => rfl
    | some above =>
      obtain ⟨id, -, hid⟩ := Option.bind_eq_some_iff.mp hb
      have hmachine := of.frames id above hid
      have hexhausted := isExhausted_congr config (agrees.hits above.id hmachine)
      simp only [ht.isSource, ht'.isSource, agrees.codes, hexhausted, config, ih]

theorem ByCode.verdict_congr (ht : t.ByCode) (ht' : t'.ByCode) (config : t'.config = t.config)
    (agrees : t.session.AgreesOn t'.session machine thread) (of : ctx.IsOf machine thread files) :
    t'.verdict w' ctx = t.verdict w ctx := by
  unfold verdict Session.isTarget
  rw [agrees.codes, ht.frames, ht'.frames, config,
    ht.inheritFrom_congr ht' config agrees of (levels t.config) ctx.frame]

theorem countHit_congr (config : t'.config = t.config)
    (agrees : t.session.AgreesOn t'.session machine thread)
    (own : ctx.frame.id.machine = machine) :
    (t'.countHit ctx).1 = (t.countHit ctx).1 ∧
      (t.countHit ctx).2.session.AgreesOn (t'.countHit ctx).2.session machine thread := by
  have hhits : t'.session.hits ctx.frame.id = t.session.hits ctx.frame.id := by
    unfold Session.hits
    rw [agrees.hits _ own]
  unfold countHit
  rw [config]
  split
  · exact ⟨rfl, agrees⟩
  · split
    · exact ⟨rfl, agrees⟩
    · refine ⟨?_, agrees.recordHit _ _⟩
      dsimp only
      rw [hhits]

theorem agreesOn_countHit (t : Tracer) (foreign : ctx.frame.id.machine ≠ machine) (thread : Nat) :
    t.session.AgreesOn (t.countHit ctx).2.session machine thread := by
  have hself := Session.AgreesOn.refl t.session machine thread
  unfold countHit
  split
  · exact hself
  · split
    · exact hself
    · exact Session.agreesOn_recordHit foreign t.session thread _

theorem ByCode.decide_congr (ht : t.ByCode) (ht' : t'.ByCode) (config : t'.config = t.config)
    (agrees : t.session.AgreesOn t'.session machine thread) (of : ctx.IsOf machine thread files) :
    (t'.decide w' ctx).1 = (t.decide w ctx).1 ∧
      (t.decide w ctx).2.session.AgreesOn (t'.decide w' ctx).2.session machine thread := by
  have hverdict : t'.verdict w' ctx = t.verdict w ctx := ht.verdict_congr ht' config agrees of
  obtain ⟨hcount, hsession⟩ := countHit_congr config agrees of.id
  rw [ht.decide_eq, ht'.decide_eq, hverdict, hcount]
  cases t.verdict w ctx with
  | show_ expanded => exact ⟨rfl, hsession⟩
  | skip | ignore | overflow => exact ⟨rfl, agrees⟩

theorem ByCode.agreesOn_decide (ht : t.ByCode) (w : Surroundings)
    (foreign : ctx.frame.id.machine ≠ machine) (thread : Nat) :
    t.session.AgreesOn (t.decide w ctx).2.session machine thread := by
  rw [ht.decide_eq]
  cases t.verdict w ctx with
  | show_ expanded => exact agreesOn_countHit t foreign thread
  | skip | ignore | overflow => exact Session.AgreesOn.refl _ _ _

theorem Plain.onDecide (h : t.Plain w files) (ctx : Context) :
    (t.decide w ctx).2.Plain w files ∧ t.Preserves w files (t.decide w ctx).2 w ∧
      (t.decide w ctx).2.feed = t.feed := by
  obtain ⟨hkeeps, hits, heq⟩ := h.keeps_decide w ctx
  have hframes := (hkeeps.byCode h.toByCode).frames
  rw [heq] at hframes ⊢
  exact ⟨h.onSession hframes, ⟨rfl, rfl, rfl, rfl, fun _ _ => rfl⟩, rfl⟩

section event
variable (h : t.Plain w files)
include h

theorem Plain.onEvent_of_discard (hd : ctx.event.isDiscard = true) :
    t.onEvent ctx w = (.proceed, { t with session := t.session.evict ctx.frame.id }, w) := by
  have hframes : (t.session.evict ctx.frame.id).targetFrames = [] := h.frames
  unfold Tracer.onEvent dropFrame Tracer.onSession
  dsimp only
  rw [hd, if_pos rfl, Session.detach_of_none hframes, h.graph]

theorem Plain.onEvent_of_show {expanded : Bool} (hd : ctx.event.isDiscard = false)
    (hv : (t.decide w ctx).1 = .show_ expanded) :
    t.onEvent ctx w = (.proceed, ((t.decide w ctx).2.render w ctx expanded).1,
      ((t.decide w ctx).2.render w ctx expanded).2.1) := by
  have hcalm : ((t.decide w ctx).2.render w ctx expanded).2.2 = none := by
    rw [(h.onDecide ctx).1.render]
  refine Tracer.onEvent_of_show hd hv ?_
  rw [← hcalm]

end event

/-! One event. -/

structure Handled (t : Tracer) (w : Surroundings) (files : Path → Prop) (ctx : Context)
    (t' : Tracer) (w' : Surroundings) : Prop where
  plain : t'.Plain w' files
  preserves : t.Preserves w files t' w'
  output : (t'.sink, w') = t.feed w ((t.output w ctx).1 ++ (t.output w ctx).2)

theorem Plain.handled (h : t.Plain w files) (hf : files ctx.frame.file) :
    Handled t w files ctx (t.onEvent ctx w).2.1 (t.onEvent ctx w).2.2 := by
  obtain ⟨hplain, hpreserves, hfeed⟩ := h.onDecide ctx
  have hsink : (t.decide w ctx).2.sink = t.sink := by
    obtain ⟨-, hits, heq⟩ := h.keeps_decide w ctx
    rw [heq]
    rfl
  cases hd : ctx.event.isDiscard with
  | true =>
    rw [h.onEvent_of_discard hd]
    refine ⟨h.onSession h.frames, ⟨rfl, rfl, rfl, rfl, fun _ _ => rfl⟩, ?_⟩
    simp [output, hd, feed_nil]
  | false =>
    cases hv : (t.decide w ctx).1 with
    | show_ expanded =>
      obtain ⟨hafter, hsame⟩ := hplain.onRender hf expanded
      rw [h.onEvent_of_show hd hv]
      refine ⟨hafter, hpreserves.trans hsame, ?_⟩
      simp only [output, hd, hv, ← hfeed, hplain.render]
      rfl
    | skip =>
      rw [onEvent_of_skip hd hv]
      refine ⟨hplain, hpreserves, ?_⟩
      simp [output, hd, hv, feed_nil, hsink]
    | ignore =>
      rw [onEvent_of_ignore hd hv]
      refine ⟨hplain, hpreserves, ?_⟩
      simp [output, hd, hv, feed_nil, hsink]
    | overflow =>
      rw [onEvent_of_overflow hd hv]
      refine ⟨hplain.fault _, hpreserves.trans ⟨rfl, rfl, rfl, rfl, fun _ _ => rfl⟩, ?_⟩
      simp only [output, hd, hv, Bool.false_eq_true, if_false, List.append_nil, feed_nil]
      exact Prod.ext hsink rfl

/-- An event of another machine, on another thread. -/
theorem Plain.agreesOn_onEvent (h : t.Plain w files) (foreign : ctx.frame.id.machine ≠ machine)
    (elsewhere : thread ≠ ctx.frame.thread.id) :
    t.session.AgreesOn (t.onEvent ctx w).2.1.session machine thread := by
  have hdecided : t.session.AgreesOn (t.decide w ctx).2.session machine thread :=
    h.agreesOn_decide w foreign thread
  cases hd : ctx.event.isDiscard with
  | true =>
    rw [h.onEvent_of_discard hd]
    exact Session.agreesOn_evict foreign t.session thread
  | false =>
    cases hv : (t.decide w ctx).1 with
    | show_ expanded =>
      rw [h.onEvent_of_show hd hv, (h.onDecide ctx).1.render]
      exact hdecided.trans (Session.agreesOn_afterShown _ foreign elsewhere _)
    | skip =>
      rw [onEvent_of_skip hd hv]
      exact hdecided
    | ignore =>
      rw [onEvent_of_ignore hd hv]
      exact hdecided
    | overflow =>
      rw [onEvent_of_overflow hd hv]
      exact hdecided

theorem Plain.peers_onEvent (h : t.Plain w files) (hf : files ctx.frame.file)
    (foreign : ctx.frame.id.machine ≠ machine) (elsewhere : thread ≠ ctx.frame.thread.id) :
    t.Peers w files machine thread (t.onEvent ctx w).2.1 (t.onEvent ctx w).2.2 :=
  ⟨(h.handled hf).preserves, h.agreesOn_onEvent foreign elsewhere⟩

/-! An event of the machine itself, told to two tracers that are the same to it. -/

namespace Peers

section
variable (h : t.Peers w files machine thread t' w') (of : ctx.IsOf machine thread files)
include h of

theorem level : t'.level ctx = t.level ctx := by
  have hd := h.agrees.adjustDepth ctx.frame.thread.id 1
  have hthread := of.thread
  unfold Tracer.level descend
  split
  · exact hthread ▸ hd.depth
  · exact hthread ▸ h.agrees.depth

theorem plainLine : t'.sources.plainLine w' ctx = t.sources.plainLine w ctx := by
  unfold SourceCache.plainLine SourceCache.plainly
  rw [h.registered, h.same _ of.file]

end

variable (h : t.Peers w files machine thread t' w') (ht : t.Plain w files) (ht' : t'.Plain w' files)
  (of : ctx.IsOf machine thread files)
include h ht ht' of

theorem showing (expanded : Bool) : t'.showing w' ctx expanded = t.showing w ctx expanded := by
  have hthread : (t'.threadInfo ctx.frame.thread).1 = (t.threadInfo ctx.frame.thread).1 := by
    unfold threadInfo
    rw [ht.labels, ht'.labels]
    rfl
  have hsnapshot : t'.session.snapshot ctx.frame.id = t.session.snapshot ctx.frame.id := by
    unfold Session.snapshot
    rw [h.agrees.snapshots _ of.id]
  have hline : (t'.sourceLine w' ctx expanded).1 = (t.sourceLine w ctx expanded).1 := by
    rw [(ht'.sourceLine of.file expanded).1, (ht.sourceLine of.file expanded).1, h.plainLine of]
  unfold Tracer.showing changes
  rw [hthread, hsnapshot, texts_congr h.renderer h.watches, hline, outcome_congr h.renderer]

theorem bodyLines (expanded : Bool) :
    t'.bodyLines w' ctx expanded = t.bodyLines w ctx expanded := by
  have hresult : t'.resultLines = t.resultLines := by
    funext ctx indent result
    unfold resultLines
    rw [h.renderer]
  unfold Tracer.bodyLines
  rw [h.showing ht ht' of, h.level of, hresult]

/-- They decide alike, and stay the same. -/
theorem decide :
    (t'.decide w' ctx).1 = (t.decide w ctx).1 ∧
      (t.decide w ctx).2.Peers w files machine thread (t'.decide w' ctx).2 w' := by
  obtain ⟨hverdict, hsession⟩ := ht.decide_congr ht'.toByCode h.config h.agrees of
  have hkeep := (ht.onDecide ctx).2.1.symm.trans (h.toPreserves.trans (ht'.onDecide ctx).2.1)
  exact ⟨hverdict, hkeep, hsession⟩

/-- They answer alike, write the same apart from source paths, and stay the same. -/
theorem onEvent :
    (t'.onEvent ctx w').1 = (t.onEvent ctx w).1 ∧
      (t'.output w' ctx).2 = (t.output w ctx).2 ∧
      (t.onEvent ctx w).2.1.Peers (t.onEvent ctx w).2.2 files machine thread
        (t'.onEvent ctx w').2.1 (t'.onEvent ctx w').2.2 := by
  obtain ⟨hverdict, hdecided⟩ := h.decide ht ht' of
  have hplain := (ht.onDecide ctx).1
  have hplain' := (ht'.onDecide ctx).1
  have hkeep := (ht.handled of.file).preserves.symm.trans
    (h.toPreserves.trans (ht'.handled of.file).preserves)
  cases hd : ctx.event.isDiscard with
  | true =>
    have hagrees := h.agrees.evict ctx.frame.id
    rw [ht.onEvent_of_discard hd, ht'.onEvent_of_discard hd] at hkeep ⊢
    refine ⟨rfl, ?_, hkeep, hagrees⟩
    simp [output, hd]
  | false =>
    cases hv : (t.decide w ctx).1 with
    | show_ expanded =>
      have hv' := hverdict.trans hv
      have htexts := texts_congr hdecided.renderer hdecided.watches ctx
      have hagrees := hdecided.agrees.afterShown ctx ((t.decide w ctx).2.texts ctx)
      rw [ht.onEvent_of_show hd hv, ht'.onEvent_of_show hd hv'] at hkeep ⊢
      refine ⟨rfl, ?_, hkeep, ?_⟩
      · simp only [output, hd, hv, hv']
        exact hdecided.bodyLines hplain hplain' of expanded
      · rw [hplain.render, hplain'.render, htexts]
        exact hagrees
    | skip =>
      have hv' := hverdict.trans hv
      rw [onEvent_of_skip hd hv, onEvent_of_skip hd hv']
      refine ⟨rfl, ?_, hdecided⟩
      simp [output, hd, hv, hv']
    | ignore =>
      have hv' := hverdict.trans hv
      rw [onEvent_of_ignore hd hv, onEvent_of_ignore hd hv']
      refine ⟨rfl, ?_, hdecided⟩
      simp [output, hd, hv, hv']
    | overflow =>
      have hv' := hverdict.trans hv
      rw [onEvent_of_overflow hd hv, onEvent_of_overflow hd hv'] at hkeep ⊢
      refine ⟨rfl, ?_, hkeep, hdecided.agrees⟩
      simp [output, hd, hv, hv']

end Peers
end Tracer
end SelectiveTrace
