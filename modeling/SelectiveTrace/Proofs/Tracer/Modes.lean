import SelectiveTrace.Proofs.CallGraph.Telling
import SelectiveTrace.Proofs.Sources.Apart
import SelectiveTrace.Proofs.Tracer.Display
import SelectiveTrace.Proofs.Tracer.Handling

/-! A tracer that writes lines and one that collects a graph, set up alike and without expansion. They go
through the same events side by side: whatever the events are, they answer alike and remember the same. -/
namespace SelectiveTrace

structure CallGraph.Continues (g g' : CallGraph) : Prop where
  nodes : g'.nodes = g.nodes ∨ ∃ i lines, g'.nodes = g.nodes.modify i (·.add lines)
  output : g'.output = g.output

namespace CallGraph
variable {g g' : CallGraph} {w w' : Surroundings}

theorem Continues.refl (g : CallGraph) : Continues g g :=
  ⟨Or.inl rfl, rfl⟩

theorem continues_close {id : FrameId} {lines : List String} (h : g.close id lines = .ok g') :
    Continues g g' := by
  unfold close at h
  split at h
  next i _ =>
    cases h
    exact ⟨Or.inr ⟨i, lines, rfl⟩, rfl⟩
  · cases h

end CallGraph

namespace Surroundings

/-- At most the disk has changed; the current directory has not, nor has any file that lies apart from
the output, if there is one. -/
structure Spared (w : Surroundings) (output : Option Path) (w' : Surroundings) : Prop where
  now : w'.now = w.now
  current : w'.disk.current = w.disk.current
  same : ∀ file, (∀ path, output = some path → w.Apart path file) →
    SourceCache.readLines w' file = SourceCache.readLines w file

theorem Spared.refl (w : Surroundings) (output : Option Path) : Spared w output w :=
  ⟨rfl, rfl, fun _ _ => rfl⟩

end Surroundings

theorem Sink.spared_writeLines (s : Sink) (w : Surroundings) (lines : List String) :
    w.Spared (s.target? w) (s.writeLines w lines).2 := by
  refine ⟨?_, current_writeLines s w lines, ?_⟩
  · rw [writeLines_eq]
  · intro file apart
    have hspares : s.Spares w file := apart
    exact (hspares.writeLines lines).1

theorem Sink.target?_writeLines (s : Sink) (w : Surroundings) (lines : List String) :
    (s.writeLines w lines).1.target? (s.writeLines w lines).2 = s.target? w := by
  induction lines generalizing s w with
  | nil => rfl
  | cons line lines ih => exact (ih _ _).trans (target?_writeLine s line w)

theorem CallGraph.spared_flush {g : CallGraph} {w w' : Surroundings} (h : g.flush w = .ok w') :
    w.Spared g.output w' := by
  have hcurrent := current_flush h
  unfold flush at h
  split at h
  · cases h
    exact Surroundings.Spared.refl _ _
  next path ho =>
    cases hw : w.write path g.text with
    | error e =>
      rw [hw] at h
      cases h
    | ok w₁ =>
      rw [hw] at h
      cases h
      refine ⟨?_, hcurrent, fun file apart => (apart path ho).write hw⟩
      rw [Surroundings.write_eq hw]

namespace Tracer

/-- A call that is closed, or cannot be, and the file that is written then. -/
theorem close_continues (g : CallGraph) (w : Surroundings) (frame : FrameId) (lines : List String) :
    let r := match g.close frame lines with
      | .error e => (g, w, some e)
      | .ok g =>
        match g.flush w with
        | .ok w => (g, w, none)
        | .error e => (g, w, some e)
    g.Continues r.1 ∧ w.Spared g.output r.2.1 := by
  cases hc : g.close frame lines with
  | error e => exact ⟨CallGraph.Continues.refl g, Surroundings.Spared.refl _ _⟩
  | ok g' =>
    have hg := CallGraph.continues_close hc
    dsimp only
    cases hf : g'.flush w with
    | error e => exact ⟨hg, Surroundings.Spared.refl _ _⟩
    | ok w' => exact ⟨hg, hg.output ▸ CallGraph.spared_flush hf⟩

/-- What an event that is no call makes of a graph, and of what is around. -/
theorem updateGraph_of_old {ctx : Context} (old : ctx.event.isCall = false) (g : CallGraph)
    (w : Surroundings) (depth : Int) (source path : String) (starting result : Option String) :
    g.Continues (updateGraph g w ctx depth source path starting result).1 ∧
      w.Spared g.output (updateGraph g w ctx depth source path starting result).2.1 := by
  have hclose := close_continues g w ctx.frame.id
  have hsame := And.intro (CallGraph.Continues.refl g) (Surroundings.Spared.refl w g.output)
  unfold updateGraph
  cases he : ctx.event with
  | call =>
    rw [he] at old
    cases old
  | line | discard => exact hsame
  | ret v | exception e =>
    cases result with
    | some text => exact hclose _
    | none => exact hclose _

theorem spared_updateGraph (g : CallGraph) (w : Surroundings) (ctx : Context) (depth : Int)
    (source path : String) (starting result : Option String) :
    (updateGraph g w ctx depth source path starting result).1.output = g.output ∧
      w.Spared g.output (updateGraph g w ctx depth source path starting result).2.1 := by
  cases hc : ctx.event.isCall with
  | false =>
    obtain ⟨hgraph, hspared⟩ := updateGraph_of_old hc g w depth source path starting result
    exact ⟨hgraph.output, hspared⟩
  | true =>
    have hsame := And.intro (rfl : g.output = g.output) (Surroundings.Spared.refl w g.output)
    unfold updateGraph
    cases he : ctx.event with
    | call | line | discard => exact hsame
    | ret v | exception e =>
      rw [he] at hc
      cases hc

/-- Showing an event where a graph is collected: the graph has taken note of it. -/
theorem render_noted {t : Tracer} {ctx : Context} (calm : t.mishap? ctx = none) {g : CallGraph}
    (graph : t.graph = some g) (w : Surroundings) (expanded : Bool) :
    let x := t.showing w ctx expanded
    let r := updateGraph g w ctx (t.level ctx) x.source.1 (t.displayPath ctx.frame.file) x.starting
      x.result
    t.render w ctx expanded =
      ({ (t.told w ctx expanded).ended ctx with graph := some r.1, faults := t.faults ++ r.2.2.toList },
        r.2.1, none) := by
  intro x r
  have htold := told_eq t w ctx expanded
  have hgraph : (t.told w ctx expanded).graph = some g := by
    rw [htold]
    exact graph
  have hfaults : (t.told w ctx expanded).faults = t.faults := by
    rw [htold]
  have hfeed : ∀ lines, t.feed w lines = (t.sink, w) := by
    intro lines
    unfold feed
    rw [graph]
    rfl
  have hnote : (t.told w ctx expanded).noteGraph w ctx (t.level ctx) x.source.1
      (t.displayPath ctx.frame.file) x.starting x.result =
        ({ t.told w ctx expanded with graph := some r.1, faults := t.faults ++ r.2.2.toList }, r.2.1) := by
    unfold noteGraph
    rw [hgraph]
    dsimp only
    have hr : updateGraph g w ctx (t.level ctx) x.source.1 (t.displayPath ctx.frame.file) x.starting
      x.result = r := rfl
    rw [hr]
    obtain ⟨g', w', e?⟩ := r
    cases e? with
    | none => simp [← hfaults]
    | some e => simp [fault, ← hfaults]
  rw [render_told calm]
  dsimp only
  rw [hfeed, hnote]
  dsimp only
  rw [conclude_eq, write_of_graph]
  · unfold ended
    split <;> rfl
  · rw [graph_ended]
    rfl

/-- The file that the tracer writes to, if it writes to one: that of its graph, or that of its lines. -/
def outlet? (t : Tracer) (w : Surroundings) : Option Path :=
  match t.graph with
  | some g => g.output
  | none => t.sink.target? w

def Spares (t : Tracer) (w : Surroundings) (file : Path) : Prop :=
  ∀ path, t.outlet? w = some path → w.Apart path file

structure Onward (t : Tracer) (w : Surroundings) (t' : Tracer) (w' : Surroundings) : Prop where
  config : t'.config = t.config
  observed : t'.observed = t.observed
  renderer : t'.renderer = t.renderer
  watches : t'.watches = t.watches
  mode : t'.graph.isSome = t.graph.isSome
  outlet : t'.outlet? w' = t.outlet? w
  current : w'.disk.current = w.disk.current
  same : ∀ file, t.Spares w file → SourceCache.readLines w' file = SourceCache.readLines w file

theorem Onward.refl (t : Tracer) (w : Surroundings) : Onward t w t w :=
  ⟨rfl, rfl, rfl, rfl, rfl, rfl, rfl, fun _ _ => rfl⟩

theorem Onward.spares {t t' : Tracer} {w w' : Surroundings} (h : Onward t w t' w') {file : Path}
    (spares : t.Spares w file) : t'.Spares w' file := by
  intro path hp
  rw [h.outlet] at hp
  exact (spares path hp).congr h.current

theorem onward_session (t : Tracer) (w : Surroundings) (s : Session) :
    Onward t w { t with session := s } w :=
  ⟨rfl, rfl, rfl, rfl, rfl, rfl, rfl, fun _ _ => rfl⟩

theorem Onward.trans {t t' t'' : Tracer} {w w' w'' : Surroundings} (h : Onward t w t' w')
    (h' : Onward t' w' t'' w'') : Onward t w t'' w'' :=
  ⟨h'.config.trans h.config, h'.observed.trans h.observed, h'.renderer.trans h.renderer,
    h'.watches.trans h.watches, h'.mode.trans h.mode, h'.outlet.trans h.outlet,
    h'.current.trans h.current,
    fun file spares => (h'.same file (h.spares spares)).trans (h.same file spares)⟩

theorem onward_write (t : Tracer) (w : Surroundings) (lines : List String) :
    Onward t w (t.write w lines).1 (t.write w lines).2 ∧ (t.write w lines).2.now = w.now := by
  rw [write_eq]
  unfold feed
  split
  · exact ⟨Onward.refl t w, rfl⟩
  next hg =>
    have hnone : t.graph = none := by simpa using hg
    have hout := Sink.spared_writeLines t.sink w (lines.map (t.config.linePrefix ++ ·))
    refine ⟨⟨rfl, rfl, rfl, rfl, rfl, ?_, hout.current, ?_⟩, hout.now⟩
    · simp only [outlet?, hnone]
      exact Sink.target?_writeLines _ _ _
    · intro file spares
      refine hout.same file ?_
      simpa [Spares, outlet?, hnone] using spares

/-- Showing an event, whatever the tracer does with it. -/
theorem onward_render {t : Tracer} (h : t.renderer.IsTotal) (w : Surroundings) (ctx : Context)
    (expanded : Bool) :
    Onward t w (t.render w ctx expanded).1 (t.render w ctx expanded).2.1 ∧
      (t.render w ctx expanded).2.1.now = w.now := by
  have hcalm := mishap?_of_isTotal h ctx
  cases hg : t.graph with
  | none =>
    obtain ⟨hw, hnow⟩ := onward_write t w (t.eventText w ctx expanded ++
      t.resultLines ctx (indentation (t.level ctx)) (t.outcome ctx))
    rw [write_eq] at hw hnow
    rw [render_written hcalm hg, ended_told_eq]
    exact ⟨⟨rfl, rfl, rfl, rfl, rfl, hw.outlet, hw.current, hw.same⟩, hnow⟩
  | some g =>
    obtain ⟨hout, hspared⟩ := spared_updateGraph g w ctx (t.level ctx)
      (t.showing w ctx expanded).source.1 (t.displayPath ctx.frame.file)
      (t.showing w ctx expanded).starting (t.showing w ctx expanded).result
    rw [render_noted hcalm hg, ended_told_eq]
    refine ⟨⟨rfl, rfl, rfl, rfl, ?_, ?_, hspared.current, ?_⟩, hspared.now⟩
    · simp [hg]
    · simpa [outlet?, hg] using hout
    · intro file spares
      refine hspared.same file ?_
      simpa [Spares, outlet?, hg] using spares

theorem onward_dropFrame (t : Tracer) (w : Surroundings) (id : FrameId) :
    Onward t w (t.dropFrame id) w := by
  have hgraph : (t.onSession fun s => (s.evict id).detach id).graph = t.graph := rfl
  unfold dropFrame
  cases hg : t.graph with
  | none =>
    simp only [hgraph, hg]
    exact onward_session t w _
  | some g =>
    cases hc : g.closeException id with
    | error e =>
      simp only [hgraph, hg, hc]
      exact onward_session t w _
    | ok g' =>
      have hout := (CallGraph.continues_close hc).output
      simp only [hgraph, hg, hc]
      refine ⟨rfl, rfl, rfl, rfl, ?_, ?_, rfl, fun _ _ => rfl⟩
      · simp [hg]
      · simpa [outlet?, hg] using hout

/-! Where nothing is expanded, no event is shown as expanded. -/

theorem inheritFrom_of_flat {t : Tracer} (flat : t.config.expands = false) (w : Surroundings)
    (ctx : Context) (n : Nat) (f : Frame) : t.inheritFrom w ctx n f ≠ .show_ true := by
  induction n generalizing f with
  | zero =>
    unfold inheritFrom unrelated
    split <;> simp
  | succ n ih =>
    simp only [inheritFrom, flat, Bool.false_and, Bool.false_eq_true, if_false]
    split
    · simp
    · split
      · split <;> simp
      · exact ih _

theorem verdict_of_flat {t : Tracer} (flat : t.config.expands = false) (w : Surroundings)
    (ctx : Context) : t.verdict w ctx ≠ .show_ true := by
  rw [verdict_of_counted (TracerConfig.overflows_of_compact flat)]
  split
  · simp
  · exact inheritFrom_of_flat flat w ctx _ _

theorem gated_quiet {t : Tracer} {w : Surroundings} {ctx : Context} {v : Verdict} {s : Session}
    (h : t.gated w ctx = (some v, s)) : v.isShow = false := by
  unfold gated gate at h
  grind [Verdict.isShow]

theorem expanded_of_decide {t : Tracer} (flat : t.config.expands = false) {w : Surroundings}
    {ctx : Context} {expanded : Bool} (h : (t.decide w ctx).1 = .show_ expanded) :
    expanded = false := by
  unfold decide at h
  split at h
  next v s hg =>
    have hquiet := gated_quiet hg
    dsimp only at h
    rw [h] at hquiet
    cases hquiet
  next s hg =>
    have hflat := verdict_of_flat (t := { t with session := s }) flat w ctx
    dsimp only at h
    split at h
    next e hv =>
      rw [hv] at hflat
      dsimp only at h
      split at h
      · cases h
      · cases h
        simpa using hflat
    next v _ =>
      dsimp only at h
      rw [h] at hflat
      simpa using hflat

/-- The one writes lines, the other collects a graph; otherwise they are set up alike, nothing is expanded,
threads have no labels, and they remember the same. -/
structure Paired (t : Tracer) (w : Surroundings) (g : Tracer) (w' : Surroundings) : Prop where
  config : g.config = { t.config with callGraph := g.config.callGraph }
  flat : t.config.depthExpanded = false
  labels : t.config.threadInfo = false
  observed : g.observed = t.observed
  session : g.session = t.session
  renderer : g.renderer = t.renderer
  watches : g.watches = t.watches
  total : t.renderer.IsTotal
  text : t.graph = none
  collects : g.graph.isSome = true
  now : w'.now = w.now
  current : w'.disk.current = w.disk.current

namespace Paired
variable {t g : Tracer} {w w' : Surroundings}

theorem expands (h : Paired t w g w') : t.config.expands = false ∧ g.config.expands = false := by
  unfold TracerConfig.expands
  rw [h.config]
  simp [h.flat]

theorem onSession (h : Paired t w g w') (s : Session) :
    Paired { t with session := s } w { g with session := s } w' :=
  ⟨h.config, h.flat, h.labels, h.observed, rfl, h.renderer, h.watches, h.total, h.text, h.collects,
    h.now, h.current⟩

theorem gated (h : Paired t w g w') (ctx : Context) : g.gated w' ctx = t.gated w ctx := by
  unfold Tracer.gated gate
  rw [h.observed, h.session]
  simp only [Region.holds_congr _ h.current, h.now]

theorem inheritFrom (h : Paired t w g w') (ctx : Context) (n : Nat) (f : Frame) :
    g.inheritFrom w' ctx n f = t.inheritFrom w ctx n f := by
  have hsource : ∀ f, g.isSource w' f = t.isSource w f := by
    intro f
    unfold isSource
    rw [h.session, h.observed]
    simp only [Region.holds_congr _ h.current]
  have hexhausted : ∀ f, g.isExhausted f = t.isExhausted f := by
    intro f
    unfold isExhausted TracerConfig.hitLimit
    rw [h.session, h.config]
  obtain ⟨hflat, hflat'⟩ := h.expands
  induction n generalizing f with
  | zero =>
    unfold Tracer.inheritFrom unrelated
    rw [h.observed]
  | succ n ih =>
    simp only [Tracer.inheritFrom, hsource, hexhausted, hflat, hflat', ih]

theorem verdict (h : Paired t w g w') (ctx : Context) : g.verdict w' ctx = t.verdict w ctx := by
  obtain ⟨hflat, hflat'⟩ := h.expands
  have hcounted := TracerConfig.overflows_of_compact hflat
  have hcounted' := TracerConfig.overflows_of_compact hflat'
  have hlevels : levels g.config = levels t.config := by
    unfold levels
    rw [hcounted, hcounted', hflat, hflat', h.config]
  rw [verdict_of_counted hcounted, verdict_of_counted hcounted', h.session, hlevels, h.inheritFrom]

theorem countHit (h : Paired t w g w') (ctx : Context) :
    g.countHit ctx = ((t.countHit ctx).1, { g with session := (t.countHit ctx).2.session }) := by
  have hlimit : g.config.hitLimit = t.config.hitLimit := by
    unfold TracerConfig.hitLimit
    rw [h.config]
  have hsame : g = { g with session := t.session } := by
    rw [← h.session]
  unfold Tracer.countHit
  rw [hlimit]
  split
  · exact congrArg _ hsame
  · split
    · exact congrArg _ hsame
    · rw [h.session]
      simp only [Tracer.onSession, h.session]

/-- They decide alike. -/
theorem decide (h : Paired t w g w') (ctx : Context) :
    g.decide w' ctx = ((t.decide w ctx).1, { g with session := (t.decide w ctx).2.session }) := by
  unfold Tracer.decide
  rw [h.gated]
  rcases t.gated w ctx with ⟨v | v, s⟩
  · have hs := h.onSession s
    simp only [hs.verdict, hs.countHit]
    split <;> rfl
  · rfl

theorem texts (h : Paired t w g w') (ctx : Context) : g.texts ctx = t.texts ctx :=
  texts_congr h.renderer h.watches ctx

theorem displayPath (h : Paired t w g w') (file : Path) : g.displayPath file = t.displayPath file := by
  unfold Tracer.displayPath
  rw [h.config]

theorem session_descend (h : Paired t w g w') (ctx : Context) :
    (g.descend ctx).session = (t.descend ctx).session := by
  have hs := h.session
  unfold descend
  split
  · exact congrArg (·.adjustDepth ctx.frame.thread.id 1) hs
  · exact hs

theorem level (h : Paired t w g w') (ctx : Context) : g.level ctx = t.level ctx := by
  unfold Tracer.level
  rw [h.session_descend]

theorem changes (h : Paired t w g w') (ctx : Context) : g.changes ctx = t.changes ctx := by
  unfold Tracer.changes
  rw [h.session, h.texts]

/-- What they remember of a shown event is the same. -/
theorem session_ended (h : Paired t w g w') (ctx : Context) (expanded : Bool) :
    ((g.told w' ctx expanded).ended ctx).session = ((t.told w ctx expanded).ended ctx).session := by
  have hlabels : g.config.threadInfo = false := by
    rw [h.config]
    exact h.labels
  have htold : (g.told w' ctx expanded).session = (t.told w ctx expanded).session := by
    rw [session_told_of_unlabelled hlabels, session_told_of_unlabelled h.labels, h.texts,
      h.session_descend]
  have hobserved : (g.told w' ctx expanded).observed = (t.told w ctx expanded).observed := by
    rw [told_eq, told_eq t]
    exact h.observed
  have hrelease : (g.told w' ctx expanded).release = (t.told w ctx expanded).release := by
    funext s id
    unfold release
    rw [hobserved]
  unfold ended
  split
  · simp only [Tracer.onSession, htold, hrelease]
  · exact htold

end Paired

theorem Paired.onward {t t' g g' : Tracer} {w u w' u' : Surroundings} (h : Paired t w g w')
    (left : Onward t w t' u) (right : Onward g w' g' u') (session : g'.session = t'.session)
    (now : u'.now = u.now) : Paired t' u g' u' := by
  refine ⟨?_, ?_, ?_, ?_, session, ?_, ?_, ?_, ?_, right.mode.trans h.collects, now, ?_⟩
  · rw [right.config, left.config]
    exact h.config
  · rw [left.config]
    exact h.flat
  · rw [left.config]
    exact h.labels
  · rw [right.observed, left.observed, h.observed]
  · rw [right.renderer, left.renderer, h.renderer]
  · rw [right.watches, left.watches, h.watches]
  · rw [left.renderer]
    exact h.total
  · have hmode := left.mode
    rw [h.text] at hmode
    simpa using hmode
  · rw [right.current, left.current, h.current]

theorem session_dropFrame (t : Tracer) (id : FrameId) :
    (t.dropFrame id).session = (t.session.evict id).detach id := by
  rcases t.dropFrame_cases id with ⟨hdrop, -⟩ | ⟨g, hdrop, -⟩
  · rw [hdrop]
    rfl
  · rw [hdrop]
    rfl

inductive Handling (t : Tracer) (w : Surroundings) (g : Tracer) (w' : Surroundings) (ctx : Context) :
    Prop
  | dropped (discard : ctx.event.isDiscard = true)
    (writes : t.onEvent ctx w = (.proceed, t.dropFrame ctx.frame.id, w))
    (collects : g.onEvent ctx w' = (.proceed, g.dropFrame ctx.frame.id, w'))
  | hidden (a : Answer) (s : Session) (live : ctx.event.isDiscard = false)
    (quiet : (t.decide w ctx).1.isShow = false)
    (writes : t.onEvent ctx w = (a, { t with session := s }, w))
    (collects : g.onEvent ctx w' = (a, { g with session := s }, w'))
  | shown (s : Session) (live : ctx.event.isDiscard = false)
    (verdict : t.decide w ctx = (.show_ false, { t with session := s }))
    (writes : t.onEvent ctx w = (.proceed, (Tracer.render { t with session := s } w ctx false).1,
      (Tracer.render { t with session := s } w ctx false).2.1))
    (collects : g.onEvent ctx w' = (.proceed, (Tracer.render { g with session := s } w' ctx false).1,
      (Tracer.render { g with session := s } w' ctx false).2.1))

theorem onEvent_of_render {t : Tracer} (h : t.renderer.IsTotal) {s : Session} {w : Surroundings}
    {ctx : Context} {expanded : Bool} (live : ctx.event.isDiscard = false)
    (verdict : t.decide w ctx = (.show_ expanded, { t with session := s })) :
    let r := Tracer.render { t with session := s } w ctx expanded
    t.onEvent ctx w = (.proceed, r.1, r.2.1) := by
  intro r
  have hcalm : r.2.2 = none := by
    have hr := render_told (mishap?_of_isTotal (t := { t with session := s }) h ctx) w expanded
    unfold r
    rw [hr]
  refine onEvent_of_show live (by rw [verdict]) ?_
  rw [verdict, ← hcalm]

theorem Paired.handling {t g : Tracer} {w w' : Surroundings} (h : Paired t w g w') (ctx : Context) :
    Handling t w g w' ctx := by
  obtain ⟨s, hs⟩ := t.decide_session w ctx
  have hdecide := h.decide ctx
  rw [hs] at hdecide
  cases live : ctx.event.isDiscard with
  | true =>
    refine .dropped live ?_ ?_
    · unfold onEvent
      rw [if_pos live]
    · unfold onEvent
      rw [if_pos live]
  | false =>
    cases hv : (t.decide w ctx).1 with
    | skip =>
      rw [hv] at hdecide
      refine .hidden .skipFrame s live (by rw [hv]; rfl) ?_ ?_
      · rw [onEvent_of_skip live hv, hs]
      · rw [onEvent_of_skip live (by rw [hdecide]), hdecide]
    | ignore =>
      rw [hv] at hdecide
      refine .hidden .proceed s live (by rw [hv]; rfl) ?_ ?_
      · rw [onEvent_of_ignore live hv, hs]
      · rw [onEvent_of_ignore live (by rw [hdecide]), hdecide]
    | overflow =>
      exact absurd hv (decide_ne_overflow (TracerConfig.overflows_of_compact h.expands.1) w ctx)
    | show_ expanded =>
      cases expanded_of_decide h.expands.1 hv
      rw [hv] at hdecide
      have hshow : t.decide w ctx = (.show_ false, { t with session := s }) := Prod.ext hv hs
      refine .shown s live hshow (onEvent_of_render h.total live hshow) ?_
      exact onEvent_of_render (h.renderer ▸ h.total) live hdecide

/-- They answer alike, and go on side by side. -/
theorem Paired.onEvent {t g : Tracer} {w w' : Surroundings} (h : Paired t w g w') (ctx : Context) :
    (g.onEvent ctx w').1 = (t.onEvent ctx w).1 ∧
      Onward t w (t.onEvent ctx w).2.1 (t.onEvent ctx w).2.2 ∧
      Onward g w' (g.onEvent ctx w').2.1 (g.onEvent ctx w').2.2 ∧
      Paired (t.onEvent ctx w).2.1 (t.onEvent ctx w).2.2 (g.onEvent ctx w').2.1
        (g.onEvent ctx w').2.2 := by
  cases h.handling ctx with
  | dropped discard writes collects =>
    rw [writes, collects]
    have hleft := onward_dropFrame t w ctx.frame.id
    have hright := onward_dropFrame g w' ctx.frame.id
    refine ⟨rfl, hleft, hright, h.onward hleft hright ?_ h.now⟩
    rw [session_dropFrame, session_dropFrame, h.session]
  | hidden a s live quiet writes collects =>
    rw [writes, collects]
    exact ⟨rfl, onward_session t w s, onward_session g w' s, h.onSession s⟩
  | shown s live verdict writes collects =>
    rw [writes, collects]
    have hs := h.onSession s
    have htotal := hs.renderer ▸ hs.total
    obtain ⟨hleft, hnow⟩ := onward_render hs.total w ctx false
    obtain ⟨hright, hnow'⟩ := onward_render htotal w' ctx false
    have hnows := hnow'.trans (h.now.trans hnow.symm)
    refine ⟨rfl, (onward_session t w s).trans hleft, (onward_session g w' s).trans hright,
      hs.onward hleft hright ?_ hnows⟩
    rw [session_render hs.total, session_render htotal]
    exact hs.session_ended ctx false

/-! What is done between events. -/

theorem onward_aside (s : Tracer × Surroundings) (a : Aside) :
    Onward s.1 s.2 (aside s a).1 (aside s a).2 := by
  cases a with
  | target code =>
    simp only [aside, targetCode]
    split
    · exact Onward.refl _ _
    · exact onward_session _ _ _
  | enter frame =>
    simp only [aside, enter]
    split
    · exact Onward.refl _ _
    · exact onward_session _ _ _
  | exit thread frame =>
    simp only [aside, exit]
    split
    · exact Onward.refl _ _
    · split
      · exact (onward_session s.1 s.2 _).trans (onward_write _ _ _).1
      · exact onward_session _ _ _
  | wait time => exact ⟨rfl, rfl, rfl, rfl, rfl, rfl, rfl, fun _ _ => rfl⟩

theorem Paired.aside {s s' : Tracer × Surroundings} (h : Paired s.1 s.2 s'.1 s'.2) (a : Aside) :
    Paired (aside s a).1 (aside s a).2 (aside s' a).1 (aside s' a).2 := by
  refine h.onward (onward_aside s a) (onward_aside s' a) ?_ ?_
  · cases a with
    | target code =>
      simp only [Tracer.aside, targetCode, h.observed]
      split
      · exact h.session
      · simp [Tracer.onSession, h.session]
    | enter frame =>
      simp only [Tracer.aside, enter, h.observed, h.now]
      split
      · exact h.session
      · simp [Tracer.onSession, h.session]
    | exit thread frame =>
      simp only [Tracer.aside, exit, h.observed, h.session]
      split
      · exact h.session
      · split
        · simp [write_eq, Tracer.onSession, h.session]
        · simp [Tracer.onSession, h.session]
    | wait time => exact h.session
  · cases a with
    | target code | enter frame => exact h.now
    | exit thread frame =>
      simp only [Tracer.aside, exit, h.observed, h.session]
      split
      · exact h.now
      · split
        · rw [(onward_write _ _ _).2, (onward_write _ _ _).2]
          exact h.now
        · exact h.now
    | wait time => exact congrArg (· + time) h.now

end Tracer

inductive Moment where
  | event (ctx : Context)
  | aside (a : Aside)

namespace Moment

def file? : Moment → Option Path
  | .event ctx => some ctx.frame.file
  | .aside _ => none

end Moment

namespace Tracer

def pass (s : Tracer × Surroundings) : Moment → Tracer × Surroundings
  | .event ctx => (s.1.onEvent ctx s.2).2
  | .aside a => aside s a

@[simp] theorem pass_event (s : Tracer × Surroundings) (ctx : Context) :
    pass s (.event ctx) = (s.1.onEvent ctx s.2).2 := rfl

@[simp] theorem pass_aside (s : Tracer × Surroundings) (a : Aside) :
    pass s (.aside a) = aside s a := rfl

def passAll (s : Tracer × Surroundings) (ms : List Moment) : Tracer × Surroundings :=
  ms.foldl pass s

section
variable {s s' : Tracer × Surroundings} (h : Paired s.1 s.2 s'.1 s'.2)
include h

theorem Paired.pass (m : Moment) :
    Onward s.1 s.2 (pass s m).1 (pass s m).2 ∧ Onward s'.1 s'.2 (pass s' m).1 (pass s' m).2 ∧
      Paired (pass s m).1 (pass s m).2 (pass s' m).1 (pass s' m).2 := by
  cases m with
  | event ctx => exact (h.onEvent ctx).2
  | aside a => exact ⟨onward_aside s a, onward_aside s' a, h.aside a⟩

theorem Paired.passAll (ms : List Moment) :
    Paired (passAll s ms).1 (passAll s ms).2 (passAll s' ms).1 (passAll s' ms).2 := by
  induction ms generalizing s s' with
  | nil => exact h
  | cons m ms ih => exact ih (h.pass m).2.2

end
end Tracer
end SelectiveTrace
