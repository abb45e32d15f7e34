import SelectiveTrace.Tracer.Rendering

/-! What showing an event changes when no renderer fails: lines go to the sink, the depth and the
frame's records follow the call, and the call graph takes note. Everything else that later decisions
look at stays as it was. -/
namespace SelectiveTrace

def Renderer.IsTotal (r : Renderer) : Prop :=
  ∀ v, ∃ text, r.render v = .ok text

theorem Renderer.isTotal_of_custom {r : Renderer}
    (h : ∀ f ∈ r.custom, ∀ v, ∃ text, f.format v = .ok text) : r.IsTotal := by
  intro v
  have hr : ∃ text, r.repr v = .ok text := by
    unfold repr
    cases hf : r.custom.find? fun f => f.applies v with
    | none => exact ⟨v.repr, rfl⟩
    | some f => exact h f (List.mem_of_find?_eq_some hf) v
  obtain ⟨text, ht⟩ := hr
  exact ⟨r.fit text, by rw [render, ht]; rfl⟩

theorem Renderer.IsTotal.renderAll {r : Renderer} (h : r.IsTotal)
    (bindings : List (String × Value)) : ∃ vars, r.renderAll bindings = .ok vars := by
  induction bindings with
  | nil => exact ⟨[], rfl⟩
  | cons b bs ih =>
    obtain ⟨text, ht⟩ := h b.2
    obtain ⟨vars, hv⟩ := ih
    refine ⟨(b.1, text) :: vars, ?_⟩
    simp only [Renderer.renderAll, ht, hv]
    rfl

namespace Sink

def writeLines (s : Sink) (w : Surroundings) : List String → Sink × Surroundings
  | [] => (s, w)
  | text :: texts => writeLines (s.writeLine text w).1 (s.writeLine text w).2 texts

theorem writeLines_append (s : Sink) (w : Surroundings) (xs ys : List String) :
    s.writeLines w (xs ++ ys) = (s.writeLines w xs).1.writeLines (s.writeLines w xs).2 ys := by
  induction xs generalizing s w with
  | nil => rfl
  | cons x xs ih => exact ih _ _

end Sink

namespace Tracer

/-- The two tracers agree in all that decides about events and in the call graph. They may have
different sinks, sources, snapshots and labels. -/
structure Alike (t t' : Tracer) : Prop where
  config : t'.config = t.config
  observed : t'.observed = t.observed
  renderer : t'.renderer = t.renderer
  watches : t'.watches = t.watches
  graph : t'.graph = t.graph
  faults : t'.faults = t.faults
  codes : t'.session.targetCodes = t.session.targetCodes
  frames : t'.session.targetFrames = t.session.targetFrames
  hits : t'.session.lineHits = t.session.lineHits
  depths : t'.session.depths = t.session.depths

theorem Alike.refl (t : Tracer) : Alike t t :=
  ⟨rfl, rfl, rfl, rfl, rfl, rfl, rfl, rfl, rfl, rfl⟩

theorem Alike.trans {t t' t'' : Tracer} (h : Alike t t') (h' : Alike t' t'') : Alike t t'' :=
  ⟨h'.config.trans h.config, h'.observed.trans h.observed, h'.renderer.trans h.renderer,
    h'.watches.trans h.watches, h'.graph.trans h.graph, h'.faults.trans h.faults,
    h'.codes.trans h.codes, h'.frames.trans h.frames, h'.hits.trans h.hits,
    h'.depths.trans h.depths⟩

/-- What writing lines makes of the sink. A tracer that collects a graph writes none. -/
def feed (t : Tracer) (w : Surroundings) (lines : List String) : Sink × Surroundings :=
  if t.graph.isSome then (t.sink, w)
  else t.sink.writeLines w (lines.map (t.config.linePrefix ++ ·))

theorem feed_nil (t : Tracer) (w : Surroundings) : t.feed w [] = (t.sink, w) := by
  unfold feed
  split <;> rfl

theorem write_eq (t : Tracer) (w : Surroundings) (lines : List String) :
    t.write w lines = ({ t with sink := (t.feed w lines).1 }, (t.feed w lines).2) := by
  induction lines generalizing t w with
  | nil => unfold write feed; split <;> rfl
  | cons line lines ih =>
    unfold write
    by_cases hg : t.graph.isSome
    · simp [feed, hg]
    · simp only [hg, Bool.false_eq_true, if_false, ih]
      simp [feed, hg, Sink.writeLines]

structure Emits (t : Tracer) (w : Surroundings) (lines : List String) (t' : Tracer)
    (w' : Surroundings) : Prop where
  alike : Alike t t'
  output : (t'.sink, w') = t.feed w lines

theorem Emits.of_alike {t t' : Tracer} (h : Alike t t') (hs : t'.sink = t.sink)
    (w : Surroundings) : Emits t w [] t' w := by
  refine ⟨h, ?_⟩
  simp [feed, hs, Sink.writeLines]

theorem feed_append {t t' : Tracer} {w w' : Surroundings} {xs : List String}
    (output : (t'.sink, w') = t.feed w xs) (graph : t'.graph = t.graph)
    (config : t'.config = t.config) (ys : List String) :
    t'.feed w' ys = t.feed w (xs ++ ys) := by
  unfold feed at output ⊢
  rw [graph, config]
  by_cases hg : t.graph.isSome
  · simp only [hg, if_true, Prod.mk.injEq] at output ⊢
    exact output
  · simp only [hg, Bool.false_eq_true, if_false, List.map_append, Sink.writeLines_append]
      at output ⊢
    rw [← output]

theorem Emits.trans {t t' t'' : Tracer} {w w' w'' : Surroundings} {xs ys : List String}
    (h : Emits t w xs t' w') (h' : Emits t' w' ys t'' w'') :
    Emits t w (xs ++ ys) t'' w'' :=
  ⟨h.alike.trans h'.alike,
    h'.output.trans (feed_append h.output h.alike.graph h.alike.config ys)⟩

theorem emits_write (t : Tracer) (w : Surroundings) (lines : List String) :
    Emits t w lines (t.write w lines).1 (t.write w lines).2 := by
  rw [write_eq]
  exact ⟨⟨rfl, rfl, rfl, rfl, rfl, rfl, rfl, rfl, rfl, rfl⟩, rfl⟩

def descend (t : Tracer) (ctx : Context) : Tracer :=
  if ctx.event.isCall then t.onSession (·.adjustDepth ctx.frame.thread.id 1) else t

def pathLines (t : Tracer) (ctx : Context) : List String :=
  if t.lastPath = some (t.displayPath ctx.frame.file) then []
  else [indentation (t.session.depth ctx.frame.thread.id) ++ CallNode.pathMark ++
    t.displayPath ctx.frame.file]

theorem announce_eq (t : Tracer) (w : Surroundings) (ctx : Context) :
    t.announce w ctx =
      if (t.descend ctx).lastPath = some ((t.descend ctx).displayPath ctx.frame.file) then
        (t.descend ctx, w)
      else
        let r := (t.descend ctx).write w
          [indentation ((t.descend ctx).session.depth ctx.frame.thread.id) ++ CallNode.pathMark ++
            (t.descend ctx).displayPath ctx.frame.file]
        ({ r.1 with lastPath := some ((t.descend ctx).displayPath ctx.frame.file) }, r.2) :=
  rfl

theorem announce_emits (t : Tracer) (w : Surroundings) (ctx : Context) :
    Emits (t.descend ctx) w ((t.descend ctx).pathLines ctx)
      (t.announce w ctx).1 (t.announce w ctx).2 := by
  rw [announce_eq]
  unfold pathLines
  split
  · exact Emits.of_alike (Alike.refl _) rfl w
  · have h := emits_write (t.descend ctx) w
      [indentation ((t.descend ctx).session.depth ctx.frame.thread.id) ++ CallNode.pathMark ++
        (t.descend ctx).displayPath ctx.frame.file]
    exact ⟨h.alike.trans ⟨rfl, rfl, rfl, rfl, rfl, rfl, rfl, rfl, rfl, rfl⟩, h.output⟩

theorem threadInfo_emits (t : Tracer) (w : Surroundings) (thread : Thread) :
    Emits t w [] (t.threadInfo thread).2 w := by
  unfold threadInfo
  split
  · exact Emits.of_alike (Alike.refl t) rfl w
  · refine Emits.of_alike ?_ ?_ w
    · dsimp only
      unfold Session.seeThread
      split <;> exact ⟨rfl, rfl, rfl, rfl, rfl, rfl, rfl, rfl, rfl, rfl⟩
    · rfl

theorem shownLine_emits (t : Tracer) (w : Surroundings) (ctx : Context) (source : String) :
    Emits t w [] (t.shownLine w ctx source).2 w := by
  unfold shownLine
  dsimp only
  split
  · refine Emits.of_alike ?_ ?_ w
    · exact ⟨rfl, rfl, rfl, rfl, rfl, rfl, rfl, rfl, rfl, rfl⟩
    · rfl
  · exact Emits.of_alike (Alike.refl t) rfl w

theorem addWatches_total {t : Tracer} (h : t.renderer.IsTotal) (ctx : Context)
    (watches : List Watch) (vars : List (String × String)) :
    ∃ vars', t.addWatches ctx watches vars = .ok vars' := by
  induction watches generalizing vars with
  | nil => exact ⟨vars, rfl⟩
  | cons watch watches ih =>
    obtain ⟨items, hi⟩ := h.renderAll (watch.values ctx.frame.locals ctx.globals)
    simp only [addWatches, Watch.items, hi]
    exact ih _

theorem localReprs_total {t : Tracer} (h : t.renderer.IsTotal) (ctx : Context) :
    ∃ vars, t.localReprs ctx = .ok vars := by
  obtain ⟨vars, hv⟩ := h.renderAll ctx.frame.locals.bindings
  simp only [localReprs, hv]
  exact addWatches_total h ctx t.watches vars

theorem resultText_total {t : Tracer} (h : t.renderer.IsTotal) (ctx : Context) :
    ∃ result, t.resultText ctx = .ok result := by
  unfold resultText
  cases ctx.returned? with
  | none => exact ⟨none, rfl⟩
  | some v =>
    obtain ⟨text, ht⟩ := h v
    refine ⟨some text, ?_⟩
    simp only [ht, Except.map]

end Tracer

/-- What is told about a shown event: the label of its thread, the variables that differ, the source
line with its number, and the result. -/
structure Showing where
  thread : String
  diff : VarDiff
  source : String × Nat
  result : Option String

namespace Showing

def starting (x : Showing) : Option String :=
  if x.diff.added.isEmpty then none else some (summarize x.diff.added)

def lines (x : Showing) (t : Tracer) (ctx : Context) (expanded : Bool) : List String :=
  let indent := Tracer.indentation (t.session.depth ctx.frame.thread.id)
  t.pathLines ctx ++ Tracer.variableLines indent ctx.event.isCall expanded x.diff ++
    Tracer.eventLines indent x.thread ctx expanded x.source

end Showing

namespace Tracer

theorem Alike.depth {t t' : Tracer} (h : Alike t t') (thread : Nat) :
    t'.session.depth thread = t.session.depth thread := by
  unfold Session.depth
  rw [h.depths]

theorem Alike.displayPath {t t' : Tracer} (h : Alike t t') (file : Path) :
    t'.displayPath file = t.displayPath file := by
  unfold Tracer.displayPath
  rw [h.config]

theorem Alike.resultText {t t' : Tracer} (h : Alike t t') (ctx : Context) :
    t'.resultText ctx = t.resultText ctx := by
  unfold Tracer.resultText
  rw [h.renderer]

def ended (t : Tracer) (ctx : Context) : Tracer :=
  if ctx.event.isTerminal then
    t.onSession fun s => (t.release s ctx.frame.id).adjustDepth ctx.frame.thread.id (-1)
  else t

theorem conclude_eq (t : Tracer) (w : Surroundings) (ctx : Context) (indent : String)
    (result : Option String) :
    t.conclude w ctx indent result = (t.ended ctx).write w (t.resultLines ctx indent result) := by
  unfold conclude ended
  cases h : ctx.event with
  | call | line => simp [Event.isTerminal, resultLines, h, write]
  | ret v | exception e | discard => simp [Event.isTerminal, resultLines, h, onSession]

/-- What `present` does once the texts of the variables are known. -/
theorem present_eq {t : Tracer} (h : t.renderer.IsTotal) (w : Surroundings) (ctx : Context)
    (expanded : Bool) (source thread : String) (vars : List (String × String)) :
    ∃ (x : Showing) (u : Tracer) (w' : Surroundings),
      let depth := t.session.depth ctx.frame.thread.id
      let indent := indentation depth
      t.resultText ctx = .ok x.result ∧ x.thread = thread ∧
      Emits t w (variableLines indent ctx.event.isCall expanded x.diff ++
        eventLines indent thread ctx expanded x.source) u w' ∧
      t.present w ctx expanded source thread vars =
        let n := u.noteGraph w' ctx depth x.source.1 (t.displayPath ctx.frame.file) x.starting
          x.result
        let c := n.1.conclude n.2 ctx indent x.result
        (c.1, c.2, none) := by
  obtain ⟨result, hres⟩ := resultText_total h ctx
  cases hd : t.session.diff ctx.frame.id vars with
  | mk d session =>
  have h₁ : Emits t w [] { t with session } w := by
    rw [show session = (t.session.diff ctx.frame.id vars).2 by rw [hd]]
    refine Emits.of_alike ?_ ?_ w
    · exact ⟨rfl, rfl, rfl, rfl, rfl, rfl, rfl, rfl, rfl, rfl⟩
    · rfl
  have h₂ := h₁.trans (emits_write { t with session } w
    (variableLines (indentation (t.session.depth ctx.frame.thread.id)) ctx.event.isCall expanded d))
  cases hw : Tracer.write { t with session } w (variableLines
    (indentation (t.session.depth ctx.frame.thread.id)) ctx.event.isCall expanded d) with
  | mk t₂ w₂ =>
  rw [hw] at h₂
  have h₃ := h₂.trans (shownLine_emits t₂ w₂ ctx source)
  cases hs : t₂.shownLine w₂ ctx source with
  | mk shown t₃ =>
  rw [hs] at h₃
  have h₄ := h₃.trans (emits_write t₃ w₂
    (eventLines (indentation (t.session.depth ctx.frame.thread.id)) thread ctx expanded shown))
  cases he : t₃.write w₂
    (eventLines (indentation (t.session.depth ctx.frame.thread.id)) thread ctx expanded shown) with
  | mk t₄ w₄ =>
  rw [he] at h₄
  refine ⟨⟨thread, d, shown, result⟩, t₄, w₄, hres, rfl, by simpa using h₄, ?_⟩
  have hr : t₄.resultText ctx = .ok result := (h₄.alike.resultText ctx).trans hres
  have hp : t₄.displayPath ctx.frame.file = t.displayPath ctx.frame.file := h₄.alike.displayPath _
  simp only [present, hd, hw, hs, he, hr, hp, Showing.starting]

/-- Showing an event succeeds: lines go out, the graph takes note, and the event is concluded. -/
theorem render_eq {t : Tracer} (h : t.renderer.IsTotal) (w : Surroundings) (ctx : Context)
    (expanded : Bool) :
    ∃ (x : Showing) (u : Tracer) (w' : Surroundings),
      let depth := (t.descend ctx).session.depth ctx.frame.thread.id
      t.resultText ctx = .ok x.result ∧
      Emits (t.descend ctx) w (x.lines (t.descend ctx) ctx expanded) u w' ∧
      t.render w ctx expanded =
        let n := u.noteGraph w' ctx depth x.source.1 (t.displayPath ctx.frame.file) x.starting
          x.result
        let c := n.1.conclude n.2 ctx (indentation depth) x.result
        (c.1, c.2, none) := by
  have hd : (t.descend ctx).renderer = t.renderer := by
    unfold descend
    split <;> rfl
  have hc : (t.descend ctx).config = t.config := by
    unfold descend
    split <;> rfl
  have h₁ := announce_emits t w ctx
  cases ha : t.announce w ctx with
  | mk t₁ w₁ =>
  rw [ha] at h₁
  cases hs : t₁.sources.line w₁ ctx.frame.file ctx.frame.line with
  | mk source sources =>
  have h₂ : Emits t₁ w₁ [] { t₁ with sources } w₁ := by
    refine Emits.of_alike ?_ ?_ w₁
    · exact ⟨rfl, rfl, rfl, rfl, rfl, rfl, rfl, rfl, rfl, rfl⟩
    · rfl
  have h₃ := (h₁.trans h₂).trans (threadInfo_emits { t₁ with sources } w₁ ctx.frame.thread)
  cases hi : Tracer.threadInfo { t₁ with sources } ctx.frame.thread with
  | mk thread t₃ =>
  rw [hi] at h₃
  have hr : t₃.renderer = t.renderer := h₃.alike.renderer.trans hd
  have ht : t₃.renderer.IsTotal := hr ▸ h
  obtain ⟨vars, hv⟩ := localReprs_total ht ctx
  obtain ⟨x, u, w', hres, hx, he, hp⟩ := present_eq ht w₁ ctx expanded source thread vars
  refine ⟨x, u, w', ?_, ?_, ?_⟩
  · rw [← hres, resultText, resultText, hr]
  · rw [h₃.alike.depth, ← hx] at he
    simpa [Showing.lines, List.append_assoc] using h₃.trans he
  · have hpath : t₃.displayPath ctx.frame.file = t.displayPath ctx.frame.file := by
      unfold displayPath
      rw [h₃.alike.config, hc]
    rw [h₃.alike.depth, hpath] at hp
    simp only [render, ha, hs, hi, hv, hp]

end Tracer
end SelectiveTrace
