import SelectiveTrace.Proofs.Tracer.Memory

/-! How far showing an event comes where a renderer may fail. Whatever happens on the way, the depth
of a call is counted first, then the variables are noted, and the end of a call comes last. -/
namespace SelectiveTrace

/-! Writing to files moves no directory. -/

theorem Disk.current_update {d d' : Disk} {path : Path} {change : ByteArray → ByteArray}
    (h : d.update path change = .ok d') : d'.current = d.current := by
  unfold update at h
  cases hl : d.locate path with
  | error e =>
    rw [hl] at h
    cases h
  | ok names =>
    rw [hl] at h
    simp only [bind, Except.bind, pure, Except.pure, throw, throwThe, MonadExceptOf.throw] at h
    split at h
    · cases h
    · cases h
      rfl
    · split at h
      · split at h
        · cases h
        · split at h
          · cases h
          · cases h
            rfl
      · cases h
      · cases h

namespace Surroundings

theorem current_write {w w' : Surroundings} {path : Path} {text : String}
    (h : w.write path text = .ok w') : w'.disk.current = w.disk.current := by
  unfold write at h
  cases hd : w.disk.write path text.toUTF8 with
  | error e =>
    rw [hd] at h
    cases h
  | ok d =>
    rw [hd] at h
    cases h
    exact Disk.current_update hd

theorem current_append {w w' : Surroundings} {path : Path} {text : String}
    (h : w.append path text = .ok w') : w'.disk.current = w.disk.current := by
  unfold append at h
  cases hd : w.disk.append path text.toUTF8 with
  | error e =>
    rw [hd] at h
    cases h
  | ok d =>
    rw [hd] at h
    cases h
    exact Disk.current_update hd

end Surroundings

namespace Sink

theorem current_writeFile (w : Surroundings) (path : Path) (overwrite : Bool) (text : String) :
    (writeFile w path overwrite text).disk.current = w.disk.current := by
  unfold writeFile
  cases overwrite with
  | true =>
    cases h : w.write path text with
    | ok w' => simpa [h] using Surroundings.current_write h
    | error e => simp
  | false =>
    cases h : w.append path text with
    | ok w' => simpa [h] using Surroundings.current_append h
    | error e => simp

theorem current_writeLine (s : Sink) (line : String) (w : Surroundings) :
    (s.writeLine line w).2.disk.current = w.disk.current := by
  cases s with
  | standardError =>
    cases h : w.standardError with
    | none => simp [writeLine, h]
    | some path => simp [writeLine, h, current_writeFile]
  | file path overwrite => exact current_writeFile w path overwrite _
  | stream written broken => rfl
  | lines written => rfl

theorem current_writeLines (s : Sink) (w : Surroundings) (lines : List String) :
    (s.writeLines w lines).2.disk.current = w.disk.current := by
  induction lines generalizing s w with
  | nil => rfl
  | cons line lines ih => exact (ih _ _).trans (current_writeLine s line w)

end Sink

namespace CallGraph

theorem isOpen_of_close {g g' : CallGraph} {id : FrameId} {lines : List String}
    (h : g.close id lines = .ok g') (j : FrameId) :
    g'.isOpen j = (!decide (j = id) && g.isOpen j) := by
  unfold close at h
  split at h
  · cases h
    exact Table.contains_erase g.pending id j
  · cases h

theorem isOpen_of_unclosed {g : CallGraph} {id : FrameId} {lines : List String} {e : Error}
    (h : g.close id lines = .error e) : g.isOpen id = false ∧ e = .unmatchedReturn id := by
  unfold close at h
  split at h
  · cases h
  next hp =>
    cases h
    exact ⟨by simp [isOpen, Table.contains, hp], rfl⟩

theorem current_flush {g : CallGraph} {w w' : Surroundings} (h : g.flush w = .ok w') :
    w'.disk.current = w.disk.current := by
  unfold flush at h
  split at h
  · cases h
    rfl
  next path _ =>
    cases hw : w.write path g.text with
    | error e =>
      rw [hw] at h
      cases h
    | ok w₁ =>
      rw [hw] at h
      cases h
      exact Surroundings.current_write hw

end CallGraph

def Error.mishap? : Error → Option (String × String)
  | .handling event text => some (event, text)
  | _ => none

namespace Tracer

def mishaps (t : Tracer) : List (String × String) :=
  t.faults.filterMap Error.mishap?

def opens (t : Tracer) (id : FrameId) : Bool :=
  t.graph.any fun g => g.isOpen id

def mishap? (t : Tracer) (ctx : Context) : Option String :=
  match t.localReprs ctx with
  | .error e => some e
  | .ok _ =>
    match t.resultText ctx with
    | .error e => some e
    | .ok _ => none

theorem mishap?_of_isTotal {t : Tracer} (h : t.renderer.IsTotal) (ctx : Context) :
    t.mishap? ctx = none := by
  obtain ⟨vars, hv⟩ := localReprs_total h ctx
  obtain ⟨result, hr⟩ := resultText_total h ctx
  simp only [mishap?, hv, hr]

theorem localReprs_congr {t t' : Tracer} (renderer : t'.renderer = t.renderer)
    (watches : t'.watches = t.watches) (ctx : Context) :
    t'.localReprs ctx = t.localReprs ctx := by
  have hadd : ∀ (ws : List Watch) (vars : List (String × String)),
      t'.addWatches ctx ws vars = t.addWatches ctx ws vars := by
    intro ws
    induction ws with
    | nil => exact fun _ => rfl
    | cons watch ws ih =>
      intro vars
      simp only [addWatches, renderer, ih]
  unfold localReprs
  rw [renderer, watches]
  simp only [hadd]

theorem mishap?_congr {t t' : Tracer} (renderer : t'.renderer = t.renderer)
    (watches : t'.watches = t.watches) (ctx : Context) : t'.mishap? ctx = t.mishap? ctx := by
  have hr : t'.resultText ctx = t.resultText ctx := by
    unfold resultText
    rw [renderer]
  unfold mishap?
  rw [localReprs_congr renderer watches, hr]

/-- Lines may go out, the thread may be seen, and the call of one frame may be noted in the graph.
Everything that is kept for frames, and all that later decisions look at, stays as it was. -/
structure Steady (t : Tracer) (w : Surroundings) (t' : Tracer) (w' : Surroundings) (id : FrameId) :
    Prop where
  config : t'.config = t.config
  observed : t'.observed = t.observed
  renderer : t'.renderer = t.renderer
  watches : t'.watches = t.watches
  session : t'.session = { t.session with threads := t'.session.threads }
  directory : w'.disk.current = w.disk.current
  mishaps : t'.mishaps = t.mishaps
  others : ∀ j, j ≠ id → t'.opens j = true → t.opens j = true

theorem Steady.refl (t : Tracer) (w : Surroundings) (id : FrameId) : Steady t w t w id :=
  ⟨rfl, rfl, rfl, rfl, rfl, rfl, rfl, fun _ _ h => h⟩

theorem Steady.trans {t t' t'' : Tracer} {w w' w'' : Surroundings} {id : FrameId}
    (h : Steady t w t' w' id) (h' : Steady t' w' t'' w'' id) : Steady t w t'' w'' id := by
  refine ⟨h'.config.trans h.config, h'.observed.trans h.observed, h'.renderer.trans h.renderer,
    h'.watches.trans h.watches, ?_, h'.directory.trans h.directory, h'.mishaps.trans h.mishaps,
    fun j hj ho => h.others j hj (h'.others j hj ho)⟩
  rw [h'.session, h.session]

section
variable (t : Tracer) (w : Surroundings) (id : FrameId)

theorem steady_write (lines : List String) :
    Steady t w (t.write w lines).1 (t.write w lines).2 id := by
  rw [write_eq]
  refine ⟨rfl, rfl, rfl, rfl, rfl, ?_, rfl, fun _ _ h => h⟩
  unfold feed
  split
  · rfl
  · exact Sink.current_writeLines _ w _

theorem steady_announce (ctx : Context) :
    Steady (t.descend ctx) w (t.announce w ctx).1 (t.announce w ctx).2 id := by
  rw [announce_eq]
  split
  · exact Steady.refl _ _ _
  · exact (steady_write (t.descend ctx) w id _).trans
      ⟨rfl, rfl, rfl, rfl, rfl, rfl, rfl, fun _ _ h => h⟩

theorem steady_threadInfo (thread : Thread) : Steady t w (t.threadInfo thread).2 w id := by
  unfold threadInfo
  split
  · exact Steady.refl _ _ _
  · dsimp only
    unfold Session.seeThread
    split <;> exact ⟨rfl, rfl, rfl, rfl, rfl, rfl, rfl, fun _ _ h => h⟩

theorem steady_shownLine (ctx : Context) (source : String) :
    Steady t w (t.shownLine w ctx source).2 w id := by
  unfold shownLine
  dsimp only
  split
  · exact ⟨rfl, rfl, rfl, rfl, rfl, rfl, rfl, fun _ _ h => h⟩
  · exact Steady.refl _ _ _

end

theorem mishap?_of_flush {g : CallGraph} {w : Surroundings} {e : Error}
    (h : g.flush w = .error e) : e.mishap? = none := by
  unfold CallGraph.flush at h
  split at h
  · cases h
  · split at h
    · cases h
    · cases h
      rfl

/-- A graph that noted an event of a frame. Closing the node or writing the graph may fail, which
breaks nothing off. -/
structure Notes (g : CallGraph) (w : Surroundings) (ctx : Context) (g' : CallGraph)
    (w' : Surroundings) (fault? : Option Error) : Prop where
  directory : w'.disk.current = w.disk.current
  harmless : ∀ e, fault? = some e → e.mishap? = none
  others : ∀ j, j ≠ ctx.frame.id → g'.isOpen j = true → g.isOpen j = true
  shut : ctx.event.isTerminal = true → ctx.event.isDiscard = false →
    g'.isOpen ctx.frame.id = false

/-- An end shuts the node of its frame, and then the graph goes to its file. -/
theorem notes_of_close (g : CallGraph) (w : Surroundings) (ctx : Context) (lines : List String) :
    let r := match g.close ctx.frame.id lines with
      | .error e => (g, w, some e)
      | .ok g =>
        match g.flush w with
        | .ok w => (g, w, none)
        | .error e => (g, w, some e)
    Notes g w ctx r.1 r.2.1 r.2.2 := by
  cases hc : g.close ctx.frame.id lines with
  | error e =>
    obtain ⟨hopen, rfl⟩ := CallGraph.isOpen_of_unclosed hc
    refine ⟨rfl, ?_, fun _ _ h => h, fun _ _ => hopen⟩
    rintro _ ⟨⟩
    rfl
  | ok g' =>
    have hothers : ∀ j, j ≠ ctx.frame.id → g'.isOpen j = true → g.isOpen j = true := by
      intro j hj h
      rw [CallGraph.isOpen_of_close hc, Bool.and_eq_true] at h
      exact h.2
    have hshut : g'.isOpen ctx.frame.id = false := by
      rw [CallGraph.isOpen_of_close hc]
      simp
    dsimp only
    cases hf : g'.flush w with
    | ok w' => exact ⟨CallGraph.current_flush hf, nofun, hothers, fun _ _ => hshut⟩
    | error e =>
      refine ⟨rfl, ?_, hothers, fun _ _ => hshut⟩
      rintro _ ⟨⟩
      exact mishap?_of_flush hf

theorem notes_updateGraph (g : CallGraph) (w : Surroundings) (ctx : Context) (depth : Int)
    (source path : String) (starting result : Option String) :
    let r := updateGraph g w ctx depth source path starting result
    Notes g w ctx r.1 r.2.1 r.2.2 := by
  unfold updateGraph
  cases he : ctx.event with
  | call =>
    refine ⟨rfl, by simp, ?_, ?_⟩
    · intro j hj h
      simpa [CallGraph.openCall, CallGraph.isOpen, Table.contains_insert, hj] using h
    · simp [he, Event.isTerminal]
  | line =>
    refine ⟨rfl, by simp, fun _ _ h => h, ?_⟩
    simp [he, Event.isTerminal]
  | discard =>
    refine ⟨rfl, by simp, fun _ _ h => h, ?_⟩
    simp [he, Event.isDiscard]
  | ret v | exception e =>
    cases result with
    | some text => exact notes_of_close g w ctx _
    | none => exact notes_of_close g w ctx _

theorem steady_noteGraph (t : Tracer) (w : Surroundings) (ctx : Context) (depth : Int)
    (source path : String) (starting result : Option String) :
    let r := t.noteGraph w ctx depth source path starting result
    Steady t w r.1 r.2 ctx.frame.id ∧ (ctx.event.isTerminal = true → ctx.event.isDiscard = false →
      r.1.opens ctx.frame.id = false) := by
  unfold noteGraph
  cases hg : t.graph with
  | none => exact ⟨Steady.refl _ _ _, fun _ _ => by simp [opens, hg]⟩
  | some g =>
    have h := notes_updateGraph g w ctx depth source path starting result
    dsimp only at h ⊢
    generalize updateGraph g w ctx depth source path starting result = r at h ⊢
    obtain ⟨g', w', fault?⟩ := r
    have hothers : ∀ j, j ≠ ctx.frame.id → g'.isOpen j = true → t.opens j = true := by
      intro j hj ho
      simpa [opens, hg] using h.others j hj ho
    cases fault? with
    | none =>
      refine ⟨⟨rfl, rfl, rfl, rfl, rfl, h.directory, rfl, ?_⟩, ?_⟩
      · exact fun j hj ho => hothers j hj (by simpa [opens] using ho)
      · exact fun hterm hrun => by simpa [opens] using h.shut hterm hrun
    | some e =>
      refine ⟨⟨rfl, rfl, rfl, rfl, rfl, h.directory, ?_, ?_⟩, ?_⟩
      · simp [mishaps, fault, h.harmless e rfl]
      · exact fun j hj ho => hothers j hj (by simpa [opens, fault] using ho)
      · exact fun hterm hrun => by simpa [opens, fault] using h.shut hterm hrun

theorem steady_conclude (t : Tracer) (w : Surroundings) (ctx : Context) (indent : String)
    (result : Option String) :
    let r := t.conclude w ctx indent result
    Steady (t.ended ctx) w r.1 r.2 ctx.frame.id ∧ r.1.opens = t.opens := by
  have hended : (t.ended ctx).graph = t.graph := by
    unfold ended
    split <;> rfl
  rw [conclude_eq]
  refine ⟨steady_write _ _ _ _, ?_⟩
  rw [write_eq]
  unfold opens
  rw [hended]

def noting (t : Tracer) (ctx : Context) (vars : List (String × String)) : Tracer :=
  t.onSession fun s => (s.diff ctx.frame.id vars).2

section
variable {t u : Tracer} {w w' : Surroundings} {id : FrameId}

theorem Steady.noting (h : Steady t w u w' id) (ctx : Context) (vars : List (String × String)) :
    Steady (t.noting ctx vars) w (u.noting ctx vars) w' id := by
  refine ⟨h.config, h.observed, h.renderer, h.watches, ?_, h.directory, h.mishaps, h.others⟩
  unfold Tracer.noting onSession Session.diff
  rw [h.session]

theorem Steady.ended (h : Steady t w u w' id) (ctx : Context) :
    Steady (t.ended ctx) w (u.ended ctx) w' id := by
  unfold Tracer.ended
  split
  · refine ⟨h.config, h.observed, h.renderer, h.watches, ?_, h.directory, h.mishaps, h.others⟩
    unfold onSession release
    rw [h.session, h.observed]
    dsimp only
    split
    · rfl
    · split <;> rfl
  · exact h

end

inductive Progress (t : Tracer) (w : Surroundings) (ctx : Context) (t' : Tracer)
    (w' : Surroundings) : Option String → Prop
  | opened {text : String} (steady : Steady (t.descend ctx) w t' w' ctx.frame.id) :
    Progress t w ctx t' w' (some text)
  | noted {text : String} (vars : List (String × String))
    (steady : Steady ((t.descend ctx).noting ctx vars) w t' w' ctx.frame.id) :
    Progress t w ctx t' w' (some text)
  | whole (vars : List (String × String))
    (steady : Steady (((t.descend ctx).noting ctx vars).ended ctx) w t' w' ctx.frame.id)
    (shut : ctx.event.isTerminal = true → ctx.event.isDiscard = false →
      t'.opens ctx.frame.id = false) :
    Progress t w ctx t' w' none

theorem progress_present {t u : Tracer} {w w₁ : Surroundings} {ctx : Context}
    (steady : Steady (t.descend ctx) w u w₁ ctx.frame.id) (expanded : Bool)
    (source thread : String) (vars : List (String × String)) :
    ∃ t' w' e, u.present w₁ ctx expanded source thread vars = (t', w', e) ∧
      Progress t w ctx t' w' e ∧
      e = match u.resultText ctx with
        | .error e => some e
        | .ok _ => none := by
  have h₁ := steady.noting ctx vars
  unfold noting onSession at h₁
  unfold present
  dsimp only at h₁ ⊢
  generalize hi : indentation (u.session.depth ctx.frame.thread.id) = indent
  generalize hd : u.session.depth ctx.frame.thread.id = depth
  have hres : ∀ v : Tracer, v.renderer = u.renderer → v.resultText ctx = u.resultText ctx := by
    intro v hv
    unfold resultText
    rw [hv]
  generalize u.session.diff ctx.frame.id vars = r at h₁ ⊢
  obtain ⟨d, session⟩ := r
  dsimp only at h₁ ⊢
  have h₂ := steady_write { u with session } w₁ ctx.frame.id
    (variableLines indent ctx.event.isCall expanded d)
  generalize Tracer.write { u with session } w₁
    (variableLines indent ctx.event.isCall expanded d) = r at h₂ ⊢
  obtain ⟨u₂, w₂⟩ := r
  dsimp only at h₂ ⊢
  have h₃ := steady_shownLine u₂ w₂ ctx.frame.id ctx source
  generalize u₂.shownLine w₂ ctx source = r at h₃ ⊢
  obtain ⟨shown, u₃⟩ := r
  dsimp only at h₃ ⊢
  have h₄ := steady_write u₃ w₂ ctx.frame.id (eventLines indent thread ctx expanded shown)
  generalize u₃.write w₂ (eventLines indent thread ctx expanded shown) = r at h₄ ⊢
  obtain ⟨u₄, w₄⟩ := r
  dsimp only at h₄ ⊢
  have hlines := (h₂.trans h₃).trans h₄
  rw [hres u₄ hlines.renderer]
  have hnoted := h₁.trans hlines
  cases u.resultText ctx with
  | error e => exact ⟨u₄, w₄, some e, rfl, .noted vars hnoted, rfl⟩
  | ok result =>
    obtain ⟨h₅, hshut⟩ := steady_noteGraph u₄ w₄ ctx depth shown.1
      (u₄.displayPath ctx.frame.file)
      (if d.added.isEmpty then none else some (summarize d.added)) result
    dsimp only
    generalize u₄.noteGraph w₄ ctx depth shown.1 (u₄.displayPath ctx.frame.file)
      (if d.added.isEmpty then none else some (summarize d.added)) result = r at h₅ hshut ⊢
    obtain ⟨u₅, w₅⟩ := r
    obtain ⟨h₆, hopens⟩ := steady_conclude u₅ w₅ ctx indent result
    refine ⟨_, _, none, rfl, .whole vars (((hnoted.trans h₅).ended ctx).trans h₆) ?_, rfl⟩
    rw [hopens]
    exact hshut

/-- Showing an event comes as far as its renderers let it. -/
theorem progress_render (t : Tracer) (w : Surroundings) (ctx : Context) (expanded : Bool) :
    ∃ t' w', t.render w ctx expanded = (t', w', t.mishap? ctx) ∧
      Progress t w ctx t' w' (t.mishap? ctx) := by
  have hdesc : (t.descend ctx).renderer = t.renderer ∧ (t.descend ctx).watches = t.watches := by
    unfold descend
    split <;> exact ⟨rfl, rfl⟩
  have h₁ := steady_announce t w ctx.frame.id ctx
  unfold render
  generalize t.announce w ctx = r at h₁ ⊢
  obtain ⟨t₁, w₁⟩ := r
  dsimp only at h₁ ⊢
  generalize t₁.sources.line w₁ ctx.frame.file ctx.frame.line = r
  obtain ⟨source, sources⟩ := r
  have h₂ : Steady t₁ w₁ { t₁ with sources } w₁ ctx.frame.id :=
    ⟨rfl, rfl, rfl, rfl, rfl, rfl, rfl, fun _ _ h => h⟩
  have h₃ := steady_threadInfo { t₁ with sources } w₁ ctx.frame.id ctx.frame.thread
  dsimp only at h₃ ⊢
  generalize Tracer.threadInfo { t₁ with sources } ctx.frame.thread = r at h₃ ⊢
  obtain ⟨thread, t₃⟩ := r
  have h := (h₁.trans h₂).trans h₃
  have hrenderer : t₃.renderer = t.renderer := h.renderer.trans hdesc.1
  have hvars := localReprs_congr hrenderer (h.watches.trans hdesc.2) ctx
  unfold mishap?
  rw [← hvars]
  cases hv : t₃.localReprs ctx with
  | error e => exact ⟨t₃, w₁, rfl, .opened h⟩
  | ok vars =>
    obtain ⟨t', w', e, hp, hprogress, he⟩ := progress_present h expanded source thread vars
    have hres : t₃.resultText ctx = t.resultText ctx := by
      unfold resultText
      rw [hrenderer]
    rw [hres] at he
    subst he
    exact ⟨t', w', hp, hprogress⟩

end Tracer
end SelectiveTrace
