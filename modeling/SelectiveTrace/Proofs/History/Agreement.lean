import SelectiveTrace.History.Probe
import SelectiveTrace.Proofs.History.Forgotten

/-! A probe and a variable tracer with the same scope. They answer every event alike, so they get to
hear the same events, and they tell the same: a name that is bound in the scope is local for the
probe and recorded by the tracer. Only a generator that is dropped is looked at by the probe alone. -/
namespace SelectiveTrace

namespace Probe

def isOn (p : Probe) (ctx : Context) : Bool :=
  (p.start ctx).started && ctx.frame.file.startsWith p.file

def look (p : Probe) (ctx : Context) : Probe :=
  { p with entered := true, isGlobal := p.isGlobal && !ctx.frame.locals.contains p.name }

theorem onEvent_of_off {p : Probe} {ctx : Context} (h : ¬ p.isOn ctx = true) :
    p.onEvent ctx = (.skipFrame, p.start ctx) := by
  unfold onEvent
  dsimp only
  by_cases hs : (p.start ctx).started = true
  · have hf : (!ctx.frame.file.startsWith p.file) = true := by simpa [isOn, hs] using h
    rw [if_pos hf, ite_self]
  · rw [if_pos (by simpa using hs)]

theorem onEvent_of_on {p : Probe} {ctx : Context} (h : p.isOn ctx = true) :
    p.onEvent ctx =
      (.proceed, if p.counts ctx then (p.start ctx).look ctx else p.start ctx) := by
  obtain ⟨hs, hf⟩ := (Bool.and_eq_true _ _).mp h
  have hs' : ¬ (!(p.start ctx).started) = true := by simp [hs]
  have hf' : ¬ (!ctx.frame.file.startsWith p.file) = true := by simp [hf]
  unfold onEvent
  dsimp only
  rw [if_neg hs', if_neg hf']
  by_cases hc : p.counts ctx = true
  · rw [if_neg (by simp [hc]), if_pos hc]
    rfl
  · rw [if_pos (by simp [hc]), if_neg hc]

end Probe

/-- A probe and a tracer for one variable that have heard the same events, among them perhaps the end
of a generator that was dropped. -/
structure Agree (p : Probe) (t : VariableTracer) (dropped : Prop) : Prop where
  total : t.resolver.IsTotal
  entry : t.entry = p.entry
  watched : t.watched = p.file
  name : t.name = p.name
  scope : t.scope = some p.scope
  started : t.started = p.started
  entered : t.entered = p.entered
  /-- A value that was seen has been recorded. -/
  recorded : t.lastValue.isSome = true → t.history ≠ []
  verdict : dropped ∨ (p.isGlobal = false ↔ t.history ≠ [])

namespace Agree
variable {p : Probe} {t : VariableTracer} {dropped dropped' : Prop} {ctx : Context}

theorem mono (h : Agree p t dropped) (more : dropped → dropped') : Agree p t dropped' :=
  ⟨h.total, h.entry, h.watched, h.name, h.scope, h.started, h.entered, h.recorded,
    h.verdict.imp_left more⟩

theorem isInScope_eq (h : Agree p t dropped) (ctx : Context) : t.isInScope ctx = p.counts ctx := by
  unfold VariableTracer.isInScope Probe.counts
  rw [h.scope, h.entered]
  rfl

theorem current?_eq (h : Agree p t dropped) (ctx : Context) :
    t.current? ctx = (ctx.frame.locals.get? p.name).map Value.describe := by
  have inMethod : t.scope.isSome := by
    rw [h.scope]
    rfl
  rw [VariableTracer.current?_of_scope inMethod, h.name]

/-- Both have started, or neither has. -/
theorem start (h : Agree p t dropped) (ctx : Context) : Agree (p.start ctx) (t.start ctx) dropped := by
  refine ⟨h.total, h.entry, h.watched, h.name, h.scope, ?_, h.entered, h.recorded, h.verdict⟩
  unfold VariableTracer.start Probe.start
  rw [h.started, h.entry]

/-- An event that neither looks at, or that only the probe looks at since it drops the frame. -/
theorem uncounted (h : Agree p t dropped) (ctx : Context)
    (drops : p.counts ctx = true → ctx.event.isDiscard = true) :
    Agree (if p.counts ctx then p.look ctx else p) t (dropped ∨ ctx.event.isDiscard = true) := by
  split
  next hc =>
    have hd := drops hc
    have hentered : p.entered = true := by
      cases he : ctx.event <;> simp [he, Event.isDiscard, Probe.counts, Event.isCall] at hd hc
      exact hc.2
    exact ⟨h.total, h.entry, h.watched, h.name, h.scope, h.started, h.entered.trans hentered,
      h.recorded, Or.inl (Or.inr hd)⟩
  · exact h.mono Or.inl

/-- An event that both look at. -/
theorem counted {t' : VariableTracer} {cs : List Change} (h : Agree p t dropped)
    (observes : t.Observes t' ctx cs) (started : t'.started = p.started)
    (entered : t'.entered = true) :
    Agree (p.look ctx) t' dropped := by
  have hf := observes.follows
  have hwatched : t'.watched = t.watched := by
    unfold VariableTracer.watched
    rw [hf.file, hf.entry]
  have hnow : ctx.frame.locals.contains p.name = (t.current? ctx).isSome := by
    rw [h.current?_eq, Option.isSome_map]
    rfl
  have hhist := observes.history
  refine ⟨hf.resolver ▸ h.total, hf.entry.trans h.entry, hwatched.trans h.watched,
    hf.name.trans h.name, hf.scope.trans h.scope, started, entered, ?_, ?_⟩
  · rw [observes.seen, hhist]
    cases observes.recorded with
    | kept same =>
      intro hs
      have hlast := same.resolve_left (Option.isSome_iff_ne_none.mp hs)
      rw [List.append_nil]
      exact h.recorded (hlast ▸ hs)
    | changed c value differs => simp
  · rw [Probe.look, hnow, hhist]
    cases observes.recorded with
    | kept same =>
      rw [List.append_nil]
      rcases same with hnone | hlast
      · rw [hnone]
        simpa using h.verdict
      · cases hc : t.current? ctx with
        | none => simpa using h.verdict
        | some value =>
          have hne := h.recorded (by rw [hlast, hc]; rfl)
          simp [hne]
    | changed c value differs => simp [value]

/-- The tracer sorts events as the probe does, but for the generators that are dropped. -/
theorem attention_eq (h : Agree p t dropped) (ctx : Context) :
    t.attention ctx =
      if p.isOn ctx then
        if ctx.event.isDiscard then .forget else if p.counts ctx then .inspect else .pass
      else .skip := by
  unfold VariableTracer.attention Probe.isOn Probe.start
  rw [h.isInScope_eq, h.started, h.entry, h.watched]
  cases p.started <;> cases ctx.frame.file.same p.entry <;>
    cases ctx.frame.file.startsWith p.file <;> simp

/-- One event. -/
theorem onEvent (h : Agree p t dropped) (ctx : Context) (w : Surroundings) :
    (t.onEvent ctx w).1 = (p.onEvent ctx).1 ∧ (∀ text, (p.onEvent ctx).1 ≠ .panicked text) ∧
      Agree (p.onEvent ctx).2 (t.onEvent ctx w).2.1 (dropped ∨ ctx.event.isDiscard = true) := by
  have hstart := h.start ctx
  have ha := h.attention_eq ctx
  split at ha
  next hon =>
    rw [Probe.onEvent_of_on hon]
    split at ha
    next hd =>
      have hforget : Agree (p.start ctx) ((t.start ctx).forget ctx.frame.id) dropped :=
        ⟨hstart.total, hstart.entry, hstart.watched, hstart.name, hstart.scope, hstart.started,
          hstart.entered, hstart.recorded, hstart.verdict⟩
      unfold VariableTracer.onEvent
      rw [ha]
      exact ⟨rfl, by simp, hforget.uncounted ctx fun _ => hd⟩
    next hd =>
      split at ha
      next hc =>
        obtain ⟨t', w', cs, ht, ho⟩ := VariableTracer.observes_onEvent h.total ha w
        have hl := VariableTracer.leaves_onEvent h.total ctx w
        rw [ht] at hl ⊢
        rw [if_pos hc]
        have hentered := hl.entered (Or.inr ha) (by simp [h.scope])
        have ho' : (t.start ctx).Observes t' ctx cs :=
          ⟨⟨ho.follows.entry, ho.follows.file, ho.follows.name, ho.follows.scope,
            ho.follows.loopLimit, ho.follows.resolver⟩, ho.seen, ho.history, ho.recorded⟩
        have hboth := hstart.counted ho' (hl.started.trans hstart.started) hentered
        exact ⟨rfl, by simp, hboth.mono Or.inl⟩
      next hc =>
        rw [if_neg hc]
        unfold VariableTracer.onEvent
        rw [ha]
        exact ⟨rfl, by simp, hstart.mono Or.inl⟩
  next hoff =>
    rw [Probe.onEvent_of_off hoff]
    unfold VariableTracer.onEvent
    rw [ha]
    exact ⟨rfl, by simp, hstart.mono Or.inl⟩

end Agree
end SelectiveTrace
