import SelectiveTrace.History.Tracer
import SelectiveTrace.Proofs.Host.Hearing

/-! The history of a variable by the events that were inspected. The last value is kept for the whole
tracer, so a value is compared with what the event inspected last saw, whatever its frame. -/
namespace SelectiveTrace
open Machine

def Resolver.IsTotal (r : Resolver) : Prop :=
  ∀ query file w, ∃ span w', r.ask query file w = (.ok span, w')

namespace VariableTracer
variable {t t' : VariableTracer} {ctx : Context}

def deliver : Deliver (VariableTracer × Surroundings) := fun _ ctx s => s.1.onEvent ctx s.2

def inspected (s : VariableTracer × Surroundings) : List (HookName × Context) → List Context
  | [] => []
  | e :: es =>
    (if s.1.attention e.2 = .inspect then [e.2] else []) ++ inspected (deliver e.1 e.2 s).2 es

inductive Recorded (last now : Option String) : List Change → Prop
  | kept (same : now = none ∨ last = now) : Recorded last now []
  | changed (c : Change) (value : now = some c.value) (differs : last ≠ now) : Recorded last now [c]

structure Follows (t t' : VariableTracer) : Prop where
  entry : t'.entry = t.entry
  file : t'.file = t.file
  name : t'.name = t.name
  scope : t'.scope = t.scope
  loopLimit : t'.loopLimit = t.loopLimit
  resolver : t'.resolver = t.resolver

theorem Follows.refl (t : VariableTracer) : Follows t t :=
  ⟨rfl, rfl, rfl, rfl, rfl, rfl⟩

theorem Follows.trans {t'' : VariableTracer} (h : Follows t t') (h' : Follows t' t'') :
    Follows t t'' :=
  ⟨h'.entry.trans h.entry, h'.file.trans h.file, h'.name.trans h.name, h'.scope.trans h.scope,
    h'.loopLimit.trans h.loopLimit, h'.resolver.trans h.resolver⟩

theorem Follows.current? (h : Follows t t') (ctx : Context) : t'.current? ctx = t.current? ctx := by
  unfold VariableTracer.current? isGlobal
  rw [h.name, h.scope]

structure Observes (t t' : VariableTracer) (ctx : Context) (cs : List Change) : Prop where
  follows : Follows t t'
  seen : t'.lastValue = t.current? ctx
  history : t'.history = t.history ++ cs
  recorded : Recorded t.lastValue (t.current? ctx) cs

theorem statement_total (h : t.resolver.IsTotal) (file : Path) (line : Nat) (w : Surroundings) :
    ∃ code sources w', t.statement file line w = (.ok code, { t with sources }, w') := by
  obtain ⟨span, w', hr⟩ := h (.statementRange line) file w
  unfold statement
  rw [hr]
  cases span with
  | none => exact ⟨_, t.sources, w', rfl⟩
  | some s =>
    cases hl : t.sources.range w' file s.start s.stop with
    | mk ls sources =>
      dsimp only
      rw [hl]
      cases ls with
      | none => exact ⟨_, sources, w', rfl⟩
      | some ls => exact ⟨_, sources, w', rfl⟩

theorem record_total (h : t.resolver.IsTotal) (ctx : Context) (value : String) (w : Surroundings) :
    ∃ (c : Change) (sources : SourceCache) (w' : Surroundings), c.value = value ∧
      t.record ctx value w = (none, { t with history := t.history ++ [c], sources }, w') := by
  let place := (t.places.get? ctx.frame.id).getD (ctx.frame.file, ctx.frame.line)
  obtain ⟨code, sources, w', hs⟩ := statement_total h place.1 place.2 w
  refine ⟨⟨place.1, code.2, value, code.1, decide (t.loopLimit < t.hits ctx.frame.id place.2)⟩,
    sources, w', rfl, ?_⟩
  unfold record
  dsimp only
  rw [hs]
  rfl

theorem observes_observe (h : t.resolver.IsTotal) (ctx : Context) (w : Surroundings) :
    ∃ t' w' cs, t.observe ctx w = (none, t', w') ∧ t.Observes t' ctx cs := by
  unfold observe
  cases hc : t.current? ctx with
  | none =>
    refine ⟨t.settle ctx.frame none, w, [], rfl, ⟨rfl, rfl, rfl, rfl, rfl, rfl⟩, hc.symm,
      (List.append_nil _).symm, ?_⟩
    rw [hc]
    exact .kept (Or.inl rfl)
  | some value =>
    dsimp only
    by_cases hl : t.lastValue = some value
    · rw [if_pos hl]
      refine ⟨t.settle ctx.frame (some value), w, [], rfl, ⟨rfl, rfl, rfl, rfl, rfl, rfl⟩, hc.symm,
        (List.append_nil _).symm, ?_⟩
      rw [hc]
      exact .kept (Or.inr hl)
    · obtain ⟨c, sources, w', hv, hr⟩ := record_total h ctx value w
      rw [if_neg hl, hr]
      subst hv
      refine ⟨_, w', [c], rfl, ⟨rfl, rfl, rfl, rfl, rfl, rfl⟩, hc.symm, rfl, ?_⟩
      rw [hc]
      exact .changed c rfl hl

theorem observes_inspect (h : t.resolver.IsTotal) (ctx : Context) (w : Surroundings) :
    ∃ t' w' cs, t.inspect ctx w = (none, t', w') ∧ t.Observes t' ctx cs := by
  obtain ⟨u, w', cs, hu, ho⟩ :=
    @observes_observe (t.recordHit ctx.frame.id ctx.frame.line) h ctx w
  unfold inspect
  dsimp only
  rw [hu]
  dsimp only
  have hf : Follows t u := ⟨ho.follows.entry, ho.follows.file, ho.follows.name, ho.follows.scope,
    ho.follows.loopLimit, ho.follows.resolver⟩
  cases ctx.event.isTerminal with
  | false => exact ⟨u, w', cs, rfl, hf, ho.seen, ho.history, ho.recorded⟩
  | true =>
    exact ⟨u.forget ctx.frame.id, w', cs, rfl,
      ⟨hf.entry, hf.file, hf.name, hf.scope, hf.loopLimit, hf.resolver⟩, ho.seen, ho.history,
      ho.recorded⟩

/-- An event that counts. -/
theorem observes_onEvent (h : t.resolver.IsTotal) (counts : t.attention ctx = .inspect)
    (w : Surroundings) :
    ∃ t' w' cs, t.onEvent ctx w = (.proceed, t', w') ∧ t.Observes t' ctx cs := by
  obtain ⟨u, w', cs, hu, ho⟩ := @observes_inspect
    { t.start ctx with entered := (t.start ctx).entered || (t.start ctx).scope.isSome } h ctx w
  unfold onEvent
  rw [counts]
  dsimp only
  rw [hu]
  exact ⟨u, w', cs, rfl, ⟨ho.follows.entry, ho.follows.file, ho.follows.name, ho.follows.scope,
    ho.follows.loopLimit, ho.follows.resolver⟩, ho.seen, ho.history, ho.recorded⟩

/-- Any other event leaves the history and the last value alone. -/
theorem onEvent_of_uncounted (h : t.attention ctx ≠ .inspect) (w : Surroundings) :
    ∃ a t', t.onEvent ctx w = (a, t', w) ∧ (∀ text, a ≠ .panicked text) ∧ t.Follows t' ∧
      t'.lastValue = t.lastValue ∧ t'.history = t.history := by
  unfold onEvent
  cases ha : t.attention ctx with
  | inspect => exact absurd ha h
  | skip =>
    exact ⟨.skipFrame, t.start ctx, rfl, fun _ => by simp, ⟨rfl, rfl, rfl, rfl, rfl, rfl⟩, rfl, rfl⟩
  | pass =>
    exact ⟨.proceed, t.start ctx, rfl, fun _ => by simp, ⟨rfl, rfl, rfl, rfl, rfl, rfl⟩, rfl, rfl⟩
  | forget =>
    exact ⟨.proceed, _, rfl, fun _ => by simp, ⟨rfl, rfl, rfl, rfl, rfl, rfl⟩, rfl, rfl⟩

/-- The last value is what the event inspected last saw. -/
theorem lastValue_informed {s : VariableTracer × Surroundings} (h : s.1.resolver.IsTotal)
    (es : List (HookName × Context)) :
    s.1.Follows (informed deliver s es).1 ∧
      (informed deliver s es).1.lastValue =
        (inspected s es).getLast?.elim s.1.lastValue s.1.current? := by
  induction es generalizing s with
  | nil => exact ⟨Follows.refl _, rfl⟩
  | cons e es ih =>
    have hstep : s.1.Follows (deliver e.1 e.2 s).2.1 ∧
        (deliver e.1 e.2 s).2.1.lastValue =
          if s.1.attention e.2 = .inspect then s.1.current? e.2 else s.1.lastValue := by
      by_cases hc : s.1.attention e.2 = .inspect
      · obtain ⟨t', w', cs, he, ho⟩ := observes_onEvent h hc s.2
        rw [deliver, he, if_pos hc]
        exact ⟨ho.follows, ho.seen⟩
      · obtain ⟨a, t', he, -, hf, hl, -⟩ := onEvent_of_uncounted hc s.2
        rw [deliver, he, if_neg hc]
        exact ⟨hf, hl⟩
    obtain ⟨hf, hl⟩ := hstep
    obtain ⟨hf', hl'⟩ := @ih (deliver e.1 e.2 s).2 (hf.resolver ▸ h)
    refine ⟨hf.trans hf', hl'.trans ?_⟩
    have hcur : (deliver e.1 e.2 s).2.1.current? = s.1.current? := funext hf.current?
    rw [hcur, hl, inspected, List.getLast?_append]
    cases (inspected (deliver e.1 e.2 s).2 es).getLast? with
    | some last => rfl
    | none =>
      split
      · rfl
      · rfl

/-- What fails is kept from the program. -/
theorem deliver_ne_panicked (hook : HookName) (ctx : Context)
    (s : VariableTracer × Surroundings) (text : String) :
    (deliver hook ctx s).1 ≠ .panicked text := by
  unfold deliver onEvent
  cases s.1.attention ctx with
  | skip | pass | forget => simp
  | inspect =>
    dsimp only
    split <;> simp

/-- In a run, `e₂` is inspected at the operation after `ops`, and the event inspected last in its
frame before that is `e₁`. -/
structure Succeeds (m : Machine) (s : VariableTracer × Surroundings) (ops : List (Op FrameId))
    (op : Op FrameId) (e₁ e₂ : Context) : Prop where
  hears : ∃ hook, (m.run deliver s ops).machine.heardBy? op = some (hook, e₂)
  counts : (m.run deliver s ops).state.1.attention e₂ = .inspect
  frame : e₁.frame.id = e₂.frame.id
  before : ∃ earlier between, inspected s (m.heard deliver s ops) = earlier ++ e₁ :: between ∧
    ∀ e ∈ between, e.frame.id ≠ e₂.frame.id

theorem Succeeds.getLast? {m : Machine} {s : VariableTracer × Surroundings}
    {ops : List (Op FrameId)} {op : Op FrameId} {e₁ e₂ : Context}
    (h : Succeeds m s ops op e₁ e₂) :
    ∃ last, (inspected s (m.heard deliver s ops)).getLast? = some last ∧
      (last = e₁ ∨ last.frame.id ≠ e₁.frame.id) := by
  obtain ⟨earlier, between, hb, hne⟩ := h.before
  rw [hb]
  cases hl : between.getLast? with
  | none =>
    rw [List.getLast?_eq_none_iff] at hl
    subst hl
    exact ⟨e₁, by simp, Or.inl rfl⟩
  | some last =>
    refine ⟨last, ?_, Or.inr ?_⟩
    · rw [List.getLast?_append, List.getLast?_cons, hl]
      rfl
    · rw [h.frame]
      exact hne last (List.mem_of_getLast? hl)

/-- A value that was seen is recorded where it differs from the last one, and nothing else is. -/
theorem Recorded.appends {last : Option String} {value : String} {before after cs : List Change}
    (h : Recorded last (some value) cs) (grows : after = before ++ cs) :
    (∀ c, after = before ++ [c] → c.value = value) ∧
      ((¬ ∃ c, after = before ++ [c]) → after = before) ∧
      ((∃ c, after = before ++ [c]) ↔ last ≠ some value) := by
  cases h with
  | kept same =>
    have hs := same.resolve_left (by simp)
    have hno : ¬ ∃ c, after = before ++ [c] := by
      rintro ⟨c, hc⟩
      rw [grows, List.append_cancel_left_eq] at hc
      cases hc
    exact ⟨fun c hc => absurd ⟨c, hc⟩ hno, fun _ => grows.trans (List.append_nil _),
      iff_of_false hno fun hne => hne hs⟩
  | changed c seen differs =>
    refine ⟨fun c' hc => ?_, fun hno => absurd ⟨c, grows⟩ hno, iff_of_true ⟨c, grows⟩ differs⟩
    rw [grows, List.append_cancel_left_eq] at hc
    cases hc
    exact (Option.some.inj seen).symm

/-- With a scope a variable is looked up among the locals. -/
theorem current?_of_scope (inMethod : t.scope.isSome) (ctx : Context) :
    t.current? ctx = (ctx.frame.locals.get? t.name).map Value.describe := by
  have hg : t.isGlobal = false := by
    rw [isGlobal, Option.isNone_eq_false_iff]
    exact inMethod
  unfold current?
  rw [hg]
  rfl

/-- With a scope, a change is recorded at an event if and only if the value differs from the one that
the event inspected last saw, in whichever frame that was. So the history is right about two events
in a row of one frame just where that value tells the same as the first of the two. -/
theorem scoped_change_against_last_inspected {t : VariableTracer} {w : Surroundings} {m : Machine}
    {ops : List (Op FrameId)} {op : Op FrameId} {e₁ e₂ : Context} {v₁ v₂ : Value}
    (inMethod : t.scope.isSome) (answers : t.resolver.IsTotal)
    (next : Succeeds m (t, w) ops op e₁ e₂) (bound₁ : e₁.frame.locals.get? t.name = some v₁)
    (bound₂ : e₂.frame.locals.get? t.name = some v₂) :
    let r := m.run deliver (t, w) ops
    let r' := r.machine.step deliver r.state op
    let appends := ∃ c, r'.state.1.history = r.state.1.history ++ [c]
    r.panic = none ∧ r'.panic = none ∧
    ∃ last, (inspected (t, w) (m.heard deliver (t, w) ops)).getLast? = some last ∧
      (last = e₁ ∨ last.frame.id ≠ e₁.frame.id) ∧
      let seen := (last.frame.locals.get? t.name).map Value.describe
      (∀ c, r'.state.1.history = r.state.1.history ++ [c] → c.value = v₂.describe) ∧
      (¬ appends → r'.state.1.history = r.state.1.history) ∧
      (appends ↔ seen ≠ some v₂.describe) ∧
      (last = e₁ → (appends ↔ v₂.describe ≠ v₁.describe)) ∧
      ((appends ↔ v₂.describe ≠ v₁.describe) ↔
        (seen = some v₂.describe ↔ v₁.describe = v₂.describe)) := by
  intro r r' appends
  refine ⟨panic_run deliver_ne_panicked _ _ _, panic_step deliver_ne_panicked _ _ _, ?_⟩
  obtain ⟨last, hlast, hframe⟩ := next.getLast?
  obtain ⟨hook, hhears⟩ := next.hears
  have hr : r.state = informed deliver (t, w) (m.heard deliver (t, w) ops) := state_run _ _ _ _
  obtain ⟨hf, hl⟩ := lastValue_informed (s := (t, w)) answers (m.heard deliver (t, w) ops)
  rw [← hr] at hf hl
  rw [hlast] at hl
  obtain ⟨t', w', cs, he, ho⟩ := observes_onEvent (hf.resolver ▸ answers) next.counts r.state.2
  have hr' : r'.state = (t', w') := by
    have hs := state_step deliver r.machine r.state op
    rw [hhears] at hs
    refine hs.trans ?_
    exact congrArg Prod.snd he
  have hnow : r.state.1.current? e₂ = some v₂.describe := by
    rw [hf.current?, current?_of_scope inMethod, bound₂]
    rfl
  have hseen : r.state.1.lastValue = (last.frame.locals.get? t.name).map Value.describe := by
    rw [hl]
    exact current?_of_scope inMethod last
  have hhist : r'.state.1.history = r.state.1.history ++ cs := by
    rw [hr']
    exact ho.history
  have hrec := ho.recorded
  rw [hnow, hseen] at hrec
  obtain ⟨hvalue, hkept, (hiff : appends ↔ _)⟩ := hrec.appends hhist
  have hd : v₂.describe ≠ v₁.describe ↔ ¬ v₁.describe = v₂.describe := ne_comm
  refine ⟨last, hlast, hframe, hvalue, hkept, hiff, ?_, ?_⟩
  · intro he
    rw [hiff, hd, he, bound₁]
    simp
  · rw [hiff, hd, ne_eq, Decidable.not_iff_not]

def recursion : List (Op FrameId) :=
  let f : Code := ⟨"f", ⟨"/p.py"⟩, 1⟩
  [.call f [("x", .int 1)], .line ⟨0, 0⟩ 2, .line ⟨0, 0⟩ 3, .call f [("x", .int 2)],
    .line ⟨0, 1⟩ 2, .line ⟨0, 1⟩ 4, .ret ⟨0, 1⟩ (.int 2), .setLocal ⟨0, 0⟩ "x" (.int 2)]

/-- The change from one to two is lost, as the call has seen the two already. -/
theorem scoped_change_lost_by_recursion :
    let t : VariableTracer :=
      { entry := ⟨"/p.py"⟩, file := none, name := "x", scope := some ⟨1, 4⟩, loopLimit := 5
        resolver := ⟨fun _ _ w => (.ok none, w)⟩ }
    let m : Machine := { hook := some "history" }
    let r := m.run deliver (t, {}) recursion
    let r' := r.machine.step deliver r.state (.line ⟨0, 0⟩ 4)
    t.scope.isSome ∧ t.resolver.IsTotal ∧ r'.panic = none ∧
      r'.state.1.history = r.state.1.history ∧
      ∃ e₁ e₂ v₁ v₂ last, Succeeds m (t, {}) recursion (.line ⟨0, 0⟩ 4) e₁ e₂ ∧
        e₁.frame.locals.get? t.name = some v₁ ∧ e₂.frame.locals.get? t.name = some v₂ ∧
        v₁.describe = "[Value] 1" ∧ v₂.describe = "[Value] 2" ∧ last.frame.id = ⟨0, 1⟩ ∧
        (inspected (t, {}) (m.heard deliver (t, {}) recursion)).getLast? = some last ∧
        (last.frame.locals.get? t.name).map Value.describe = some v₂.describe := by
  intro t m r r'
  have answers : t.resolver.IsTotal := fun _ _ w => ⟨none, w, rfl⟩
  let es := inspected (t, {}) (m.heard deliver (t, {}) recursion)
  have h₂ : ∀ e, r.machine.heardBy? (.line ⟨0, 0⟩ 4) = some e →
      r.state.1.attention e.2 = .inspect ∧ e.2.frame.id = ⟨0, 0⟩ ∧
        (e.2.frame.locals.get? t.name).map Value.describe = some "[Value] 2" := by decide +kernel
  have h₁ : ∀ e, es[2]? = some e → e.frame.id = ⟨0, 0⟩ ∧
      (e.frame.locals.get? t.name).map Value.describe = some "[Value] 1" := by decide +kernel
  have hseen : ∀ e, es.getLast? = some e → e.frame.id = ⟨0, 1⟩ ∧
      (e.frame.locals.get? t.name).map Value.describe = some "[Value] 2" := by decide +kernel
  have hmid : ∀ e ∈ es.drop 3, e.frame.id ≠ ⟨0, 0⟩ := by decide +kernel
  obtain ⟨⟨hook, e₂⟩, he₂⟩ := Option.isSome_iff_exists.mp
    (show (r.machine.heardBy? (.line ⟨0, 0⟩ 4)).isSome by decide +kernel)
  obtain ⟨e₁, he₁⟩ := Option.isSome_iff_exists.mp (show (es[2]?).isSome by decide +kernel)
  obtain ⟨hc, hid₂, hm₂⟩ := h₂ _ he₂
  obtain ⟨hid₁, hm₁⟩ := h₁ e₁ he₁
  obtain ⟨v₁, bound₁, hd₁⟩ := Option.map_eq_some_iff.mp hm₁
  obtain ⟨v₂, bound₂, hd₂⟩ := Option.map_eq_some_iff.mp hm₂
  have hsplit : es = es.take 2 ++ e₁ :: es.drop 3 := by
    obtain ⟨hlt, rfl⟩ := List.getElem?_eq_some_iff.mp he₁
    rw [List.getElem_cons_drop, List.take_append_drop]
  have next : Succeeds m (t, {}) recursion (.line ⟨0, 0⟩ 4) e₁ e₂ :=
    ⟨⟨hook, he₂⟩, hc, hid₁.trans hid₂.symm, es.take 2, es.drop 3, hsplit,
      fun e he => hid₂ ▸ hmid e he⟩
  obtain ⟨-, hp, last, hlast, -, -, hkept, hiff, -⟩ :=
    scoped_change_against_last_inspected rfl answers next bound₁ bound₂
  obtain ⟨hid, hsame⟩ := hseen last hlast
  have hno := hkept fun happ => hiff.mp happ (hd₂ ▸ hsame)
  exact ⟨rfl, answers, hp, hno, e₁, e₂, v₁, v₂, last, next, bound₁, bound₂, hd₁, hd₂, hid, hlast,
    hd₂ ▸ hsame⟩

end VariableTracer
end SelectiveTrace
