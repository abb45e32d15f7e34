import SelectiveTrace.Proofs.History.Inspected
import SelectiveTrace.Proofs.Host.Continuing
import SelectiveTrace.Proofs.Tracer.Memory

/-! What the history of a variable keeps for single frames, and when it lets go of it. The end of a
frame is looked at like any other event: where it lies outside the scope, what an earlier event of the
frame has left stays. -/
namespace SelectiveTrace
open Machine

namespace VariableTracer
variable {t t' : VariableTracer} {ctx : Context} {j : FrameId}

def Keeps (t : VariableTracer) (id : FrameId) : Prop :=
  t.places.contains id = true ∨ t.lineHits.contains id = true

instance (t : VariableTracer) (id : FrameId) : Decidable (t.Keeps id) :=
  inferInstanceAs (Decidable (_ ∨ _))

def notes (t : VariableTracer) (ctx : Context) : Bool :=
  t.attention ctx = .inspect || t.attention ctx = .forget

def noted (id : FrameId) (s : VariableTracer × Surroundings) :
    List (HookName × Context) → List Context
  | [] => []
  | e :: es =>
    (if s.1.notes e.2 && e.2.frame.id = id then [e.2] else []) ++ noted id (deliver e.1 e.2 s).2 es

structure Holds (t : VariableTracer) (id : FrameId) (b : Bool) : Prop where
  places : t.places.contains id = b
  hits : t.lineHits.contains id = b

theorem Holds.keeps {b : Bool} (h : t.Holds j b) : t.Keeps j ↔ b = true := by
  rw [Keeps, h.places, h.hits, or_self]

theorem holds_of_not_keeps (h : ¬ t.Keeps j) : t.Holds j false := by
  simp only [Keeps, not_or, Bool.not_eq_true] at h
  exact ⟨h.1, h.2⟩

theorem holds_forget (t : VariableTracer) (id : FrameId) : (t.forget id).Holds id false := by
  constructor <;> simp [forget, Table.contains_erase]

theorem Holds.forget {b : Bool} (h : t.Holds j b) {id : FrameId} (hj : j ≠ id) :
    (t.forget id).Holds j b := by
  constructor
  · rw [VariableTracer.forget, Table.contains_erase, decide_eq_false hj]
    exact h.places
  · rw [VariableTracer.forget, Table.contains_erase, decide_eq_false hj]
    exact h.hits

theorem discard_of_forget (h : t.attention ctx = .forget) : ctx.event.isDiscard = true := by
  unfold attention at h
  split at h
  · cases h
  · split at h
    · cases h
    · split at h
      next hd => exact hd
      next =>
        split at h
        · cases h
        · cases h

theorem terminal_of_forget (h : t.attention ctx = .forget) : ctx.event.isTerminal = true := by
  have hd := discard_of_forget h
  cases he : ctx.event with
  | discard => rfl
  | _ => simp [he, Event.isDiscard] at hd

/-- What a look at an event leaves besides the history. -/
theorem observe_tables (h : t.resolver.IsTotal) (ctx : Context) (w : Surroundings) :
    ∃ t' w', t.observe ctx w = (none, t', w') ∧ t'.started = t.started ∧ t'.entered = t.entered ∧
      t'.lineHits = t.lineHits ∧
      t'.places = t.places.insert ctx.frame.id (ctx.frame.file, ctx.frame.line) := by
  unfold observe
  cases t.current? ctx with
  | none => exact ⟨_, w, rfl, rfl, rfl, rfl, rfl⟩
  | some value =>
    by_cases hl : t.lastValue = some value
    · refine ⟨_, w, if_pos hl, rfl, rfl, rfl, rfl⟩
    · obtain ⟨c, sources, w', -, hr⟩ := record_total h ctx value w
      dsimp only
      rw [if_neg hl, hr]
      exact ⟨_, w', rfl, rfl, rfl, rfl, rfl⟩

/-- A frame whose event was inspected is kept, unless it ended with it. -/
theorem inspect_tables (h : t.resolver.IsTotal) (ctx : Context) (w : Surroundings) :
    ∃ t' w', t.inspect ctx w = (none, t', w') ∧ t'.started = t.started ∧ t'.entered = t.entered ∧
      t'.Holds ctx.frame.id (!ctx.event.isTerminal) ∧
      ∀ j b, j ≠ ctx.frame.id → t.Holds j b → t'.Holds j b := by
  obtain ⟨u, w', hu, hs, he, hh, hp⟩ :=
    @observe_tables (t.recordHit ctx.frame.id ctx.frame.line) h ctx w
  have hhere : u.Holds ctx.frame.id true := by
    constructor
    · rw [hp, Table.contains_insert]
      simp
    · rw [hh, recordHit, Table.contains_insert]
      simp
  have helse : ∀ j b, j ≠ ctx.frame.id → t.Holds j b → u.Holds j b := by
    intro j b hj hb
    constructor
    · rw [hp, Table.contains_insert, decide_eq_false hj]
      exact hb.places
    · rw [hh, recordHit, Table.contains_insert, decide_eq_false hj]
      exact hb.hits
  unfold inspect
  dsimp only
  rw [hu]
  cases ctx.event.isTerminal with
  | false => exact ⟨u, w', rfl, hs, he, hhere, helse⟩
  | true =>
    exact ⟨u.forget ctx.frame.id, w', rfl, hs, he, holds_forget u ctx.frame.id,
      fun j b hj hb => (helse j b hj hb).forget hj⟩

structure Leaves (t t' : VariableTracer) (ctx : Context) : Prop where
  follows : t.Follows t'
  started : t'.started = (t.start ctx).started
  entered : t.entered = true ∨ t.attention ctx = .inspect → t.scope.isSome → t'.entered = true
  tables : ∀ j b, t.Holds j b →
    t'.Holds j (if t.notes ctx && ctx.frame.id = j then !ctx.event.isTerminal else b)

theorem leaves_of_inspect (h : t.resolver.IsTotal) (counts : t.attention ctx = .inspect)
    (w : Surroundings) : t.Leaves (t.onEvent ctx w).2.1 ctx := by
  obtain ⟨t', w', cs, ht, ho⟩ := observes_onEvent h counts w
  obtain ⟨u, w'', hu, hs, he, hhere, helse⟩ := @inspect_tables
    { t.start ctx with entered := (t.start ctx).entered || (t.start ctx).scope.isSome } h ctx w
  have hone : t' = u := by
    have heq := ht.symm
    unfold onEvent at heq
    rw [counts] at heq
    dsimp only at heq
    rw [hu] at heq
    exact congrArg (·.2.1) heq
  rw [ht]
  refine ⟨ho.follows, hone ▸ hs, ?_, ?_⟩
  · intro _ hscope
    rw [hone, he]
    exact Bool.or_eq_true_iff.mpr (Or.inr hscope)
  · intro j b hb
    have hn : t.notes ctx = true := by simp [notes, counts]
    rw [hn, Bool.true_and, hone]
    by_cases hj : ctx.frame.id = j
    · subst hj
      simpa using hhere
    · rw [if_neg (by simpa using hj)]
      exact helse j b (Ne.symm hj) ⟨hb.places, hb.hits⟩

theorem leaves_of_forget (drops : t.attention ctx = .forget) (w : Surroundings) :
    t.Leaves (t.onEvent ctx w).2.1 ctx := by
  have hn : t.notes ctx = true := by simp [notes, drops]
  unfold onEvent
  rw [drops]
  refine ⟨⟨rfl, rfl, rfl, rfl, rfl, rfl⟩, rfl, fun he _ => he.resolve_right (by simp [drops]), ?_⟩
  intro j b hb
  rw [hn, terminal_of_forget drops, Bool.true_and]
  by_cases hj : ctx.frame.id = j
  · subst hj
    simpa using holds_forget (t.start ctx) ctx.frame.id
  · rw [if_neg (by simpa using hj)]
    exact Holds.forget (t := t.start ctx) ⟨hb.places, hb.hits⟩ (Ne.symm hj)

/-- One event. -/
theorem leaves_onEvent (h : t.resolver.IsTotal) (ctx : Context) (w : Surroundings) :
    t.Leaves (t.onEvent ctx w).2.1 ctx := by
  cases ha : t.attention ctx with
  | inspect => exact leaves_of_inspect h ha w
  | forget => exact leaves_of_forget ha w
  | skip | pass =>
    have hn : t.notes ctx = false := by simp [notes, ha]
    unfold onEvent
    rw [ha]
    refine ⟨⟨rfl, rfl, rfl, rfl, rfl, rfl⟩, rfl, fun he _ => he.resolve_right (by simp [ha]), ?_⟩
    intro j b hb
    simpa [hn] using ⟨hb.places, hb.hits⟩

/-- What is kept for a frame after some events is told by the last of them that was noted. -/
theorem Holds.informed {s : VariableTracer × Surroundings} (total : s.1.resolver.IsTotal) {b : Bool}
    (h : s.1.Holds j b) (es : List (HookName × Context)) :
    (informed deliver s es).1.Holds j
      ((noted j s es).getLast?.elim b fun e => !e.event.isTerminal) := by
  induction es generalizing s b with
  | nil => exact h
  | cons e es ih =>
    have hl := leaves_onEvent total e.2 s.2
    have hrest := @ih (deliver e.1 e.2 s).2 (hl.follows.resolver ▸ total) _ (hl.tables j b h)
    rw [noted, List.getLast?_append]
    cases hlast : (noted j (deliver e.1 e.2 s).2 es).getLast? with
    | some last =>
      rw [hlast] at hrest
      exact hrest
    | none =>
      rw [hlast] at hrest
      split
      next hn =>
        rw [if_pos hn] at hrest
        exact hrest
      next hn =>
        rw [if_neg hn] at hrest
        exact hrest

/-- What a tracer keeps is about frames of the watched file, and it keeps nothing before it has started
and, with a scope, before it has entered it. -/
structure Tends (m : Machine) (t : VariableTracer) : Prop where
  issued : m.IsIssued
  started : ∀ j, t.Keeps j → t.started = true
  entered : ∀ j, t.Keeps j → t.scope.isSome → t.entered = true
  seen : ∀ j, t.Keeps j → ∃ c : Frame, c.id = j ∧ c.file.startsWith t.watched = true ∧ m.Knows c

theorem watched_of_noted (h : t.notes ctx = true) :
    (t.start ctx).started = true ∧ ctx.frame.file.startsWith t.watched = true := by
  have hs : t.attention ctx ≠ .skip := by
    intro hs
    simp [notes, hs] at h
  unfold attention at hs
  split at hs
  · exact absurd rfl hs
  next hstart =>
    split at hs
    · exact absurd rfl hs
    next hfile =>
      refine ⟨?_, by simpa using hfile⟩
      cases hold : t.started with
      | true => simp [start, hold]
      | false =>
        rw [hold] at hstart
        simpa [start, hold] using hstart

/-- What is kept after an event was kept before, or the event has been inspected. -/
theorem keeps_of_onEvent {w : Surroundings} (total : t.resolver.IsTotal)
    (keeps : (t.onEvent ctx w).2.1.Keeps j) :
    t.Keeps j ∨ (t.attention ctx = .inspect ∧ ctx.frame.id = j) := by
  by_cases hold : t.Keeps j
  · exact Or.inl hold
  · have hh := (leaves_onEvent total ctx w).tables j false (holds_of_not_keeps hold)
    rw [hh.keeps] at keeps
    split at keeps
    next hn =>
      simp only [notes, Bool.and_eq_true, Bool.or_eq_true, decide_eq_true_eq] at hn
      refine Or.inr ⟨hn.1.resolve_right fun hf => ?_, hn.2⟩
      rw [terminal_of_forget hf] at keeps
      cases keeps
    next => cases keeps

/-- One event that is heard. -/
theorem Tends.onEvent {m m' : Machine} (h : Tends m t) (total : t.resolver.IsTotal)
    (next : m.Continues m') (knows : m'.Knows ctx.frame) (w : Surroundings) :
    Tends m' (t.onEvent ctx w).2.1 := by
  have hl := leaves_onEvent total ctx w
  have hwatched : (t.onEvent ctx w).2.1.watched = t.watched := by
    unfold watched
    rw [hl.follows.file, hl.follows.entry]
  have hcases := fun j => @keeps_of_onEvent t ctx j w total
  refine ⟨next.isIssued h.issued, ?_, ?_, ?_⟩
  · intro j hk
    rw [hl.started]
    rcases hcases j hk with hold | ⟨hi, -⟩
    · simp [start, h.started j hold]
    · exact (watched_of_noted (by simp [notes, hi])).1
  · intro j hk hscope
    rw [hl.follows.scope] at hscope
    rcases hcases j hk with hold | ⟨hi, -⟩
    · exact hl.entered (Or.inl (h.entered j hold hscope)) hscope
    · exact hl.entered (Or.inr hi) hscope
  · intro j hk
    rw [hwatched]
    rcases hcases j hk with hold | ⟨hi, hid⟩
    · obtain ⟨c, hc, hfile, hknows⟩ := h.seen j hold
      exact ⟨c, hc, hfile, next.knows hknows⟩
    · exact ⟨ctx.frame, hid, (watched_of_noted (by simp [notes, hi])).2, knows⟩

/-- One operation. -/
theorem Tends.step {m : Machine} {s : VariableTracer × Surroundings} (h : Tends m s.1)
    (total : s.1.resolver.IsTotal) (op : Op FrameId) :
    Tends (m.step deliver s op).machine (m.step deliver s op).state.1 ∧
      s.1.Follows (m.step deliver s op).state.1 := by
  have hc := continues_step deliver m s op
  have hs := state_step deliver m s op
  cases hh : m.heardBy? op with
  | none =>
    rw [hh] at hs
    have hs' : (m.step deliver s op).state = s := hs
    rw [hs']
    refine ⟨⟨hc.isIssued h.issued, h.started, h.entered, ?_⟩, Follows.refl _⟩
    intro j hk
    obtain ⟨c, hid, hfile, hknows⟩ := h.seen j hk
    exact ⟨c, hid, hfile, hc.knows hknows⟩
  | some heard =>
    rw [hh] at hs
    have hs' : (m.step deliver s op).state = (deliver heard.1 heard.2 s).2 := hs
    rw [hs']
    exact ⟨h.onEvent total hc (h.issued.knows_step hh deliver s) s.2,
      (leaves_onEvent total heard.2 s.2).follows⟩

theorem Tends.run {m : Machine} {s : VariableTracer × Surroundings} (h : Tends m s.1)
    (total : s.1.resolver.IsTotal) (ops : List (Op FrameId)) :
    Tends (m.run deliver s ops).machine (m.run deliver s ops).state.1 ∧
      s.1.Follows (m.run deliver s ops).state.1 := by
  induction ops generalizing m s with
  | nil => exact ⟨h, Follows.refl _⟩
  | cons op ops ih =>
    obtain ⟨hs, hf⟩ := h.step total op
    rw [run_of_calm (panic_step deliver_ne_panicked m s op)]
    obtain ⟨hr, hf'⟩ := ih hs (hf.resolver ▸ total)
    exact ⟨hr, hf.trans hf'⟩

/-- An event of a frame that something is kept for goes unnoted where it lies outside the scope, and
does not drop the frame. -/
theorem Tends.notes_eq_false_iff {m : Machine} (h : Tends m t) (keeps : t.Keeps ctx.frame.id)
    (lasts : ∀ c, c.id = ctx.frame.id → m.Knows c → ctx.frame.file = c.file) :
    t.notes ctx = false ↔
      (t.scope.any fun s => !s.contains ctx.frame.line) = true ∧ ctx.event.isDiscard = false := by
  obtain ⟨c, hid, hfile, hknows⟩ := h.seen _ keeps
  rw [← lasts c hid hknows] at hfile
  have hs := h.started _ keeps
  have he := h.entered _ keeps
  unfold notes attention isInScope
  rw [hs, hfile]
  cases ctx.event.isDiscard with
  | true => simp
  | false =>
    cases hscope : t.scope with
    | none => simp
    | some s =>
      rw [he (by simp [hscope])]
      by_cases hline : s.contains ctx.frame.line = true
      · simp [hline]
      · simp [hline]

/-- An event that is noted is inspected, or it drops its frame. -/
theorem mem_noted {s : VariableTracer × Surroundings} {es : List (HookName × Context)} {x : Context}
    (h : x ∈ noted j s es) :
    x.frame.id = j ∧ (x ∈ inspected s es ∨ x.event.isDiscard = true) := by
  induction es generalizing s with
  | nil => cases h
  | cons e es ih =>
    rw [noted, List.mem_append] at h
    rcases h with h | h
    · split at h
      next hn =>
        rw [List.mem_singleton] at h
        subst h
        simp only [notes, Bool.and_eq_true, Bool.or_eq_true, decide_eq_true_eq] at hn
        refine ⟨hn.2, ?_⟩
        rcases hn.1 with hi | hf
        · left
          simp [inspected, hi]
        · exact Or.inr (discard_of_forget hf)
      next => cases h
    · obtain ⟨hid, hx⟩ := ih h
      exact ⟨hid, hx.imp_left fun hx => List.mem_append_right _ hx⟩

/-- What is noted of a frame drops it, where no event of the frame is inspected. -/
theorem terminal_of_untouched {s : VariableTracer × Surroundings} {es : List (HookName × Context)}
    (untouched : ∀ x ∈ inspected s es, x.frame.id ≠ j) {x : Context} (hx : x ∈ noted j s es) :
    x.event.isTerminal = true := by
  obtain ⟨hid, hi | hd⟩ := mem_noted hx
  · exact absurd hid (untouched x hi)
  · cases he : x.event <;> simp [he, Event.isDiscard, Event.isTerminal] at hd ⊢

/-- Where no event of a frame is inspected, the frame is kept as long as nothing of it is noted. -/
theorem Holds.keeps_untouched_iff {s : VariableTracer × Surroundings} (total : s.1.resolver.IsTotal)
    {b : Bool} (h : s.1.Holds j b) {es : List (HookName × Context)}
    (untouched : ∀ x ∈ inspected s es, x.frame.id ≠ j) :
    (Machine.informed deliver s es).1.Keeps j ↔ b = true ∧ noted j s es = [] := by
  rw [(h.informed total es).keeps]
  cases hlast : (noted j s es).getLast? with
  | none =>
    rw [List.getLast?_eq_none_iff] at hlast
    exact (and_iff_left hlast).symm
  | some x =>
    have hx := terminal_of_untouched untouched (List.mem_of_getLast? hlast)
    have hne : noted j s es ≠ [] := by
      intro hnil
      rw [hnil] at hlast
      cases hlast
    simp [hx, hne]

/-- A frame that nothing was kept for at first is kept if the event noted last has not ended it. -/
theorem Holds.keeps_iff_getLast? {last? : Option Context}
    (h : t.Holds j (last?.elim false fun e => !e.event.isTerminal)) :
    t.Keeps j ↔ ∃ last, last? = some last ∧ last.event.isTerminal = false := by
  rw [h.keeps]
  cases last? with
  | none => simp
  | some last => simp

theorem Tends.of_bare {m : Machine} (fresh : m.IsFresh) (bare : ∀ id, ¬ t.Keeps id) : Tends m t :=
  ⟨fresh.isIssued, fun j hk => absurd hk (bare j), fun j hk => absurd hk (bare j),
    fun j hk => absurd hk (bare j)⟩

/-- An event is of the file that its frame has been known by. -/
theorem Tends.file_of_heardBy {m : Machine} {op : Op FrameId} {hook : HookName} (h : Tends m t)
    (heard : m.heardBy? op = some (hook, ctx)) (c : Frame) (hid : c.id = ctx.frame.id)
    (knows : m.Knows c) : ctx.frame.file = c.file := by
  have hget := h.issued.get?_of_heardBy heard
  rw [← hid] at hget
  exact ((continues_before m op).knows knows).file ctx.frame hget

/-- Once a terminal event of a frame has been heard, and as long as no later one of it is inspected,
nothing is kept for the frame, but in one case: the event lay outside the scope, it did not drop the
frame, and the event of the frame noted last before it had not ended the frame either. Then the
frame is kept until it is dropped. Without a scope nothing is ever kept. -/
theorem forgotten_unless_ended_outside_scope {t : VariableTracer} {w : Surroundings} {m : Machine}
    {ops : List (Op FrameId)} {op : Op FrameId} {hook : HookName} {e : Context}
    (later : List (Op FrameId)) (fresh : m.IsFresh) (bare : ∀ id, ¬ t.Keeps id) (answers : t.resolver.IsTotal)
    (heard : (m.run deliver (t, w) ops).machine.heardBy? op = some (hook, e))
    (ends : e.event.isTerminal = true) :
    let r := m.run deliver (t, w) ops
    let r' := r.machine.step deliver r.state op
    let r'' := r'.machine.run deliver r'.state later
    let since := r'.machine.heard deliver r'.state later
    (∀ x ∈ inspected r'.state since, x.frame.id ≠ e.frame.id) →
    r.panic = none ∧ r'.panic = none ∧ r''.panic = none ∧
      (r''.state.1.Keeps e.frame.id ↔
        (t.scope.any fun s => !s.contains e.frame.line) = true ∧ e.event.isDiscard = false ∧
          (∃ last, (noted e.frame.id (t, w) (m.heard deliver (t, w) ops)).getLast? = some last ∧
            last.event.isTerminal = false) ∧
          noted e.frame.id r'.state since = []) := by
  intro r r' r'' since untouched
  refine ⟨panic_run deliver_ne_panicked _ _ _, panic_step deliver_ne_panicked _ _ _,
    panic_run deliver_ne_panicked _ _ _, ?_⟩
  obtain ⟨htends, hfollows⟩ : Tends r.machine r.state.1 ∧ t.Follows r.state.1 :=
    Tends.run (s := (t, w)) (Tends.of_bare fresh bare) answers ops
  have htotal : r.state.1.resolver.IsTotal := hfollows.resolver ▸ answers
  -- what is kept before the event, at it and at the end
  have hr := Holds.informed (s := (t, w)) answers (holds_of_not_keeps (bare e.frame.id))
    (m.heard deliver (t, w) ops)
  rw [← state_run deliver m (t, w) ops] at hr
  have hl := leaves_onEvent htotal e r.state.2
  have hstate : r'.state = (r.state.1.onEvent e r.state.2).2 := by
    have hs := state_step deliver r.machine r.state op
    rw [heard] at hs
    exact hs
  have hr' := hl.tables _ _ hr
  rw [← hstate] at hr'
  have htotal' : r'.state.1.resolver.IsTotal := by
    rw [hstate, hl.follows.resolver]
    exact htotal
  have hend : r''.state.1.Keeps e.frame.id ↔
      (r.state.1.notes e = false ∧ r.state.1.Keeps e.frame.id) ∧
        noted e.frame.id r'.state since = [] := by
    have hr'' := hr'.keeps_untouched_iff htotal' untouched
    rw [← state_run deliver r'.machine r'.state later] at hr''
    rw [hr'', hr.keeps]
    cases r.state.1.notes e with
    | true => simp [ends]
    | false => simp
  rw [hend, ← hr.keeps_iff_getLast?]
  by_cases hk : r.state.1.Keeps e.frame.id
  · have hn : r.state.1.notes e = false ↔ _ :=
      htends.notes_eq_false_iff hk (htends.file_of_heardBy heard)
    rw [hfollows.scope] at hn
    rw [hn]
    tauto
  · tauto

/-- A generator makes its method anew in every round and calls it in the first; its second round passes
the first line of the method, and ends outside of it. -/
def rounds : List (Op FrameId) :=
  [.call ⟨"f", ⟨"/p.py"⟩, 1⟩ [("x", .int 0)], .line ⟨0, 0⟩ 3, .line ⟨0, 0⟩ 4,
    .call ⟨"g", ⟨"/p.py"⟩, 4⟩ [("x", .int 0)], .line ⟨0, 1⟩ 5, .ret ⟨0, 1⟩ (.int 0),
    .line ⟨0, 0⟩ 7, .yieldValue ⟨0, 0⟩ (.int 0), .resume ⟨0, 0⟩, .line ⟨0, 0⟩ 3, .line ⟨0, 0⟩ 4,
    .line ⟨0, 0⟩ 7]

/-- The hit of the second round is still there in the third. -/
theorem kept_over_yield_outside_scope :
    let t : VariableTracer :=
      { entry := ⟨"/p.py"⟩, file := none, name := "x", scope := some ⟨4, 5⟩, loopLimit := 1
        resolver := ⟨fun _ _ w => (.ok none, w)⟩ }
    let m : Machine := { hook := some "history" }
    let ends : Op FrameId := .yieldValue ⟨0, 0⟩ (.int 0)
    let later : List (Op FrameId) := [.resume ⟨0, 0⟩, .line ⟨0, 0⟩ 3]
    let r := m.run deliver (t, {}) rounds
    let r' := r.machine.step deliver r.state ends
    let r'' := r'.machine.run deliver r'.state later
    m.IsFresh ∧ (∀ id, ¬ t.Keeps id) ∧ t.resolver.IsTotal ∧
      m.Disciplined deliver (t, {}) (rounds ++ ends :: later) ∧
      ∃ e, r.machine.heardBy? ends = some ("history", e) ∧ e.event.isTerminal = true ∧
        e.frame.id = ⟨0, 0⟩ ∧
        (∀ x ∈ inspected r'.state (r'.machine.heard deliver r'.state later),
          x.frame.id ≠ e.frame.id) ∧
        r''.state.1.Keeps ⟨0, 0⟩ ∧ r''.state.1.hits ⟨0, 0⟩ 4 = 1 := by
  intro t m ends later r r' r''
  have fresh : m.IsFresh := ⟨rfl, rfl, rfl, rfl⟩
  have bare : ∀ id, ¬ t.Keeps id := by
    intro id
    simp [Keeps, t, Table.contains]
  have answers : t.resolver.IsTotal := fun _ _ w => ⟨none, w, rfl⟩
  have disciplined : m.Disciplined deliver (t, {}) (rounds ++ ends :: later) := by decide +kernel
  have hheard : ∀ x, r.machine.heardBy? ends = some x → x.1 = "history" ∧
      x.2.event.isTerminal = true ∧ x.2.frame.id = ⟨0, 0⟩ ∧
      (t.scope.any fun s => !s.contains x.2.frame.line) = true ∧ x.2.event.isDiscard = false := by
    decide +kernel
  have huntouched : ∀ x ∈ inspected r'.state (r'.machine.heard deliver r'.state later),
      x.frame.id ≠ ⟨0, 0⟩ := by decide +kernel
  have hlast : ∃ last, (noted ⟨0, 0⟩ (t, {}) (m.heard deliver (t, {}) rounds)).getLast? = some last ∧
      last.event.isTerminal = false := by
    have hl : ∀ last, (noted ⟨0, 0⟩ (t, {}) (m.heard deliver (t, {}) rounds)).getLast? = some last →
        last.event.isTerminal = false := by decide +kernel
    obtain ⟨last, hs⟩ := Option.isSome_iff_exists.mp
      (show (noted ⟨0, 0⟩ (t, {}) (m.heard deliver (t, {}) rounds)).getLast?.isSome by
        decide +kernel)
    exact ⟨last, hs, hl last hs⟩
  have hnone : noted ⟨0, 0⟩ r'.state (r'.machine.heard deliver r'.state later) = [] := by
    rw [← List.isEmpty_iff]
    decide +kernel
  obtain ⟨⟨hook, e⟩, he⟩ := Option.isSome_iff_exists.mp
    (show (r.machine.heardBy? ends).isSome by decide +kernel)
  obtain ⟨hhook, terminal, hid, outside, stays⟩ := hheard _ he
  have hhook' : hook = "history" := hhook
  subst hhook'
  obtain ⟨-, -, -, hiff⟩ := forgotten_unless_ended_outside_scope later fresh bare answers he
    terminal fun x hx => hid ▸ huntouched x hx
  rw [show e.frame.id = ⟨0, 0⟩ from hid] at hiff
  exact ⟨fresh, bare, answers, disciplined, e, he, terminal, hid, fun x hx => hid ▸ huntouched x hx,
    hiff.mpr ⟨outside, stays, hlast, hnone⟩, by decide +kernel⟩

end VariableTracer
end SelectiveTrace
