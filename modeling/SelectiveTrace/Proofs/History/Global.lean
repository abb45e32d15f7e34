import SelectiveTrace.Proofs.History.Credited
import SelectiveTrace.Proofs.Host.WellMade

/-! The history of a variable without a scope, told by the events alone: an event counts from the first
one of the entry file on, in the watched file, and there is an entry for each turn that the value of the
name takes from one event to the next. -/
namespace SelectiveTrace
open Machine

namespace VariableTracer
variable {t : VariableTracer} {w : Surroundings}

structure IsUnused (t : VariableTracer) : Prop where
  started : t.started = false
  lastValue : t.lastValue = none
  history : t.history = []
  bare : ∀ id, ¬ t.Keeps id

theorem isUnused_ofRequest {r : VariableRequest} {isGlobal : Bool} {resolver : Resolver} {limit : Nat}
    {w w' : Surroundings} (made : ofRequest r isGlobal resolver limit w = (.ok t, w')) :
    t.IsUnused ∧ t.loopLimit = limit ∧ t.resolver = resolver := by
  unfold ofRequest at made
  split at made
  · cases made
  · cases made
    refine ⟨⟨rfl, rfl, rfl, fun id => ?_⟩, rfl, rfl⟩
    simp [Keeps, Table.contains]

/-! ### The events that count -/

def eventsAt (p : Moment → Bool) (es : List (HookName × Context)) : List Context :=
  ((moments es).filter p).map Moment.event

theorem eventsAt_concat (p : Moment → Bool) (es : List (HookName × Context))
    (e : HookName × Context) :
    eventsAt p (es ++ [e]) = eventsAt p es ++ if p ⟨es, e.2⟩ then [e.2] else [] := by
  unfold eventsAt
  rw [filter_moments_concat, List.map_append]
  cases p ⟨es, e.2⟩ <;> rfl

def isOn (t : VariableTracer) (x : Moment) : Bool :=
  (x.before.any (fun e => e.2.frame.file.same t.entry) || x.event.frame.file.same t.entry) &&
    x.event.frame.file.startsWith t.watched

/-- A generator that is dropped is not looked at any more. -/
def isLooked (t : VariableTracer) (x : Moment) : Bool :=
  t.isOn x && !x.event.event.isDiscard

def looks (t : VariableTracer) (es : List (HookName × Context)) : List Context :=
  eventsAt t.isLooked es

/-- The events of a frame in its current activation: since it was last left by a return, a yield or an
exception, or was dropped. -/
def activation (t : VariableTracer) (id : FrameId) (es : List (HookName × Context)) : List Context :=
  sinceEnd (eventsAt (fun x => t.isOn x && x.event.frame.id = id) es)

def inModule? (t : VariableTracer) (ctx : Context) : Option String :=
  (ctx.globals.get? t.name).map Value.describe

/-- The name is bound, and the event looked at before, if there was one, saw it unbound or otherwise. -/
def isTurn (t : VariableTracer) (x : Moment) : Bool :=
  t.isLooked x && (t.inModule? x.event).isSome &&
    (t.looks x.before).getLast?.all fun last => t.inModule? last ≠ t.inModule? x.event

theorem started_informed (unused : t.IsUnused) (total : t.resolver.IsTotal)
    (es : List (HookName × Context)) :
    (informed deliver (t, w) es).1.started = es.any fun e => e.2.frame.file.same t.entry := by
  induction es using List.reverseRecOn with
  | nil => exact unused.started
  | append_singleton es e ih =>
    have hf := (lastValue_informed (s := (t, w)) total es).1
    have hl := leaves_onEvent (hf.resolver ▸ total) e.2 (informed deliver (t, w) es).2
    rw [informed_append, List.any_append]
    refine hl.started.trans ?_
    rw [start, ih, hf.entry]
    simp

/-- What is done with an event is told by the files of those before it. -/
theorem attention_informed (isGlobal : t.isGlobal = true) (unused : t.IsUnused)
    (total : t.resolver.IsTotal) (x : Moment) :
    (informed deliver (t, w) x.before).1.attention x.event =
      if t.isOn x then if x.event.event.isDiscard then .forget else .inspect else .skip := by
  have hf := (lastValue_informed (s := (t, w)) total x.before).1
  have hwatched : (informed deliver (t, w) x.before).1.watched = t.watched := by
    unfold watched
    rw [hf.file, hf.entry]
  have hscope : (informed deliver (t, w) x.before).1.scope = none :=
    hf.scope.trans (Option.isNone_iff_eq_none.mp isGlobal)
  unfold attention isInScope isOn
  rw [started_informed unused total, hwatched, hscope, hf.entry]
  cases x.before.any (fun e => e.2.frame.file.same t.entry) <;>
    cases x.event.frame.file.same t.entry <;>
    cases x.event.frame.file.startsWith t.watched <;> rfl

section
variable (isGlobal : t.isGlobal = true) (unused : t.IsUnused) (total : t.resolver.IsTotal)
include isGlobal unused total

theorem notes_eq_isOn (x : Moment) :
    (informed deliver (t, w) x.before).1.notes x.event = t.isOn x := by
  rw [notes, attention_informed isGlobal unused total]
  cases t.isOn x <;> cases x.event.event.isDiscard <;> rfl

theorem stay_eq_activation (id : FrameId) (es : List (HookName × Context)) :
    stay id (t, w) es = t.activation id es := by
  unfold stay activation
  congr 1
  induction es using List.reverseRecOn with
  | nil => rfl
  | append_singleton es e ih =>
    have hnotes := notes_eq_isOn (w := w) isGlobal unused total ⟨es, e.2⟩
    rw [noted_concat, ih, eventsAt_concat]
    exact congrArg (fun b => _ ++ if b && e.2.frame.id = id then [e.2] else []) hnotes

end

/-! ### Activations -/

structure Attends (m : Machine) (t : VariableTracer) : Prop extends Tends m t where
  hears : ∀ j, t.Keeps j → j ∉ m.untraced

/-- Without a scope, an event of a frame that is kept changes what is kept. -/
theorem Tends.notes_of_keeps {m : Machine} {op : Op FrameId} {hook : HookName} {ctx : Context}
    (h : Tends m t) (isGlobal : t.isGlobal = true) (heard : m.heardBy? op = some (hook, ctx))
    (keeps : t.Keeps ctx.frame.id) : t.notes ctx = true := by
  have hlasts : ∀ c : Frame, c.id = ctx.frame.id → m.Knows c → ctx.frame.file = c.file := by
    intro c hid hknows
    have hget := h.issued.get?_of_heardBy heard
    rw [← hid] at hget
    exact ((continues_before m op).knows hknows).file ctx.frame hget
  have hscope : t.scope = none := Option.isNone_iff_eq_none.mp isGlobal
  rw [← Bool.not_eq_false, h.notes_eq_false_iff keeps hlasts, hscope]
  simp

theorem attention_of_skipFrame {s : VariableTracer × Surroundings} {hook : HookName} {ctx : Context}
    (h : (deliver hook ctx s).1 = .skipFrame) : s.1.attention ctx = .skip := by
  unfold deliver onEvent at h
  cases ha : s.1.attention ctx with
  | skip => rfl
  | pass | forget =>
    rw [ha] at h
    cases h
  | inspect =>
    rw [ha] at h
    dsimp only at h
    split at h <;> cases h

theorem Attends.step {m : Machine} {s : VariableTracer × Surroundings} (h : Attends m s.1)
    (isGlobal : s.1.isGlobal = true) (total : s.1.resolver.IsTotal) (op : Op FrameId) :
    Attends (m.step deliver s op).machine (m.step deliver s op).state.1 := by
  refine ⟨(h.toTends.step total op).1, fun j hk hu => ?_⟩
  have hs := state_step deliver m s op
  cases hx : m.heardBy? op with
  | none =>
    rw [hx] at hs
    rw [show (m.step deliver s op).state = s from hs] at hk
    rcases mem_untraced_heardBy deliver_ne_panicked hu with ⟨hold, -⟩ | ⟨x, -, hheard, -⟩
    · exact h.hears j hk hold
    · rw [hx] at hheard
      cases hheard
  | some x =>
    rw [hx] at hs
    rw [show (m.step deliver s op).state = (deliver x.1 x.2 s).2 from hs] at hk
    have hevent := h.issued.event?_of_heardBy hx
    rcases mem_untraced_heardBy deliver_ne_panicked hu with ⟨hold, hno⟩ | ⟨y, e, hy, hev, hskip⟩
    · -- the event was of another frame, so this one has been kept since before
      have hne : x.2.frame.id ≠ j := by
        rintro rfl
        exact (hno.resolve_left (by rw [hx]; exact Option.some_ne_none x)) _ hevent
      rcases keeps_of_onEvent total hk with hold' | ⟨-, hid⟩
      · exact h.hears j hold' hold
      · exact hne hid
    · -- an event that is passed over is of no frame that is kept
      rw [hx] at hy
      cases hy
      rw [hevent] at hev
      cases hev
      have hnotes : s.1.notes x.2 = true := by
        rcases keeps_of_onEvent total hk with hold | ⟨hn, -⟩
        · exact h.toTends.notes_of_keeps isGlobal hx hold
        · simp [notes, hn]
      have hskips := attention_of_skipFrame hskip
      simp [notes, hskips] at hnotes

theorem Attends.run {m : Machine} {s : VariableTracer × Surroundings} (h : Attends m s.1)
    (isGlobal : s.1.isGlobal = true) (total : s.1.resolver.IsTotal) (ops : List (Op FrameId)) :
    Attends (m.run deliver s ops).machine (m.run deliver s ops).state.1 := by
  induction ops generalizing m s with
  | nil => exact h
  | cons op ops ih =>
    have hf := (h.toTends.step total op).2
    rw [run_of_calm (panic_step deliver_ne_panicked m s op)]
    refine ih (h.step isGlobal total op) ?_ (hf.resolver ▸ total)
    unfold VariableTracer.isGlobal at isGlobal ⊢
    rw [hf.scope]
    exact isGlobal

theorem activation_concat (t : VariableTracer) (id : FrameId) (es : List (HookName × Context))
    (e : HookName × Context) : t.activation id (es ++ [e]) =
      if t.isOn ⟨es, e.2⟩ && e.2.frame.id = id then
        if e.2.event.isTerminal then [] else t.activation id es ++ [e.2]
      else t.activation id es := by
  unfold activation
  rw [eventsAt_concat]
  dsimp only
  split
  · rw [sinceEnd_concat]
  · rw [List.append_nil]

/-- Where a frame was looked at last in its activation, or else where it is. -/
def placeOf (t : VariableTracer) (x : Moment) : Frame :=
  ((t.activation x.event.frame.id x.before).getLast?.getD x.event).frame

end VariableTracer
end SelectiveTrace
