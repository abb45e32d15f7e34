import Mathlib.Data.List.DropRight
import Mathlib.Data.List.Forall2
import SelectiveTrace.Proofs.History.Forgotten

/-! The entries of the history of a variable. There is one for each inspected event at which the value
is not that of the event inspected before, and it is credited to the place where the tracer has seen the
frame last. How often the frame had been there is counted with the event at hand. -/
namespace SelectiveTrace
open Machine

namespace VariableTracer

structure Moment where
  before : List (HookName × Context)
  event : Context

def momentsAfter (before : List (HookName × Context)) : List (HookName × Context) → List Moment
  | [] => []
  | e :: es => ⟨before, e.2⟩ :: momentsAfter (before ++ [e]) es

def moments (es : List (HookName × Context)) : List Moment :=
  momentsAfter [] es

theorem momentsAfter_concat (before es : List (HookName × Context)) (e : HookName × Context) :
    momentsAfter before (es ++ [e]) = momentsAfter before es ++ [⟨before ++ es, e.2⟩] := by
  induction es generalizing before with
  | nil => simp [momentsAfter]
  | cons d es ih => simp [momentsAfter, ih]

theorem moments_concat (es : List (HookName × Context)) (e : HookName × Context) :
    moments (es ++ [e]) = moments es ++ [⟨es, e.2⟩] :=
  momentsAfter_concat [] es e

theorem filter_moments_concat (p : Moment → Bool) (es : List (HookName × Context))
    (e : HookName × Context) : (moments (es ++ [e])).filter p =
      (moments es).filter p ++ if p ⟨es, e.2⟩ then [⟨es, e.2⟩] else [] := by
  rw [moments_concat, List.filter_append, List.filter_cons, List.filter_nil]

variable {t t' : VariableTracer} {ctx : Context} {j : FrameId} {visits : List Context}
  {s : VariableTracer × Surroundings}

/-- The events after the last one that ended the frame they are of. -/
def sinceEnd (es : List Context) : List Context :=
  es.rtakeWhile fun e => !e.event.isTerminal

theorem sinceEnd_concat (es : List Context) (e : Context) :
    sinceEnd (es ++ [e]) = if e.event.isTerminal then [] else sinceEnd es ++ [e] := by
  unfold sinceEnd
  rw [List.rtakeWhile_concat]
  cases e.event.isTerminal <;> rfl

/-- What the tracer has inspected of a frame since it let go of it. -/
def stay (id : FrameId) (s : VariableTracer × Surroundings) (es : List (HookName × Context)) :
    List Context :=
  sinceEnd (noted id s es)

theorem noted_concat (id : FrameId) (s : VariableTracer × Surroundings)
    (es : List (HookName × Context)) (e : HookName × Context) :
    noted id s (es ++ [e]) = noted id s es ++
      if (informed deliver s es).1.notes e.2 && e.2.frame.id = id then [e.2] else [] := by
  induction es generalizing s with
  | nil => exact List.append_nil _
  | cons d es ih =>
    rw [List.cons_append, noted, ih, noted, List.append_assoc]
    rfl

/-- The tables hold the place of the last of these visits, and the lines of all. -/
structure Recalls (t : VariableTracer) (id : FrameId) (visits : List Context) : Prop where
  place : t.places.get? id = visits.getLast?.map fun e => (e.frame.file, e.frame.line)
  hits : ∀ line, t.hits id line = visits.countP fun e => e.frame.line = line

theorem Recalls.congr (h : t.Recalls j visits) (places : t'.places = t.places)
    (lineHits : t'.lineHits = t.lineHits) : t'.Recalls j visits := by
  refine ⟨places ▸ h.place, fun line => ?_⟩
  rw [← h.hits line]
  unfold VariableTracer.hits
  rw [lineHits]

theorem recalls_nil (h : ¬ t.Keeps j) : t.Recalls j [] := by
  have hh := holds_of_not_keeps h
  have hp : t.places.get? j = none :=
    Option.isNone_iff_eq_none.mp (Option.isSome_eq_false_iff.mp hh.places)
  have hl : t.lineHits.get? j = none :=
    Option.isNone_iff_eq_none.mp (Option.isSome_eq_false_iff.mp hh.hits)
  exact ⟨hp, fun line => by simp [hits, hl]⟩

theorem not_keeps_forget (t : VariableTracer) (id : FrameId) : ¬ (t.forget id).Keeps id := by
  rw [(holds_forget t id).keeps]
  exact Bool.false_ne_true

theorem Recalls.forget (h : t.Recalls j visits) {id : FrameId} (hj : j ≠ id) :
    (t.forget id).Recalls j visits := by
  refine ⟨?_, fun line => ?_⟩
  · rw [← h.place, VariableTracer.forget, Table.get?_erase_of_ne _ hj]
  · rw [← h.hits line, VariableTracer.hits, VariableTracer.forget, Table.get?_erase_of_ne _ hj]
    rfl

theorem hits_recordHit (t : VariableTracer) (id : FrameId) (line n : Nat) :
    (t.recordHit id line).hits id n = t.hits id n + if line = n then 1 else 0 := by
  unfold recordHit
  rw [hits, Table.get?_insert_self, Option.bind_some, Table.get?_insert]
  by_cases h : n = line
  · subst h
    simp
  · rw [if_neg h, if_neg (Ne.symm h)]
    unfold hits
    cases t.lineHits.get? id <;> rfl

theorem hits_recordHit_of_ne (t : VariableTracer) {id : FrameId} (hj : j ≠ id) (line n : Nat) :
    (t.recordHit id line).hits j n = t.hits j n := by
  unfold recordHit
  rw [hits, Table.get?_insert_of_ne _ _ hj]
  rfl

def recalled (t : VariableTracer) (j : FrameId) (ctx : Context) (visits : List Context) :
    List Context :=
  if t.notes ctx && ctx.frame.id = j then
    if ctx.event.isTerminal then [] else visits ++ [ctx]
  else visits

theorem recalls_inspect (total : t.resolver.IsTotal) (h : t.Recalls j visits) (w : Surroundings) :
    (t.inspect ctx w).2.1.Recalls j
      (if ctx.frame.id = j then if ctx.event.isTerminal then [] else visits ++ [ctx]
        else visits) := by
  obtain ⟨u, w', hu, -, -, hh, hp⟩ :=
    @observe_tables (t.recordHit ctx.frame.id ctx.frame.line) total ctx w
  -- before a frame that ends is let go of: its own tables have the visit, all others are as they were
  have hsame : u.Recalls ctx.frame.id (visits ++ [ctx]) ∨ ctx.frame.id ≠ j := by
    by_cases hj : ctx.frame.id = j
    · subst hj
      refine Or.inl ⟨?_, fun line => ?_⟩
      · rw [hp, Table.get?_insert_self, List.getLast?_concat]
        rfl
      · have hn := hits_recordHit t ctx.frame.id ctx.frame.line line
        rw [hits, hh, ← hits, hn, h.hits line, List.countP_append]
        simp [List.countP_cons]
    · exact Or.inr hj
  have hother : j ≠ ctx.frame.id → u.Recalls j visits := by
    intro hj
    refine ⟨?_, fun line => ?_⟩
    · rw [hp, Table.get?_insert_of_ne _ _ hj]
      exact h.place
    · rw [hits, hh, ← hits, hits_recordHit_of_ne t hj]
      exact h.hits line
  unfold inspect
  dsimp only
  rw [hu]
  dsimp only
  by_cases hj : ctx.frame.id = j
  · rw [if_pos hj]
    have hnow := hsame.resolve_right (not_not.mpr hj)
    subst hj
    cases ctx.event.isTerminal with
    | true => exact recalls_nil (not_keeps_forget u ctx.frame.id)
    | false => exact hnow
  · rw [if_neg hj]
    cases ctx.event.isTerminal with
    | true => exact (hother (Ne.symm hj)).forget (Ne.symm hj)
    | false => exact hother (Ne.symm hj)

theorem recalls_onEvent (total : t.resolver.IsTotal) (h : t.Recalls j visits) (w : Surroundings) :
    (t.onEvent ctx w).2.1.Recalls j (t.recalled j ctx visits) := by
  unfold recalled
  cases ha : t.attention ctx with
  | skip | pass =>
    have hn : t.notes ctx = false := by simp [notes, ha]
    unfold onEvent
    rw [ha, hn]
    exact h.congr rfl rfl
  | forget =>
    have hn : t.notes ctx = true := by simp [notes, ha]
    have hstart : (t.start ctx).Recalls j visits := h.congr rfl rfl
    unfold onEvent
    rw [ha, hn, terminal_of_forget ha, Bool.true_and]
    by_cases hj : ctx.frame.id = j
    · subst hj
      simpa using recalls_nil (not_keeps_forget (t.start ctx) ctx.frame.id)
    · rw [if_neg (by simpa using hj)]
      exact hstart.forget (Ne.symm hj)
  | inspect =>
    have hn : t.notes ctx = true := by simp [notes, ha]
    let u := { t.start ctx with entered := (t.start ctx).entered || (t.start ctx).scope.isSome }
    have hu := @recalls_inspect u ctx j visits total (h.congr rfl rfl) w
    unfold onEvent
    rw [ha, hn, Bool.true_and]
    simp only [decide_eq_true_eq]
    split
    next t' w' heq =>
      rw [heq] at hu
      exact hu
    next e t' w' heq =>
      rw [heq] at hu
      exact hu.congr rfl rfl

theorem stay_concat (id : FrameId) (s : VariableTracer × Surroundings)
    (es : List (HookName × Context)) (e : HookName × Context) :
    stay id s (es ++ [e]) = (informed deliver s es).1.recalled id e.2 (stay id s es) := by
  unfold stay recalled
  rw [noted_concat]
  split
  · rw [sinceEnd_concat]
  · rw [List.append_nil]

/-- What is recalled of a frame is what was inspected of it since the tracer let go of it. -/
theorem recalls_informed (total : s.1.resolver.IsTotal) (bare : ∀ id, ¬ s.1.Keeps id)
    (j : FrameId) (es : List (HookName × Context)) :
    (informed deliver s es).1.Recalls j (stay j s es) := by
  induction es using List.reverseRecOn with
  | nil => exact recalls_nil (bare j)
  | append_singleton es e ih =>
    have htotal : (informed deliver s es).1.resolver.IsTotal :=
      (lastValue_informed total es).1.resolver ▸ total
    have hnext := @recalls_onEvent _ e.2 j _ htotal ih (informed deliver s es).2
    rw [informed_append, stay_concat]
    exact hnext

theorem length_stay_le (id : FrameId) (s : VariableTracer × Surroundings)
    (es : List (HookName × Context)) : (stay id s es).length ≤ es.length := by
  induction es using List.reverseRecOn with
  | nil => exact Nat.le_refl _
  | append_singleton es e ih =>
    rw [stay_concat, recalled, List.length_append, List.length_singleton]
    split
    · split
      · exact Nat.zero_le _
      · rw [List.length_append, List.length_singleton]
        omega
    · omega

/-- No count exceeds the number of events. -/
theorem hits_informed_le (total : s.1.resolver.IsTotal) (bare : ∀ id, ¬ s.1.Keeps id) (id : FrameId)
    (line : Nat) (es : List (HookName × Context)) :
    (informed deliver s es).1.hits id line ≤ es.length := by
  rw [(recalls_informed total bare id es).hits line]
  exact List.countP_le_length.trans (length_stay_le id s es)

/-! ### What is told of a change -/

/-- The place that a change at an event is credited to: where the frame was before, or where it is. -/
def creditedAt (t : VariableTracer) (ctx : Context) : Path × Nat :=
  (t.places.get? ctx.frame.id).getD (ctx.frame.file, ctx.frame.line)

/-- The frame was last where its last visit was. -/
theorem Recalls.creditedAt {ctx : Context} (h : t.Recalls ctx.frame.id visits) :
    t.creditedAt ctx = ((visits.getLast?.getD ctx).frame.file, (visits.getLast?.getD ctx).frame.line) := by
  unfold VariableTracer.creditedAt
  rw [h.place]
  cases visits.getLast? <;> rfl

/-- An entry tells of the value at an event, of the statement on the credited line, and whether the
frame has been on that line more often than the limit, with the event counted. -/
structure Tells (t : VariableTracer) (w : Surroundings) (ctx : Context) (c : Change) : Prop where
  value : t.current? ctx = some c.value
  file : c.file = (t.creditedAt ctx).1
  stated : (t.statement (t.creditedAt ctx).1 (t.creditedAt ctx).2 w).1 = .ok (c.code, c.location)
  looped : c.looped = decide (t.loopLimit < t.hits ctx.frame.id (t.creditedAt ctx).2 +
    if ctx.frame.line = (t.creditedAt ctx).2 then 1 else 0)

def IsNews (t : VariableTracer) (ctx : Context) : Prop :=
  t.attention ctx = .inspect ∧ (t.current? ctx).isSome = true ∧ t.lastValue ≠ t.current? ctx

instance (t : VariableTracer) (ctx : Context) : Decidable (t.IsNews ctx) :=
  inferInstanceAs (Decidable (_ ∧ _))

theorem fst_statement_congr (resolver : t'.resolver = t.resolver) (sources : t'.sources = t.sources)
    (file : Path) (line : Nat) (w : Surroundings) :
    (t'.statement file line w).1 = (t.statement file line w).1 := by
  unfold statement
  rw [resolver, sources]
  cases t.resolver.ask (.statementRange line) file w with
  | mk answer w' =>
    cases answer with
    | error e => rfl
    | ok span =>
      cases span with
      | none => rfl
      | some span =>
        dsimp only
        cases t.sources.range w' file span.start span.stop with
        | mk lines sources => cases lines <;> rfl

/-- What is recorded, after the event has been counted. -/
theorem record_tells (total : t.resolver.IsTotal) {value : String}
    (now : t.current? ctx = some value) (w : Surroundings) :
    ∃ c u w', (t.recordHit ctx.frame.id ctx.frame.line).record ctx value w = (none, u, w') ∧
      u.history = t.history ++ [c] ∧ t.Tells w ctx c := by
  let t₁ := t.recordHit ctx.frame.id ctx.frame.line
  let place := (t₁.places.get? ctx.frame.id).getD (ctx.frame.file, ctx.frame.line)
  obtain ⟨told, sources, w', hs⟩ := @statement_total t₁ total place.1 place.2 w
  have hsame : (t₁.statement place.1 place.2 w).1 = (t.statement place.1 place.2 w).1 :=
    @fst_statement_congr t t₁ rfl rfl place.1 place.2 w
  rw [hs] at hsame
  refine ⟨⟨place.1, told.2, value, told.1, decide (t.loopLimit < t₁.hits ctx.frame.id place.2)⟩,
    { t₁ with sources, history := _ }, w', ?_, rfl, now, rfl, hsame.symm, ?_⟩
  · unfold record
    dsimp only
    rw [hs]
    rfl
  · exact congrArg (decide <| t.loopLimit < ·) (hits_recordHit t _ _ _)

/-- A value that is new is recorded, and no other. -/
theorem history_onEvent (total : t.resolver.IsTotal) (ctx : Context) (w : Surroundings) :
    (t.IsNews ctx ∧ ∃ c, (t.onEvent ctx w).2.1.history = t.history ++ [c] ∧ t.Tells w ctx c) ∨
      (¬ t.IsNews ctx ∧ (t.onEvent ctx w).2.1.history = t.history) := by
  by_cases hnews : t.IsNews ctx
  · obtain ⟨counts, hsome, differs⟩ := hnews
    obtain ⟨value, hv⟩ := Option.isSome_iff_exists.mp hsome
    -- the tracer that inspects differs from `t` in its two marks only, which no entry tells of
    let u := { t.start ctx with entered := (t.start ctx).entered || (t.start ctx).scope.isSome }
    obtain ⟨c, u', w', hr, hh, ht⟩ := @record_tells u ctx total value hv w
    have hsame := @fst_statement_congr t u rfl rfl (t.creditedAt ctx).1 (t.creditedAt ctx).2 w
    refine Or.inl ⟨⟨counts, hsome, differs⟩, c, ?_, ht.value, ht.file, ?_, ht.looped⟩
    · have hlast : (u.recordHit ctx.frame.id ctx.frame.line).lastValue ≠ some value := hv ▸ differs
      have hcur : (u.recordHit ctx.frame.id ctx.frame.line).current? ctx = some value := hv
      have hadded : u'.history = t.history ++ [c] := hh
      unfold onEvent
      rw [counts]
      dsimp only
      rw [inspect, observe, hcur]
      dsimp only
      rw [if_neg hlast, hr]
      dsimp only
      rw [apply_ite VariableTracer.history]
      simpa [forget, settle] using hadded
    · rw [← hsame]
      exact ht.stated
  · refine Or.inr ⟨hnews, ?_⟩
    by_cases counts : t.attention ctx = .inspect
    · obtain ⟨t', w', cs, he, ho⟩ := observes_onEvent total counts w
      rw [he, ho.history]
      cases ho.recorded with
      | kept => exact List.append_nil _
      | changed c value differs =>
        exact absurd ⟨counts, by rw [value]; rfl, differs⟩ hnews
    · obtain ⟨a, t', he, -, -, -, hh⟩ := onEvent_of_uncounted counts w
      rw [he, hh]

def news (s : VariableTracer × Surroundings) (es : List (HookName × Context)) : List Moment :=
  (moments es).filter fun x => (informed deliver s x.before).1.IsNews x.event

theorem news_concat (s : VariableTracer × Surroundings) (es : List (HookName × Context))
    (e : HookName × Context) : news s (es ++ [e]) =
      news s es ++ if (informed deliver s es).1.IsNews e.2 then [⟨es, e.2⟩] else [] := by
  unfold news
  rw [filter_moments_concat]
  simp only [decide_eq_true_eq]

/-- The history has one entry for each of these moments. -/
theorem history_informed (total : s.1.resolver.IsTotal) (empty : s.1.history = [])
    (es : List (HookName × Context)) :
    List.Forall₂ (fun c x => (informed deliver s x.before).1.Tells
      (informed deliver s x.before).2 x.event c) (informed deliver s es).1.history (news s es) := by
  induction es using List.reverseRecOn with
  | nil => exact empty ▸ .nil
  | append_singleton es e ih =>
    have htotal : (informed deliver s es).1.resolver.IsTotal :=
      (lastValue_informed total es).1.resolver ▸ total
    rw [informed_append, news_concat]
    rcases history_onEvent htotal e.2 (informed deliver s es).2 with ⟨hnews, c, hh, ht⟩ | ⟨hno, hh⟩
    · rw [if_pos hnews]
      have hstep : (informed deliver (informed deliver s es) [e]).1.history =
          (informed deliver s es).1.history ++ [c] := hh
      rw [hstep]
      exact List.rel_append ih (.cons ht .nil)
    · rw [if_neg hno, List.append_nil]
      have hstep : (informed deliver (informed deliver s es) [e]).1.history =
          (informed deliver s es).1.history := hh
      rw [hstep]
      exact ih

end VariableTracer
end SelectiveTrace
