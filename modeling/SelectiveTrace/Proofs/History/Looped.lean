import SelectiveTrace.Proofs.History.Global

/-! Which changes of a variable are told as repeated by a loop. A change shows at the event after the
statement that made it, and the line of that event has been counted by then. Visits are counted without
bound; counts of 32 bits do the same in all runs of fewer than `2 ^ 32` operations. -/
namespace SelectiveTrace
open Machine

namespace VariableTracer
variable {t : VariableTracer}

def visitsTo (e : Context) (visits : List Context) : Nat :=
  visits.countP fun v => v.frame.line = e.frame.line

/-- A change is looped if the limit is exceeded by the visits to the credited line, where the event at
hand is a visit too. -/
theorem Recalls.looped_iff {visits : List Context} {x : Context} {w : Surroundings} {c : Change}
    (h : t.Recalls x.frame.id visits) (htells : t.Tells w x c) {e : Context}
    (last : visits.getLast? = some e) :
    c.looped = true ↔ t.loopLimit < visitsTo e visits ∨
      (visitsTo e visits = t.loopLimit ∧ x.frame.line = e.frame.line) := by
  have hplace := h.creditedAt
  rw [last, Option.getD_some] at hplace
  have hhits : t.hits x.frame.id e.frame.line = visitsTo e visits := h.hits e.frame.line
  rw [htells.looped, decide_eq_true_iff, hplace, hhits]
  split
  next hline => simp [hline]; omega
  next hline => simp [hline]

/-! ### Since a frame was left -/

/-- The moments of a frame since it was last left, be it inside the scope or outside. -/
def sinceLeft (id : FrameId) (es : List (HookName × Context)) : List Moment :=
  ((moments es).filter fun x => x.event.frame.id = id).rtakeWhile fun x => !x.event.event.isTerminal

def visited (id : FrameId) (s : VariableTracer × Surroundings) (es : List (HookName × Context)) :
    List Context :=
  ((sinceLeft id es).filter fun x =>
    (informed deliver s x.before).1.attention x.event = .inspect).map Moment.event

theorem visited_concat (id : FrameId) (s : VariableTracer × Surroundings)
    (es : List (HookName × Context)) (e : HookName × Context) :
    visited id s (es ++ [e]) =
      if e.2.frame.id = id then
        if e.2.event.isTerminal then []
        else visited id s es ++
          if (informed deliver s es).1.attention e.2 = .inspect then [e.2] else []
      else visited id s es := by
  unfold visited sinceLeft
  rw [filter_moments_concat]
  by_cases hid : e.2.frame.id = id
  · rw [if_pos hid, if_pos (by simpa using hid), List.rtakeWhile_concat]
    cases e.2.event.isTerminal with
    | true => rfl
    | false =>
      rw [Bool.not_false, if_pos rfl, if_neg Bool.false_ne_true, List.filter_append, List.map_append]
      congr 1
      by_cases hi : (informed deliver s es).1.attention e.2 = .inspect <;> simp [hi]
  · rw [if_neg hid, if_neg (by simpa using hid), List.append_nil]

/-- An event that does not end its frame is noted if it is inspected. -/
theorem notes_of_not_terminal {ctx : Context} (h : ctx.event.isTerminal = false) :
    t.notes ctx = decide (t.attention ctx = .inspect) := by
  have hforget : t.attention ctx ≠ .forget := by
    intro hf
    rw [terminal_of_forget hf] at h
    cases h
  simp [notes, hforget]

/-- The tracer lets go of a frame when it is left, at the earliest. -/
theorem visited_isSuffix_stay (id : FrameId) (s : VariableTracer × Surroundings)
    (es : List (HookName × Context)) : visited id s es <:+ stay id s es := by
  induction es using List.reverseRecOn with
  | nil => exact List.suffix_refl _
  | append_singleton es e ih =>
    rw [visited_concat, stay_concat, recalled]
    by_cases hid : e.2.frame.id = id
    · cases he : e.2.event.isTerminal with
      | true => simp [hid]
      | false =>
        rw [notes_of_not_terminal he]
        obtain ⟨earlier, hs⟩ := ih
        by_cases hi : (informed deliver s es).1.attention e.2 = .inspect
        · simpa [hid, hi] using ⟨earlier, by rw [← List.append_assoc, hs]⟩
        · simpa [hid, hi] using ⟨earlier, hs⟩
    · simpa [hid] using ih

/-- It does so just then, if no end of the frame passes it by. -/
theorem visited_eq_stay {id : FrameId} {s : VariableTracer × Surroundings}
    {es : List (HookName × Context)} (noted : ∀ x ∈ moments es, x.event.frame.id = id →
      x.event.event.isTerminal = true → (informed deliver s x.before).1.notes x.event = true) :
    visited id s es = stay id s es := by
  induction es using List.reverseRecOn with
  | nil => rfl
  | append_singleton es e ih =>
    rw [moments_concat] at noted
    have hrest := ih fun x hx => noted x (List.mem_append_left _ hx)
    have hlast := noted ⟨es, e.2⟩ (by simp)
    rw [visited_concat, stay_concat, recalled, hrest]
    by_cases hid : e.2.frame.id = id
    · cases he : e.2.event.isTerminal with
      | true =>
        have hn : (informed deliver s es).1.notes e.2 = true := hlast hid he
        simp [hid, hn]
      | false =>
        rw [notes_of_not_terminal he]
        by_cases hi : (informed deliver s es).1.attention e.2 = .inspect <;> simp [hid, hi]
    · simp [hid]

/-! ### What is looped -/

/-- An entry is credited to the visit `e` of its frame, on the line of `e`. It is looped if there have
been more visits to that line than the limit, or just as many and the frame is on the line again. The
number of visits tells it by itself, but for this second case. -/
structure Credits (t : VariableTracer) (w : Surroundings) (visits : List Context) (e : Context)
    (c : Change) (x : Moment) : Prop where
  file : c.file = e.frame.file
  stated :
    let before := informed deliver (t, w) x.before
    (before.1.statement e.frame.file e.frame.line before.2).1 = .ok (c.code, c.location)
  looped : c.looped = true ↔ t.loopLimit < visitsTo e visits ∨
    (visitsTo e visits = t.loopLimit ∧ x.event.frame.line = e.frame.line)
  exact_unless : (c.looped = true ↔ t.loopLimit < visitsTo e visits) ↔
    ¬ (visitsTo e visits = t.loopLimit ∧ x.event.frame.line = e.frame.line)

/-- An entry is credited to the last visit of its frame. The visits count from when the tracer let go of
the frame last: that is when the frame was left, without a scope or where no end of the frame lay outside
of it, and it may be before that else. No count exceeds the number of operations, so counts of 32 bits
never overflow in fewer than `2 ^ 32` of them. -/
theorem looped_by_visits_of_credited {r : VariableRequest} {isGlobal : Bool} {resolver : Resolver}
    {limit : Nat} {w₀ w₁ : Surroundings} (made : ofRequest r isGlobal resolver limit w₀ = (.ok t, w₁))
    (answers : t.resolver.IsTotal) (w : Surroundings) (m : Machine) (ops : List (Op FrameId)) :
    let run := m.run deliver (t, w) ops
    let visits := fun x : Moment => stay x.event.frame.id (t, w) x.before
    run.panic = none ∧
    List.Forall₂ (fun c x => ∀ e ∈ (visits x).getLast?, t.Credits w (visits x) e c x)
      run.state.1.history (news (t, w) (m.heard deliver (t, w) ops)) ∧
    (∀ x, visited x.event.frame.id (t, w) x.before <:+ visits x ∧
      ((∀ y ∈ moments x.before, y.event.frame.id = x.event.frame.id →
          y.event.event.isTerminal = true →
          (informed deliver (t, w) y.before).1.notes y.event = true) →
        visited x.event.frame.id (t, w) x.before = visits x) ∧
      (t.isGlobal = true → visits x = t.activation x.event.frame.id x.before)) ∧
    ∀ id line, run.state.1.hits id line ≤ ops.length := by
  intro run visits
  obtain ⟨unused, -, -⟩ := isUnused_ofRequest made
  refine ⟨panic_run deliver_ne_panicked _ _ _, ?_, fun x => ⟨visited_isSuffix_stay _ _ _,
    visited_eq_stay, fun moduleWide => stay_eq_activation moduleWide unused answers _ _⟩,
    fun id line => ?_⟩
  · have hhistory := history_informed (s := (t, w)) answers unused.history
      (m.heard deliver (t, w) ops)
    rw [← state_run deliver m (t, w) ops] at hhistory
    refine hhistory.imp fun c x htells e he => ?_
    have last := Option.mem_def.mp he
    have hf := (lastValue_informed (s := (t, w)) answers x.before).1
    have hrecalls := recalls_informed (s := (t, w)) answers unused.bare x.event.frame.id x.before
    have hlooped := hrecalls.looped_iff htells last
    have hplace := hrecalls.creditedAt
    rw [last, Option.getD_some] at hplace
    obtain ⟨-, file, stated, -⟩ := htells
    rw [hplace] at file stated
    rw [show _ = t.loopLimit from hf.loopLimit] at hlooped
    have hnot : visitsTo e (visits x) = t.loopLimit → ¬ t.loopLimit < visitsTo e (visits x) :=
      fun h => h ▸ lt_irrefl _
    refine ⟨file, stated, hlooped, ?_⟩
    rw [hlooped]
    tauto
  · have hle := hits_informed_le (s := (t, w)) answers unused.bare id line
      (m.heard deliver (t, w) ops)
    rw [← state_run deliver m (t, w) ops] at hle
    exact hle.trans (length_heard_le deliver m (t, w) ops)

def loopOnOneLine : List (Op FrameId) :=
  let module : FrameId := ⟨0, 0⟩
  [.enterModule ⟨"<module>", ⟨"/p.py"⟩, 1⟩, .line module 1, .line module 2, .setLocal module "x" (.int 0),
    .line module 3, .setLocal module "x" (.int 1), .line module 3, .setLocal module "x" (.int 2),
    .line module 4]

theorem looped_on_one_line :
    let r : VariableRequest := { entry := ⟨"/p.py"⟩, name := "x" }
    let resolver : Resolver := ⟨fun _ _ w => (.ok none, w)⟩
    let t : VariableTracer :=
      { entry := ⟨"/p.py"⟩, file := none, name := "x", scope := none, loopLimit := 1, resolver }
    let m : Machine := { hook := some "history" }
    let run := m.run deliver (t, {}) loopOnOneLine
    let visits := fun x : Moment => stay x.event.frame.id (t, {}) x.before
    let news := news (t, {}) (m.heard deliver (t, {}) loopOnOneLine)
    ofRequest r true resolver 1 {} = (.ok t, {}) ∧ t.resolver.IsTotal ∧ run.panic = none ∧
      List.Forall₂ (fun c x => ∀ e ∈ (visits x).getLast?, t.Credits {} (visits x) e c x)
        run.state.1.history news ∧
      news.map (fun x => (visits x).getLast?.map fun e => (e.frame.line, visitsTo e (visits x))) =
        [some (2, 1), some (3, 1), some (3, 2)] ∧
      run.state.1.history.map (·.looped) = [false, true, true] := by
  intro r resolver t m run visits news
  have made : ofRequest r true resolver 1 {} = (.ok t, {}) := rfl
  have answers : t.resolver.IsTotal := fun _ _ w => ⟨none, w, rfl⟩
  obtain ⟨calm, hcredits, -⟩ := looped_by_visits_of_credited made answers {} m loopOnOneLine
  exact ⟨made, answers, calm, hcredits, by decide +kernel, by decide +kernel⟩

/-- The change of the first visit is looped already, where one visit is to be told in full. -/
theorem first_visit_looped :
    let r : VariableRequest := { entry := ⟨"/p.py"⟩, name := "x" }
    let resolver : Resolver := ⟨fun _ _ w => (.ok none, w)⟩
    let t : VariableTracer :=
      { entry := ⟨"/p.py"⟩, file := none, name := "x", scope := none, loopLimit := 1, resolver }
    let m : Machine := { hook := some "history" }
    let run := m.run deliver (t, {}) loopOnOneLine
    let turns := (moments (m.heard deliver (t, {}) loopOnOneLine)).filter t.isTurn
    ofRequest r true resolver 1 {} = (.ok t, {}) ∧ t.resolver.IsTotal ∧ run.panic = none ∧
      ¬ List.Forall₂ (fun c x => ∀ e ∈ (t.activation x.event.frame.id x.before).getLast?,
          (c.looped = true ↔
            t.loopLimit < visitsTo e (t.activation x.event.frame.id x.before)))
        run.state.1.history turns := by
  intro r resolver t m run turns
  refine ⟨rfl, fun _ _ w => ⟨none, w, rfl⟩, panic_run deliver_ne_panicked _ _ _, fun h => ?_⟩
  have hwrong : ((run.state.1.history.zip turns).any fun p =>
      (t.activation p.2.event.frame.id p.2.before).getLast?.any fun e => p.1.looped &&
        visitsTo e (t.activation p.2.event.frame.id p.2.before) ≤ t.loopLimit) = true := by
    decide +kernel
  obtain ⟨⟨c, x⟩, hp, hany⟩ := List.any_eq_true.mp hwrong
  obtain ⟨e, he, hboth⟩ := (Option.any_eq_true _ _).mp hany
  obtain ⟨looped, within⟩ := (Bool.and_eq_true _ _).mp hboth
  have hmore := ((List.forall₂_iff_zip.mp h).2 hp e he).mp looped
  exact absurd hmore (Nat.not_lt.mpr (of_decide_eq_true within))

end VariableTracer
end SelectiveTrace
