import SelectiveTrace.Proofs.Script.Abreast

/-! What scripts uphold. If a relation between the scene before and the scene after holds for every
action, and if the blocks can be put around it, then it holds for every script. -/
namespace SelectiveTrace

mutual

def Step.all (kind : Action → Bool) : Step → Bool
  | .act a => kind a
  | .trace _ body | .snoop _ body | .guard body | .attempt body | .thread _ _ body =>
    Step.allOf kind body

def Step.allOf (kind : Action → Bool) : Program → Bool
  | [] => true
  | step :: steps => step.all kind && Step.allOf kind steps

end

/-! How the blocks run. -/

theorem runUnder_eq (hook : HookName) (body : Program) (s : Scene) :
    runUnder hook body s =
      let r := runAll body (s.operate (.pushTrace hook)).2
      (r.1, (r.2.operate .popTrace).2) := by
  rw [runUnder]

theorem Step.run_trace (hook : HookName) (body : Program) (s : Scene) :
    (Step.trace hook body).run s = Scene.close "with" (runUnder hook body s) := by
  rw [Step.run]

theorem Step.run_snoop (tracer : HookName) (body : Program) {s : Scene} (h : s.isDisabled = false) :
    (Step.snoop tracer body).run s =
      let r := runUnder tracer body (s.beginBlock tracer)
      Scene.close "snoop" (r.1, r.2.endBlock tracer s.machine.current) := by
  rw [Step.run, h]
  rfl

theorem Step.run_snoop_of_disabled (tracer : HookName) (body : Program) {s : Scene}
    (h : s.isDisabled = true) :
    (Step.snoop tracer body).run s = Scene.close "snoop" (runAll body s) := by
  rw [Step.run, h, if_pos rfl]

inductive Tends : (Tracer → Surroundings → Tracer × Surroundings) → Prop where
  | target (code : CodeId) : Tends fun t w => (t.targetCode code, w)
  | enter (frame : FrameId) : Tends fun t w => (t.enter w frame, w)
  | exit (thread : Thread) (frame : FrameId) : Tends fun t w => t.exit w thread frame
  | finish : Tends Tracer.flush
  | register (file : Path) (text : String) :
      Tends fun t w => ({ t with sources := t.sources.register file text }, w)

namespace Scene

structure Upheld (kind : Action → Bool) (R : Scene → Scene → Prop) : Prop where
  stays : ∀ {s s'}, s'.audience = s.audience → s'.machines = s.machines →
    s'.running = s.running → R s s'
  trans : ∀ {a b c}, R a b → R b c → R a c
  host : ∀ s label {op}, kind (.host label op) = true → R s (s.host label op).2
  tend : ∀ s tracer {change}, Tends change → R s (s.onTracer tracer change)
  place : ∀ s file contents, R s (s.place file contents)
  retrace : ∀ s frame, R s (s.operate (.traceFrame frame)).2
  /-- Something is put under a hook of its own. -/
  under : ∀ hook {s s'}, R (s.operate (.pushTrace hook)).2 s' → R s (s'.operate .popTrace).2
  /-- Something is put on a thread of its own. -/
  thread : ∀ key name {s s'}, R { s.openThread key name with running := some key } s' →
    R s { s' with running := s.running }

namespace Upheld
variable {kind : Action → Bool} {R : Scene → Scene → Prop} {s : Scene}

theorem note (h : Upheld kind R) (s : Scene) (word : String) (result : Result) :
    R s (s.note word result) :=
  h.stays rfl rfl rfl

theorem act (h : Upheld kind R) {a : Action} (hall : kind a = true) (s : Scene) :
    R s (a.run s).2.2 := by
  have hsame : R s s := h.stays rfl rfl rfl
  cases a with
  | host label op => exact h.host s label hall
  | target tracer code =>
    simp only [Action.run]
    exact h.tend s tracer (.target code)
  | enter tracer label =>
    simp only [Action.run]
    split
    next frame _ => exact h.tend s tracer (.enter frame)
    · exact hsame
  | exit tracer label =>
    simp only [Action.run]
    split
    next frame _ => exact h.tend s tracer (.exit s.machine.thread frame)
    · exact hsame
  | finish tracer =>
    simp only [Action.run]
    exact h.tend s tracer .finish
  | register tracer file text =>
    simp only [Action.run]
    exact h.tend s tracer (.register file text)
  | place file contents => exact h.place s file contents
  | session tracer label line | frame label =>
    simp only [Action.run]
    split <;> exact hsame
  | installed | panic text | fail e | read file | globals file => exact hsame

theorem beginBlock (h : Upheld kind R) (s : Scene) (tracer : String) :
    R s (s.beginBlock tracer) := by
  unfold Scene.beginBlock
  split
  next frame _ => exact h.trans (h.tend s tracer (.enter frame)) (h.retrace _ frame)
  · exact h.stays rfl rfl rfl

theorem endBlock (h : Upheld kind R) (s : Scene) (tracer : String) (frame : Option FrameId) :
    R s (s.endBlock tracer frame) := by
  cases frame with
  | none => exact h.stays rfl rfl rfl
  | some frame => exact h.tend s tracer (.exit s.machine.thread frame)

theorem close (h : Upheld kind R) {r : Exit × Scene} (hr : R s r.2) (word : String) :
    R s (Scene.close word r).2 := by
  obtain ⟨exit, s'⟩ := r
  cases exit with
  | done => exact h.trans hr (h.note s' word .nothing)
  | failed e | panicked text => exact hr

theorem under_body (h : Upheld kind R) (hook : HookName) {body : Program}
    (hbody : ∀ s, R s (SelectiveTrace.runAll body s).2) (s : Scene) :
    R s (SelectiveTrace.runUnder hook body s).2 := by
  rw [runUnder_eq]
  exact h.under hook (hbody _)

mutual

/-- A step upholds the relation, by the steps it encloses. -/
theorem run (h : Upheld kind R) : (step : Step) → step.all kind = true → ∀ s, R s (step.run s).2
  | .act a => by
    intro hall s
    rw [Step.all] at hall
    have hact := h.act hall s
    rw [Step.run]
    generalize a.run s = r at hact ⊢
    obtain ⟨exit, result, s'⟩ := r
    cases exit with
    | done => exact h.trans hact (h.note s' a.word result)
    | failed e | panicked text => exact hact
  | .trace hook body => by
    intro hall s
    rw [Step.all] at hall
    rw [Step.run_trace]
    exact h.close (h.under_body hook (runAll h body hall) s) "with"
  | .snoop tracer body => by
    intro hall s
    rw [Step.all] at hall
    cases hd : s.isDisabled with
    | true =>
      rw [Step.run_snoop_of_disabled tracer body hd]
      exact h.close (runAll h body hall s) "snoop"
    | false =>
      rw [Step.run_snoop tracer body hd]
      have hbody := h.under_body tracer (runAll h body hall) (s.beginBlock tracer)
      exact h.close (h.trans (h.beginBlock s tracer) (h.trans hbody (h.endBlock _ tracer _))) "snoop"
  | .guard body => by
    intro hall s
    rw [Step.all] at hall
    have hbody := runAll h body hall s
    rw [Step.run]
    generalize SelectiveTrace.runAll body s = r at hbody ⊢
    obtain ⟨exit, s'⟩ := r
    cases exit with
    | done | panicked text => exact h.trans hbody (h.note s' "catch" _)
    | failed e => exact hbody
  | .attempt body => by
    intro hall s
    rw [Step.all] at hall
    have hbody := runAll h body hall s
    rw [Step.run]
    generalize SelectiveTrace.runAll body s = r at hbody ⊢
    obtain ⟨exit, s'⟩ := r
    cases exit with
    | done | failed e => exact h.trans hbody (h.note s' "try" _)
    | panicked text => exact hbody
  | .thread key name body => by
    intro hall s
    rw [Step.all] at hall
    have hbody := h.thread key name (s := s) (runAll h body hall _)
    rw [Step.run]
    generalize SelectiveTrace.runAll body { s.openThread key name with running := some key } = r
      at hbody ⊢
    obtain ⟨exit, s'⟩ := r
    cases exit with
    | done | panicked text => exact h.trans hbody (h.note _ "thread" _)
    | failed e => exact hbody

theorem runAll (h : Upheld kind R) :
    (steps : Program) → Step.allOf kind steps = true → ∀ s, R s (SelectiveTrace.runAll steps s).2
  | [] => by
    intro _ s
    rw [SelectiveTrace.runAll]
    exact h.stays rfl rfl rfl
  | step :: steps => by
    intro hall s
    rw [Step.allOf, Bool.and_eq_true] at hall
    have hstep := run h step hall.1 s
    rw [SelectiveTrace.runAll]
    generalize step.run s = r at hstep ⊢
    obtain ⟨exit, s'⟩ := r
    cases exit with
    | done => exact h.trans hstep (runAll h steps hall.2 s')
    | failed e | panicked text => exact hstep

end

/-- Steps under a hook of their own uphold the relation. -/
theorem runUnder (h : Upheld kind R) (hook : HookName) {body : Program}
    (hall : Step.allOf kind body = true) (s : Scene) :
    R s (SelectiveTrace.runUnder hook body s).2 :=
  h.under_body hook (h.runAll body hall) s

end Upheld

/-- An operation on frames by label is none, or one on frames with what is noted of the frame it makes. -/
theorem host_cases (s : Scene) (label : Option String) (op : Op String) :
    (s.host label op).2 = s ∨
      let s' := ((s.numbering op).operate (op.map fun l => (s.frames.get? l).getD s.machine.nextId)).2
      (s.host label op).2 = s' ∨ ∃ l, (s.host label op).2 = s'.bind l s.machine.nextId := by
  cases known : op.frame?.any fun l => !s.frames.contains l with
  | true =>
    left
    unfold host
    rw [known]
    rfl
  | false =>
    right
    rw [host_of_known known]
    obtain ⟨exit, s'⟩ :=
      (s.numbering op).operate (op.map fun l => (s.frames.get? l).getD s.machine.nextId)
    cases exit with
    | done => cases label with
      | none => exact .inl rfl
      | some l => exact .inr ⟨l, rfl⟩
    | failed e | panicked text => exact .inl rfl

end Scene
end SelectiveTrace
