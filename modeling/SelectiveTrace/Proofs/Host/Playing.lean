import SelectiveTrace.Program
import SelectiveTrace.Proofs.Tracer.Verdict

/-! Programs that only operate on their machine. Under one tracer such a program is a run of the
machine with that tracer as its hook. -/
namespace SelectiveTrace

namespace Machine
variable {σ τ : Type} {deliver : Deliver σ} {deliver' : Deliver τ} {φ : σ → τ} {m : Machine}
  {hook : HookName}

/-- Hooks that answer alike drive the machine alike. -/
theorem dispatch_map (agree : ∀ ctx s, deliver' hook ctx (φ s) =
      ((deliver hook ctx s).1, φ (deliver hook ctx s).2))
    (hk : m.hook = some hook) (s : σ) (id : FrameId) (e : Event) :
    m.dispatch deliver' (φ s) id e =
      let r := m.dispatch deliver s id e
      ⟨r.machine, φ r.state, r.panic⟩ := by
  unfold dispatch
  rw [hk]
  cases m.frames.get? id with
  | none => rfl
  | some f =>
    dsimp only
    rw [agree]
    split
    · rfl
    · cases deliver hook (m.context f e) s with
      | mk a s' => cases a <;> rfl

theorem step_map (agree : ∀ ctx s, deliver' hook ctx (φ s) =
      ((deliver hook ctx s).1, φ (deliver hook ctx s).2))
    {op : Op FrameId} (hk : (op.before m).hook = some hook) (s : σ) :
    m.step deliver' (φ s) op =
      let r := m.step deliver s op
      ⟨r.machine, φ r.state, r.panic⟩ := by
  unfold step
  split
  · rfl
  · cases op.event? m with
    | none => rfl
    | some ev =>
      have hd := dispatch_map agree hk s ev.1 ev.2
      dsimp only at hd ⊢
      rw [hd]
      split <;> rfl

end Machine

namespace Program

def seated (s : Tracer × Surroundings) : Audience :=
  ⟨[(hookName, .tracer s.1)], s.2⟩

theorem deliver_seated (ctx : Context) (s : Tracer × Surroundings) :
    Audience.deliver hookName ctx (seated s) =
      ((Tracer.deliver hookName ctx s).1, seated (Tracer.deliver hookName ctx s).2) := by
  unfold Audience.deliver seated Tracer.deliver
  simp [Bindings.get?, Bindings.set, Hook.onEvent]

def ofHost (steps : List (Option String × Op String)) (failure : Option Raised) : Program :=
  steps.map (fun step => .act (.host step.1 step.2)) ++ (failure.map fun e => .act (.fail e)).toList

end Program

namespace Scene
variable {s : Scene} {m : Machine} {u : Tracer × Surroundings}

structure Plays (s : Scene) (m : Machine) (u : Tracer × Surroundings) : Prop where
  machine : s.machine = m
  audience : s.audience = Program.seated u

def operation? (s : Scene) (op : Op String) : Option (Op FrameId) :=
  if op.frame?.any fun l => !s.frames.contains l then none
  else some (op.map fun l => (s.frames.get? l).getD s.machine.nextId)

def operations : Scene → List (Option String × Op String) → List (Op FrameId)
  | _, [] => []
  | s, (label, op) :: steps =>
    (s.operation? op).toList ++ operations ((s.host label op).2.note op.word .nothing) steps

theorem machine_setMachine (s : Scene) (m : Machine) : (s.setMachine m).machine = m := by
  simp [machine, setMachine]

theorem Plays.operate (h : s.Plays m u) {op : Op FrameId}
    (hk : (op.before m).hook = some Program.hookName)
    (calm : (m.step Tracer.deliver u op).panic = none) :
    ∃ s', s.operate op = (.done, s') ∧
      s'.Plays (m.step Tracer.deliver u op).machine (m.step Tracer.deliver u op).state := by
  have hs := Machine.step_map Program.deliver_seated hk u
  dsimp only at hs
  rw [calm] at hs
  unfold Scene.operate
  rw [h.machine, h.audience, hs]
  exact ⟨_, rfl, machine_setMachine s _, rfl⟩

theorem Plays.note (h : s.Plays m u) (word : String) (result : Result) :
    (s.note word result).Plays m u :=
  ⟨h.machine, h.audience⟩

theorem Plays.host (h : s.Plays m u) {op : Op String} {op' : Op FrameId}
    (hop : s.operation? op = some op') (hk : (op'.before m).hook = some Program.hookName)
    (calm : (m.step Tracer.deliver u op').panic = none) (label : Option String) :
    ∃ s', s.host label op = (.done, s') ∧
      s'.Plays (m.step Tracer.deliver u op').machine (m.step Tracer.deliver u op').state := by
  unfold operation? at hop
  split at hop
  · cases hop
  next hl =>
    have hbirths : ∀ births, Plays { s with births } m u :=
      fun births => ⟨h.machine, h.audience⟩
    have hborn : Plays (if op.isBirth then { s with births := s.births ++ [s.machine.nextId] }
        else s) m u := by
      split
      · exact hbirths _
      · exact h
    have hframes : (if op.isBirth then { s with births := s.births ++ [s.machine.nextId] }
        else s).frames = s.frames := by
      split <;> rfl
    rw [← hframes] at hop
    have hop' := Option.some.inj hop
    obtain ⟨s', hs, hp⟩ := hborn.operate hk calm
    unfold Scene.host
    rw [if_neg hl]
    dsimp only
    rw [hop', hs]
    cases label with
    | none => exact ⟨s', rfl, hp⟩
    | some label => exact ⟨s'.bind label s.machine.nextId, rfl, hp.machine, hp.audience⟩

/-- The steps of a program are the operations of a run. -/
theorem Plays.runAll (h : s.Plays m u) (hk : m.hook = some Program.hookName)
    {steps : List (Option String × Op String)}
    (hd : m.Disciplined Tracer.deliver u (s.operations steps))
    (calm : (m.run Tracer.deliver u (s.operations steps)).panic = none) (more : Program) :
    ∃ s', SelectiveTrace.runAll (steps.map (fun step => .act (.host step.1 step.2)) ++ more) s =
        SelectiveTrace.runAll more s' ∧
      s'.Plays (m.run Tracer.deliver u (s.operations steps)).machine
        (m.run Tracer.deliver u (s.operations steps)).state := by
  induction steps generalizing s m u with
  | nil => exact ⟨s, rfl, h⟩
  | cons step steps ih =>
    obtain ⟨label, op⟩ := step
    have hrun : ∀ s', s.host label op = (.done, s') →
        Step.run (.act (.host label op)) s = (.done, s'.note op.word .nothing) := by
      intro s' hs
      simp only [Step.run, Action.run, hs]
      rfl
    rw [operations] at hd calm ⊢
    simp only [List.map_cons, List.cons_append, SelectiveTrace.runAll]
    cases hop : s.operation? op with
    | none =>
      have hs : s.host label op = (.done, s) := by
        unfold operation? at hop
        unfold Scene.host
        split at hop
        next hl => rw [if_pos hl]
        · cases hop
      rw [hop, hs] at hd calm
      rw [hrun s hs, hs]
      exact ih (h.note _ _) hk hd calm
    | some op' =>
      rw [hop] at hd calm
      simp only [Option.toList_some, List.singleton_append] at hd calm ⊢
      obtain ⟨-, keeps, hrest⟩ := hd
      have hfirst : (m.step Tracer.deliver u op').panic = none := by
        cases hp : (m.step Tracer.deliver u op').panic with
        | none => rfl
        | some text => simp [Machine.run, hp] at calm
      obtain ⟨s', hs, hplays⟩ := h.host hop (keeps.trans hk) hfirst label
      rw [hs] at hrest calm ⊢
      rw [hrun s' hs]
      rw [Machine.run_of_calm hfirst] at calm ⊢
      exact ih (hplays.note _ _) ((Machine.hook_step keeps).trans hk) hrest calm

end Scene

namespace Program
variable {s : Scene} {t : Tracer} {steps : List (Option String × Op String)}

def opening (t : Tracer) (s : Scene) : Scene :=
  ((s.restart hookName (.tracer t)).operate (.pushTrace hookName)).2

theorem plays_opening (t : Tracer) (s : Scene) :
    (opening t s).Plays (opening t s).machine (t, s.around) :=
  ⟨rfl, rfl⟩

theorem machine_opening (t : Tracer) (s : Scene) :
    (opening t s).machine = ({ id := s.made } : Machine).pushTrace hookName := by
  have hm : (s.restart hookName (.tracer t)).machine = { id := s.made } := by
    simp [Scene.machine, Scene.restart]
  have ho : opening t s = (s.restart hookName (.tracer t)).setMachine
      ((s.restart hookName (.tracer t)).machine.pushTrace hookName) := rfl
  rw [ho, Scene.machine_setMachine, hm]

theorem isFresh_opening (t : Tracer) (s : Scene) : (opening t s).machine.IsFresh := by
  rw [machine_opening]
  exact ⟨rfl, rfl, rfl, rfl⟩

theorem hook_opening (t : Tracer) (s : Scene) : (opening t s).machine.hook = some hookName := by
  rw [machine_opening]
  rfl

/-- A program under a tracer ends as the run does, and the tracer writes its graph at last. -/
theorem runTracer_ofHost (hd : (opening t s).machine.Disciplined Tracer.deliver (t, s.around)
      ((opening t s).operations steps))
    (calm : ((opening t s).machine.run Tracer.deliver (t, s.around)
      ((opening t s).operations steps)).panic = none) (failure : Option Raised) :
    let u := ((opening t s).machine.run Tracer.deliver (t, s.around)
      ((opening t s).operations steps)).state
    ∃ s', (ofHost steps failure).runTracer t s = .ok (failure, (u.1.flush u.2).1, s') := by
  intro u
  let more : Program := (failure.map fun e => .act (.fail e)).toList
  obtain ⟨s', hrun, hplays⟩ :=
    (plays_opening t s).runAll (hook_opening t s) hd calm more
  have hall : runAll (ofHost steps failure) (opening t s) = runAll more s' := hrun
  have hend : runAll more s' = (failure.elim .done .failed, (runAll more s').2) ∧
      (runAll more s').2.audience = seated u := by
    cases failure with
    | none => exact ⟨by simp [more, runAll], by simpa [more, runAll] using hplays.audience⟩
    | some e =>
      exact ⟨by simp [more, runAll, Step.run, Action.run],
        by simpa [more, runAll, Step.run, Action.run] using hplays.audience⟩
  obtain ⟨hexit, haud⟩ := hend
  let s₁ := ((runAll more s').2.operate .popTrace).2
  have hs₁ : s₁.audience = seated u := haud
  have hunder : (ofHost steps failure).runUnder (.tracer t) s = .ok (failure, .tracer u.1, s₁) := by
    have ho : SelectiveTrace.runUnder hookName (ofHost steps failure)
        (s.restart hookName (.tracer t)) = (failure.elim .done .failed, s₁) := by
      rw [SelectiveTrace.runUnder]
      have hb : runAll (ofHost steps failure)
          ((s.restart hookName (.tracer t)).operate (.pushTrace hookName)).2 =
            (failure.elim .done .failed, (runAll more s').2) := hall.trans hexit
      rw [hb]
    unfold Program.runUnder
    rw [ho]
    dsimp only
    rw [hs₁]
    cases failure <;> simp [seated, Bindings.get?]
  have haround : s₁.around = u.2 := by
    unfold Scene.around
    rw [hs₁]
    rfl
  refine ⟨s₁.setAround (u.1.flush u.2).2, ?_⟩
  unfold runTracer
  rw [hunder]
  dsimp only [bind, Except.bind]
  rw [haround]
  rfl

end Program
end SelectiveTrace
