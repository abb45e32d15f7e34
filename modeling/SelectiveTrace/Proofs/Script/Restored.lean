import SelectiveTrace.Proofs.Host.Hooks
import SelectiveTrace.Proofs.Script.Upheld

/-! Hooks are given back. Whatever runs under a hook of its own, and however it ends, the hooks that were
saved before are saved after it, so the hook installed before is the one that comes back. -/
namespace SelectiveTrace

namespace Op
variable {φ ψ : Type}

def isBracket : Op φ → Bool
  | .pushTrace _ | .popTrace => true
  | _ => false

theorem isBracket_map (g : φ → ψ) (op : Op φ) : (op.map g).isBracket = op.isBracket := by
  cases op <;> rfl

end Op

def Action.leavesBrackets : Action → Bool
  | .host _ op => !op.isBracket
  | _ => true

namespace Machine
variable {σ : Type} {m : Machine} {op : Op FrameId}

theorem saved_before (h : op.isBracket = false) : (op.before m).saved = m.saved := by
  cases own : op.isTracing with
  | false => exact congrArg Hooks.saved (hooks_before own)
  | true =>
    cases op with
    | traceFrame id | setTrace hook => rfl
    | pushTrace hook | popTrace => cases h
    | _ => cases own

theorem saved_after (m : Machine) (op : Op FrameId) : (op.after m).saved = m.saved := by
  cases op <;> rfl

/-- Whatever the hooks do, also when one of them panics, no saved hook is touched. -/
theorem saved_step (deliver : Deliver σ) (s : σ) (h : op.isBracket = false) :
    (m.step deliver s op).machine.saved = m.saved := by
  unfold step
  split
  · rfl
  · cases op.event? m with
    | none => exact saved_before h
    | some ev =>
      obtain ⟨a, ha⟩ := dispatch_machine deliver (op.before m) s ev.1 ev.2
      dsimp only
      split
      · rw [ha, heed_eq]
        exact saved_before h
      · rw [saved_after, ha, heed_eq]
        exact saved_before h

end Machine

namespace Scene
variable {s s' s'' : Scene}

def machineOf (s : Scene) (key : Option String) : Machine :=
  (s.machines.get? key).getD {}

structure KeepsSaved (s s' : Scene) : Prop where
  running : s'.running = s.running
  saved : ∀ key, (s'.machineOf key).saved = (s.machineOf key).saved

theorem KeepsSaved.trans (h : KeepsSaved s s') (h' : KeepsSaved s' s'') : KeepsSaved s s'' :=
  ⟨h'.running.trans h.running, fun key => (h'.saved key).trans (h.saved key)⟩

theorem keepsSaved_of_same (machines : s'.machines = s.machines) (running : s'.running = s.running) :
    KeepsSaved s s' := by
  refine ⟨running, fun key => ?_⟩
  rw [machineOf, machines]
  rfl

theorem machineOf_running (s : Scene) : s.machineOf s.running = s.machine := rfl

theorem machineOf_operate (s : Scene) (op : Op FrameId) (key : Option String) :
    (s.operate op).2.machineOf key =
      if key = s.running then (s.machine.step Audience.deliver s.audience op).machine
      else s.machineOf key := by
  have hmachines : (s.operate op).2.machines =
      s.machines.insert s.running (s.machine.step Audience.deliver s.audience op).machine := by
    unfold operate
    dsimp only
    split <;> rfl
  rw [machineOf, hmachines]
  split
  next hkey =>
    subst hkey
    rw [Table.get?_insert_self]
    rfl
  next hkey =>
    rw [Table.get?_insert_of_ne _ _ hkey]
    rfl

theorem running_operate (s : Scene) (op : Op FrameId) : (s.operate op).2.running = s.running := by
  unfold operate
  dsimp only
  split <;> rfl

theorem keepsSaved_operate (s : Scene) {op : Op FrameId} (h : op.isBracket = false) :
    KeepsSaved s (s.operate op).2 := by
  refine ⟨running_operate s op, fun key => ?_⟩
  rw [machineOf_operate]
  split
  next hkey =>
    subst hkey
    exact Machine.saved_step _ _ h
  next => rfl

theorem keepsSaved_host (s : Scene) (label : Option String) {op : Op String}
    (h : op.isBracket = false) : KeepsSaved s (s.host label op).2 := by
  have hop := keepsSaved_operate (s.numbering op)
    ((Op.isBracket_map (fun l => (s.frames.get? l).getD s.machine.nextId) op).trans h)
  have hnumbered : KeepsSaved s (s.numbering op) := keepsSaved_of_same rfl rfl
  rcases host_cases s label op with hs | hs | ⟨l, hs⟩ <;> rw [hs]
  · exact keepsSaved_of_same rfl rfl
  · exact hnumbered.trans hop
  · exact (hnumbered.trans hop).trans (keepsSaved_of_same rfl rfl)

theorem keepsSaved_onTracer (s : Scene) (tracer : String)
    (change : Tracer → Surroundings → Tracer × Surroundings) :
    KeepsSaved s (s.onTracer tracer change) := by
  unfold onTracer
  split <;> exact keepsSaved_of_same rfl rfl

/-- What is put under a hook finds that hook above the saved ones, and leaves it there. -/
theorem KeepsSaved.machine_popTrace (hook : HookName)
    (h : KeepsSaved (s.operate (.pushTrace hook)).2 s') :
    s'.machine.saved = s.machine.hook :: s.machine.saved ∧ s'.running = s.running := by
  have hrunning : s'.running = s.running := h.running.trans (running_operate s _)
  have hsaved := h.saved s.running
  rw [machineOf_operate, if_pos rfl, ← hrunning] at hsaved
  exact ⟨hsaved, hrunning⟩

theorem KeepsSaved.under (hook : HookName) (h : KeepsSaved (s.operate (.pushTrace hook)).2 s') :
    KeepsSaved s (s'.operate .popTrace).2 := by
  obtain ⟨htop, hrunning⟩ := h.machine_popTrace hook
  refine ⟨(running_operate s' _).trans hrunning, fun key => ?_⟩
  rw [machineOf_operate]
  split
  next hkey =>
    rw [hkey, hrunning]
    exact congrArg List.tail htop
  next hkey =>
    have hother := h.saved key
    rw [machineOf_operate, if_neg (hrunning ▸ hkey)] at hother
    exact hother

theorem KeepsSaved.openThread (key : String) (name : Option String)
    (h : KeepsSaved { s.openThread key name with running := some key } s') :
    KeepsSaved s { s' with running := s.running } := by
  refine ⟨rfl, fun k => (h.saved k).trans ?_⟩
  show ((s.openThread key name).machineOf k).saved = (s.machineOf k).saved
  unfold Scene.openThread
  split
  · rfl
  next hnew =>
    unfold machineOf
    by_cases hk : k = some key
    · subst hk
      have hnone : s.machines.get? (some key) = none := by simpa [Table.contains] using hnew
      simp [hnone]
    · simp [Table.get?_insert_of_ne _ _ hk]

/-- Scripts that leave the brackets to blocks keep the saved hooks on every thread. -/
theorem upheld_keepsSaved : Upheld Action.leavesBrackets KeepsSaved where
  stays _ := keepsSaved_of_same
  trans := KeepsSaved.trans
  host s label _ h := keepsSaved_host s label (by simpa [Action.leavesBrackets] using h)
  tend s tracer change _ := keepsSaved_onTracer s tracer change
  place s file contents := by
    unfold place
    split <;> exact keepsSaved_of_same rfl rfl
  retrace s _ := keepsSaved_operate s rfl
  under hook _ _ h := h.under hook
  thread key name _ _ h := h.openThread key name

structure GivesBack (s s' : Scene) : Prop where
  running : s'.running = s.running
  installed : s'.machine.hook = s.machine.hook
  saved : s'.machine.saved = s.machine.saved

theorem GivesBack.trans (h : GivesBack s s') (h' : GivesBack s' s'') : GivesBack s s'' :=
  ⟨h'.running.trans h.running, h'.installed.trans h.installed, h'.saved.trans h.saved⟩

theorem givesBack_runUnder (hook : HookName) {body : Program}
    (h : Step.allOf Action.leavesBrackets body = true) (s : Scene) :
    GivesBack s (runUnder hook body s).2 := by
  rw [runUnder_eq]
  dsimp only
  have hbody := upheld_keepsSaved.runAll body h (s.operate (.pushTrace hook)).2
  obtain ⟨htop, hrunning⟩ := hbody.machine_popTrace hook
  generalize (runAll body (s.operate (.pushTrace hook)).2).2 = s' at hbody htop hrunning ⊢
  have hmachine : (s'.operate .popTrace).2.machine = s'.machine.popTrace := by
    rw [← machineOf_running, running_operate, machineOf_operate, if_pos rfl]
    rfl
  refine ⟨(running_operate s' _).trans hrunning, ?_, ?_⟩
  · rw [hmachine, Machine.popTrace, htop]
    rfl
  · rw [hmachine, Machine.popTrace, htop]
    rfl

theorem exit_close (word : String) (r : Exit × Scene) : (Scene.close word r).1 = r.1 := by
  obtain ⟨exit, s⟩ := r
  cases exit <;> rfl

theorem GivesBack.close {r : Exit × Scene} (h : GivesBack s r.2) (word : String) :
    GivesBack s (Scene.close word r).2 := by
  obtain ⟨exit, s'⟩ := r
  cases exit with
  | done => exact ⟨h.running, h.installed, h.saved⟩
  | failed e | panicked text => exact h

theorem machine_onTracer (s : Scene) (tracer : String)
    (change : Tracer → Surroundings → Tracer × Surroundings) :
    (s.onTracer tracer change).machine = s.machine ∧
      (s.onTracer tracer change).running = s.running := by
  unfold onTracer
  split <;> exact ⟨rfl, rfl⟩

/-- The beginning of a block installs nothing. -/
theorem givesBack_beginBlock (s : Scene) (tracer : String) : GivesBack s (s.beginBlock tracer) := by
  unfold beginBlock
  split
  next frame _ =>
    obtain ⟨hm, hr⟩ := machine_onTracer s tracer fun t w => (t.enter w frame, w)
    have hop : ((s.enter tracer frame).operate (.traceFrame frame)).2.machine =
        { s.machine with untraced := Machine.without s.machine.untraced frame } := by
      rw [← machineOf_running, running_operate, machineOf_operate, if_pos rfl]
      show (Machine.step _ (s.enter tracer frame).machine _ _).machine = _
      rw [show (s.enter tracer frame).machine = s.machine from hm]
      rfl
    exact ⟨(running_operate _ _).trans hr, by rw [hop], by rw [hop]⟩
  · exact ⟨rfl, rfl, rfl⟩

theorem GivesBack.endBlock (h : GivesBack s s') (tracer : String) (frame : Option FrameId) :
    GivesBack s (s'.endBlock tracer frame) := by
  cases frame with
  | none => exact h
  | some frame =>
    obtain ⟨hm, hr⟩ := machine_onTracer s' tracer fun t w => t.exit w s'.machine.thread frame
    exact ⟨hr.trans h.running, (congrArg Machine.hook hm).trans h.installed,
      (congrArg Machine.saved hm).trans h.saved⟩

end Scene

/-- Whatever runs under a hook, or in the block of a tracer while blocks are traced: when it is left, the
hook installed before is installed again and the same hooks are saved, and it ends as what it
encloses ended, so a panic goes on with its text. -/
theorem hooks_given_back (s : Scene) (hook : HookName) {body : Program}
    (leaves : Step.allOf Action.leavesBrackets body = true) :
    (s.GivesBack ((Step.trace hook body).run s).2 ∧
      ((Step.trace hook body).run s).1 = (runAll body (s.operate (.pushTrace hook)).2).1) ∧
    (s.isDisabled = false →
      s.GivesBack ((Step.snoop hook body).run s).2 ∧
      ((Step.snoop hook body).run s).1 =
        (runAll body ((s.beginBlock hook).operate (.pushTrace hook)).2).1) := by
  constructor
  · rw [Step.run_trace, Scene.exit_close]
    refine ⟨(Scene.givesBack_runUnder hook leaves s).close "with", ?_⟩
    rw [runUnder_eq]
  · intro enabled
    rw [Step.run_snoop hook body enabled, Scene.exit_close]
    have hbody := Scene.givesBack_runUnder hook leaves (s.beginBlock hook)
    have hblock := ((Scene.givesBack_beginBlock s hook).trans hbody).endBlock hook s.machine.current
    refine ⟨hblock.close "snoop", ?_⟩
    rw [runUnder_eq]

def changingHooks : Program :=
  [.act (.host none (.setTrace none)),
    .guard [.trace "fragile" [
      .act (.host (some "f") (.call ⟨"f", ⟨"/p.py"⟩, 1⟩ [])),
      .act (.host none (.line "f" 2))]],
    .snoop "tracer" [
      .act (.host none (.setTrace (some "fragile"))),
      .act (.panic "boom")]]

def hookedScene : Scene where
  audience := ⟨[("fragile", .recorder { failing := ["f:call"] }), ("tracer", .tracer {})], {}⟩
  machines := (⟨[]⟩ : Table _ _).insert none { hook := some "outer", saved := [none] }

theorem hooks_given_back_after_panics :
    let with_ := (Step.trace "tracer" changingHooks).run hookedScene
    let block := (Step.snoop "fragile" changingHooks).run hookedScene
    (with_.1 = .panicked "boom" ∧ with_.2.machine.hook = some "outer" ∧
      with_.2.machine.saved = [none]) ∧
    block.1 = .panicked "boom" ∧ block.2.machine.hook = some "outer" ∧
      block.2.machine.saved = [none] := by
  have leaves : Step.allOf Action.leavesBrackets changingHooks = true := by decide
  obtain ⟨⟨hwith, hexit⟩, hsnoop⟩ := hooks_given_back hookedScene "tracer" leaves
  obtain ⟨-, hblock⟩ := hooks_given_back hookedScene "fragile" leaves
  obtain ⟨hb, hbexit⟩ := hblock rfl
  refine ⟨⟨hexit.trans ?_, hwith.installed, hwith.saved⟩, hbexit.trans ?_, hb.installed, hb.saved⟩
  all_goals
    simp only [changingHooks, runAll, Step.run, runUnder]
    decide +kernel

end SelectiveTrace
