import SelectiveTrace.Proofs.History.Inspected
import SelectiveTrace.Proofs.Host.Hooks
import SelectiveTrace.Proofs.Host.WellMade
import SelectiveTrace.Proofs.Tracer.Deltas
import SelectiveTrace.Proofs.Tracer.Upkeep
import SelectiveTrace.Script.Hook

/-! A traced program runs as it does alone. Hooks that let no failure out never break off an operation,
and what they answer comes back to the part of the machine that is about hooks, never to the part that the
program knows. -/
namespace SelectiveTrace

/-- What an operation does where nobody looks. -/
def Op.perform (m : Machine) (op : Op FrameId) : Machine :=
  if op.applies m then op.after (op.before m) else m

def Op.own (ops : List (Op FrameId)) : List (Op FrameId) :=
  ops.filter fun op => !op.isTracing

namespace Machine
variable {σ : Type} {deliver : Deliver σ} {m : Machine} {s : σ} {op : Op FrameId}

/-- The machine as the program knows it, without its hooks. -/
def bare (m : Machine) : Machine :=
  m.withHooks {}

theorem bare_heed (m : Machine) (id : FrameId) (e : Event) (a : Answer) :
    (m.heed id e a).bare = m.bare := by
  rw [heed_eq]
  rfl

theorem bare_before (own : op.isTracing = false) : (op.before m).bare = op.before m.bare :=
  withHooks_before m {} own

theorem bare_after (m : Machine) (op : Op FrameId) : (op.after m).bare = op.after m.bare := by
  cases op <;> rfl

theorem bare_perform (own : op.isTracing = false) : (op.perform m).bare = op.perform m.bare := by
  have happlies : op.applies m.bare = op.applies m := by cases op <;> rfl
  unfold Op.perform
  rw [happlies]
  split
  · rw [bare_after, bare_before own]
  · rfl

theorem bare_perform_of_isTracing (tracing : op.isTracing = true) :
    (op.perform m).bare = m.bare := by
  cases op with
  | traceFrame id | setTrace hook | pushTrace hook | popTrace => rfl
  | _ => cases tracing

/-- An operation that no hook breaks off does to the program what it does where nobody looks. -/
theorem bare_step (calm : (m.step deliver s op).panic = none) :
    (m.step deliver s op).machine.bare = (op.perform m).bare := by
  rw [machine_step calm]
  unfold Op.perform
  split
  · cases hev : op.event? m with
    | none =>
      have hafter : op.after (op.before m) = op.before m := by cases op <;> first | rfl | cases hev
      rw [hafter]
      rfl
    | some ev =>
      obtain ⟨a, ha⟩ := dispatch_machine deliver (op.before m) s ev.1 ev.2
      rw [Option.elim_some, ha, bare_after, bare_heed, ← bare_after]
  · rfl

def alone : Machine → List (Op FrameId) → List Machine
  | _, [] => []
  | m, op :: ops => op.perform m :: alone (op.perform m) ops

theorem length_alone (m : Machine) (ops : List (Op FrameId)) :
    (m.alone ops).length = ops.length := by
  induction ops generalizing m with
  | nil => rfl
  | cons op ops ih => exact congrArg Nat.succ (ih _)

/-- A run as the program knows it: the machine after each of the operations that are its own. -/
def course (deliver : Deliver σ) : Machine → σ → List (Op FrameId) → List Machine
  | _, _, [] => []
  | m, s, op :: ops =>
    let r := m.step deliver s op
    let rest := if r.panic.isSome then [] else course deliver r.machine r.state ops
    if op.isTracing then rest else r.machine.bare :: rest

end Machine

def Hook.IsCalm : Hook → Prop
  | .tracer _ | .history _ | .probe _ => True
  | .recorder r => r.failing = []

theorem Probe.calm_onEvent (p : Probe) (ctx : Context) (text : String) :
    (p.onEvent ctx).1 ≠ .panicked text := by
  unfold onEvent
  dsimp only
  repeat' split
  all_goals simp

/-- Whatever goes wrong while an event is handled stays inside the hook. -/
theorem Hook.IsCalm.onEvent {h : Hook} (calm : h.IsCalm) (ctx : Context) (w : Surroundings) :
    (∀ text, (h.onEvent ctx w).1 ≠ .panicked text) ∧ (h.onEvent ctx w).2.1.IsCalm := by
  cases h with
  | tracer t => exact ⟨(t.onEvent_mishaps ctx w).1, trivial⟩
  | history t => exact ⟨VariableTracer.deliver_ne_panicked "" ctx (t, w), trivial⟩
  | probe p => exact ⟨p.calm_onEvent ctx, trivial⟩
  | recorder r =>
    have hfailing : r.failing = [] := calm
    refine ⟨fun text => ?_, calm⟩
    simp only [Hook.onEvent, Recorder.onEvent, Recorder.answer, hfailing, List.contains_nil,
      Bool.false_eq_true, if_false]
    split <;> simp

namespace Audience
variable {a : Audience}

def IsCalm (a : Audience) : Prop :=
  ∀ name hook, Bindings.get? name a.hooks = some hook → hook.IsCalm

theorem IsCalm.deliver (h : a.IsCalm) (name : HookName) (ctx : Context) :
    (∀ text, (Audience.deliver name ctx a).1 ≠ .panicked text) ∧
      (Audience.deliver name ctx a).2.IsCalm := by
  unfold Audience.deliver
  cases hh : Bindings.get? name a.hooks with
  | none => exact ⟨by simp, h⟩
  | some hook =>
    obtain ⟨hanswer, hstill⟩ := (h name hook hh).onEvent ctx a.around
    refine ⟨hanswer, fun other hook' hget => ?_⟩
    dsimp only at hget
    by_cases hn : other = name
    · subst hn
      rw [Bindings.get?_set_self] at hget
      cases hget
      exact hstill
    · rw [Bindings.get?_set_of_ne _ _ hn] at hget
      exact h other hook' hget

/-- One operation. -/
theorem IsCalm.step (h : a.IsCalm) (m : Machine) (op : Op FrameId) :
    (m.step Audience.deliver a op).panic = none ∧ (m.step Audience.deliver a op).state.IsCalm := by
  refine ⟨Machine.panic_step_of_calm (fun name ctx => (h.deliver name ctx).1) m op, ?_⟩
  rw [Machine.state_step]
  cases m.heardBy? op with
  | none => exact h
  | some heard => exact (h.deliver heard.1 heard.2).2

/-- A whole run, beside the operations of the program alone. -/
theorem IsCalm.run (h : a.IsCalm) (m : Machine) (ops : List (Op FrameId)) :
    (m.run Audience.deliver a ops).panic = none ∧
      m.course Audience.deliver a ops = m.bare.alone (Op.own ops) ∧
      (m.run Audience.deliver a ops).machine.bare =
        (Op.own ops).foldl (fun m op => op.perform m) m.bare := by
  induction ops generalizing m a with
  | nil => exact ⟨rfl, rfl, rfl⟩
  | cons op ops ih =>
    obtain ⟨hpanic, hcalm⟩ := h.step m op
    obtain ⟨hrun, hcourse, hend⟩ := ih hcalm (m.step Audience.deliver a op).machine
    have hbare := Machine.bare_step hpanic
    rw [Machine.run_of_calm hpanic, Machine.course]
    simp only [hpanic, Option.isSome_none, Bool.false_eq_true, if_false]
    cases own : op.isTracing with
    | true =>
      rw [hbare, Machine.bare_perform_of_isTracing own] at hcourse hend
      have hown : Op.own (op :: ops) = Op.own ops := by simp [Op.own, own]
      rw [hown]
      exact ⟨hrun, hcourse, hend⟩
    | false =>
      rw [hbare, Machine.bare_perform own] at hcourse hend
      have hown : Op.own (op :: ops) = op :: Op.own ops := by simp [Op.own, own]
      rw [hown, hbare, Machine.bare_perform own]
      exact ⟨hrun, congrArg (_ :: ·) hcourse, hend⟩

end Audience

/-- Tracing does not change the program. Two machines that the program cannot tell apart go through the
same operations of it, each under hooks of its own, which are put up, replaced and taken away at any time
in between. Whatever goes wrong in the hooks, neither run is broken off, and after each operation of the
program, as at the end, the machines are the same but for the hooks. -/
theorem tracing_changes_nothing {m m' : Machine} {a a' : Audience} {ops ops' : List (Op FrameId)}
    (same : m'.bare = m.bare) (own : Op.own ops' = Op.own ops) (calm : a.IsCalm)
    (calm' : a'.IsCalm) :
    let r := m.run Audience.deliver a ops
    let r' := m'.run Audience.deliver a' ops'
    r.panic = none ∧ r'.panic = none ∧
      (m.course Audience.deliver a ops).length = (Op.own ops).length ∧
      m'.course Audience.deliver a' ops' = m.course Audience.deliver a ops ∧
      r'.machine.bare = r.machine.bare := by
  intro r r'
  obtain ⟨hpanic, hcourse, hend⟩ := calm.run m ops
  obtain ⟨hpanic', hcourse', hend'⟩ := calm'.run m' ops'
  rw [same, own] at hcourse' hend'
  refine ⟨hpanic, hpanic', ?_, hcourse'.trans hcourse.symm, hend'.trans hend.symm⟩
  rw [hcourse, Machine.length_alone]

def handedOver : List (Op FrameId) :=
  [.setTrace (some "tracer"), .call ⟨"f", ⟨"/p.py"⟩, 1⟩ [("x", .int 1)], .line ⟨0, 0⟩ 2,
    .pushTrace "history", .call ⟨"g", ⟨"/p.py"⟩, 5⟩ [("x", .int 2)], .line ⟨0, 1⟩ 6, .popTrace,
    .ret ⟨0, 1⟩ (.int 3), .traceFrame ⟨0, 0⟩, .setLocal ⟨0, 0⟩ "x" (.int 3), .line ⟨0, 0⟩ 3,
    .setTrace none, .ret ⟨0, 0⟩ .none]

def fragileHooks : Audience where
  hooks :=
    [("tracer", .tracer
        { session := { targetCodes := [⟨"/p.py", "f", 1⟩] }
          renderer := { custom := [⟨fun _ => true, fun _ => .error "boom"⟩] }
          sink := .lines [] }),
      ("history", .history
        { entry := ⟨"/p.py"⟩, file := none, name := "x", scope := some ⟨5, 7⟩, loopLimit := 5
          resolver := ⟨fun _ _ w => (.error "lost", w)⟩ })]

theorem isCalm_fragileHooks : fragileHooks.IsCalm := by
  intro name hook hget
  have hmem := Bindings.mem_of_get? hget
  simp only [fragileHooks, List.mem_cons, Prod.mk.injEq, List.not_mem_nil, or_false] at hmem
  rcases hmem with ⟨-, rfl⟩ | ⟨-, rfl⟩ <;> trivial

/-- Both hooks fail, and the run is the one without hooks. -/
theorem tracing_changes_nothing_of_fragile_hooks :
    let m : Machine := {}
    let r := m.run Audience.deliver fragileHooks handedOver
    let r' := m.run Audience.deliver {} (Op.own handedOver)
    r.state.hooks.map (fun b => (b.1, b.2.faults.length)) = [("tracer", 4), ("history", 2)] ∧
      r.panic = none ∧ r'.panic = none ∧
      (m.course Audience.deliver fragileHooks handedOver).length = 8 ∧
      m.course Audience.deliver {} (Op.own handedOver) =
        m.course Audience.deliver fragileHooks handedOver ∧
      r'.machine.bare = r.machine.bare := by
  intro m r r'
  refine ⟨by decide +kernel, ?_⟩
  have calm' : Audience.IsCalm {} := by
    intro name hook hget
    cases hget
  have own : Op.own (Op.own handedOver) = Op.own handedOver := by
    simp [Op.own, List.filter_filter]
  obtain ⟨hpanic, hpanic', hlength, hcourse, hend⟩ :=
    tracing_changes_nothing (Eq.refl m.bare) own isCalm_fragileHooks calm'
  exact ⟨hpanic, hpanic', hlength.trans (by decide), hcourse, hend⟩

end SelectiveTrace
