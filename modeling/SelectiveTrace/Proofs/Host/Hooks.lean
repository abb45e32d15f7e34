import SelectiveTrace.Proofs.Host.Turn

/-! The part of a machine that is about hooks. The program's own operations neither look at it before
they report their event nor change it. -/
namespace SelectiveTrace

def Op.isTracing {φ : Type} : Op φ → Bool
  | .traceFrame _ | .setTrace _ | .pushTrace _ | .popTrace => true
  | _ => false

theorem Op.isTracing_of_event {m : Machine} {op : Op FrameId} {ev : FrameId × Event}
    (event : op.event? m = some ev) : op.isTracing = false := by
  cases op with
  | traceFrame f | setTrace hook | pushTrace hook | popTrace => cases event
  | _ => rfl

namespace Machine
variable {m : Machine} {op : Op FrameId}

structure Hooks where
  untraced : List FrameId := []
  hook : Option HookName := none
  saved : List (Option HookName) := []

def hooks (m : Machine) : Hooks :=
  ⟨m.untraced, m.hook, m.saved⟩

def withHooks (m : Machine) (h : Hooks) : Machine :=
  { m with untraced := h.untraced, hook := h.hook, saved := h.saved }

theorem withHooks_modifyFrame (m : Machine) (h : Hooks) (id : FrameId) (change : Frame → Frame) :
    (m.modifyFrame id change).withHooks h = (m.withHooks h).modifyFrame id change := by
  have hf : (m.withHooks h).frames = m.frames := rfl
  unfold modifyFrame
  rw [hf]
  cases m.frames.get? id <;> rfl

theorem withHooks_setGlobal (m : Machine) (h : Hooks) (file : Path) (name : String)
    (value : Value) :
    (m.setGlobal file name value).withHooks h = (m.withHooks h).setGlobal file name value := by
  have hfold : ∀ (ids : List FrameId) (m : Machine),
      (ids.foldl (fun m id => m.bindLocal id name value) m).withHooks h =
        ids.foldl (fun m id => m.bindLocal id name value) (m.withHooks h) := by
    intro ids
    induction ids with
    | nil => exact fun _ => rfl
    | cons id ids ih =>
      intro m
      rw [List.foldl_cons, List.foldl_cons, ih, bindLocal, withHooks_modifyFrame]
      rfl
  exact hfold _ _

theorem withHooks_setLocal (m : Machine) (h : Hooks) (id : FrameId) (name : String)
    (value : Value) :
    (m.setLocal id name value).withHooks h = (m.withHooks h).setLocal id name value := by
  have hf : (m.withHooks h).frames = m.frames := rfl
  have hb : (m.bindLocal id name value).withHooks h = (m.withHooks h).bindLocal id name value :=
    withHooks_modifyFrame m h id _
  have hm : (m.withHooks h).moduleFrames = m.moduleFrames := rfl
  unfold setLocal
  rw [hf, hm]
  cases m.frames.get? id with
  | none => rfl
  | some f =>
    dsimp only
    rw [← hb]
    split <;> rfl

theorem withHooks_before (m : Machine) (h : Hooks) (own : op.isTracing = false) :
    (op.before m).withHooks h = op.before (m.withHooks h) := by
  cases op with
  | line id n => exact withHooks_modifyFrame m h id _
  | ret id _ | unwind id | yieldValue id _ => exact withHooks_modifyFrame m h id _
  | setLocal id name value => exact withHooks_setLocal m h id name value
  | setGlobal file name value => exact withHooks_setGlobal m h file name value
  | resume id =>
    have hm := withHooks_modifyFrame { m with suspended := without m.suspended id } h id
      fun f => { f with back := m.current, lastOpcode := none }
    exact congrArg (fun m' : Machine => { m' with stack := id :: m.stack }) hm
  | enterModule code | call code args | raise id e | discard id => rfl
  | traceFrame id | setTrace hook | pushTrace hook | popTrace => cases own

/-- An operation of the program leaves the hooks alone. -/
theorem hooks_before (own : op.isTracing = false) : (op.before m).hooks = m.hooks := by
  have h := withHooks_before m m.hooks own
  exact (congrArg hooks h).symm

theorem hook_of_event {ev : FrameId × Event} (event : op.event? m = some ev) :
    (op.before m).hook = m.hook :=
  congrArg Hooks.hook (hooks_before (Op.isTracing_of_event event))

end Machine
end SelectiveTrace
