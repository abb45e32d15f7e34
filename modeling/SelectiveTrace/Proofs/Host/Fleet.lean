import Mathlib.Logic.Function.Basic
import SelectiveTrace.Proofs.Host.Reporting

/-! Several machines under the same hooks, each on a thread of its own. Their operations come one after
the other in any order, and the state that the hooks share goes from one to the next. -/
namespace SelectiveTrace

abbrev Fleet (ι : Type) := ι → Machine

namespace Fleet
variable {ι σ : Type} [DecidableEq ι] {deliver : Deliver σ}

/-- One operation of one of the machines. A hook that fails breaks off no more than that operation. -/
def step (deliver : Deliver σ) (x : Fleet ι × σ) (o : ι × Op FrameId) : Fleet ι × σ :=
  let r := (x.1 o.1).step deliver x.2 o.2
  (Function.update x.1 o.1 r.machine, r.state)

def run (deliver : Deliver σ) (x : Fleet ι × σ) (ops : List (ι × Op FrameId)) : Fleet ι × σ :=
  ops.foldl (step deliver) x

def Disciplined (deliver : Deliver σ) : Fleet ι × σ → List (ι × Op FrameId) → Prop
  | _, [] => True
  | x, (k, op) :: ops =>
    op.IsDisciplined (x.1 k) ∧ op.KeepsHook (x.1 k) ∧ Disciplined deliver (step deliver x (k, op)) ops

instance decidableDisciplined (deliver : Deliver σ) (x : Fleet ι × σ) :
    (ops : List (ι × Op FrameId)) → Decidable (Disciplined deliver x ops)
  | [] => inferInstanceAs (Decidable True)
  | (k, op) :: ops =>
    have := decidableDisciplined deliver (step deliver x (k, op)) ops
    inferInstanceAs (Decidable (op.IsDisciplined (x.1 k) ∧ op.KeepsHook (x.1 k) ∧
      Disciplined deliver (step deliver x (k, op)) ops))

@[simp] theorem step_self (x : Fleet ι × σ) (k : ι) (op : Op FrameId) :
    (step deliver x (k, op)).1 k = ((x.1 k).step deliver x.2 op).machine :=
  Function.update_self _ _ _

theorem step_of_ne (x : Fleet ι × σ) {k j : ι} (h : j ≠ k) (op : Op FrameId) :
    (step deliver x (k, op)).1 j = x.1 j :=
  Function.update_of_ne h _ _

theorem disciplined_append {x : Fleet ι × σ} {ops more : List (ι × Op FrameId)} :
    Disciplined deliver x (ops ++ more) ↔
      Disciplined deliver x ops ∧ Disciplined deliver (run deliver x ops) more := by
  induction ops generalizing x with
  | nil => simp [Disciplined, run]
  | cons o ops ih =>
    simp only [List.cons_append, Disciplined, ih, and_assoc]
    rfl

end Fleet
end SelectiveTrace
