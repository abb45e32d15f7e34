import SelectiveTrace.Proofs.Host.Stale

/-! Back links. In a run that keeps to the stack they lead from the running frame down the whole stack and
no further, whoever resumes a generator, and whether or not the caller it had before is still there. -/
namespace SelectiveTrace.Machine
variable {σ : Type} {deliver : Deliver σ} {m : Machine} {s : σ} {ops : List (Op FrameId)}

/-- Every operation of the run keeps to the stack. Hooks may come and go, and they may fail. -/
def KeepsToStack (deliver : Deliver σ) : Machine → σ → List (Op FrameId) → Prop
  | _, _, [] => True
  | m, s, op :: ops =>
    op.IsDisciplined m ∧
      KeepsToStack deliver (m.step deliver s op).machine (m.step deliver s op).state ops

instance decidableKeepsToStack (deliver : Deliver σ) (m : Machine) (s : σ) :
    (ops : List (Op FrameId)) → Decidable (m.KeepsToStack deliver s ops)
  | [] => inferInstanceAs (Decidable True)
  | op :: ops =>
    have := decidableKeepsToStack deliver (m.step deliver s op).machine
      (m.step deliver s op).state ops
    inferInstanceAs (Decidable (op.IsDisciplined m ∧
      KeepsToStack deliver (m.step deliver s op).machine (m.step deliver s op).state ops))

theorem KeepsToStack.prefix_of {done : List (Op FrameId)} (h : m.KeepsToStack deliver s ops)
    (start : done <+: ops) : m.KeepsToStack deliver s done := by
  induction done generalizing m s ops with
  | nil => trivial
  | cons op done ih =>
    obtain ⟨rest, rfl⟩ := start
    exact ⟨h.1, ih h.2 (List.prefix_append done rest)⟩

/-- The frame to which back links lead from the running one in `n` steps. -/
def linkedFrom (m : Machine) : Nat → Option FrameId
  | 0 => m.current
  | n + 1 => (m.linkedFrom n).bind fun id => (m.frames.get? id).bind Frame.back

namespace Linked

/-- A frame on the stack is live and links to the one below it; the lowest one links to none. -/
theorem link_of_getElem? (h : m.Linked) {n : Nat} {id : FrameId} (hid : m.stack[n]? = some id) :
    ∃ f, m.frames.get? id = some f ∧ f.id = id ∧ f.back = m.stack[n + 1]? := by
  obtain ⟨hn, rfl⟩ := List.getElem?_eq_some_iff.mp hid
  have hdrop : m.stack.drop n = m.stack[n] :: m.stack.drop (n + 1) := List.drop_eq_getElem_cons hn
  obtain ⟨place, hplace, hback⟩ :=
    h.chained m.stack[n] (m.stack.drop (n + 1)) (hdrop ▸ List.drop_suffix n m.stack)
  obtain ⟨f, hf, rfl⟩ := get?_of_standing hplace
  exact ⟨f, hf, (h.known _ _ hplace).1, hback.trans List.head?_drop⟩

/-- Back links visit the stack from top to bottom. -/
theorem linkedFrom_eq (h : m.Linked) (n : Nat) : m.linkedFrom n = m.stack[n]? := by
  induction n with
  | zero => exact List.head?_eq_getElem?
  | succ n ih =>
    rw [linkedFrom, ih]
    cases hid : m.stack[n]? with
    | none =>
      have hend : m.stack.length ≤ n := List.getElem?_eq_none_iff.mp hid
      exact (List.getElem?_eq_none (Nat.le_succ_of_le hend)).symm
    | some id =>
      obtain ⟨f, hf, -, hback⟩ := h.link_of_getElem? hid
      rw [Option.bind_some, hf, Option.bind_some, hback]

/-- A whole run, whether or not its hooks fail. -/
theorem carryOn (h : m.Linked) (keeps : m.KeepsToStack deliver s ops) :
    (m.carryOn deliver s ops).1.Linked := by
  induction ops generalizing m s with
  | nil => exact h
  | cons op ops ih => exact ih (h.step keeps.1) keeps.2

end Linked

/-- On a new machine events happen to the innermost frame only, and only suspended generators are resumed,
by whatever caller, or dropped. Then after every operation each frame on the stack is live and links to the
one below it, and the lowest one to none. So back links lead from the running frame down the whole stack,
to no frame twice, and come to an end there. -/
theorem back_links_spell_stack (fresh : m.IsFresh) (keeps : m.KeepsToStack deliver s ops)
    {done : List (Op FrameId)} (start : done <+: ops) :
    let now := (m.carryOn deliver s done).1
    (∀ n id, now.stack[n]? = some id →
      ∃ f, now.frames.get? id = some f ∧ f.id = id ∧ f.back = now.stack[n + 1]?) ∧
    (∀ n, now.linkedFrom n = now.stack[n]?) ∧ now.stack.Nodup := by
  intro now
  have hlinked : now.Linked := fresh.linked.carryOn (keeps.prefix_of start)
  exact ⟨fun n id hid => hlinked.link_of_getElem? hid, hlinked.linkedFrom_eq, hlinked.nodup⟩

def handedOnOps : List (Op FrameId) :=
  let file : Path := ⟨"/w/p.py"⟩
  [.setTrace (some "hook"), .enterModule ⟨"<module>", file, 1⟩, .call ⟨"f", file, 1⟩ [],
    .call ⟨"gen", file, 4⟩ [], .yieldValue ⟨0, 2⟩ (.int 1), .ret ⟨0, 1⟩ .none,
    .call ⟨"g", file, 7⟩ [], .call ⟨"h", file, 9⟩ [], .resume ⟨0, 2⟩]

/-- Here every call fails in the hook, and the link of the generator is stale while it waits. -/
theorem back_links_spell_stack_of_handed_on :
    let deliver : Deliver Unit := fun _ ctx s =>
      (if ctx.event.isCall then .panicked "hook failed" else .proceed, s)
    let waiting := (carryOn deliver { id := 0 } () (handedOnOps.take 6)).1
    let now := (carryOn deliver { id := 0 } () handedOnOps).1
    IsFresh { id := 0 } ∧ KeepsToStack deliver { id := 0 } () handedOnOps ∧
      (waiting.frames.get? ⟨0, 2⟩).map Frame.back = some (some ⟨0, 1⟩) ∧
      waiting.frames.contains ⟨0, 1⟩ = false ∧
      now.stack = [⟨0, 2⟩, ⟨0, 4⟩, ⟨0, 3⟩, ⟨0, 0⟩] ∧
      (∀ n, now.linkedFrom n = now.stack[n]?) ∧ now.stack.Nodup := by
  intro deliver waiting now
  have hfresh : IsFresh { id := 0 } := ⟨rfl, rfl, rfl, rfl⟩
  have hkeeps : KeepsToStack deliver { id := 0 } () handedOnOps := by decide +kernel
  exact ⟨hfresh, hkeeps, by decide +kernel, by decide +kernel, by decide +kernel,
    (back_links_spell_stack hfresh hkeeps (List.prefix_refl handedOnOps)).2⟩

end SelectiveTrace.Machine
