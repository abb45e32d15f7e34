import SelectiveTrace.Proofs.Script.Blocks
import SelectiveTrace.Proofs.Tracer.Following

/-! Scripts on several threads. Every thread has a machine and a number of its own, and as long as each
machine keeps to its stack, what is heard on one thread is of no frame of another. -/
namespace SelectiveTrace

namespace Scene
variable {s s' : Scene} {key : Option String}

theorem contains_operate (running : s.machines.contains s.running = true) (op : Op FrameId)
    (key : Option String) :
    (s.operate op).2.machines.contains key = s.machines.contains key := by
  have hmachines : (s.operate op).2.machines =
      s.machines.insert s.running (s.machine.step Audience.deliver s.audience op).machine := by
    unfold Scene.operate
    dsimp only
    split <;> rfl
  rw [hmachines, Table.contains_insert]
  by_cases hkey : key = s.running
  · rw [hkey, running, Bool.or_true]
  · simp [hkey]

theorem numbers_operate (s : Scene) (op : Op FrameId) (key : Option String) :
    ((s.operate op).2.machineOf key).id = (s.machineOf key).id ∧
      ((s.operate op).2.machineOf key).thread = (s.machineOf key).thread := by
  rw [machineOf_operate]
  split
  next hkey => rw [hkey]; exact ⟨Machine.id_step _ _ _ op, Machine.thread_step⟩
  · exact ⟨rfl, rfl⟩

theorem machines_onTracer (s : Scene) (tracer : HookName)
    (change : Tracer → Surroundings → Tracer × Surroundings) :
    (s.onTracer tracer change).machines = s.machines := by
  unfold Scene.onTracer
  split <;> rfl

/-- The machines keep to their stacks, and no two of them have a number in common. -/
structure IsApart (s : Scene) : Prop where
  running : s.machines.contains s.running = true
  linked : ∀ key, (s.machineOf key).Linked
  issued : ∀ key, s.machines.contains key = true →
    (s.machineOf key).id < s.made ∧ (s.machineOf key).thread.id < s.made
  apart : ∀ k k', s.machines.contains k = true → s.machines.contains k' = true → k ≠ k' →
    (s.machineOf k).id ≠ (s.machineOf k').id ∧
      (s.machineOf k).thread.id ≠ (s.machineOf k').thread.id

namespace IsApart

/-- The same machines are there, whatever has run on them. -/
theorem of_same (h : s.IsApart) (running : s'.machines.contains s'.running = true)
    (contains : ∀ key, s'.machines.contains key = s.machines.contains key)
    (linked : ∀ key, (s'.machineOf key).Linked) (id : ∀ key, (s'.machineOf key).id = (s.machineOf key).id)
    (thread : ∀ key, (s'.machineOf key).thread = (s.machineOf key).thread)
    (made : s'.made = s.made) : s'.IsApart where
  running := running
  linked := linked
  issued key hkey := by
    rw [id, thread, made]
    exact h.issued key (contains key ▸ hkey)
  apart k k' hk hk' hne := by
    rw [id, id, thread, thread]
    exact h.apart k k' (contains k ▸ hk) (contains k' ▸ hk') hne

theorem of_machines (h : s.IsApart) (machines : s'.machines = s.machines)
    (running : s'.machines.contains s'.running = true) (made : s'.made = s.made) : s'.IsApart := by
  have hof : ∀ key, s'.machineOf key = s.machineOf key := by
    intro key
    unfold machineOf
    rw [machines]
  refine h.of_same running (fun _ => by rw [machines]) (fun key => ?_) (fun key => ?_) (fun key => ?_)
    made
  · exact hof key ▸ h.linked key
  · rw [hof]
  · rw [hof]

/-- A machine that has run an operation. -/
theorem operate (h : s.IsApart) {op : Op FrameId} (hd : op.IsDisciplined s.machine) :
    (s.operate op).2.IsApart := by
  have hcontains := contains_operate h.running op
  have hmade : (s.operate op).2.made = s.made := by
    unfold Scene.operate
    dsimp only
    split <;> rfl
  have hof := machineOf_operate s op
  refine h.of_same ?_ hcontains (fun key => ?_) (fun key => (numbers_operate s op key).1)
    (fun key => (numbers_operate s op key).2) hmade
  · rw [hcontains, running_operate]
    exact h.running
  · rw [hof]
    split
    · exact (h.linked s.running).step hd
    · exact h.linked key

theorem onTracer (h : s.IsApart) (tracer : HookName)
    (change : Tracer → Surroundings → Tracer × Surroundings) : (s.onTracer tracer change).IsApart := by
  unfold Scene.onTracer
  split
  · exact h.of_machines rfl h.running rfl
  · exact h

theorem turn (h : s.IsApart) (label : String) (name : Option String) : (s.turn label name).IsApart := by
  unfold Scene.turn openThread
  split
  next known => exact h.of_machines rfl known rfl
  next unknown =>
    have hcontains : ∀ key, (s.machines.insert (some label)
        { id := s.made, thread := ⟨s.made, name⟩ }).contains key =
          (decide (key = some label) || s.machines.contains key) :=
      fun key => Table.contains_insert _ _ _ _
    have hof : ∀ key, ((s.machines.insert (some label)
        { id := s.made, thread := ⟨s.made, name⟩ }).get? key).getD {} =
          if key = some label then { id := s.made, thread := ⟨s.made, name⟩ } else s.machineOf key := by
      intro key
      split
      next hkey => rw [hkey, Table.get?_insert_self]; rfl
      next hkey => rw [Table.get?_insert_of_ne _ _ hkey]; rfl
    refine ⟨?_, fun key => ?_, fun key hkey => ?_, fun k k' hk hk' hne => ?_⟩
    · rw [hcontains]
      simp
    · unfold machineOf
      rw [hof]
      split
      · exact Machine.IsFresh.linked ⟨rfl, rfl, rfl, rfl⟩
      · exact h.linked key
    · unfold machineOf
      dsimp only at hkey ⊢
      rw [hcontains] at hkey
      rw [hof]
      split
      · exact ⟨Nat.lt_succ_self _, Nat.lt_succ_self _⟩
      next hold =>
        have hkey' : s.machines.contains key = true := by simpa [hold] using hkey
        obtain ⟨hid, hthread⟩ := h.issued key hkey'
        exact ⟨Nat.lt_succ_of_lt hid, Nat.lt_succ_of_lt hthread⟩
    · -- the new machine has a number that none had before
      unfold machineOf
      dsimp only at hk hk' ⊢
      rw [hcontains] at hk hk'
      rw [hof, hof]
      have hnew : ∀ j, s.machines.contains j = true →
          s.made ≠ (s.machineOf j).id ∧ s.made ≠ (s.machineOf j).thread.id :=
        fun j hj => ⟨Nat.ne_of_gt (h.issued j hj).1, Nat.ne_of_gt (h.issued j hj).2⟩
      by_cases hl : k = some label <;> by_cases hl' : k' = some label
      · exact absurd (hl.trans hl'.symm) hne
      · rw [if_pos hl, if_neg hl']
        exact hnew k' (by simpa [hl'] using hk')
      · rw [if_neg hl, if_pos hl']
        have hold := hnew k (by simpa [hl] using hk)
        exact ⟨hold.1.symm, hold.2.symm⟩
      · rw [if_neg hl, if_neg hl']
        exact h.apart k k' (by simpa [hl] using hk) (by simpa [hl'] using hk') hne

end IsApart
end Scene

namespace Move
variable {s : Scene} {name : HookName} {key : Option String} {moves : List Move} {move : Move}

def Throughout (P : Scene → Move → Prop) : Scene → List Move → Prop
  | _, [] => True
  | s, move :: moves => P s move ∧ Throughout P (move.apply s) moves

instance decidableThroughout (P : Scene → Move → Prop) [∀ s move, Decidable (P s move)] :
    (s : Scene) → (moves : List Move) → Decidable (Throughout P s moves)
  | _, [] => inferInstanceAs (Decidable True)
  | s, move :: moves =>
    have := decidableThroughout P (move.apply s) moves
    inferInstanceAs (Decidable (P s move ∧ Throughout P (move.apply s) moves))

theorem throughout_append {P : Scene → Move → Prop} {more : List Move} :
    Throughout P s (moves ++ more) ↔ Throughout P s moves ∧ Throughout P (after s moves) more := by
  induction moves generalizing s with
  | nil => simp [Throughout]
  | cons move moves ih => simp only [List.cons_append, Throughout, after_cons, ih, and_assoc]

/-- The operation keeps to the stack of the running thread, and only threads that are there are gone back
to. -/
def Orderly (s : Scene) : Move → Prop
  | operate op => op.IsDisciplined s.machine
  | turnBack key => s.machines.contains key = true
  | _ => True

instance (s : Scene) : (move : Move) → Decidable (move.Orderly s)
  | operate op => inferInstanceAs (Decidable (op.IsDisciplined s.machine))
  | turnBack key => inferInstanceAs (Decidable (s.machines.contains key = true))
  | begin_ .. | enter .. | exit .. | target .. | finish _ | register .. | place .. | turn .. =>
    inferInstanceAs (Decidable True)

theorem isApart_apply (h : s.IsApart) (orderly : move.Orderly s) : (move.apply s).IsApart := by
  unfold apply
  cases move with
  | operate op => exact h.operate orderly
  | begin_ tracer f => exact (h.onTracer tracer _).operate trivial
  | enter tracer f => exact h.onTracer tracer _
  | exit tracer f => exact h.onTracer tracer _
  | target tracer code => exact h.onTracer tracer _
  | finish tracer => exact h.onTracer tracer _
  | register tracer file text => exact h.onTracer tracer _
  | place file contents => cases contents <;> exact h.of_machines rfl h.running rfl
  | turn label name => exact h.turn label name
  | turnBack key => exact h.of_machines rfl orderly rfl

/-- A thread that is there stays, and keeps its numbers. -/
theorem numbers_apply (h : s.IsApart) (known : s.machines.contains key = true) (move : Move) :
    (move.apply s).machines.contains key = true ∧
      ((move.apply s).machineOf key).id = (s.machineOf key).id ∧
      ((move.apply s).machineOf key).thread = (s.machineOf key).thread := by
  have hsame : ∀ {s' : Scene}, s'.machines = s.machines → s'.machines.contains key = true ∧
      (s'.machineOf key).id = (s.machineOf key).id ∧
      (s'.machineOf key).thread = (s.machineOf key).thread := by
    intro s' same
    unfold Scene.machineOf
    rw [same]
    exact ⟨known, rfl, rfl⟩
  have hop : ∀ {s' : Scene} (op), s'.IsApart → s'.machines = s.machines →
      (s'.operate op).2.machines.contains key = true ∧
        ((s'.operate op).2.machineOf key).id = (s.machineOf key).id ∧
        ((s'.operate op).2.machineOf key).thread = (s.machineOf key).thread := by
    intro s' op h' same
    obtain ⟨hcontains, hid, hthread⟩ := hsame same
    obtain ⟨hid', hthread'⟩ := Scene.numbers_operate s' op key
    exact ⟨(Scene.contains_operate h'.running op key).trans hcontains, hid'.trans hid,
      hthread'.trans hthread⟩
  have htended := Scene.machines_onTracer s
  cases move with
  | operate op => exact hop op h rfl
  | begin_ tracer f => exact hop _ (h.onTracer tracer _) (htended tracer _)
  | enter tracer f => exact hsame (htended tracer _)
  | exit tracer f => exact hsame (htended tracer _)
  | target tracer code => exact hsame (htended tracer _)
  | finish tracer => exact hsame (htended tracer _)
  | register tracer file text => exact hsame (htended tracer _)
  | place file contents => cases contents <;> exact hsame rfl
  | turnBack label => exact hsame rfl
  | turn label name =>
    rw [apply, Scene.turn, Scene.openThread]
    split
    · exact hsame rfl
    next unknown =>
      have hne : key ≠ some label := fun he => by
        rw [he] at known
        exact unknown known
      unfold Scene.machineOf
      dsimp only
      rw [Table.contains_insert, known, Bool.or_true, Table.get?_insert_of_ne _ _ hne]
      exact ⟨rfl, rfl, rfl⟩

/-- What is heard on another thread is of a frame of another machine. -/
theorem heard_elsewhere (h : s.IsApart) (known : s.machines.contains key = true)
    (elsewhere : s.running ≠ key) {op : Op FrameId} (hd : op.IsDisciplined s.machine)
    {x : HookName × Context} (heard : s.machine.heardBy? op = some x) :
    x.2.frame.id.machine ≠ (s.machineOf key).id ∧
      x.2.frame.thread.id ≠ (s.machineOf key).thread.id := by
  have linked := h.linked s.running
  have hget := linked.isIssued.get?_of_heardBy heard
  obtain ⟨-, hthread, hmachine, -⟩ :=
    (linked.before hd).known x.2.frame.id x.2.frame.place (Machine.standing_of_get? hget)
  rw [show x.2.frame.thread = s.machine.thread from hthread.trans (Op.thread_before _ op),
    show x.2.frame.id.machine = s.machine.id from hmachine.trans (Machine.id_before _ op)]
  exact h.apart s.running key h.running known elsewhere

end Move
end SelectiveTrace
