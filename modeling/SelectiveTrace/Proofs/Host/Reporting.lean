import SelectiveTrace.Proofs.Host.Hearing

/-! The operations of a disciplined run by what the hook is told of them: nothing, an event of the
innermost frame, or the end of a suspended generator; and which frames they give up or take back. -/
namespace SelectiveTrace
namespace Op

def retraces (id : FrameId) : Op FrameId → Bool
  | .traceFrame f => f = id
  | _ => false

def calls (m : Machine) (id : FrameId) (op : Op FrameId) : Bool :=
  (op.event? m).any fun ev => ev.1 = id && ev.2.isCall

theorem retraces_of_event {m : Machine} {op : Op FrameId} {ev : FrameId × Event}
    (event : op.event? m = some ev) (id : FrameId) : op.retraces id = false := by
  cases op with
  | traceFrame f => cases event
  | _ => rfl

/-- Before its event an operation gives no frame up, and takes none back but by name. -/
theorem mem_untraced_before {m : Machine} {op : Op FrameId} {id : FrameId} :
    id ∈ (op.before m).untraced ↔ id ∈ m.untraced ∧ op.retraces id = false := by
  cases op with
  | traceFrame f =>
    simp only [before, Machine.mem_without, retraces, decide_eq_false_iff_not]
    exact and_congr_right fun _ => ne_comm
  | setLocal f name value =>
    rw [before, Machine.setLocal_eq]
    simp [retraces]
  | setGlobal file name value =>
    rw [before, Machine.setGlobal_eq]
    simp [retraces]
  | line f n => simp [before, Machine.moveTo, retraces]
  | ret f value | unwind f | yieldValue f value => simp [before, Machine.setOpcode, retraces]
  | resume f => simp [before, Machine.wake, retraces]
  | enterModule code => simp [before, Machine.pushModule, Machine.pushFrame, retraces]
  | call code args => simp [before, Machine.pushFrame, retraces]
  | raise f e | discard f | setTrace hook | pushTrace hook | popTrace =>
    simp [before, retraces, Machine.pushTrace, Machine.popTrace]

/-- After its event an operation takes at most its own frame back. -/
theorem mem_untraced_after {m m' : Machine} {op : Op FrameId} {ev : FrameId × Event}
    (event : op.event? m = some ev) {id : FrameId} (h : id ≠ ev.1) :
    id ∈ (op.after m').untraced ↔ id ∈ m'.untraced := by
  cases op with
  | ret f value | unwind f | raise f e | discard f =>
    cases event
    simp only [after, Machine.popFrame, Machine.forget, Machine.mem_without]
    exact and_iff_left h
  | _ => exact Iff.rfl

/-- The hook is told of an event of the frame that runs on top of `rest`. -/
structure Reports (m : Machine) (op : Op FrameId) (f : Frame) (e : Event) (rest : List FrameId) :
    Prop where
  event : op.event? m = some (f.id, e)
  running : e.isDiscard = false
  live : (op.before m).frames.get? f.id = some f
  stack : (op.before m).stack = f.id :: rest
  back : f.back = rest.head?
  /-- The frame comes onto the stack, or it has been there before, maybe at another line. -/
  was : (m.stack = rest ∧ e.isCall = true) ∨ (m.stack = f.id :: rest ∧ e.isCall = false ∧
    ∃ f₀, m.standing f.id = some f₀ ∧ f₀.code = f.code ∧ f₀.file = f.file)
  /-- The frame leaves the stack, or it goes on. -/
  after : (e.isTerminal = true ∧ ∀ m', m'.stack = f.id :: rest → (op.after m').stack = rest) ∨
    (e.isTerminal = false ∧ ∀ m', op.after m' = m')

structure Drops (m : Machine) (op : Op FrameId) (f : Frame) : Prop where
  event : op.event? m = some (f.id, .discard)
  live : (op.before m).frames.get? f.id = some f
  off : f.id ∉ m.stack
  stack : (op.before m).stack = m.stack
  after : ∀ m', (op.after m').stack = m'.stack

inductive Telling (m : Machine) (op : Op FrameId) : Prop
  | nothing (event : op.event? m = none) (stack : (op.before m).stack = m.stack)
  | event (f : Frame) (e : Event) (rest : List FrameId) (reports : op.Reports m f e rest)
  | drop (f : Frame) (drops : op.Drops m f)

theorem Telling.of_disciplined {m : Machine} (h : m.Linked) {op : Op FrameId}
    (hd : op.IsDisciplined m) : op.Telling m := by
  cases Turn.of_disciplined h hd with
  | quiet event stack => exact .nothing event stack
  | start f event live back off stack after =>
    exact .event f .call m.stack
      ⟨event, rfl, live, stack, back, Or.inl ⟨rfl, rfl⟩, Or.inr ⟨rfl, after⟩⟩
  | line f f₀ rest event live was moved top stack after =>
    have hplace : f.place.back = f₀.back ∧ f₀.code = f.place.code ∧ f₀.file = f.place.file := by
      simp [moved]
    exact .event f .line rest ⟨event, rfl, live, stack.trans top,
      hplace.1.trans (h.back_of_top top was), Or.inr ⟨top, rfl, f₀, was, hplace.2⟩,
      Or.inr ⟨rfl, after⟩⟩
  | finish f e rest event ends live was top stack after =>
    have hback : f.place.back = rest.head? := h.back_of_top top was
    have hend : e.isDiscard = false ∧ e.isCall = false ∧ e.isTerminal = true := by
      cases ends <;> exact ⟨rfl, rfl, rfl⟩
    exact .event f e rest ⟨event, hend.1, live, stack.trans top, hback,
      Or.inr ⟨top, hend.2.1, f.place, was, rfl, rfl⟩,
      Or.inl ⟨hend.2.2, fun m' hm => after m' (hm.trans top.symm)⟩⟩
  | drop f event live off stack after => exact .drop f ⟨event, live, off, stack, after⟩

/-- The frame that an event is about is live before it. -/
theorem live_of_event {m : Machine} (h : m.Linked) {op : Op FrameId} (hd : op.IsDisciplined m)
    {ev : FrameId × Event} (event : op.event? m = some ev) :
    ∃ f, (op.before m).frames.get? ev.1 = some f ∧ f.id = ev.1 := by
  cases Telling.of_disciplined h hd with
  | nothing none_told =>
    rw [event] at none_told
    cases none_told
  | event f e rest reports =>
    cases event.symm.trans reports.event
    exact ⟨f, reports.live, rfl⟩
  | drop f drops =>
    cases event.symm.trans drops.event
    exact ⟨f, drops.live, rfl⟩

theorem reports_of_event {m : Machine} (h : m.Linked) {op : Op FrameId} (hd : op.IsDisciplined m)
    {f : Frame} {e : Event} (event : op.event? m = some (f.id, e))
    (live : (op.before m).frames.get? f.id = some f) (running : e.isDiscard = false) :
    ∃ rest, op.Reports m f e rest := by
  cases Telling.of_disciplined h hd with
  | nothing event' => simp [event] at event'
  | event g e' rest reports =>
    obtain ⟨hid, rfl⟩ := Prod.mk.inj (Option.some.inj (event.symm.trans reports.event))
    have hg := reports.live
    rw [← hid, live] at hg
    cases hg
    exact ⟨rest, reports⟩
  | drop g drops =>
    obtain ⟨-, rfl⟩ := Prod.mk.inj (Option.some.inj (event.symm.trans drops.event))
    cases running

namespace Reports
variable {m m' : Machine} {op : Op FrameId} {f : Frame} {e : Event} {rest : List FrameId}

theorem off (h : op.Reports m f e rest) (linked : m.Linked) (hd : op.IsDisciplined m) :
    f.id ∉ rest :=
  (linked.before hd).not_mem_rest h.stack

theorem below (h : op.Reports m f e rest) : rest <:+ (op.before m).stack :=
  h.stack ▸ List.suffix_cons f.id rest

theorem thread (h : op.Reports m f e rest) (linked : m.Linked) (hd : op.IsDisciplined m) :
    f.thread = m.thread :=
  ((linked.before hd).known f.id f.place (Machine.standing_of_get? h.live)).2.1.trans
    (Op.thread_before m op)

theorem stays (h : op.Reports m f e rest) (running : e.isTerminal = false) (m' : Machine) :
    op.after m' = m' := by
  rcases h.after with ⟨terminal, -⟩ | ⟨-, after⟩
  · rw [running] at terminal
    cases terminal
  · exact after m'

theorem stack_after (h : op.Reports m f e rest) (hm : m'.stack = f.id :: rest) :
    (op.after m').stack = if e.isTerminal then rest else f.id :: rest := by
  rcases h.after with ⟨terminal, after⟩ | ⟨terminal, after⟩
  · rw [terminal, after m' hm]
    rfl
  · rw [terminal, after, hm]
    rfl

theorem mem_untraced (h : op.Reports m f e rest) :
    f.id ∈ (op.before m).untraced ↔ f.id ∈ m.untraced := by
  rw [mem_untraced_before, retraces_of_event h.event]
  exact and_iff_left rfl

end Reports
end Op

namespace Machine
variable {σ : Type} {deliver : Deliver σ} {m : Machine} {s : σ} {op : Op FrameId} {id : FrameId}
  {e : Event}

/-- An operation with an event gives up or takes back no frame but its own. -/
theorem mem_untraced_step (event : op.event? m = some (id, e)) {j : FrameId} (h : j ≠ id) :
    j ∈ (m.step deliver s op).machine.untraced ↔ j ∈ m.untraced := by
  have hbefore : j ∈ (op.before m).untraced ↔ j ∈ m.untraced := by
    rw [Op.mem_untraced_before, Op.retraces_of_event event]
    simp
  unfold step
  split
  · exact Iff.rfl
  · rw [event]
    obtain ⟨a, ha⟩ := dispatch_machine deliver (op.before m) s id e
    dsimp only
    split
    · rw [ha, mem_untraced_heed h, hbefore]
    · rw [Op.mem_untraced_after event h, ha, mem_untraced_heed h, hbefore]

/-- The machine after an event: it has heeded some answer, and the operation is brought to its end. -/
theorem machine_step_of_event (calm : (m.step deliver s op).panic = none) (hd : op.IsDisciplined m)
    (event : op.event? m = some (id, e)) :
    ∃ a, (m.step deliver s op).machine = op.after ((op.before m).heed id e a) := by
  obtain ⟨a, ha⟩ := dispatch_machine deliver (op.before m) s id e
  refine ⟨a, ?_⟩
  unfold step at calm ⊢
  rw [applies_of_disciplined hd, event] at calm ⊢
  simp only [Bool.not_true, Bool.false_eq_true, if_false] at calm ⊢
  cases hp : ((op.before m).dispatch deliver s id e).panic with
  | none => simp [ha]
  | some text => simp [hp] at calm

/-- What runs after an operation without being its frame has run before. -/
theorem Linked.mem_stack_step (h : m.Linked) (calm : (m.step deliver s op).panic = none)
    (hd : op.IsDisciplined m) {j : FrameId} (hne : ∀ e, op.event? m ≠ some (j, e))
    (hj : j ∈ (m.step deliver s op).machine.stack) : j ∈ m.stack := by
  cases Op.Telling.of_disciplined h hd with
  | nothing event stack =>
    rw [step_of_quiet hd event] at hj
    exact stack ▸ hj
  | event f e rest reports =>
    obtain ⟨a, ha⟩ := machine_step_of_event calm hd reports.event
    have hid : j ≠ f.id := fun heq => hne e (heq ▸ reports.event)
    have hrest : rest ⊆ m.stack := by
      rcases reports.was with ⟨hs, -⟩ | ⟨hs, -⟩
      · exact hs ▸ List.Subset.refl rest
      · exact hs ▸ List.subset_cons_self f.id rest
    rw [ha, reports.stack_after ((stack_heed _ _ _ _).trans reports.stack)] at hj
    refine hrest ?_
    split at hj
    · exact hj
    · exact (List.mem_cons.mp hj).resolve_left hid
  | drop f drops =>
    obtain ⟨a, ha⟩ := machine_step_of_event calm hd drops.event
    rw [ha, drops.after, stack_heed, drops.stack] at hj
    exact hj

end Machine
end SelectiveTrace
