import SelectiveTrace.Proofs.Host.Discipline

/-! What one operation of a disciplined run does, told by the event it reports. -/
namespace SelectiveTrace

namespace Op

def result? {φ : Type} : Op φ → Option Value
  | .ret _ v | .yieldValue _ v => some v
  | _ => none

inductive Ends (op : Op FrameId) (f : Frame) : Event → Prop
  | value (v : Value) (opcode : f.endedOnReturn = true) (result : op.result? = some v) :
    Ends op f (.ret v)
  | brokenOff (opcode : f.endedOnReturn = false) (result : op.result? = none) :
    Ends op f (.ret .none)
  | raised (e : Raised) (result : op.result? = none) : Ends op f (.exception e)

/-- The cases of an operation, with the frame as the hook gets to see it. -/
inductive Turn (m : Machine) (op : Op FrameId) : Prop
  | quiet (event : op.event? m = none) (stack : (op.before m).stack = m.stack)
  | start (f : Frame) (event : op.event? m = some (f.id, .call))
      (live : (op.before m).frames.get? f.id = some f) (back : f.back = m.stack.head?)
      (off : f.id ∉ m.stack) (stack : (op.before m).stack = f.id :: m.stack)
      (after : ∀ m', op.after m' = m')
  | line (f f₀ : Frame) (rest : List FrameId) (event : op.event? m = some (f.id, .line))
      (live : (op.before m).frames.get? f.id = some f) (was : m.standing f.id = some f₀)
      (moved : f.place = { f₀ with line := f.line }) (top : m.stack = f.id :: rest)
      (stack : (op.before m).stack = m.stack) (after : ∀ m', op.after m' = m')
  | finish (f : Frame) (e : Event) (rest : List FrameId) (event : op.event? m = some (f.id, e))
      (ends : op.Ends f e) (live : (op.before m).frames.get? f.id = some f)
      (was : m.standing f.id = some f.place) (top : m.stack = f.id :: rest)
      (stack : (op.before m).stack = m.stack)
      (after : ∀ m', m'.stack = m.stack → (op.after m').stack = rest)
  | drop (f : Frame) (event : op.event? m = some (f.id, .discard))
      (live : (op.before m).frames.get? f.id = some f) (off : f.id ∉ m.stack)
      (stack : (op.before m).stack = m.stack) (after : ∀ m', (op.after m').stack = m'.stack)

end Op

namespace Machine

theorem get?_of_standing {m : Machine} {id : FrameId} {f : Frame} (h : m.standing id = some f) :
    ∃ f', m.frames.get? id = some f' ∧ f'.place = f :=
  Option.map_eq_some_iff.mp h

theorem standing_of_get? {m : Machine} {id : FrameId} {f : Frame}
    (h : m.frames.get? id = some f) : m.standing id = some f.place := by
  simp [standing, h]

theorem Linked.get?_top {m : Machine} (h : m.Linked) {id : FrameId}
    (hc : m.current = some id) :
    ∃ f rest, m.frames.get? id = some f ∧ f.id = id ∧ m.stack = id :: rest := by
  obtain ⟨rest, hs⟩ := List.head?_eq_some_iff.mp hc
  obtain ⟨f, hf, -⟩ := h.top hs
  obtain ⟨f', hg, hp⟩ := get?_of_standing hf
  have hk := (h.known id f hf).1
  subst hp
  exact ⟨f', rest, hg, hk, hs⟩

theorem Linked.get?_parked {m : Machine} (h : m.Linked) {id : FrameId} (hi : id ∈ m.suspended) :
    ∃ f, m.frames.get? id = some f ∧ f.id = id := by
  obtain ⟨f, hf⟩ := Option.isSome_iff_exists.mp (h.parked id hi).2
  have hk := (h.known id f hf).1
  obtain ⟨f', hg, rfl⟩ := get?_of_standing hf
  exact ⟨f', hg, hk⟩

theorem leave_top (id : FrameId) (rest : List FrameId) : leave (id :: rest) id = rest := by
  simp [leave]

theorem without_top {id : FrameId} {rest : List FrameId} (h : id ∉ rest) :
    without (id :: rest) id = rest := by
  simp only [without, ne_eq, decide_not, List.filter_cons, decide_true, Bool.not_true,
    Bool.false_eq_true, if_false]
  refine List.filter_eq_self.mpr ?_
  intro j hj
  have hne : j ≠ id := fun he => h (he ▸ hj)
  simp [hne]

theorem stack_popFrame {m : Machine} {id : FrameId} {rest : List FrameId}
    (h : m.stack = id :: rest) : (m.popFrame id).stack = rest := by
  simp [popFrame, forget, h, leave_top]

/-- The innermost frame is about to end by `op`, which has left its last instruction behind. -/
theorem Linked.turn_finish {m : Machine} (h : m.Linked) {id : FrameId} (hc : m.current = some id)
    {op : Op FrameId} {e : Event} {g : Frame → Frame} (hg : ∀ f, (g f).place = f.place)
    (before : op.before m = m.modifyFrame id g) (event : op.event? m = some (id, e))
    (ends : ∀ f, op.Ends (g f) e)
    (after : ∀ m' rest, m'.stack = id :: rest → id ∉ rest → (op.after m').stack = rest) :
    op.Turn m := by
  obtain ⟨f, rest, hf, hid, hs⟩ := h.get?_top hc
  have hn := h.not_mem_rest hs
  have hgid : (g f).id = id := (congrArg Frame.id (hg f)).trans hid
  refine .finish (g f) e rest (hgid ▸ event) (ends f) ?_ ?_ (hgid ▸ hs) ?_ ?_
  · rw [before, hgid, get?_modifyFrame, hf]
    simp
  · rw [hgid, hg, standing_of_get? hf]
  · simp [before]
  · exact fun m' hm => after m' rest (hm.trans hs) hn

end Machine

namespace Op
open Machine

theorem Turn.of_disciplined {m : Machine} (h : m.Linked) {op : Op FrameId}
    (hd : op.IsDisciplined m) : op.Turn m := by
  cases op with
  | enterModule code =>
    exact .start (m.newFrame code (m.globalsOf code.file)) rfl
      ((get?_pushFrame m code _ m.nextId).trans (if_pos rfl)) rfl h.nextId_not_mem rfl
      fun _ => rfl
  | call code args =>
    exact .start (m.newFrame code (.ofList args)) rfl
      ((get?_pushFrame m code _ m.nextId).trans (if_pos rfl)) rfl h.nextId_not_mem rfl
      fun _ => rfl
  | line id n =>
    obtain ⟨f, rest, hf, rfl, hs⟩ := h.get?_top hd
    refine .line { f with line := n, lastOpcode := none } f.place rest rfl ?_
      (standing_of_get? hf) rfl hs (by simp [before, moveTo]) fun _ => rfl
    simp [before, moveTo, get?_modifyFrame, hf]
  | setLocal id name value =>
    exact .quiet rfl (by rw [before, setLocal_eq])
  | setGlobal file name value =>
    exact .quiet rfl (by rw [before, setGlobal_eq])
  | ret id value =>
    exact h.turn_finish (g := fun f => { f with lastOpcode := some .returnValue }) hd
      (fun _ => rfl) rfl rfl (fun _ => .value value rfl rfl) fun m' rest hm _ => stack_popFrame hm
  | unwind id =>
    exact h.turn_finish (g := fun f => { f with lastOpcode := some .call }) hd
      (fun _ => rfl) rfl rfl (fun _ => .brokenOff rfl rfl) fun m' rest hm _ => stack_popFrame hm
  | raise id e =>
    obtain ⟨f, rest, hf, rfl, hs⟩ := h.get?_top hd
    exact .finish f (.exception e) rest rfl (.raised e rfl) hf (standing_of_get? hf) hs rfl
      fun m' hm => stack_popFrame (hm.trans hs)
  | yieldValue id value =>
    refine h.turn_finish (g := fun f => { f with lastOpcode := some .yieldValue }) hd
      (fun _ => rfl) rfl rfl (fun _ => .value value rfl rfl) ?_
    intro m' rest hm hn
    simp only [after, suspend, hm, without_top hn]
  | resume id =>
    obtain ⟨f, hf, rfl⟩ := h.get?_parked hd
    refine .start { f with back := m.current, lastOpcode := none } rfl ?_ rfl (h.parked _ hd).1
      rfl fun _ => rfl
    simp [before, wake, get?_modifyFrame, hf]
  | discard id =>
    obtain ⟨f, hf, rfl⟩ := h.get?_parked hd
    exact .drop f rfl hf (h.parked _ hd).1 rfl fun _ => rfl
  | traceFrame id => exact .quiet rfl rfl
  | setTrace hook => exact .quiet rfl rfl
  | pushTrace hook => exact .quiet rfl rfl
  | popTrace => exact .quiet rfl rfl

/-- Before its event an operation changes no frame but the one it reports about. -/
theorem spares_before {m : Machine} {op : Op FrameId} {id : FrameId}
    (h : ∀ e, op.event? m ≠ some (id, e)) : m.Spares (op.before m) id := by
  cases op with
  | enterModule code =>
    have hne : id ≠ m.nextId := fun he => h .call (he ▸ rfl)
    exact ⟨(spares_pushFrame m code _ hne).standing, fun hu => hu⟩
  | call code args => exact spares_pushFrame m code _ fun he => h .call (he ▸ rfl)
  | line f n => exact spares_modifyFrame_of_ne m f _ fun he => h .line (he ▸ rfl)
  | setLocal f name value => exact spares_setLocal m f id name value
  | setGlobal file name value => exact spares_setGlobal m file name value id
  | ret f value | unwind f | yieldValue f value => exact spares_setOpcode m f id _
  | raise f e => exact Spares.refl m id
  | resume f =>
    have hs := spares_modifyFrame_of_ne { m with suspended := without m.suspended f } f
      (fun g => { g with back := m.current, lastOpcode := none }) fun he => h .call (he ▸ rfl)
    exact ⟨hs.standing, hs.untraced⟩
  | traceFrame f => exact ⟨rfl, fun hu => (mem_without.mp hu).1⟩
  | discard f | setTrace hook | pushTrace hook | popTrace => exact ⟨rfl, fun hu => hu⟩

/-- So it is after its event. -/
theorem spares_after {m m' : Machine} {op : Op FrameId} {id : FrameId}
    (h : ∀ e, op.event? m ≠ some (id, e)) : m'.Spares (op.after m') id := by
  cases op with
  | ret f value => exact spares_popFrame m' fun he => h (.ret value) (he ▸ rfl)
  | unwind f => exact spares_popFrame m' fun he => h (.ret .none) (he ▸ rfl)
  | raise f e => exact spares_popFrame m' fun he => h (.exception e) (he ▸ rfl)
  | discard f => exact spares_forget m' fun he => h .discard (he ▸ rfl)
  | yieldValue f value => exact ⟨rfl, fun hu => hu⟩
  | enterModule _ | call _ _ | line _ _ | setLocal _ _ _ | setGlobal _ _ _ | resume _
  | traceFrame _ | setTrace _ | pushTrace _ | popTrace => exact Spares.refl m' id

theorem untraced_before {m : Machine} {op : Op FrameId} {id : FrameId}
    (h : id ∈ (op.before m).untraced) : id ∈ m.untraced := by
  cases op with
  | setLocal f name value =>
    rw [before, setLocal_eq] at h
    exact h
  | setGlobal file name value =>
    rw [before, setGlobal_eq] at h
    exact h
  | line f n => exact untraced_modifyFrame m f _ ▸ h
  | ret f value | unwind f | yieldValue f value => exact untraced_modifyFrame m f _ ▸ h
  | resume f =>
    exact untraced_modifyFrame { m with suspended := without m.suspended f } f _ ▸ h
  | traceFrame f => exact (mem_without.mp h).1
  | _ => exact h

theorem thread_before (m : Machine) (op : Op FrameId) : (op.before m).thread = m.thread := by
  cases op with
  | setLocal f name value => rw [before, setLocal_eq]
  | setGlobal file name value => rw [before, setGlobal_eq]
  | line f n => exact thread_modifyFrame m f _
  | ret f value | unwind f | yieldValue f value => exact thread_modifyFrame m f _
  | resume f => exact thread_modifyFrame { m with suspended := without m.suspended f } f _
  | _ => rfl

theorem thread_after (m : Machine) (op : Op FrameId) : (op.after m).thread = m.thread := by
  cases op <;> rfl

theorem hook_after (m : Machine) (op : Op FrameId) : (op.after m).hook = m.hook := by
  cases op <;> rfl

end Op

namespace Machine

theorem Linked.setOpcode {m : Machine} (h : m.Linked) (id : FrameId) (opcode : Option Opcode) :
    (m.setOpcode id opcode).Linked :=
  h.congr (fun j => (spares_setOpcode m id j opcode).standing) (stack_modifyFrame m id _)
    (suspended_modifyFrame m id _) (id_modifyFrame m id _) (thread_modifyFrame m id _)
    (next_modifyFrame m id _)

theorem Linked.pushFrame {m : Machine} (h : m.Linked) (code : Code) (locals : Namespace) :
    (m.pushFrame code locals).Linked := by
  refine h.cons (f := (m.newFrame code locals).place) ?_ rfl rfl ⟨rfl, Nat.lt_succ_self _⟩
    h.nextId_not_mem rfl ?_ ?_ rfl rfl (Nat.le_succ _)
  · exact standing_of_get? ((get?_pushFrame m code locals m.nextId).trans (if_pos rfl))
  · exact fun id hne => (spares_pushFrame m code locals hne).standing
  · intro id hi
    refine ⟨hi, ?_⟩
    rintro rfl
    exact h.nextId_not_suspended hi

theorem Linked.wake {m : Machine} (h : m.Linked) {id : FrameId} (hi : id ∈ m.suspended) :
    (m.wake id).Linked := by
  obtain ⟨f, hf, rfl⟩ := h.get?_parked hi
  obtain ⟨-, ht, ho, hn⟩ := h.known _ _ (standing_of_get? hf)
  refine h.cons (f := { f with back := m.current, locals := {}, lastOpcode := none }) ?_ rfl ht
    ⟨ho.trans (by simp [Machine.wake]), by simpa [Machine.wake] using hn⟩ (h.parked _ hi).1 rfl
    ?_ ?_ (by simp [Machine.wake]) (by simp [Machine.wake]) (by simp [Machine.wake])
  · simp [Machine.wake, standing, get?_modifyFrame, hf, Frame.place]
  · intro j hj
    simp [Machine.wake, standing, get?_modifyFrame, hj]
  · intro j hj
    simpa [Machine.wake, mem_without] using hj

theorem Linked.moveTo {m : Machine} (h : m.Linked) {id : FrameId} (hc : m.current = some id)
    (line : Nat) : (m.moveTo id line).Linked := by
  obtain ⟨f, rest, hf, -, -⟩ := h.get?_top hc
  refine h.moved (g := { f.place with line }) (standing_of_get? hf) ?_ ⟨rfl, rfl, rfl⟩ ?_
    (stack_modifyFrame m id _) (suspended_modifyFrame m id _) (id_modifyFrame m id _)
    (thread_modifyFrame m id _) (next_modifyFrame m id _)
  · simp [Machine.moveTo, standing, get?_modifyFrame, hf, Frame.place]
  · exact fun j hj => (spares_modifyFrame_of_ne m id _ hj).standing

theorem Linked.before {m : Machine} (h : m.Linked) {op : Op FrameId} (hd : op.IsDisciplined m) :
    (op.before m).Linked := by
  cases op with
  | enterModule code => exact (h.pushFrame code _).congr (fun _ => rfl) rfl rfl rfl rfl rfl
  | call code args => exact h.pushFrame code _
  | line id n => exact h.moveTo hd n
  | setLocal id name value =>
    rw [Op.before, setLocal_eq]
    exact h.congr (fun j => (spares_setLocal m id j name value).standing) rfl rfl rfl rfl rfl
  | setGlobal file name value =>
    rw [Op.before, setGlobal_eq]
    exact h.congr (fun j => (spares_setGlobal m file name value j).standing) rfl rfl rfl rfl rfl
  | ret id value | unwind id | yieldValue id value => exact h.setOpcode id _
  | resume id => exact h.wake hd
  | discard id =>
    refine h.left (i := id) (Or.inl rfl) (fun _ _ => rfl) List.suffix_rfl (h.parked id hd).1 ?_
      rfl rfl rfl
    exact fun j hj => Or.inl (mem_without.mp hj)
  | raise _ _ => exact h
  | traceFrame _ | setTrace _ | pushTrace _ | popTrace =>
    exact h.congr (fun _ => rfl) rfl rfl rfl rfl rfl

theorem Linked.popFrame {m : Machine} (h : m.Linked) {id : FrameId} {rest : List FrameId}
    (hs : m.stack = id :: rest) : (m.popFrame id).Linked := by
  refine h.left (i := id) (Or.inr (by simp [standing, Machine.popFrame, Machine.forget]))
    (fun j hj => (spares_popFrame m hj).standing) ?_ ?_ ?_ rfl rfl rfl
  · rw [stack_popFrame hs, hs]
    exact List.suffix_cons id rest
  · rw [stack_popFrame hs]
    exact h.not_mem_rest hs
  · exact fun j hj => Or.inl (mem_without.mp hj)

theorem Linked.suspend {m : Machine} (h : m.Linked) {id : FrameId} {rest : List FrameId}
    (hs : m.stack = id :: rest) : (m.suspend id).Linked := by
  have hn := h.not_mem_rest hs
  have hr : (m.suspend id).stack = rest := by simp only [Machine.suspend, hs, without_top hn]
  obtain ⟨f, hf, -⟩ := h.top hs
  refine h.left (i := id) (Or.inl rfl) (fun _ _ => rfl) ?_ (by rwa [hr]) ?_ rfl rfl rfl
  · rw [hr, hs]
    exact List.suffix_cons id rest
  · intro j hj
    by_cases he : j = id
    · exact Or.inr ⟨he, Option.isSome_iff_exists.mpr ⟨f, hf⟩⟩
    · refine Or.inl ⟨?_, he⟩
      simpa [Machine.suspend, he] using hj

theorem Linked.forget {m : Machine} (h : m.Linked) {id : FrameId} (off : id ∉ m.stack)
    (hp : id ∉ m.suspended) : (m.forget id).Linked := by
  refine h.left (i := id) (Or.inr (by simp [standing, Machine.forget]))
    (fun j hj => (spares_forget m hj).standing) List.suffix_rfl off ?_ rfl rfl rfl
  exact fun j hj => Or.inl ⟨hj, fun he => hp (he ▸ hj)⟩

/-- The change after the event, on a machine whose hook may have given up frames. -/
theorem Linked.after {m m' : Machine} (h : m.Linked) (h' : m'.Linked) {op : Op FrameId}
    (hd : op.IsDisciplined m) (hs : m'.stack = (op.before m).stack)
    (hp : m'.suspended = (op.before m).suspended) : (op.after m').Linked := by
  cases op with
  | ret id _ | unwind id =>
    obtain ⟨f, rest, -, -, ht⟩ := h.get?_top hd
    exact h'.popFrame (hs.trans ((stack_modifyFrame m id _).trans ht))
  | raise id e =>
    obtain ⟨f, rest, -, -, ht⟩ := h.get?_top hd
    exact h'.popFrame (hs.trans ht)
  | yieldValue id _ =>
    obtain ⟨f, rest, -, -, ht⟩ := h.get?_top hd
    exact h'.suspend (hs.trans ((stack_modifyFrame m id _).trans ht))
  | discard id =>
    refine h'.forget (hs ▸ (h.parked id hd).1) ?_
    rw [hp]
    exact fun hm => (mem_without.mp hm).2 rfl
  | enterModule _ | call _ _ | line _ _ | setLocal _ _ _ | setGlobal _ _ _ | resume _
  | traceFrame _ | setTrace _ | pushTrace _ | popTrace => exact h'

def hears (m : Machine) (id : FrameId) (e : Event) : Bool :=
  e.isCall || !m.untraced.contains id

def heed (m : Machine) (id : FrameId) (e : Event) : Answer → Machine
  | .skipFrame => { m with untraced := m.untraced.insert id }
  | .proceed => if e.isCall then { m with untraced := without m.untraced id } else m
  | .panicked _ => m

section heed
variable (m : Machine) (id : FrameId) (e : Event) (a : Answer)

theorem heed_eq : m.heed id e a = { m with untraced := (m.heed id e a).untraced } := by
  unfold heed
  cases a with
  | skipFrame => rfl
  | proceed => cases e <;> rfl
  | panicked text => rfl

@[simp] theorem stack_heed : (m.heed id e a).stack = m.stack := by
  rw [heed_eq]

theorem spares_heed {j : FrameId} (h : j ≠ id) : Spares m (m.heed id e a) j := by
  refine ⟨by rw [heed_eq]; rfl, fun hu => ?_⟩
  cases a with
  | skipFrame => simpa [heed, h] using hu
  | proceed => cases e <;> simp_all [heed, Event.isCall, mem_without]
  | panicked text => exact hu

variable {m id e a}

theorem Linked.heed (h : m.Linked) : (m.heed id e a).Linked := by
  rw [heed_eq]
  exact h.congr (fun _ => rfl) rfl rfl rfl rfl rfl

end heed

section step
variable {deliver : Deliver σ} {m : Machine} {s : σ} {h : HookName} {f : Frame} {e : Event}

theorem not_hears (m : Machine) (id : FrameId) (e : Event) :
    (!e.isCall && m.untraced.contains id) = !m.hears id e := by
  unfold hears
  cases e.isCall <;> cases m.untraced.contains id <;> rfl

theorem dispatch_of_unheard (hook : m.hook = some h) (live : m.frames.get? f.id = some f)
    (hu : m.hears f.id e = false) : m.dispatch deliver s f.id e = ⟨m, s, none⟩ := by
  unfold dispatch
  rw [hook, live]
  simp only [not_hears, hu, Bool.not_false, if_true]

theorem dispatch_of_heard (hook : m.hook = some h) (live : m.frames.get? f.id = some f)
    (hu : m.hears f.id e = true) {a : Answer} {s' : σ}
    (answer : deliver h (m.context f e) s = (a, s')) (hp : ∀ text, a ≠ .panicked text) :
    m.dispatch deliver s f.id e = ⟨m.heed f.id e a, s', none⟩ := by
  unfold dispatch
  rw [hook, live]
  simp only [not_hears, hu, Bool.not_true, Bool.false_eq_true, if_false, answer]
  cases a with
  | panicked text => exact absurd rfl (hp text)
  | skipFrame => simp only [heed, hook]
  | proceed => cases hc : e.isCall <;> simp [heed, hc, hook]

variable {op : Op FrameId}

theorem applies_of_disciplined (hd : op.IsDisciplined m) : op.applies m = true := by
  cases op with
  | resume f | discard f => exact List.contains_iff_mem.mpr hd
  | _ => rfl

theorem step_of_quiet (hd : op.IsDisciplined m) (event : op.event? m = none) :
    m.step deliver s op = ⟨op.before m, s, none⟩ := by
  simp [step, applies_of_disciplined hd, event]

/-- An event of a frame that the hook has given up changes nothing but the machine. -/
theorem step_of_unheard (hd : op.IsDisciplined m) (hook : (op.before m).hook = some h)
    (event : op.event? m = some (f.id, e)) (live : (op.before m).frames.get? f.id = some f)
    (hu : (op.before m).hears f.id e = false) :
    m.step deliver s op = ⟨op.after (op.before m), s, none⟩ := by
  simp [step, applies_of_disciplined hd, event, dispatch_of_unheard hook live hu]

/-- Any other event goes to the hook, and the machine heeds the answer. -/
theorem step_of_heard (hd : op.IsDisciplined m) (hook : (op.before m).hook = some h)
    (event : op.event? m = some (f.id, e)) (live : (op.before m).frames.get? f.id = some f)
    (hu : (op.before m).hears f.id e = true) {a : Answer} {s' : σ}
    (answer : deliver h ((op.before m).context f e) s = (a, s'))
    (hp : ∀ text, a ≠ .panicked text) :
    m.step deliver s op = ⟨op.after ((op.before m).heed f.id e a), s', none⟩ := by
  simp [step, applies_of_disciplined hd, event, dispatch_of_heard hook live hu answer hp]

/-- Whatever the hook answers, the machine heeds it; an event it does not hear leaves it alone. -/
theorem dispatch_machine (deliver : Deliver σ) (m : Machine) (s : σ) (id : FrameId) (e : Event) :
    ∃ a, (m.dispatch deliver s id e).machine = m.heed id e a := by
  unfold dispatch
  split
  next hook frame hh _ =>
    split
    · exact ⟨.panicked "", rfl⟩
    · split
      · exact ⟨.panicked "", rfl⟩
      · exact ⟨.skipFrame, rfl⟩
      · exact ⟨.proceed, rfl⟩
  · exact ⟨.panicked "", rfl⟩

theorem Linked.dispatch (h : m.Linked) (deliver : Deliver σ) (s : σ) (id : FrameId) (e : Event) :
    (m.dispatch deliver s id e).machine.Linked := by
  obtain ⟨a, ha⟩ := dispatch_machine deliver m s id e
  rw [ha]
  exact h.heed

theorem Linked.step (h : m.Linked) (hd : op.IsDisciplined m) :
    (m.step deliver s op).machine.Linked := by
  unfold Machine.step
  rw [applies_of_disciplined hd]
  simp only [Bool.not_true, Bool.false_eq_true, if_false]
  cases he : op.event? m with
  | none => exact h.before hd
  | some ev =>
    have hl := (h.before hd).dispatch deliver s ev.1 ev.2
    obtain ⟨a, ha⟩ := dispatch_machine deliver (op.before m) s ev.1 ev.2
    dsimp only
    split
    · exact hl
    · refine h.after hl hd ?_ ?_
      · rw [ha, heed_eq]
      · rw [ha, heed_eq]

/-- An operation changes no frame but the one it reports about. -/
theorem spares_step {id : FrameId} (hne : ∀ e, op.event? m ≠ some (id, e)) :
    m.Spares (m.step deliver s op).machine id := by
  have hb := Op.spares_before hne
  unfold Machine.step
  split
  · exact Spares.refl m id
  · cases he : op.event? m with
    | none => exact hb
    | some ev =>
      obtain ⟨a, ha⟩ := dispatch_machine deliver (op.before m) s ev.1 ev.2
      have hid : id ≠ ev.1 := by
        rintro rfl
        exact hne ev.2 he
      have hh := hb.trans (spares_heed (op.before m) ev.1 ev.2 a hid)
      dsimp only
      split
      · rw [ha]
        exact hh
      · dsimp only
        rw [ha]
        exact hh.trans (Op.spares_after hne)

theorem thread_step : (m.step deliver s op).machine.thread = m.thread := by
  unfold Machine.step
  split
  · rfl
  · cases op.event? m with
    | none => exact Op.thread_before m op
    | some ev =>
      obtain ⟨a, ha⟩ := dispatch_machine deliver (op.before m) s ev.1 ev.2
      dsimp only
      split
      · rw [ha, heed_eq]
        exact Op.thread_before m op
      · rw [Op.thread_after, ha, heed_eq]
        exact Op.thread_before m op

structure Acts (m m' : Machine) (id : FrameId) : Prop where
  linked : m'.Linked
  thread : m'.thread = m.thread
  spares : ∀ j, j ≠ id → m.Spares m' j

theorem Linked.acts_step (h : m.Linked) (hd : op.IsDisciplined m) {id : FrameId}
    (event : op.event? m = some (id, e)) : m.Acts (m.step deliver s op).machine id := by
  refine ⟨h.step hd, thread_step, ?_⟩
  intro j hj
  refine spares_step ?_
  intro e' he
  rw [event] at he
  exact hj (congrArg Prod.fst (Option.some.inj he)).symm

theorem Linked.acts_quiet (h : m.Linked) (hd : op.IsDisciplined m) (event : op.event? m = none)
    (id : FrameId) : m.Acts (op.before m) id := by
  refine ⟨h.before hd, Op.thread_before m op, ?_⟩
  intro j _
  refine Op.spares_before ?_
  intro e he
  rw [event] at he
  cases he

/-- The event of an operation goes unheard only if its frame had been given up. -/
theorem mem_untraced_of_unheard {id : FrameId} (hu : (op.before m).hears id e = false) :
    e.isCall = false ∧ id ∈ m.untraced := by
  simp only [hears, Bool.or_eq_false_iff, Bool.not_eq_false'] at hu
  exact ⟨hu.1, Op.untraced_before (List.contains_iff_mem.mp hu.2)⟩

theorem run_of_calm (calm : (m.step deliver s op).panic = none) (ops : List (Op FrameId)) :
    m.run deliver s (op :: ops) =
      (m.step deliver s op).machine.run deliver (m.step deliver s op).state ops := by
  simp [run, calm]

theorem hook_step (hk : op.KeepsHook m) : (m.step deliver s op).machine.hook = m.hook := by
  unfold Machine.step
  split
  · rfl
  · cases op.event? m with
    | none => exact hk
    | some ev =>
      obtain ⟨a, ha⟩ := dispatch_machine deliver (op.before m) s ev.1 ev.2
      dsimp only
      split
      · rw [ha, heed_eq]
        exact hk
      · rw [Op.hook_after, ha, heed_eq]
        exact hk

end step

/-! Files spelled from the root stay so: a frame keeps its file as long as it lives. -/

def IsSpelled (m : Machine) : Prop :=
  ∀ id f, m.standing id = some f → f.file.isAbsolute = true

theorem IsFresh.isSpelled {m : Machine} (h : m.IsFresh) : m.IsSpelled := by
  intro id f hf
  simp [standing, h.frames] at hf

theorem IsSpelled.congr {m m' : Machine} (h : m.IsSpelled)
    (hs : ∀ id, m'.standing id = m.standing id) : m'.IsSpelled :=
  fun id f hf => h id f (hs id ▸ hf)

theorem IsSpelled.modifyFrame {m : Machine} (h : m.IsSpelled) (id : FrameId) {g : Frame → Frame}
    (hg : ∀ f, (g f).file = f.file) : (m.modifyFrame id g).IsSpelled := by
  intro j f hf
  obtain ⟨f', hf', rfl⟩ := get?_of_standing hf
  rw [get?_modifyFrame] at hf'
  by_cases hj : j = id
  · rw [if_pos hj] at hf'
    obtain ⟨f₀, hf₀, rfl⟩ := Option.map_eq_some_iff.mp hf'
    have habs : f₀.place.file.isAbsolute = true := h id _ (standing_of_get? hf₀)
    exact (congrArg Path.isAbsolute (hg f₀)).trans habs
  · rw [if_neg hj] at hf'
    exact h j _ (standing_of_get? hf')

theorem IsSpelled.pushFrame {m : Machine} (h : m.IsSpelled) {code : Code}
    (file : code.file.isAbsolute = true) (locals : Namespace) :
    (m.pushFrame code locals).IsSpelled := by
  intro j f hf
  obtain ⟨f', hf', rfl⟩ := get?_of_standing hf
  rw [get?_pushFrame] at hf'
  by_cases hj : j = m.nextId
  · rw [if_pos hj] at hf'
    cases hf'
    exact file
  · rw [if_neg hj] at hf'
    exact h j _ (standing_of_get? hf')

end Machine

namespace Op

def IsSpelled : Op FrameId → Prop
  | .enterModule code | .call code _ => code.file.isAbsolute = true
  | .line .. | .setLocal .. | .setGlobal .. | .ret .. | .unwind _ | .raise .. | .yieldValue ..
  | .resume _ | .discard _ | .traceFrame _ | .setTrace _ | .pushTrace _ | .popTrace => True

instance : (op : Op FrameId) → Decidable op.IsSpelled
  | .enterModule code | .call code _ => inferInstanceAs (Decidable (code.file.isAbsolute = true))
  | .line .. | .setLocal .. | .setGlobal .. | .ret .. | .unwind _ | .raise .. | .yieldValue ..
  | .resume _ | .discard _ | .traceFrame _ | .setTrace _ | .pushTrace _ | .popTrace =>
    inferInstanceAs (Decidable True)

end Op

namespace Machine
variable {deliver : Deliver σ} {m : Machine} {s : σ} {op : Op FrameId}

theorem IsSpelled.before (h : m.IsSpelled) (hop : op.IsSpelled) : (op.before m).IsSpelled := by
  cases op with
  | enterModule code => exact (h.pushFrame hop _).congr fun _ => rfl
  | call code args => exact h.pushFrame hop _
  | line id n => exact h.modifyFrame id fun _ => rfl
  | setLocal id name value => exact h.congr fun j => (spares_setLocal m id j name value).standing
  | setGlobal file name value =>
    exact h.congr fun j => (spares_setGlobal m file name value j).standing
  | ret id value | unwind id | yieldValue id value => exact h.modifyFrame id fun _ => rfl
  | resume id =>
    have hm : IsSpelled { m with suspended := without m.suspended id } := h.congr fun _ => rfl
    have hw := hm.modifyFrame id (g := fun f => { f with back := m.current, lastOpcode := none })
      fun _ => rfl
    exact hw.congr fun _ => rfl
  | raise _ _ | discard _ | traceFrame _ | setTrace _ | pushTrace _ | popTrace =>
    exact h.congr fun _ => rfl

theorem IsSpelled.after (h : m.IsSpelled) (op : Op FrameId) : (op.after m).IsSpelled := by
  have forget : ∀ m' : Machine, m'.IsSpelled → ∀ id, (m'.forget id).IsSpelled := by
    intro m' h' id j f hf
    by_cases hj : j = id
    · simp [standing, Machine.forget, hj] at hf
    · exact h' j f ((spares_forget m' hj).standing ▸ hf)
  cases op with
  | ret id _ | unwind id | raise id _ => exact forget _ (h.congr fun _ => rfl) id
  | discard id => exact forget m h id
  | yieldValue id _ => exact h.congr fun _ => rfl
  | _ => exact h

theorem IsSpelled.step (h : m.IsSpelled) (hop : op.IsSpelled) :
    (m.step deliver s op).machine.IsSpelled := by
  have hb := h.before hop
  unfold Machine.step
  split
  · exact h
  · cases op.event? m with
    | none => exact hb
    | some ev =>
      obtain ⟨a, ha⟩ := dispatch_machine deliver (op.before m) s ev.1 ev.2
      have hh : ((op.before m).dispatch deliver s ev.1 ev.2).machine.IsSpelled := by
        rw [ha, heed_eq]
        exact hb.congr fun _ => rfl
      dsimp only
      split
      · exact hh
      · exact hh.after op

end Machine
end SelectiveTrace
