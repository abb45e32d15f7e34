import SelectiveTrace.Host.Machine

/-! Runs that keep to the stack: events happen to the innermost frame, and only suspended generators
are resumed or dropped. In such a run the back links spell the stack, and an operation changes no
frame but its own. -/
namespace SelectiveTrace

/-- A frame without its variables and its last instruction: what tells where it stands. -/
def Frame.place (f : Frame) : Frame :=
  { f with locals := {}, lastOpcode := none }

namespace Op

def IsDisciplined (m : Machine) : Op FrameId → Prop
  | .line f _ | .ret f _ | .unwind f | .raise f _ | .yieldValue f _ => m.current = some f
  | .resume f | .discard f => f ∈ m.suspended
  | .enterModule _ | .call .. | .setLocal .. | .setGlobal .. | .traceFrame _ | .setTrace _
  | .pushTrace _ | .popTrace => True

def KeepsHook (m : Machine) (op : Op FrameId) : Prop :=
  (op.before m).hook = m.hook

instance (m : Machine) : (op : Op FrameId) → Decidable (op.IsDisciplined m)
  | .line f _ | .ret f _ | .unwind f | .raise f _ | .yieldValue f _ =>
    inferInstanceAs (Decidable (m.current = some f))
  | .resume f | .discard f => inferInstanceAs (Decidable (f ∈ m.suspended))
  | .enterModule _ | .call .. | .setLocal .. | .setGlobal .. | .traceFrame _ | .setTrace _
  | .pushTrace _ | .popTrace => inferInstanceAs (Decidable True)

instance (m : Machine) (op : Op FrameId) : Decidable (op.KeepsHook m) :=
  inferInstanceAs (Decidable ((op.before m).hook = m.hook))

end Op

namespace Machine
variable {σ : Type}

def Disciplined (deliver : Deliver σ) : Machine → σ → List (Op FrameId) → Prop
  | _, _, [] => True
  | m, s, op :: ops =>
    op.IsDisciplined m ∧ op.KeepsHook m ∧
      Disciplined deliver (m.step deliver s op).machine (m.step deliver s op).state ops

instance decidableDisciplined (deliver : Deliver σ) (m : Machine) (s : σ) :
    (ops : List (Op FrameId)) → Decidable (m.Disciplined deliver s ops)
  | [] => inferInstanceAs (Decidable True)
  | op :: ops =>
    have := decidableDisciplined deliver (m.step deliver s op).machine
      (m.step deliver s op).state ops
    inferInstanceAs (Decidable (op.IsDisciplined m ∧ op.KeepsHook m ∧
      Disciplined deliver (m.step deliver s op).machine (m.step deliver s op).state ops))

def standing (m : Machine) (id : FrameId) : Option Frame :=
  (m.frames.get? id).map Frame.place

structure IsFresh (m : Machine) : Prop where
  frames : m.frames = {}
  stack : m.stack = []
  suspended : m.suspended = []
  untraced : m.untraced = []

structure Linked (m : Machine) : Prop where
  /-- Running frames are live, and each links back to the one below it. -/
  chained : ∀ id rest, id :: rest <:+ m.stack →
    ∃ f, m.standing id = some f ∧ f.back = rest.head?
  nodup : m.stack.Nodup
  /-- Suspended frames are live and do not run. -/
  parked : ∀ id ∈ m.suspended, id ∉ m.stack ∧ (m.standing id).isSome
  /-- Live frames are known by their handles, and no handle is used twice. -/
  known : ∀ id f, m.standing id = some f →
    f.id = id ∧ f.thread = m.thread ∧ id.machine = m.id ∧ id.serial < m.next

/-- A frame stands where it stood, and no hook has given it up in between. -/
structure Spares (m m' : Machine) (id : FrameId) : Prop where
  standing : m'.standing id = m.standing id
  untraced : id ∈ m'.untraced → id ∈ m.untraced

theorem Spares.refl (m : Machine) (id : FrameId) : Spares m m id :=
  ⟨rfl, fun h => h⟩

theorem Spares.trans {m m' m'' : Machine} {id : FrameId} (h : Spares m m' id)
    (h' : Spares m' m'' id) : Spares m m'' id :=
  ⟨h'.standing.trans h.standing, fun hu => h.untraced (h'.untraced hu)⟩

theorem mem_without {ids : List FrameId} {id j : FrameId} :
    j ∈ without ids id ↔ j ∈ ids ∧ j ≠ id := by
  simp [without]

section modifyFrame
variable (m : Machine) (id : FrameId) (g : Frame → Frame)

theorem get?_modifyFrame (j : FrameId) :
    (m.modifyFrame id g).frames.get? j =
      if j = id then (m.frames.get? id).map g else m.frames.get? j := by
  unfold modifyFrame
  cases h : m.frames.get? id with
  | none => by_cases hj : j = id <;> simp [hj, h]
  | some f => simp [Table.get?_insert]

theorem modifyFrame_eq : m.modifyFrame id g =
    { m with frames := (m.modifyFrame id g).frames } := by
  unfold modifyFrame
  split <;> rfl

@[simp] theorem stack_modifyFrame : (m.modifyFrame id g).stack = m.stack := by
  rw [modifyFrame_eq]

@[simp] theorem suspended_modifyFrame : (m.modifyFrame id g).suspended = m.suspended := by
  rw [modifyFrame_eq]

@[simp] theorem untraced_modifyFrame : (m.modifyFrame id g).untraced = m.untraced := by
  rw [modifyFrame_eq]

@[simp] theorem thread_modifyFrame : (m.modifyFrame id g).thread = m.thread := by
  rw [modifyFrame_eq]

@[simp] theorem id_modifyFrame : (m.modifyFrame id g).id = m.id := by
  rw [modifyFrame_eq]

@[simp] theorem next_modifyFrame : (m.modifyFrame id g).next = m.next := by
  rw [modifyFrame_eq]

theorem spares_modifyFrame_of_ne {j : FrameId} (h : j ≠ id) :
    Spares m (m.modifyFrame id g) j := by
  refine ⟨?_, fun hu => by simpa using hu⟩
  simp [standing, get?_modifyFrame, h]

theorem spares_modifyFrame (hg : ∀ f, (g f).place = f.place) (j : FrameId) :
    Spares m (m.modifyFrame id g) j := by
  by_cases h : j = id
  · subst h
    refine ⟨?_, fun hu => by simpa using hu⟩
    simp only [standing, get?_modifyFrame, if_pos, Option.map_map]
    congr 1
    exact funext hg
  · exact spares_modifyFrame_of_ne m id g h

end modifyFrame

theorem spares_setOpcode (m : Machine) (id j : FrameId) (opcode : Option Opcode) :
    Spares m (m.setOpcode id opcode) j := by
  unfold setOpcode
  exact spares_modifyFrame m id _ (fun _ => by rfl) j

theorem spares_bindLocal (m : Machine) (id j : FrameId) (name : String) (value : Value) :
    Spares m (m.bindLocal id name value) j := by
  unfold bindLocal
  exact spares_modifyFrame m id _ (fun _ => by rfl) j

theorem spares_setLocal (m : Machine) (id j : FrameId) (name : String) (value : Value) :
    Spares m (m.setLocal id name value) j := by
  have hb := spares_bindLocal m id j name value
  unfold setLocal
  cases m.frames.get? id with
  | none => exact Spares.refl m j
  | some f =>
    dsimp only
    split
    · exact ⟨hb.standing, hb.untraced⟩
    · exact hb

theorem spares_foldl_bindLocal (m : Machine) (ids : List FrameId) (name : String) (value : Value)
    (j : FrameId) : Spares m (ids.foldl (fun m id => m.bindLocal id name value) m) j := by
  induction ids generalizing m with
  | nil => exact Spares.refl m j
  | cons id ids ih => exact (spares_bindLocal m id j name value).trans (ih _)

theorem spares_setGlobal (m : Machine) (file : Path) (name : String) (value : Value)
    (j : FrameId) : Spares m (m.setGlobal file name value) j :=
  (Spares.mk rfl fun hu => hu : Spares m (m.bindGlobal file name value) j).trans
    (spares_foldl_bindLocal (m.bindGlobal file name value) _ name value j)

theorem setLocal_eq (m : Machine) (id : FrameId) (name : String) (value : Value) :
    m.setLocal id name value =
      { m with
        frames := (m.setLocal id name value).frames
        globals := (m.setLocal id name value).globals } := by
  unfold setLocal bindLocal bindGlobal
  rw [modifyFrame_eq]
  split
  · split <;> rfl
  · rfl

theorem setGlobal_eq (m : Machine) (file : Path) (name : String) (value : Value) :
    m.setGlobal file name value =
      { m with
        frames := (m.setGlobal file name value).frames
        globals := (m.setGlobal file name value).globals } := by
  unfold setGlobal
  generalize m.modulesOf file = ids
  have h : ∀ m' : Machine, ids.foldl (fun m id => m.bindLocal id name value) m' =
      { m' with frames := (ids.foldl (fun m id => m.bindLocal id name value) m').frames } := by
    induction ids with
    | nil => exact fun _ => rfl
    | cons id ids ih =>
      intro m'
      rw [List.foldl_cons, ih, bindLocal, modifyFrame_eq]
  rw [h]
  rfl

section pushFrame
variable (m : Machine) (code : Code) (locals : Namespace)

def newFrame : Frame :=
  { id := m.nextId, code := code.id, function := code.name, file := code.file,
    line := code.firstLine, back := m.current, locals, thread := m.thread }

theorem get?_pushFrame (j : FrameId) :
    (m.pushFrame code locals).frames.get? j =
      if j = m.nextId then some (m.newFrame code locals) else m.frames.get? j :=
  Table.get?_insert _ _ _ _

theorem spares_pushFrame {j : FrameId} (h : j ≠ m.nextId) :
    Spares m (m.pushFrame code locals) j := by
  refine ⟨?_, fun hu => hu⟩
  simp [standing, get?_pushFrame, h]

end pushFrame

section forget
variable (m : Machine) {id j : FrameId}

theorem spares_forget (h : j ≠ id) : Spares m (m.forget id) j := by
  refine ⟨?_, fun hu => (mem_without.mp hu).1⟩
  simp [standing, forget, Table.get?_erase, h]

theorem spares_popFrame (h : j ≠ id) : Spares m (m.popFrame id) j := by
  have hs : Spares m { m with stack := leave m.stack id, suspended := without m.suspended id } j :=
    ⟨rfl, fun hu => hu⟩
  exact hs.trans (spares_forget _ h)

end forget

/-! What is kept depends on where the frames stand, on the stack and on the suspended frames. -/

theorem Linked.congr {m m' : Machine} (h : m.Linked) (hs : ∀ id, m'.standing id = m.standing id)
    (stack : m'.stack = m.stack) (suspended : m'.suspended = m.suspended)
    (id : m'.id = m.id) (thread : m'.thread = m.thread) (next : m'.next = m.next) :
    m'.Linked := by
  refine ⟨?_, ?_, ?_, ?_⟩
  · intro i rest hi
    rw [hs]
    exact h.chained i rest (stack ▸ hi)
  · rw [stack]
    exact h.nodup
  · intro i hi
    rw [hs, stack]
    exact h.parked i (suspended ▸ hi)
  · intro i f hf
    rw [id, thread, next]
    exact h.known i f (hs i ▸ hf)

theorem IsFresh.linked {m : Machine} (h : m.IsFresh) : m.Linked := by
  have hs : ∀ id, m.standing id = none := by
    intro id
    simp [standing, h.frames]
  refine ⟨?_, ?_, ?_, ?_⟩
  · intro id rest hi
    rw [h.stack] at hi
    simp at hi
  · simp [h.stack]
  · simp [h.suspended]
  · intro id f hf
    simp [hs] at hf

theorem Linked.nextId_not_mem {m : Machine} (h : m.Linked) : m.nextId ∉ m.stack := by
  intro hi
  obtain ⟨above, rest, hsplit⟩ := List.append_of_mem hi
  obtain ⟨f, hf, -⟩ := h.chained m.nextId rest ⟨above, hsplit.symm⟩
  have hk := (h.known _ f hf).2.2.2
  simp [nextId] at hk

theorem Linked.nextId_not_suspended {m : Machine} (h : m.Linked) : m.nextId ∉ m.suspended := by
  intro hi
  obtain ⟨f, hf⟩ := Option.isSome_iff_exists.mp (h.parked _ hi).2
  have hk := (h.known _ f hf).2.2.2
  simp [nextId] at hk

theorem Linked.top {m : Machine} (h : m.Linked) {id : FrameId} {rest : List FrameId}
    (hs : m.stack = id :: rest) : ∃ f, m.standing id = some f ∧ f.back = rest.head? :=
  h.chained id rest (hs ▸ List.suffix_rfl)

theorem Linked.back_of_top {m : Machine} (h : m.Linked) {id : FrameId} {rest : List FrameId}
    (hs : m.stack = id :: rest) {f : Frame} (hf : m.standing id = some f) :
    f.back = rest.head? := by
  obtain ⟨f', hf', hback⟩ := h.top hs
  rw [hf] at hf'
  cases hf'
  exact hback

theorem Linked.not_mem_rest {m : Machine} (h : m.Linked) {id : FrameId} {rest : List FrameId}
    (hs : m.stack = id :: rest) : id ∉ rest := by
  have hn := h.nodup
  rw [hs] at hn
  exact (List.nodup_cons.mp hn).1

/-- A frame is put on top of the stack. -/
theorem Linked.cons {m m' : Machine} (h : m.Linked) {f : Frame}
    (hf : m'.standing f.id = some f) (back : f.back = m.stack.head?) (thread : f.thread = m.thread)
    (origin : f.id.machine = m'.id ∧ f.id.serial < m'.next) (hn : f.id ∉ m.stack)
    (stack : m'.stack = f.id :: m.stack) (hs : ∀ id, id ≠ f.id → m'.standing id = m.standing id)
    (suspended : ∀ id ∈ m'.suspended, id ∈ m.suspended ∧ id ≠ f.id)
    (id : m'.id = m.id) (threads : m'.thread = m.thread) (next : m.next ≤ m'.next) :
    m'.Linked := by
  refine ⟨?_, ?_, ?_, ?_⟩
  · intro i rest hi
    rw [stack, List.suffix_cons_iff] at hi
    rcases hi with hi | hi
    · obtain ⟨rfl, rfl⟩ := List.cons.inj hi
      exact ⟨f, hf, back⟩
    · have hne : i ≠ f.id := by
        intro he
        exact hn (he ▸ hi.mem (by simp))
      rw [hs i hne]
      exact h.chained i rest hi
  · rw [stack]
    exact List.nodup_cons.mpr ⟨hn, h.nodup⟩
  · intro i hi
    obtain ⟨hm, hne⟩ := suspended i hi
    obtain ⟨ho, hl⟩ := h.parked i hm
    rw [stack, hs i hne]
    exact ⟨by simp [hne, ho], hl⟩
  · intro i g hg
    by_cases he : i = f.id
    · subst he
      rw [hf] at hg
      cases hg
      exact ⟨rfl, thread.trans threads.symm, origin⟩
    · obtain ⟨h₁, h₂, h₃, h₄⟩ := h.known i g (hs i he ▸ hg)
      exact ⟨h₁, h₂.trans threads.symm, h₃.trans id.symm, by omega⟩

/-- The innermost frame is moved to another line. -/
theorem Linked.moved {m m' : Machine} (h : m.Linked) {i : FrameId} {f g : Frame}
    (hf : m.standing i = some f) (hg : m'.standing i = some g)
    (same : g.id = f.id ∧ g.back = f.back ∧ g.thread = f.thread)
    (hs : ∀ id, id ≠ i → m'.standing id = m.standing id)
    (stack : m'.stack = m.stack) (suspended : m'.suspended = m.suspended)
    (id : m'.id = m.id) (threads : m'.thread = m.thread) (next : m'.next = m.next) :
    m'.Linked := by
  refine ⟨?_, ?_, ?_, ?_⟩
  · intro j rest hj
    rw [stack] at hj
    obtain ⟨k, hk, hb⟩ := h.chained j rest hj
    by_cases he : j = i
    · subst he
      rw [hf] at hk
      cases hk
      exact ⟨g, hg, same.2.1.trans hb⟩
    · rw [hs j he]
      exact ⟨k, hk, hb⟩
  · rw [stack]
    exact h.nodup
  · intro j hj
    rw [suspended] at hj
    obtain ⟨ho, hl⟩ := h.parked j hj
    rw [stack]
    by_cases he : j = i
    · subst he
      exact ⟨ho, by simp [hg]⟩
    · rw [hs j he]
      exact ⟨ho, hl⟩
  · intro j k hk
    rw [id, threads, next]
    by_cases he : j = i
    · subst he
      rw [hg] at hk
      cases hk
      obtain ⟨h₁, h₂, h₃⟩ := h.known j f hf
      exact ⟨same.1.trans h₁, same.2.2.trans h₂, h₃⟩
    · exact h.known j k (hs j he ▸ hk)

/-- A frame that runs no more is left out of the stack; it may be gone, or suspended. -/
theorem Linked.left {m m' : Machine} (h : m.Linked) {i : FrameId}
    (hi : m'.standing i = m.standing i ∨ m'.standing i = none)
    (hs : ∀ id, id ≠ i → m'.standing id = m.standing id)
    (stack : m'.stack <:+ m.stack) (off : i ∉ m'.stack)
    (suspended : ∀ id ∈ m'.suspended, (id ∈ m.suspended ∧ id ≠ i) ∨
      (id = i ∧ (m'.standing i).isSome))
    (id : m'.id = m.id) (threads : m'.thread = m.thread) (next : m'.next = m.next) :
    m'.Linked := by
  refine ⟨?_, ?_, ?_, ?_⟩
  · intro j rest hj
    have hne : j ≠ i := by
      intro he
      exact off (he ▸ hj.mem (by simp))
    rw [hs j hne]
    exact h.chained j rest (hj.trans stack)
  · exact h.nodup.sublist stack.sublist
  · intro j hj
    rcases suspended j hj with ⟨hm, hne⟩ | ⟨he, hl⟩
    · obtain ⟨ho, hl⟩ := h.parked j hm
      rw [hs j hne]
      exact ⟨fun hk => ho (stack.mem hk), hl⟩
    · rw [he]
      exact ⟨off, hl⟩
  · intro j g hg
    rw [id, threads, next]
    by_cases he : j = i
    · subst he
      rcases hi with hi | hi
      · exact h.known j g (hi ▸ hg)
      · rw [hi] at hg
        cases hg
    · exact h.known j g (hs j he ▸ hg)

end Machine
end SelectiveTrace
