import SelectiveTrace.Proofs.Host.Hearing

/-! The books that a machine keeps of its frames: the stack, the suspended frames, the live ones, the
modules and the frames that were given up. They agree after every operation, whatever frames the
operations name: running, suspended or gone, and in any order. -/
namespace SelectiveTrace

namespace Machine

structure IsNew (m : Machine) : Prop extends m.IsFresh where
  moduleFrames : m.moduleFrames = []
  globals : m.globals = {}

structure Consistent (m : Machine) : Prop where
  nodup : m.stack.Nodup
  parked : ∀ id ∈ m.suspended, id ∉ m.stack
  /-- Nothing leaks: a live frame runs, or it is suspended. -/
  placed : ∀ id, m.frames.contains id = true → id ∈ m.stack ∨ id ∈ m.suspended
  untraced : ∀ id ∈ m.untraced, m.frames.contains id = true
  modules : ∀ id ∈ m.moduleFrames, m.frames.contains id = true

/-- The handle is one that the machine has given out, or none of its own. Handles come from machines
only: nobody makes up one that is still to be given out. -/
def hasIssued (m : Machine) (id : FrameId) : Bool :=
  id.machine ≠ m.id || id.serial < m.next

/-- The books in the middle of an operation: the frame `out` may have lost its place. No frame waits
under a handle that is still to be given out. -/
structure Books (m : Machine) (out : Option FrameId) : Prop where
  nodup : m.stack.Nodup
  parked : ∀ id ∈ m.suspended, id ∉ m.stack
  placed : ∀ id, m.frames.contains id = true → some id ≠ out → id ∈ m.stack ∨ id ∈ m.suspended
  untraced : ∀ id ∈ m.untraced, m.frames.contains id = true
  modules : ∀ id ∈ m.moduleFrames, m.frames.contains id = true
  issued : ∀ id, id ∈ m.stack ∨ id ∈ m.suspended → m.hasIssued id = true

theorem Books.consistent {m : Machine} (h : m.Books none) : m.Consistent :=
  ⟨h.nodup, h.parked, fun id live => h.placed id live (by simp), h.untraced, h.modules⟩

theorem IsNew.books {m : Machine} (h : m.IsNew) : m.Books none := by
  have hlive : ∀ id, m.frames.contains id = false := by
    intro id
    rw [h.frames]
    rfl
  refine ⟨?_, ?_, ?_, ?_, ?_, ?_⟩
  · simp [h.stack]
  · simp [h.suspended]
  · simp [hlive]
  · simp [h.untraced]
  · simp [h.moduleFrames]
  · simp [h.stack, h.suspended]

theorem not_hasIssued_nextId (m : Machine) : m.hasIssued m.nextId = false := by
  simp [hasIssued, nextId]

theorem hasIssued_congr {m m' : Machine} (id : m'.id = m.id) (next : m'.next = m.next)
    (f : FrameId) : m'.hasIssued f = m.hasIssued f := by
  simp only [hasIssued, id, next]

namespace Books
variable {m m' : Machine} {out : Option FrameId}

/-- The same places, the same frames alive, and no more of them given up. -/
theorem congr (h : m.Books out) (stack : m'.stack = m.stack) (suspended : m'.suspended = m.suspended)
    (live : ∀ id, m'.frames.contains id = m.frames.contains id)
    (untraced : ∀ id ∈ m'.untraced, id ∈ m.untraced ∨ m.frames.contains id = true)
    (modules : m'.moduleFrames = m.moduleFrames) (id : m'.id = m.id) (next : m'.next = m.next) :
    m'.Books out := by
  refine ⟨?_, ?_, ?_, ?_, ?_, ?_⟩
  · rw [stack]
    exact h.nodup
  · rw [stack, suspended]
    exact h.parked
  · intro f hf
    rw [stack, suspended]
    exact h.placed f (live f ▸ hf)
  · intro f hf
    rw [live]
    exact (untraced f hf).elim (h.untraced f) fun hl => hl
  · intro f hf
    rw [live]
    exact h.modules f (modules ▸ hf)
  · intro f hf
    rw [hasIssued_congr id next]
    rw [stack, suspended] at hf
    exact h.issued f hf

theorem modifyFrame (h : m.Books out) (id : FrameId) (g : Frame → Frame) :
    (m.modifyFrame id g).Books out := by
  have hlive : ∀ j, (m.modifyFrame id g).frames.contains j = m.frames.contains j := by
    intro j
    simp only [Table.contains, get?_modifyFrame]
    by_cases hj : j = id <;> simp [hj]
  have hmodules : (m.modifyFrame id g).moduleFrames = m.moduleFrames := by rw [modifyFrame_eq]
  refine h.congr ?_ ?_ hlive ?_ hmodules ?_ ?_
  · simp
  · simp
  · intro j hj
    left
    simpa using hj
  · simp
  · simp

theorem bindGlobal (h : m.Books out) (file : Path) (name : String) (value : Value) :
    (m.bindGlobal file name value).Books out :=
  h.congr rfl rfl (fun _ => rfl) (fun _ hj => Or.inl hj) rfl rfl rfl

theorem setLocal (h : m.Books out) (id : FrameId) (name : String) (value : Value) :
    (m.setLocal id name value).Books out := by
  have hb := h.modifyFrame id fun f => { f with locals := f.locals.set name value }
  unfold Machine.setLocal
  cases m.frames.get? id with
  | none => exact h
  | some f =>
    dsimp only
    split
    · exact hb.bindGlobal f.file name value
    · exact hb

theorem setGlobal (h : m.Books out) (file : Path) (name : String) (value : Value) :
    (m.setGlobal file name value).Books out := by
  unfold Machine.setGlobal
  have hm := h.bindGlobal file name value
  generalize m.bindGlobal file name value = m' at hm
  generalize m.modulesOf file = ids
  induction ids generalizing m' with
  | nil => exact hm
  | cons id ids ih => exact ih _ (hm.modifyFrame id _)

/-- A new frame runs on top of the others. -/
theorem pushFrame (h : m.Books none) (code : Code) (locals : Namespace) :
    (m.pushFrame code locals).Books none := by
  have hnew : ∀ id, id ∈ m.stack ∨ id ∈ m.suspended → id ≠ m.nextId := by
    intro id hid he
    have hi := h.issued id hid
    rw [he, not_hasIssued_nextId] at hi
    cases hi
  have hlive : ∀ id, (m.pushFrame code locals).frames.contains id =
      (decide (id = m.nextId) || m.frames.contains id) := by
    intro id
    simp only [Table.contains, get?_pushFrame]
    by_cases hid : id = m.nextId <;> simp [hid]
  refine ⟨?_, ?_, ?_, ?_, ?_, ?_⟩
  · exact List.nodup_cons.mpr ⟨fun hm => hnew _ (Or.inl hm) rfl, h.nodup⟩
  · intro id hid hm
    rcases List.mem_cons.mp hm with he | hm
    · exact hnew id (Or.inr hid) he
    · exact h.parked id hid hm
  · intro id hid _
    rw [hlive] at hid
    by_cases he : id = m.nextId
    · left
      exact he ▸ List.mem_cons_self
    · have hold : m.frames.contains id = true := by simpa [he] using hid
      exact (h.placed id hold (by simp)).imp_left (List.mem_cons_of_mem _)
  · intro id hid
    rw [hlive, h.untraced id hid, Bool.or_true]
  · intro id hid
    rw [hlive, h.modules id hid, Bool.or_true]
  · intro id hid
    have hissued : id = m.nextId ∨ m.hasIssued id = true := by
      rcases hid with hs | hs
      · exact (List.mem_cons.mp hs).imp_right fun hs => h.issued id (Or.inl hs)
      · exact Or.inr (h.issued id (Or.inr hs))
    rcases hissued with rfl | hi
    · simp [hasIssued, nextId, Machine.pushFrame]
    · have hnext : (m.pushFrame code locals).next = m.next + 1 := rfl
      simp only [hasIssued, hnext, Bool.or_eq_true, decide_eq_true_eq] at hi ⊢
      exact hi.imp (fun hm => hm) fun hlt => by omega

theorem pushModule (h : m.Books none) (code : Code) : (m.pushModule code).Books none := by
  have hp := h.pushFrame code (m.globalsOf code.file)
  refine ⟨hp.nodup, hp.parked, hp.placed, hp.untraced, ?_, hp.issued⟩
  intro id hid
  rcases List.mem_cons.mp hid with rfl | hid
  · simp [Table.contains, Machine.pushModule, get?_pushFrame]
  · exact hp.modules id hid

/-- A frame that has lost its place is given one on top of the stack. -/
theorem run {id : FrameId} (h : m.Books (some id)) (off : id ∉ m.stack) (waits : id ∉ m.suspended)
    (issued : m.hasIssued id = true) : Books { m with stack := id :: m.stack } none := by
  refine ⟨List.nodup_cons.mpr ⟨off, h.nodup⟩, ?_, ?_, h.untraced, h.modules, ?_⟩
  · intro j hj hm
    rcases List.mem_cons.mp hm with rfl | hm
    · exact waits hj
    · exact h.parked j hj hm
  · intro j hj _
    by_cases he : j = id
    · left
      exact he ▸ List.mem_cons_self
    · exact (h.placed j hj (by simpa using he)).imp_left (List.mem_cons_of_mem _)
  · intro j hj
    rcases hj with hj | hj
    · rcases List.mem_cons.mp hj with rfl | hj
      · exact issued
      · exact h.issued j (Or.inl hj)
    · exact h.issued j (Or.inr hj)

/-- A frame is taken from the places it may have. -/
theorem remove (h : m.Books none) (id : FrameId) :
    Books { m with stack := without m.stack id, suspended := without m.suspended id }
      (some id) := by
  refine ⟨h.nodup.filter _, ?_, ?_, h.untraced, h.modules, ?_⟩
  · intro j hj hm
    exact h.parked j (mem_without.mp hj).1 (mem_without.mp hm).1
  · intro j hj hne
    have hj' : j ≠ id := by simpa using hne
    refine (h.placed j hj (by simp)).imp ?_ ?_ <;> exact fun hm => mem_without.mpr ⟨hm, hj'⟩
  · intro j hj
    exact h.issued j (hj.imp (fun hm => (mem_without.mp hm).1) fun hm => (mem_without.mp hm).1)

/-- A frame without a place is forgotten. -/
theorem forget {id : FrameId} (h : m.Books (some id)) : (m.forget id).Books none := by
  have hlive : ∀ j, (m.forget id).frames.contains j =
      (!decide (j = id) && m.frames.contains j) := by
    intro j
    simp only [Table.contains, Machine.forget, Table.get?_erase]
    by_cases hj : j = id <;> simp [hj]
  have hkept : ∀ ids : List FrameId, (∀ j ∈ ids, m.frames.contains j = true) →
      ∀ j ∈ without ids id, (m.forget id).frames.contains j = true := by
    intro ids hids j hj
    obtain ⟨hm, hne⟩ := mem_without.mp hj
    simp [hlive, hids j hm, hne]
  refine ⟨h.nodup, h.parked, ?_, hkept _ h.untraced, hkept _ h.modules, h.issued⟩
  intro j hj _
  rw [hlive, Bool.and_eq_true, Bool.not_eq_true', decide_eq_false_iff_not] at hj
  exact h.placed j hj.2 (by simpa using hj.1)

end Books

/-- On a stack without repetitions a frame leaves one way. -/
theorem leave_of_nodup {stack : List FrameId} (h : stack.Nodup) (id : FrameId) :
    leave stack id = without stack id := by
  cases stack with
  | nil => rfl
  | cons top rest =>
    by_cases he : top = id
    · subst he
      rw [leave_top, without_top (List.nodup_cons.mp h).1]
    · simp [leave, he]

namespace Books
variable {m : Machine} {out : Option FrameId}

theorem popFrame (h : m.Books none) (id : FrameId) : (m.popFrame id).Books none := by
  unfold Machine.popFrame
  rw [leave_of_nodup h.nodup]
  exact (h.remove id).forget

theorem suspend (h : m.Books none) {id : FrameId} (issued : m.hasIssued id = true) :
    (m.suspend id).Books none := by
  have hr := h.remove id
  have hs : ∀ j, j ∈ (m.suspend id).suspended ↔ j = id ∨ j ∈ m.suspended := by
    intro j
    simp [Machine.suspend]
  refine ⟨hr.nodup, ?_, ?_, h.untraced, h.modules, ?_⟩
  · intro j hj hm
    obtain ⟨hin, hne⟩ := mem_without.mp hm
    exact h.parked j (((hs j).mp hj).resolve_left hne) hin
  · intro j hj _
    rw [hs]
    by_cases he : j = id
    · right; left; exact he
    · exact (h.placed j hj (by simp)).imp (fun hm => mem_without.mpr ⟨hm, he⟩) Or.inr
  · intro j hj
    rw [hs] at hj
    rcases hj with hj | rfl | hj
    · exact h.issued j (Or.inl (mem_without.mp hj).1)
    · exact issued
    · exact h.issued j (Or.inr hj)

/-- A suspended frame loses its place. -/
theorem unpark (h : m.Books none) {id : FrameId} (hi : id ∈ m.suspended) :
    Books { m with suspended := without m.suspended id } (some id) := by
  have hr := h.remove id
  have hs : without m.stack id = m.stack := by
    refine List.filter_eq_self.mpr fun j hj => ?_
    have hne : j ≠ id := fun he => h.parked id hi (he ▸ hj)
    simpa using hne
  rw [hs] at hr
  exact hr

theorem wake (h : m.Books none) {id : FrameId} (hi : id ∈ m.suspended) :
    (m.wake id).Books none := by
  have hw := (h.unpark hi).modifyFrame id fun f => { f with back := m.current, lastOpcode := none }
  have hissued := (hasIssued_congr (id_modifyFrame { m with suspended := without m.suspended id } id
    fun f => { f with back := m.current, lastOpcode := none }) (next_modifyFrame _ _ _) id).trans
    (h.issued id (Or.inr hi))
  have hr := hw.run (by simpa using h.parked id hi) (by simp [mem_without]) hissued
  simpa [Machine.wake] using hr

end Books

/-- A hook that answers about a frame gives up none but a live one. -/
theorem mem_untraced_dispatch (deliver : Deliver σ) (m : Machine) (s : σ) (id : FrameId) (e : Event)
    {j : FrameId} (h : j ∈ (m.dispatch deliver s id e).machine.untraced) :
    j ∈ m.untraced ∨ m.frames.contains j = true := by
  cases hf : m.frames.get? id with
  | none =>
    left
    simpa [dispatch, hf] using h
  | some f =>
    obtain ⟨a, ha⟩ := dispatch_machine deliver m s id e
    rw [ha] at h
    by_cases hj : j = id
    · right
      simp [Table.contains, hj, hf]
    · left
      exact (mem_untraced_heed hj).mp h

theorem Books.dispatch {m : Machine} {out : Option FrameId} (h : m.Books out) (deliver : Deliver σ)
    (s : σ) (id : FrameId) (e : Event) : (m.dispatch deliver s id e).machine.Books out := by
  have hu := fun j => mem_untraced_dispatch deliver m s id e (j := j)
  obtain ⟨a, ha⟩ := dispatch_machine deliver m s id e
  rw [ha] at hu ⊢
  rw [heed_eq]
  exact h.congr rfl rfl (fun _ => rfl) hu rfl rfl rfl

end Machine

namespace Op
open Machine

def namesIssued (m : Machine) (op : Op FrameId) : Bool :=
  op.frame?.all m.hasIssued

def unplaced? : Op FrameId → Option FrameId
  | .discard f => some f
  | _ => none

theorem books_before {m : Machine} (h : m.Books none) {op : Op FrameId}
    (applies : op.applies m = true) : (op.before m).Books op.unplaced? := by
  cases op with
  | enterModule code => exact h.pushModule code
  | call code args => exact h.pushFrame code _
  | line id n => exact h.modifyFrame id _
  | setLocal id name value => exact h.setLocal id name value
  | setGlobal file name value => exact h.setGlobal file name value
  | ret id value | unwind id | yieldValue id value => exact h.modifyFrame id _
  | raise id e => exact h
  | resume id => exact h.wake (List.contains_iff_mem.mp applies)
  | discard id => exact h.unpark (List.contains_iff_mem.mp applies)
  | traceFrame id =>
    exact h.congr rfl rfl (fun _ => rfl) (fun j hj => Or.inl (mem_without.mp hj).1) rfl rfl rfl
  | setTrace hook => exact h.congr rfl rfl (fun _ => rfl) (fun _ hj => Or.inl hj) rfl rfl rfl
  | pushTrace hook => exact h.congr rfl rfl (fun _ => rfl) (fun _ hj => Or.inl hj) rfl rfl rfl
  | popTrace => exact h.congr rfl rfl (fun _ => rfl) (fun _ hj => Or.inl hj) rfl rfl rfl

theorem books_after {m : Machine} {op : Op FrameId} (h : m.Books op.unplaced?)
    (issued : op.namesIssued m = true) : (op.after m).Books none := by
  cases op with
  | ret id value | unwind id | raise id e => exact h.popFrame id
  | yieldValue id value => exact h.suspend issued
  | discard id => exact h.forget
  | _ => exact h

theorem unplaced?_of_quiet {m : Machine} {op : Op FrameId} (event : op.event? m = none) :
    op.unplaced? = none := by
  cases op with
  | discard id => cases event
  | _ => rfl

/-- No operation takes a handle back. -/
theorem namesIssued_before {m : Machine} {op : Op FrameId} (h : op.namesIssued m = true) :
    op.namesIssued (op.before m) = true := by
  cases op with
  | enterModule code | call code args | setGlobal file name value | setTrace hook
  | pushTrace hook | popTrace => rfl
  | setLocal id name value =>
    rw [before, setLocal_eq]
    exact h
  | line id n => exact (hasIssued_congr (id_modifyFrame _ _ _) (next_modifyFrame _ _ _) id).trans h
  | ret id value | unwind id | yieldValue id value =>
    exact (hasIssued_congr (id_modifyFrame _ _ _) (next_modifyFrame _ _ _) id).trans h
  | resume id =>
    have hw : (m.wake id).hasIssued id = m.hasIssued id :=
      hasIssued_congr (by simp [wake]) (by simp [wake]) id
    exact hw.trans h
  | raise id e | discard id | traceFrame id => exact h

end Op

namespace Machine
variable {σ : Type} {deliver : Deliver σ} {m : Machine} {s : σ} {op : Op FrameId}

def NamesIssued (deliver : Deliver σ) : Machine → σ → List (Op FrameId) → Prop
  | _, _, [] => True
  | m, s, op :: ops =>
    op.namesIssued m = true ∧
      NamesIssued deliver (m.step deliver s op).machine (m.step deliver s op).state ops

instance decidableNamesIssued (deliver : Deliver σ) (m : Machine) (s : σ) :
    (ops : List (Op FrameId)) → Decidable (m.NamesIssued deliver s ops)
  | [] => inferInstanceAs (Decidable True)
  | op :: ops =>
    have := decidableNamesIssued deliver (m.step deliver s op).machine
      (m.step deliver s op).state ops
    inferInstanceAs (Decidable (op.namesIssued m = true ∧
      NamesIssued deliver (m.step deliver s op).machine (m.step deliver s op).state ops))

/-- One operation. -/
theorem Books.step (h : m.Books none)
    (calm : ∀ hook ctx s text, (deliver hook ctx s).1 ≠ .panicked text)
    (issued : op.namesIssued m = true) : (m.step deliver s op).machine.Books none := by
  have hcalm := panic_step calm m s op
  unfold Machine.step at hcalm ⊢
  split
  · exact h
  next happlies =>
    have hb : (op.before m).Books op.unplaced? := Op.books_before h (by simpa using happlies)
    rw [if_neg happlies] at hcalm
    cases he : op.event? m with
    | none =>
      rw [Op.unplaced?_of_quiet he] at hb
      exact hb
    | some ev =>
      rw [he] at hcalm
      dsimp only at hcalm ⊢
      have hd := hb.dispatch deliver s ev.1 ev.2
      have hi : op.namesIssued ((op.before m).dispatch deliver s ev.1 ev.2).machine = true := by
        obtain ⟨a, ha⟩ := dispatch_machine deliver (op.before m) s ev.1 ev.2
        rw [ha, heed_eq]
        exact Op.namesIssued_before issued
      split
      next hp =>
        rw [if_pos hp] at hcalm
        rw [hcalm] at hp
        cases hp
      · exact Op.books_after hd hi

/-- A whole run. -/
theorem Books.run_all (h : m.Books none)
    (calm : ∀ hook ctx s text, (deliver hook ctx s).1 ≠ .panicked text) {ops : List (Op FrameId)}
    (issued : m.NamesIssued deliver s ops) : (m.run deliver s ops).machine.Books none := by
  induction ops generalizing m s with
  | nil => exact h
  | cons op ops ih =>
    rw [run_of_calm (panic_step calm m s op)]
    exact ih (h.step calm issued.1) issued.2

theorem NamesIssued.prefix_of {ops done : List (Op FrameId)} (h : m.NamesIssued deliver s ops)
    (start : done <+: ops) : m.NamesIssued deliver s done := by
  induction done generalizing m s ops with
  | nil => trivial
  | cons op done ih =>
    obtain ⟨rest, rfl⟩ := start
    exact ⟨h.1, ih h.2 (List.prefix_append done rest)⟩

/-- Whatever is done on a new machine, with frames that run, wait or are gone and in any order, under
any hooks that do not fail: no operation fails, and after each one the books of the machine agree. -/
theorem books_agree_after_any_run (fresh : m.IsNew)
    (calm : ∀ hook ctx s text, (deliver hook ctx s).1 ≠ .panicked text) {ops : List (Op FrameId)}
    (issued : m.NamesIssued deliver s ops) {done : List (Op FrameId)} (start : done <+: ops) :
    (m.run deliver s done).panic = none ∧ (m.run deliver s done).machine.Consistent := by
  have hdone := issued.prefix_of start
  exact ⟨panic_run calm m s done, (fresh.books.run_all calm hdone).consistent⟩

/-- Operations that take no care: a function ends before the one it called, is suspended although it
has ended, resumed, resumed while it runs, suspended again and dropped; its module yields and ends by
an exception while it waits, and an operation names what is gone. -/
def carelessOps : List (Op FrameId) :=
  let file : Path := ⟨"/p.py"⟩
  [.pushTrace "skip", .enterModule ⟨"<module>", file, 1⟩, .call ⟨"f", file, 1⟩ [],
    .call ⟨"g", file, 4⟩ [("x", .int 1)], .ret ⟨0, 1⟩ .none, .yieldValue ⟨0, 1⟩ (.int 2),
    .resume ⟨0, 1⟩, .resume ⟨0, 1⟩, .yieldValue ⟨0, 1⟩ .none, .discard ⟨0, 1⟩,
    .yieldValue ⟨0, 0⟩ .none, .traceFrame ⟨0, 2⟩, .line ⟨0, 2⟩ 5, .setGlobal file "y" (.int 3),
    .raise ⟨0, 0⟩ ⟨"ValueError", "y"⟩, .popTrace, .unwind ⟨0, 2⟩, .setLocal ⟨0, 2⟩ "x" (.int 4)]

theorem books_agree_after_careless_ops :
    IsNew { id := 0 } ∧
      (run (fun _ _ s => (.skipFrame, s)) { id := 0 } () carelessOps).panic = none ∧
      (run (fun _ _ s => (.skipFrame, s)) { id := 0 } () carelessOps).machine.Consistent := by
  have hnew : IsNew { id := 0 } := ⟨⟨rfl, rfl, rfl, rfl⟩, rfl, rfl⟩
  refine ⟨hnew, books_agree_after_any_run hnew ?_ ?_ (List.prefix_refl carelessOps)⟩
  · intro hook ctx s text
    simp
  · decide +kernel

end Machine
end SelectiveTrace
