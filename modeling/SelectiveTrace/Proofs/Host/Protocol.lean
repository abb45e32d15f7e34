import Mathlib.Computability.RegularExpressions
import SelectiveTrace.Proofs.Host.WellMade

/-! What the hook is told of one frame, in order. A frame runs, waits between its rounds if it is a
generator, and is over for good; what is told of it keeps to the words of one regular expression. -/
namespace SelectiveTrace

def Op.isYield {φ : Type} : Op φ → Bool
  | .yieldValue .. => true
  | _ => false

/-- An event as a sign. The return of a frame that only waits is told apart from its last one. -/
inductive Mark where
  | called
  | line
  | yielded
  | returned
  | raised
  | discarded
deriving DecidableEq

namespace Mark

def of (op : Op FrameId) : Event → Mark
  | .call => called
  | .line => line
  | .ret _ => if op.isYield then yielded else returned
  | .exception _ => raised
  | .discard => discarded

def isFinal : Mark → Bool
  | returned | raised | discarded => true
  | called | line | yielded => false

open RegularExpression

def going : RegularExpression Mark :=
  char called * star (char line)

def rounds : RegularExpression Mark :=
  star (going * char yielded)

def protocol : RegularExpression Mark :=
  rounds * (going * (char returned + char raised) + char discarded)

end Mark

inductive Stage where
  | unborn
  | running
  | waiting
  | ended
deriving DecidableEq

open scoped Computability

namespace Stage

def next : Stage → Mark → Option Stage
  | unborn, .called | waiting, .called | running, .line => some running
  | running, .yielded => some waiting
  | running, .returned | running, .raised | waiting, .discarded => some ended
  | _, _ => none

def after (st : Stage) (w : List Mark) : Option Stage :=
  w.foldlM next st

def language : Stage → Language Mark
  | unborn => 1
  | running => Mark.rounds.matches' * Mark.going.matches'
  | waiting => Mark.rounds.matches'
  | ended => Mark.protocol.matches'

@[simp] theorem after_nil (st : Stage) : st.after [] = some st := rfl

theorem after_append (st : Stage) (v w : List Mark) :
    st.after (v ++ w) = (st.after v).bind fun st => st.after w :=
  List.foldlM_append

theorem after_cons (st : Stage) (k : Mark) (w : List Mark) :
    st.after (k :: w) = (st.next k).bind fun st => st.after w :=
  List.foldlM_cons

@[simp] theorem after_singleton (st : Stage) (k : Mark) : st.after [k] = st.next k := by
  rw [after_cons]
  cases st.next k <;> rfl

theorem next_ended (k : Mark) : ended.next k = none := by
  cases k <;> rfl

theorem next_of_final {st st' : Stage} {k : Mark} (h : st.next k = some st')
    (final : k.isFinal = true) : st' = ended := by
  cases st <;> cases k <;> simp_all [next, Mark.isFinal]

theorem append_mem_kstar {l : Language Mark} {v w : List Mark} (hv : v ∈ l∗) (hw : w ∈ l) :
    v ++ w ∈ l∗ := by
  rw [← Language.one_add_kstar_mul_self_eq_kstar]
  exact Or.inr (Language.append_mem_mul hv hw)

theorem mem_going : [Mark.called] ∈ Mark.going.matches' := by
  have hcalled : [Mark.called] ∈ (RegularExpression.char Mark.called).matches' := rfl
  exact Language.append_mem_mul hcalled (Language.nil_mem_kstar _)

theorem append_line_mem_going {w : List Mark} (h : w ∈ Mark.going.matches') :
    w ++ [.line] ∈ Mark.going.matches' := by
  obtain ⟨a, ha, b, hb, rfl⟩ := Language.mem_mul.mp h
  rw [List.append_assoc]
  exact Language.append_mem_mul ha (append_mem_kstar hb rfl)

/-- A frame gets where it stands by a word of that place. -/
theorem mem_language {w : List Mark} {st : Stage} (h : unborn.after w = some st) :
    w ∈ st.language := by
  induction w using List.reverseRecOn generalizing st with
  | nil =>
    cases h
    exact rfl
  | append_singleton v k ih =>
    rw [after_append] at h
    obtain ⟨st₀, hv, hk⟩ := Option.bind_eq_some_iff.mp h
    rw [after_singleton] at hk
    have hw := ih hv
    cases st₀ with
    | unborn =>
      cases k with
      | called =>
        cases hk
        cases (Language.mem_one v).mp hw
        exact Language.append_mem_mul (Language.nil_mem_kstar _) mem_going
      | _ => cases hk
    | waiting =>
      cases k with
      | called =>
        cases hk
        exact Language.append_mem_mul hw mem_going
      | discarded =>
        cases hk
        exact Language.append_mem_mul hw (Or.inr rfl)
      | _ => cases hk
    | running =>
      obtain ⟨a, ha, b, hb, rfl⟩ := Language.mem_mul.mp hw
      rw [List.append_assoc]
      cases k with
      | line =>
        cases hk
        exact Language.append_mem_mul ha (append_line_mem_going hb)
      | yielded =>
        cases hk
        exact append_mem_kstar ha (Language.append_mem_mul hb rfl)
      | returned =>
        cases hk
        exact Language.append_mem_mul ha (Or.inl (Language.append_mem_mul hb (Or.inl rfl)))
      | raised =>
        cases hk
        exact Language.append_mem_mul ha (Or.inl (Language.append_mem_mul hb (Or.inr rfl)))
      | _ => cases hk
    | ended =>
      rw [next_ended] at hk
      cases hk

/-- Wherever a frame stands, its end may still come. -/
theorem extends_to_protocol {w : List Mark} {st : Stage} (h : unborn.after w = some st) :
    ∃ rest, w ++ rest ∈ Mark.protocol.matches' := by
  have complete : ∀ rest, (unborn.after (w ++ rest)) = some ended →
      w ++ rest ∈ Mark.protocol.matches' := fun rest hr => mem_language hr
  cases st with
  | unborn => exact ⟨[.called, .returned], complete _ (by rw [after_append, h]; rfl)⟩
  | running => exact ⟨[.returned], complete _ (by rw [after_append, h]; rfl)⟩
  | waiting => exact ⟨[.discarded], complete _ (by rw [after_append, h]; rfl)⟩
  | ended => exact ⟨[], complete _ (by rw [after_append, h]; rfl)⟩

/-- Nothing follows the end. -/
theorem nil_of_final {st st' : Stage} {v w : List Mark} {k : Mark}
    (h : st.after (v ++ k :: w) = some st') (final : k.isFinal = true) : w = [] := by
  rw [after_append] at h
  obtain ⟨st₀, -, hk⟩ := Option.bind_eq_some_iff.mp h
  rw [after_cons] at hk
  obtain ⟨st₁, hn, hw⟩ := Option.bind_eq_some_iff.mp hk
  cases next_of_final hn final
  cases w with
  | nil => rfl
  | cons k w =>
    rw [after_cons, next_ended] at hw
    cases hw

end Stage

namespace Op

/-- An event happens to a frame that runs, though not only to the innermost one. -/
def NamesRunning (m : Machine) : Op FrameId → Prop
  | .line f _ | .ret f _ | .unwind f | .raise f _ | .yieldValue f _ => f ∈ m.stack
  | .enterModule _ | .call .. | .setLocal .. | .setGlobal .. | .resume _ | .discard _
  | .traceFrame _ | .setTrace _ | .pushTrace _ | .popTrace => True

instance (m : Machine) : (op : Op FrameId) → Decidable (op.NamesRunning m)
  | .line f _ | .ret f _ | .unwind f | .raise f _ | .yieldValue f _ =>
    inferInstanceAs (Decidable (f ∈ m.stack))
  | .enterModule _ | .call .. | .setLocal .. | .setGlobal .. | .resume _ | .discard _
  | .traceFrame _ | .setTrace _ | .pushTrace _ | .popTrace => inferInstanceAs (Decidable True)

end Op

namespace Machine
variable {σ : Type} {deliver : Deliver σ} {m m' : Machine} {s : σ} {op : Op FrameId}
  {hook : HookName} {f : FrameId} {e : Event}

def Orderly (deliver : Deliver σ) : Machine → σ → List (Op FrameId) → Prop
  | _, _, [] => True
  | m, s, op :: ops =>
    op.NamesRunning m ∧ op.KeepsHook m ∧
      Orderly deliver (m.step deliver s op).machine (m.step deliver s op).state ops

instance decidableOrderly (deliver : Deliver σ) (m : Machine) (s : σ) :
    (ops : List (Op FrameId)) → Decidable (m.Orderly deliver s ops)
  | [] => inferInstanceAs (Decidable True)
  | op :: ops =>
    have := decidableOrderly deliver (m.step deliver s op).machine (m.step deliver s op).state ops
    inferInstanceAs (Decidable (op.NamesRunning m ∧ op.KeepsHook m ∧
      Orderly deliver (m.step deliver s op).machine (m.step deliver s op).state ops))

/-- What hooks hear in a run, each event with the operation that it comes from. -/
def told (deliver : Deliver σ) : Machine → σ → List (Op FrameId) → List (Op FrameId × Context)
  | _, _, [] => []
  | m, s, op :: ops =>
    let r := m.step deliver s op
    ((m.heardBy? op).map fun e => (op, e.2)).toList ++
      if r.panic.isSome then [] else told deliver r.machine r.state ops

def marksOf (id : FrameId) (events : List (Op FrameId × Context)) : List Mark :=
  (events.filter fun x => x.2.frame.id = id).map fun x => Mark.of x.1 x.2.event

def stage (m : Machine) (id : FrameId) : Stage :=
  if id ∈ m.stack then .running
  else if id ∈ m.suspended then .waiting
  else if id.machine = m.id ∧ id.serial < m.next then .ended
  else .unborn

structure Attended (m : Machine) (hook : HookName) : Prop where
  books : m.Books none
  made : m.WellMade fun _ => True
  live : ∀ id, id ∈ m.stack ∨ id ∈ m.suspended → m.frames.contains id = true
  untraced : m.untraced = []
  installed : m.hook = some hook

theorem IsNew.attended (h : m.IsNew) (installed : m.hook = some hook) : m.Attended hook := by
  refine ⟨h.books, h.wellMade _, ?_, h.untraced, installed⟩
  simp [h.stack, h.suspended]

/-- Only one frame may have got another place. -/
structure Moves (m m' : Machine) (f : FrameId) : Prop where
  stack : ∀ j, j ≠ f → (j ∈ m'.stack ↔ j ∈ m.stack)
  suspended : ∀ j, j ≠ f → (j ∈ m'.suspended ↔ j ∈ m.suspended)
  live : ∀ j, j ≠ f → m'.frames.contains j = m.frames.contains j
  id : m'.id = m.id
  born : ∀ j, j ≠ f → j.machine = m.id → (j.serial < m'.next ↔ j.serial < m.next)

theorem Moves.stage (h : m.Moves m' f) {j : FrameId} (hj : j ≠ f) : m'.stage j = m.stage j := by
  have hborn : (j.machine = m'.id ∧ j.serial < m'.next) ↔ (j.machine = m.id ∧ j.serial < m.next) := by
    rw [h.id]
    exact and_congr_right fun hm => h.born j hj hm
  simp only [Machine.stage, h.stack j hj, h.suspended j hj, hborn]

theorem Moves.trans {m'' : Machine} (h : m.Moves m' f) (h' : m'.Moves m'' f) : m.Moves m'' f :=
  ⟨fun j hj => (h'.stack j hj).trans (h.stack j hj),
    fun j hj => (h'.suspended j hj).trans (h.suspended j hj),
    fun j hj => (h'.live j hj).trans (h.live j hj), h'.id.trans h.id,
    fun j hj hm => (h'.born j hj (hm.trans h.id.symm)).trans (h.born j hj hm)⟩

theorem contains_modifyFrame (m : Machine) (id : FrameId) (g : Frame → Frame) (j : FrameId) :
    (m.modifyFrame id g).frames.contains j = m.frames.contains j := by
  simp only [Table.contains, get?_modifyFrame]
  by_cases hj : j = id <;> simp [hj]

theorem moves_modifyFrame (m : Machine) (id f : FrameId) (g : Frame → Frame) :
    m.Moves (m.modifyFrame id g) f := by
  refine ⟨?_, ?_, fun j _ => contains_modifyFrame m id g j, ?_, ?_⟩ <;> simp

theorem moves_pushFrame (m : Machine) (code : Code) (locals : Namespace) :
    m.Moves (m.pushFrame code locals) m.nextId := by
  refine ⟨?_, fun _ _ => Iff.rfl, ?_, rfl, ?_⟩
  · intro j hj
    exact List.mem_cons.trans (or_iff_right hj)
  · intro j hj
    simp [Table.contains, get?_pushFrame, hj]
  · intro j hj hm
    have hne : j.serial ≠ m.next := fun hs => hj (by cases j; simp_all [nextId])
    have hnext : (m.pushFrame code locals).next = m.next + 1 := rfl
    omega

theorem moves_forget (m : Machine) (id : FrameId) : m.Moves (m.forget id) id := by
  refine ⟨fun _ _ => Iff.rfl, fun _ _ => Iff.rfl, ?_, rfl, fun _ _ _ => Iff.rfl⟩
  intro j hj
  simp [Table.contains, Machine.forget, Table.get?_erase, hj]

theorem moves_remove (m : Machine) (id : FrameId) :
    m.Moves { m with stack := without m.stack id, suspended := without m.suspended id } id := by
  refine ⟨?_, ?_, fun _ _ => rfl, rfl, fun _ _ _ => Iff.rfl⟩ <;>
    exact fun j hj => mem_without.trans (and_iff_left hj)

namespace Attended

theorem stage_nextId (h : m.Attended hook) : m.stage m.nextId = .unborn := by
  have hnot : ¬ (m.nextId ∈ m.stack ∨ m.nextId ∈ m.suspended) := by
    intro hm
    have hi := h.books.issued _ hm
    rw [not_hasIssued_nextId] at hi
    cases hi
  rw [not_or] at hnot
  rw [stage, if_neg hnot.1, if_neg hnot.2, if_neg]
  exact fun hb => Nat.lt_irrefl _ hb.2

/-- A frame with a place was born on this machine. -/
theorem born (h : m.Attended hook) (hf : f ∈ m.stack ∨ f ∈ m.suspended) :
    f.machine = m.id ∧ f.serial < m.next := by
  obtain ⟨frame, hget⟩ := Option.isSome_iff_exists.mp (h.live f hf)
  have hm := (h.made.frames f frame hget).machine
  have hi := h.books.issued f hf
  simp only [hasIssued, hm, ne_eq, not_true, decide_false, Bool.false_or, decide_eq_true_eq] at hi
  exact ⟨hm, hi⟩

end Attended

theorem stage_of_running (h : f ∈ m.stack) : m.stage f = .running := by
  simp [stage, h]

theorem stage_of_waiting (off : f ∉ m.stack) (h : f ∈ m.suspended) : m.stage f = .waiting := by
  simp [stage, off, h]

theorem stage_of_ended (off : f ∉ m.stack) (gone : f ∉ m.suspended)
    (born : f.machine = m.id ∧ f.serial < m.next) : m.stage f = .ended := by
  simp [stage, off, gone, born]

structure Passes (m m' : Machine) (f : FrameId) (k : Mark) : Prop where
  moves : m.Moves m' f
  next : (m.stage f).next k = some (m'.stage f)
  live : f ∈ m'.stack ∨ f ∈ m'.suspended → m'.frames.contains f = true

namespace Attended

theorem passes_birth (h : m.Attended hook) (code : Code) (locals : Namespace) :
    m.Passes (m.pushFrame code locals) m.nextId .called := by
  refine ⟨moves_pushFrame m code locals, ?_, ?_⟩
  · rw [h.stage_nextId, stage_of_running (m := m.pushFrame code locals) List.mem_cons_self]
    rfl
  · intro _
    simp [Table.contains, get?_pushFrame]

theorem passes_line (h : m.Attended hook) (hf : f ∈ m.stack) (g : Frame → Frame) :
    m.Passes (m.modifyFrame f g) f .line := by
  have hf' : f ∈ (m.modifyFrame f g).stack := by simpa using hf
  refine ⟨moves_modifyFrame m f f g, ?_, ?_⟩
  · rw [stage_of_running hf, stage_of_running hf']
    rfl
  · intro _
    rw [contains_modifyFrame]
    exact h.live f (Or.inl hf)

/-- A frame that runs ends, wherever on the stack it is. -/
theorem passes_end (h : m.Attended hook) (hf : f ∈ m.stack) {m₁ : Machine} (before : m.Moves m₁ f)
    (stack : m₁.stack = m.stack) (next : m₁.next = m.next)
    {k : Mark} (ends : k = .returned ∨ k = .raised) : m.Passes (m₁.popFrame f) f k := by
  have hleave : leave m₁.stack f = without m₁.stack f :=
    leave_of_nodup (by rw [stack]; exact h.books.nodup) f
  have hoff : f ∉ (m₁.popFrame f).stack := by
    simp [popFrame, forget, hleave, mem_without]
  have hgone : f ∉ (m₁.popFrame f).suspended := by
    simp [popFrame, forget, mem_without]
  have hborn : f.machine = (m₁.popFrame f).id ∧ f.serial < (m₁.popFrame f).next := by
    have hb := h.born (Or.inl hf)
    rw [← next, ← before.id] at hb
    exact hb
  refine ⟨?_, ?_, fun hp => (hp.elim hoff hgone).elim⟩
  · have hp := (moves_remove m₁ f).trans (moves_forget _ f)
    rw [← hleave] at hp
    exact before.trans hp
  · rw [stage_of_running hf, stage_of_ended hoff hgone hborn]
    rcases ends with rfl | rfl <;> rfl

theorem passes_yield (h : m.Attended hook) (hf : f ∈ m.stack) (g : Frame → Frame) :
    m.Passes ((m.modifyFrame f g).suspend f) f .yielded := by
  have hoff : f ∉ ((m.modifyFrame f g).suspend f).stack := by simp [suspend, mem_without]
  have hin : f ∈ ((m.modifyFrame f g).suspend f).suspended := by simp [suspend]
  refine ⟨(moves_modifyFrame m f f g).trans ?_, ?_, ?_⟩
  · refine ⟨fun j hj => mem_without.trans (and_iff_left hj), ?_, fun _ _ => rfl, rfl,
      fun _ _ _ => Iff.rfl⟩
    intro j hj
    simp [suspend, hj]
  · rw [stage_of_running hf, stage_of_waiting hoff hin]
    rfl
  · intro _
    exact (contains_modifyFrame m f g f).trans (h.live f (Or.inl hf))

theorem passes_resume (h : m.Attended hook) (hf : f ∈ m.suspended) :
    m.Passes (m.wake f) f .called := by
  have hin : f ∈ (m.wake f).stack := List.mem_cons_self
  refine ⟨?_, ?_, ?_⟩
  · refine ⟨?_, ?_, ?_, by simp [wake], ?_⟩
    · intro j hj
      exact List.mem_cons.trans (or_iff_right hj)
    · intro j hj
      simp [wake, mem_without, hj]
    · intro j hj
      exact contains_modifyFrame _ _ _ _
    · intro j _ _
      simp [wake]
  · rw [stage_of_waiting (h.books.parked f hf) hf, stage_of_running hin]
    rfl
  · intro _
    exact (contains_modifyFrame _ _ _ _).trans (h.live f (Or.inr hf))

theorem passes_discard (h : m.Attended hook) (hf : f ∈ m.suspended) :
    m.Passes (forget { m with suspended := without m.suspended f } f) f .discarded := by
  have hoff := h.books.parked f hf
  have hgone : f ∉ without m.suspended f := by simp [mem_without]
  have hover : (forget { m with suspended := without m.suspended f } f).stage f = .ended :=
    stage_of_ended hoff hgone (h.born (Or.inr hf))
  refine ⟨?_, ?_, fun hp => (hp.elim hoff hgone).elim⟩
  · have hwait : m.Moves { m with suspended := without m.suspended f } f :=
      ⟨fun _ _ => Iff.rfl, fun j hj => mem_without.trans (and_iff_left hj), fun _ _ => rfl, rfl,
        fun _ _ _ => Iff.rfl⟩
    exact hwait.trans (moves_forget _ f)
  · rw [stage_of_waiting hoff hf, hover]
    rfl

/-- The change that an operation makes if its event goes along. -/
theorem passes (h : m.Attended hook) (running : op.NamesRunning m)
    (applies : op.applies m = true) (event : op.event? m = some (f, e)) :
    m.Passes (op.after (op.before m)) f (Mark.of op e) := by
  cases op with
  | enterModule code =>
    cases event
    have hp := h.passes_birth code (m.globalsOf code.file)
    have hm := hp.moves
    exact ⟨⟨hm.stack, hm.suspended, hm.live, hm.id, hm.born⟩, hp.next, hp.live⟩
  | call code args =>
    cases event
    exact h.passes_birth code _
  | line id n =>
    cases event
    exact h.passes_line running _
  | ret id v | unwind id =>
    cases event
    exact h.passes_end running (moves_modifyFrame m _ _ _) (stack_modifyFrame m _ _)
      (next_modifyFrame m _ _) (Or.inl rfl)
  | raise id x =>
    cases event
    have hm : m.Moves m f := ⟨fun _ _ => Iff.rfl, fun _ _ => Iff.rfl, fun _ _ => rfl, rfl,
      fun _ _ _ => Iff.rfl⟩
    exact h.passes_end running hm rfl rfl (Or.inr rfl)
  | yieldValue id v =>
    cases event
    exact h.passes_yield running _
  | resume id =>
    cases event
    exact h.passes_resume (List.contains_iff_mem.mp applies)
  | discard id =>
    cases event
    exact h.passes_discard (List.contains_iff_mem.mp applies)
  | setLocal _ _ _ | setGlobal _ _ _ | traceFrame _ | setTrace _ | pushTrace _ | popTrace =>
    cases event

end Attended

/-- An operation without an event moves no frame. -/
theorem places_of_quiet (event : op.event? m = none) :
    (op.after (op.before m)).stack = m.stack ∧ (op.after (op.before m)).suspended = m.suspended ∧
      (op.after (op.before m)).id = m.id ∧ (op.after (op.before m)).next = m.next ∧
      ∀ j, (op.after (op.before m)).frames.contains j = m.frames.contains j := by
  have hlive : ∀ j, (op.before m).frames.contains j = m.frames.contains j := by
    intro j
    have hspares : m.Spares (op.before m) j := Op.spares_before (by simp [event])
    simpa [standing, Table.contains] using congrArg Option.isSome hspares.standing
  cases op with
  | setLocal id name v =>
    have heq : Op.after (Op.before m (.setLocal id name v)) (.setLocal id name v) = _ :=
      setLocal_eq m id name v
    refine ⟨?_, ?_, ?_, ?_, hlive⟩ <;> rw [heq]
  | setGlobal file name v =>
    have heq : Op.after (Op.before m (.setGlobal file name v)) (.setGlobal file name v) = _ :=
      setGlobal_eq m file name v
    refine ⟨?_, ?_, ?_, ?_, hlive⟩ <;> rw [heq]
  | traceFrame id | setTrace hook | pushTrace hook | popTrace => exact ⟨rfl, rfl, rfl, rfl, hlive⟩
  | _ => cases event

namespace Attended

theorem books_after (h : m.Attended hook) (running : op.NamesRunning m)
    (applies : op.applies m = true) : (op.after (op.before m)).Books none := by
  have hb := Op.books_before h.books applies
  cases op with
  | ret id v | unwind id | raise id x => exact hb.popFrame id
  | yieldValue id v =>
    have hi := h.books.issued id (Or.inl running)
    exact hb.suspend ((hasIssued_congr (id_modifyFrame _ _ _) (next_modifyFrame _ _ _) id).trans hi)
  | discard id => exact hb.forget
  | _ => exact hb

theorem untraced_after (h : m.Attended hook) : (op.after (op.before m)).untraced = [] := by
  refine List.eq_nil_iff_forall_not_mem.mpr fun j hj => ?_
  have hb : j ∈ (op.before m).untraced := by
    cases op with
    | ret id v | unwind id | raise id x | discard id => exact (mem_without.mp hj).1
    | _ => exact hj
  have hu := Op.untraced_before hb
  rw [h.untraced] at hu
  cases hu

/-- The machine after an operation whose event goes along. -/
theorem performed (h : m.Attended hook) (running : op.NamesRunning m) (keeps : op.KeepsHook m)
    (applies : op.applies m = true) : (op.after (op.before m)).Attended hook := by
  refine ⟨h.books_after running applies, (h.made.before fun _ _ => trivial).after op, ?_,
    h.untraced_after, (Op.hook_after _ op).trans (keeps.trans h.installed)⟩
  intro j hj
  cases event : op.event? m with
  | none =>
    obtain ⟨hs, hu, -, -, hl⟩ := places_of_quiet event
    rw [hs, hu] at hj
    exact (hl j).trans (h.live j hj)
  | some ev =>
    have hp := h.passes running applies event
    by_cases he : j = ev.1
    · subst he
      exact hp.live hj
    · rw [hp.moves.stack j he, hp.moves.suspended j he] at hj
      exact (hp.moves.live j he).trans (h.live j hj)

/-- The frame of an event is there for the hook to see. -/
theorem shows (h : m.Attended hook) (running : op.NamesRunning m) (applies : op.applies m = true)
    (event : op.event? m = some (f, e)) :
    ∃ frame, (op.before m).frames.get? f = some frame ∧ frame.id = f := by
  have hlive : (op.before m).frames.contains f = true := by
    cases op with
    | enterModule code | call code args =>
      cases event
      simp [Op.before, pushModule, Table.contains, get?_pushFrame]
    | line id n | ret id v | unwind id | yieldValue id v =>
      cases event
      exact (contains_modifyFrame _ _ _ _).trans (h.live _ (Or.inl running))
    | raise id x =>
      cases event
      exact h.live _ (Or.inl running)
    | resume id =>
      cases event
      exact (contains_modifyFrame _ _ _ _).trans
        (h.live _ (Or.inr (List.contains_iff_mem.mp applies)))
    | discard id =>
      cases event
      exact h.live _ (Or.inr (List.contains_iff_mem.mp applies))
    | _ => cases event
  obtain ⟨frame, hget⟩ := Option.isSome_iff_exists.mp hlive
  exact ⟨frame, hget, ((h.made.before fun _ _ => trivial).frames f frame hget).known⟩

theorem hears_all (h : m.Attended hook) : (op.before m).hears f e = true := by
  have hu : f ∉ (op.before m).untraced := by
    intro hf
    have hm := Op.untraced_before hf
    rw [h.untraced] at hm
    cases hm
  simp [hears, hu]

/-- The machine heeds an answer to go on by doing nothing. -/
theorem heed_proceed (h : m.Attended hook) : (op.before m).heed f e .proceed = op.before m := by
  have hu : (op.before m).untraced = [] := by
    refine List.eq_nil_iff_forall_not_mem.mpr fun j hj => ?_
    have hm := Op.untraced_before hj
    rw [h.untraced] at hm
    cases hm
  unfold heed
  cases e.isCall with
  | false => rfl
  | true =>
    generalize op.before m = m₁ at hu
    cases m₁
    subst hu
    rfl

/-- One operation: its event is heard, and takes its frame and no other to the next stage. -/
theorem step (h : m.Attended hook) (goesAlong : ∀ ctx s, (deliver hook ctx s).1 = .proceed)
    (running : op.NamesRunning m) (keeps : op.KeepsHook m) :
    (m.step deliver s op).panic = none ∧ (m.step deliver s op).machine.Attended hook ∧
      ∀ id, (m.stage id).after (marksOf id ((m.heardBy? op).map fun e => (op, e.2)).toList) =
        some ((m.step deliver s op).machine.stage id) := by
  cases applies : op.applies m with
  | false => simp [Machine.step, heardBy?, applies, marksOf, h]
  | true =>
    have hdone := h.performed running keeps applies
    cases event : op.event? m with
    | none =>
      obtain ⟨hs, hu, hi, hn, -⟩ := places_of_quiet event
      have hquiet : op.after (op.before m) = op.before m := by
        cases op <;> first | rfl | cases event
      have hstep : m.step deliver s op = ⟨op.before m, s, none⟩ := by
        simp [Machine.step, applies, event]
      rw [hquiet] at hs hu hi hn hdone
      refine ⟨by rw [hstep], by rwa [hstep], ?_⟩
      intro id
      simp [hstep, heardBy?, applies, event, marksOf, stage, hs, hu, hi, hn]
    | some ev =>
      obtain ⟨f, e⟩ := ev
      obtain ⟨frame, hget, hid⟩ := h.shows running applies event
      have hk : (op.before m).hook = some hook := keeps.trans h.installed
      subst hid
      have ha : deliver hook ((op.before m).context frame e) s =
          (.proceed, (deliver hook ((op.before m).context frame e) s).2) :=
        Prod.ext (goesAlong _ s) rfl
      have hd := dispatch_of_heard hk hget h.hears_all ha (by simp)
      rw [h.heed_proceed] at hd
      have hheard : m.heardBy? op = some (hook, (op.before m).context frame e) := by
        simp [heardBy?, heardOf?, applies, event, hk, hget, h.hears_all]
      have hstep : (m.step deliver s op).panic = none ∧
          (m.step deliver s op).machine = op.after (op.before m) := by
        simp [Machine.step, applies, event, hd]
      have hp := h.passes running applies event
      refine ⟨hstep.1, hstep.2 ▸ hdone, ?_⟩
      intro id
      rw [hstep.2, hheard]
      by_cases hid : frame.id = id
      · subst hid
        simpa [marksOf, context] using hp.next
      · simpa [marksOf, context, hid] using (hp.moves.stage (Ne.symm hid)).symm

end Attended

/-- A whole run takes every frame from where it stood to where it stands. -/
theorem Attended.run (h : m.Attended hook)
    (goesAlong : ∀ ctx s, (deliver hook ctx s).1 = .proceed) {ops : List (Op FrameId)}
    (orderly : m.Orderly deliver s ops) (id : FrameId) :
    (m.run deliver s ops).panic = none ∧
      (m.stage id).after (marksOf id (m.told deliver s ops)) =
        some ((m.run deliver s ops).machine.stage id) := by
  induction ops generalizing m s with
  | nil => exact ⟨rfl, rfl⟩
  | cons op ops ih =>
    obtain ⟨running, keeps, rest⟩ := orderly
    obtain ⟨calm, hnext, hmarks⟩ := h.step (s := s) goesAlong running keeps
    obtain ⟨hp, hrest⟩ := ih hnext rest
    rw [run_of_calm calm]
    refine ⟨hp, ?_⟩
    have htold : m.told deliver s (op :: ops) = ((m.heardBy? op).map fun e => (op, e.2)).toList ++
        (m.step deliver s op).machine.told deliver (m.step deliver s op).state ops := by
      simp [told, calm]
    rw [htold, marksOf, List.filter_append, List.map_append, Stage.after_append]
    have hm := hmarks id
    rw [marksOf] at hm
    rw [hm]
    exact hrest

/-- A return is seen with another last instruction than a return or a yield if and only if its frame is
broken off. -/
theorem endedOnReturn_of_heard {ctx : Context} {v : Value}
    (heard : m.heardBy? op = some (hook, ctx)) (value : ctx.event = .ret v) :
    ctx.frame.endedOnReturn = false ↔ ∃ f, op = .unwind f := by
  obtain ⟨-, id, frame, event, -, live, -, hctx⟩ := heardBy?_cases heard
  have hframe : ctx.frame = frame := congrArg Context.frame hctx
  rw [value] at event
  rw [hframe]
  cases op with
  | ret id x | unwind id | yieldValue id x =>
    cases event
    rw [Op.before, setOpcode, get?_modifyFrame, if_pos rfl] at live
    obtain ⟨f₀, -, rfl⟩ := Option.map_eq_some_iff.mp live
    simp [Frame.endedOnReturn, Opcode.isReturn]
  | _ => cases event

/-- While one hook stays, all that is heard is heard by it. -/
theorem heard_eq_told (installed : m.hook = some hook) {ops : List (Op FrameId)}
    (orderly : m.Orderly deliver s ops) :
    m.heard deliver s ops = (m.told deliver s ops).map fun x => (hook, x.2) := by
  induction ops generalizing m s with
  | nil => rfl
  | cons op ops ih =>
    obtain ⟨-, keeps, rest⟩ := orderly
    have hrest := ih ((hook_step keeps).trans installed) rest
    have hfirst : (m.heardBy? op).toList =
        ((m.heardBy? op).map fun e => (op, e.2)).toList.map fun x => (hook, x.2) := by
      cases heard : m.heardBy? op with
      | none => rfl
      | some e =>
        obtain ⟨-, -, -, -, hhook, -⟩ := heardBy?_cases heard
        have he : e.1 = hook := Option.some.inj (hhook.symm.trans (keeps.trans installed))
        simp [← he]
    rw [heard, told, List.map_append, ← hfirst]
    congr 1
    split
    · rfl
    · exact hrest

theorem heardBy?_of_told {x : Op FrameId × Context} {ops : List (Op FrameId)}
    (h : x ∈ m.told deliver s ops) : ∃ m' hook, heardBy? m' x.1 = some (hook, x.2) := by
  induction ops generalizing m s with
  | nil => cases h
  | cons op ops ih =>
    rcases List.mem_append.mp h with h | h
    · obtain ⟨e, he, rfl⟩ := Option.map_eq_some_iff.mp (Option.mem_toList.mp h)
      exact ⟨m, e.1, he⟩
    · split at h
      · cases h
      · exact ih h

/-- On a new machine no frame has begun; one that was never to begin stands as if it were over. -/
theorem IsNew.after_unborn (h : m.IsNew) {id : FrameId} {w : List Mark} {st : Stage}
    (hw : (m.stage id).after w = some st) : ∃ st', Stage.unborn.after w = some st' := by
  have hstage : m.stage id = .ended ∨ m.stage id = .unborn := by
    simp only [stage, h.stack, h.suspended, List.not_mem_nil, if_false]
    split <;> simp
  rcases hstage with hs | hs
  · rw [hs] at hw
    cases w with
    | nil => exact ⟨.unborn, rfl⟩
    | cons k w =>
      rw [Stage.after_cons, Stage.next_ended] at hw
      cases hw
  · exact ⟨st, hs ▸ hw⟩

/-- Under a hook that goes along with everything, whatever running frames end, wait or move on, and in
any order: what is told of a frame is the beginning of rounds that end in a yield, followed by a last
round that ends in a return or an exception, or else by a discard. Nothing is told after that end, and
a return is seen as broken off just when it is. The hook's state is what these events make of it. -/
theorem events_of_frame_follow_protocol (fresh : m.IsNew) (installed : m.hook = some hook)
    (goesAlong : ∀ ctx s, (deliver hook ctx s).1 = .proceed) {ops : List (Op FrameId)}
    (orderly : m.Orderly deliver s ops) (id : FrameId) :
    let told := m.told deliver s ops
    (m.run deliver s ops).panic = none ∧
      (m.run deliver s ops).state = informed deliver s (told.map fun x => (hook, x.2)) ∧
      (∃ rest, marksOf id told ++ rest ∈ Mark.protocol.matches') ∧
      (∀ earlier k later, marksOf id told = earlier ++ k :: later → k.isFinal = true → later = []) ∧
      ∀ x ∈ told, ∀ v, x.2.event = .ret v →
        (x.2.frame.endedOnReturn = false ↔ ∃ f, x.1 = .unwind f) := by
  intro told
  obtain ⟨calm, hmarks⟩ := (fresh.attended installed).run goesAlong orderly id
  obtain ⟨st, hunborn⟩ := fresh.after_unborn hmarks
  have hstate := state_run deliver m s ops
  rw [heard_eq_told installed orderly] at hstate
  refine ⟨calm, hstate, Stage.extends_to_protocol hunborn, ?_, ?_⟩
  · intro earlier k later hsplit final
    rw [show marksOf id (m.told deliver s ops) = _ from hsplit] at hmarks
    exact Stage.nil_of_final hmarks final
  · intro x hx v value
    obtain ⟨m', hook', heard⟩ := heardBy?_of_told hx
    exact endedOnReturn_of_heard heard value

/-- A generator is resumed by two functions and suspended under the frame it has called; its module ends
below it, it is broken off, and what is gone is resumed and dropped. -/
def unorderedOps : List (Op FrameId) :=
  let file : Path := ⟨"/p.py"⟩
  [.enterModule ⟨"<module>", file, 1⟩, .call ⟨"gen", file, 1⟩ [], .line ⟨0, 1⟩ 2,
    .yieldValue ⟨0, 1⟩ .none, .call ⟨"f", file, 5⟩ [], .resume ⟨0, 1⟩, .resume ⟨0, 1⟩,
    .call ⟨"g", file, 8⟩ [], .line ⟨0, 1⟩ 3, .yieldValue ⟨0, 1⟩ (.int 1), .resume ⟨0, 1⟩,
    .ret ⟨0, 0⟩ .none, .unwind ⟨0, 1⟩, .resume ⟨0, 1⟩, .discard ⟨0, 1⟩, .line ⟨0, 2⟩ 6]

theorem events_of_unordered_ops_follow_protocol :
    let m : Machine := { hook := some "look" }
    let told := m.told (fun _ _ s => (.proceed, s)) () unorderedOps
    m.IsNew ∧ m.Orderly (fun _ _ s => (.proceed, s)) () unorderedOps ∧
      marksOf ⟨0, 1⟩ told =
        [.called, .line, .yielded, .called, .line, .yielded, .called, .returned] ∧
      ∃ rest, marksOf ⟨0, 1⟩ told ++ rest ∈ Mark.protocol.matches' := by
  intro m told
  have fresh : m.IsNew := ⟨⟨rfl, rfl, rfl, rfl⟩, rfl, rfl⟩
  have orderly : m.Orderly (fun _ _ s => (.proceed, s)) () unorderedOps := by decide +kernel
  have hfollows := events_of_frame_follow_protocol fresh rfl (fun _ _ => rfl) orderly ⟨0, 1⟩
  exact ⟨fresh, orderly, by decide +kernel, hfollows.2.2.1⟩

end Machine
end SelectiveTrace
