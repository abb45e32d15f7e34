import Mathlib.Data.List.Induction
import SelectiveTrace.Proofs.Host.Bookkeeping

/-! Handles that outlive their frames. A frame that has ended stands on the stack or among the suspended
ones for one reason only: it was yielded after its end. Hooks may fail; what follows goes on. -/
namespace SelectiveTrace

namespace Op
open Machine

/-- The ended frames that stand after the operation, of those that stood before. A yield puts one there;
it goes if it ends once more or is dropped while it waits. -/
def stale (m : Machine) (ids : List FrameId) : Op FrameId → List FrameId
  | .ret f _ | .unwind f | .raise f _ => without ids f
  | .discard f => if m.suspended.contains f then without ids f else ids
  | .yieldValue f _ => if m.frames.contains f then ids else ids.insert f
  | _ => ids

def staleBefore (ids : List FrameId) : Op FrameId → List FrameId
  | .discard f => without ids f
  | _ => ids

def staleAfter (m : Machine) (ids : List FrameId) : Op FrameId → List FrameId
  | .ret f _ | .unwind f | .raise f _ => without ids f
  | .yieldValue f _ => if m.frames.contains f then ids else ids.insert f
  | _ => ids

theorem stale_of_applies {m : Machine} {op : Op FrameId} (applies : op.applies m = true)
    (ids : List FrameId) : op.stale m ids = op.staleAfter m (op.staleBefore ids) := by
  cases op with
  | discard f => exact if_pos applies
  | _ => rfl

theorem stale_of_not_applies {m : Machine} {op : Op FrameId} (applies : op.applies m = false)
    (ids : List FrameId) : op.stale m ids = ids := by
  cases op with
  | resume f => rfl
  | discard f => exact if_neg (by simpa [Op.applies] using applies)
  | _ => cases applies

end Op

namespace Machine
variable {σ : Type}

/-- Operations one after the other. A hook that fails breaks off no more than its operation. -/
def carryOn (deliver : Deliver σ) : Machine → σ → List (Op FrameId) → Machine × σ
  | m, s, [] => (m, s)
  | m, s, op :: ops => carryOn deliver (m.step deliver s op).machine (m.step deliver s op).state ops

def Stands (m : Machine) (id : FrameId) : Prop :=
  id ∈ m.stack ∨ id ∈ m.suspended

def StandsAlive (m : Machine) : Prop :=
  ∀ id, m.Stands id → m.frames.contains id = true

/-- The handles under which a frame stands after its end: each was yielded then, and since it has neither
ended once more nor been dropped. -/
def staleAmong (deliver : Deliver σ) :
    Machine → σ → List FrameId → List (Op FrameId) → List FrameId
  | _, _, ids, [] => ids
  | m, s, ids, op :: ops =>
    staleAmong deliver (m.step deliver s op).machine (m.step deliver s op).state (op.stale m ids) ops

structure Haunted (m : Machine) (ids : List FrameId) : Prop where
  nodup : m.stack.Nodup
  parked : ∀ id ∈ m.suspended, id ∉ m.stack
  issued : ∀ id, m.Stands id → m.hasIssued id = true
  stale : ∀ id, id ∈ ids ↔ m.Stands id ∧ m.frames.contains id = false

theorem IsNew.haunted {m : Machine} (h : m.IsNew) : m.Haunted [] := by
  have hb := h.books
  refine ⟨hb.nodup, hb.parked, hb.issued, ?_⟩
  simp [Stands, h.stack, h.suspended]

namespace Haunted
variable {m m' : Machine} {ids : List FrameId}

theorem not_mem_of_live (h : m.Haunted ids) {id : FrameId} (live : m.frames.contains id = true) :
    id ∉ ids := by
  intro hm
  have hd := ((h.stale id).mp hm).2
  rw [live] at hd
  cases hd

theorem without_of_live (h : m.Haunted ids) {id : FrameId} (live : m.frames.contains id = true) :
    without ids id = ids := by
  refine List.filter_eq_self.mpr fun j hj => ?_
  have hne : j ≠ id := fun he => h.not_mem_of_live live (he ▸ hj)
  simpa using hne

/-- The same places and the same frames alive. -/
theorem congr (h : m.Haunted ids) (stack : m'.stack = m.stack) (suspended : m'.suspended = m.suspended)
    (live : ∀ id, m.Stands id → m'.frames.contains id = m.frames.contains id) (id : m'.id = m.id)
    (next : m'.next = m.next) : m'.Haunted ids := by
  have hs : ∀ j, m'.Stands j ↔ m.Stands j := by
    intro j
    rw [Stands, Stands, stack, suspended]
  refine ⟨?_, ?_, ?_, ?_⟩
  · rw [stack]
    exact h.nodup
  · rw [stack, suspended]
    exact h.parked
  · intro j hj
    rw [hasIssued_congr id next]
    exact h.issued j ((hs j).mp hj)
  · intro j
    rw [h.stale, hs]
    exact and_congr_right fun hj => by rw [live j hj]

theorem modifyFrame (h : m.Haunted ids) (id : FrameId) (g : Frame → Frame) :
    (m.modifyFrame id g).Haunted ids := by
  refine h.congr ?_ ?_ ?_ ?_ ?_
  · simp
  · simp
  · intro j _
    simp only [Table.contains, get?_modifyFrame]
    by_cases hj : j = id <;> simp [hj]
  · simp
  · simp

theorem pushFrame (h : m.Haunted ids) (code : Code) (locals : Namespace) :
    (m.pushFrame code locals).Haunted ids := by
  have hnew : ∀ id, m.Stands id → id ≠ m.nextId := by
    intro id hid he
    have hi := h.issued id hid
    rw [he, not_hasIssued_nextId] at hi
    cases hi
  have hs : ∀ id, (m.pushFrame code locals).Stands id ↔ id = m.nextId ∨ m.Stands id := by
    intro id
    simp only [Stands, Machine.pushFrame, List.mem_cons, or_assoc]
  refine ⟨?_, ?_, ?_, ?_⟩
  · exact List.nodup_cons.mpr ⟨fun hm => hnew _ (Or.inl hm) rfl, h.nodup⟩
  · intro id hid hm
    rcases List.mem_cons.mp hm with he | hm
    · exact hnew id (Or.inr hid) he
    · exact h.parked id hid hm
  · intro id hid
    have hnext : (m.pushFrame code locals).next = m.next + 1 := rfl
    simp only [hasIssued, hnext, Bool.or_eq_true, decide_eq_true_eq]
    rcases (hs id).mp hid with rfl | hold
    · right
      simp [nextId]
    · have hi := h.issued id hold
      simp only [hasIssued, Bool.or_eq_true, decide_eq_true_eq] at hi
      exact hi.imp (fun hm => hm) fun hlt => by omega
  · intro id
    rw [h.stale, hs]
    have hlive : id ≠ m.nextId →
        (m.pushFrame code locals).frames.contains id = m.frames.contains id := by
      intro hne
      simp only [Table.contains, get?_pushFrame, if_neg hne]
    constructor
    · rintro ⟨hstands, hdead⟩
      exact ⟨Or.inr hstands, (hlive (hnew id hstands)).trans hdead⟩
    · rintro ⟨rfl | hstands, hdead⟩
      · simp [Table.contains, get?_pushFrame] at hdead
      · exact ⟨hstands, (hlive (hnew id hstands)).symm.trans hdead⟩

/-- A frame is taken from the places it may have. -/
theorem remove (h : m.Haunted ids) {id : FrameId} (stack : m'.stack = without m.stack id)
    (suspended : m'.suspended = without m.suspended id)
    (live : ∀ j, j ≠ id → m'.frames.contains j = m.frames.contains j) (same : m'.id = m.id)
    (next : m'.next = m.next) : m'.Haunted (without ids id) := by
  have hs : ∀ j, m'.Stands j ↔ m.Stands j ∧ j ≠ id := by
    intro j
    rw [Stands, stack, suspended, mem_without, mem_without, Stands, or_and_right]
  refine ⟨?_, ?_, ?_, ?_⟩
  · rw [stack]
    exact h.nodup.filter _
  · rw [stack, suspended]
    intro j hj hm
    exact h.parked j (mem_without.mp hj).1 (mem_without.mp hm).1
  · intro j hj
    rw [hasIssued_congr same next]
    exact h.issued j ((hs j).mp hj).1
  · intro j
    rw [mem_without, h.stale, hs]
    constructor
    · rintro ⟨⟨hstands, hdead⟩, hne⟩
      exact ⟨⟨hstands, hne⟩, (live j hne).trans hdead⟩
    · rintro ⟨⟨hstands, hne⟩, hdead⟩
      exact ⟨⟨hstands, (live j hne).symm.trans hdead⟩, hne⟩

theorem popFrame (h : m.Haunted ids) (id : FrameId) : (m.popFrame id).Haunted (without ids id) := by
  refine h.remove (leave_of_nodup h.nodup id) rfl ?_ rfl rfl
  intro j hj
  simp [Table.contains, Machine.popFrame, Machine.forget, Table.get?_erase, hj]

/-- A suspended frame loses its place. -/
theorem unpark (h : m.Haunted ids) {id : FrameId} (hi : id ∈ m.suspended) :
    Haunted { m with suspended := without m.suspended id } (without ids id) := by
  refine h.remove ?_ rfl (fun _ _ => rfl) rfl rfl
  refine (List.filter_eq_self.mpr fun j hj => ?_).symm
  have hne : j ≠ id := fun he => h.parked id hi (he ▸ hj)
  simpa using hne

/-- A frame without a place is forgotten. -/
theorem forget (h : m.Haunted ids) {id : FrameId} (off : ¬ m.Stands id) :
    (m.forget id).Haunted ids := by
  refine h.congr rfl rfl ?_ rfl rfl
  intro j hj
  have hne : j ≠ id := fun he => off (he ▸ hj)
  simp [Table.contains, Machine.forget, Table.get?_erase, hne]

/-- A frame that ran or waited waits; one that has ended is back. -/
theorem suspend (h : m.Haunted ids) {id : FrameId} (issued : m.hasIssued id = true) :
    (m.suspend id).Haunted (if m.frames.contains id then ids else ids.insert id) := by
  have hp : ∀ j, j ∈ (m.suspend id).suspended ↔ j = id ∨ j ∈ m.suspended := by
    intro j
    simp [Machine.suspend]
  have hs : ∀ j, (m.suspend id).Stands j ↔ j = id ∨ m.Stands j := by
    intro j
    have hm : j ∈ (m.suspend id).stack ↔ j ∈ m.stack ∧ j ≠ id := mem_without
    rw [Stands, hm, hp, Stands]
    by_cases hj : j = id <;> simp [hj]
  refine ⟨h.nodup.filter _, ?_, ?_, ?_⟩
  · intro j hj hm
    obtain ⟨hin, hne⟩ := mem_without.mp hm
    exact h.parked j (((hp j).mp hj).resolve_left hne) hin
  · intro j hj
    rcases (hs j).mp hj with rfl | hj
    · exact issued
    · exact h.issued j hj
  · intro j
    have hlive : (m.suspend id).frames.contains j = m.frames.contains j := rfl
    rw [hs, hlive]
    by_cases hid : m.frames.contains id = true
    · rw [if_pos hid, h.stale]
      refine and_congr_left fun hdead => (or_iff_right ?_).symm
      rintro rfl
      rw [hid] at hdead
      cases hdead
    · rw [if_neg hid, List.mem_insert_iff, h.stale, or_and_right]
      refine or_congr_left (iff_self_and.mpr ?_)
      rintro rfl
      simpa using hid

theorem wake (h : m.Haunted ids) {id : FrameId} (hi : id ∈ m.suspended) : (m.wake id).Haunted ids := by
  have hstack : (m.wake id).stack = id :: m.stack := rfl
  have hsuspended : (m.wake id).suspended = without m.suspended id := by simp [Machine.wake]
  have hs : ∀ j, (m.wake id).Stands j ↔ m.Stands j := by
    intro j
    rw [Stands, hstack, hsuspended, List.mem_cons, mem_without, Stands]
    by_cases hj : j = id
    · simp [hj, hi]
    · simp [hj]
  refine ⟨?_, ?_, ?_, ?_⟩
  · exact List.nodup_cons.mpr ⟨h.parked id hi, h.nodup⟩
  · rw [hstack, hsuspended]
    intro j hj hm
    obtain ⟨hin, hne⟩ := mem_without.mp hj
    exact h.parked j hin ((List.mem_cons.mp hm).resolve_left hne)
  · intro j hj
    rw [hasIssued_congr (m := m) (by simp [Machine.wake]) (by simp [Machine.wake])]
    exact h.issued j ((hs j).mp hj)
  · intro j
    have hlive : (m.wake id).frames.contains j = m.frames.contains j := by
      simp only [Table.contains, Machine.wake, get?_modifyFrame]
      by_cases hj : j = id <;> simp [hj]
    rw [h.stale, hs, hlive]

/-- Whatever changes in the frames, those that were live are live. -/
theorem of_spares (h : m.Haunted ids) (stack : m'.stack = m.stack)
    (suspended : m'.suspended = m.suspended) (spares : ∀ j, m.Spares m' j) (id : m'.id = m.id)
    (next : m'.next = m.next) : m'.Haunted ids := by
  refine h.congr stack suspended ?_ id next
  intro j _
  have hs := congrArg Option.isSome (spares j).standing
  simpa [standing, Table.contains] using hs

theorem before (h : m.Haunted ids) {op : Op FrameId} (applies : op.applies m = true) :
    (op.before m).Haunted (op.staleBefore ids) := by
  cases op with
  | enterModule code =>
    exact (h.pushFrame code (m.globalsOf code.file)).congr rfl rfl (fun _ _ => rfl) rfl rfl
  | call code args => exact h.pushFrame code _
  | setLocal id name value =>
    have hs := fun j => spares_setLocal m id j name value
    rw [Op.before]
    rw [setLocal_eq] at hs ⊢
    exact h.of_spares rfl rfl hs rfl rfl
  | setGlobal file name value =>
    have hs := fun j => spares_setGlobal m file name value j
    rw [Op.before]
    rw [setGlobal_eq] at hs ⊢
    exact h.of_spares rfl rfl hs rfl rfl
  | line id n | ret id value | unwind id | yieldValue id value => exact h.modifyFrame id _
  | resume id => exact h.wake (List.contains_iff_mem.mp applies)
  | discard id => exact h.unpark (List.contains_iff_mem.mp applies)
  | raise id e | traceFrame id | setTrace hook | pushTrace hook | popTrace =>
    exact h.congr rfl rfl (fun _ _ => rfl) rfl rfl

theorem heed (h : m.Haunted ids) (id : FrameId) (e : Event) (a : Answer) :
    (m.heed id e a).Haunted ids := by
  rw [heed_eq]
  exact h.congr rfl rfl (fun _ _ => rfl) rfl rfl

end Haunted

end Machine

namespace Op
open Machine
variable {m : Machine} {ids : List FrameId} {op : Op FrameId}

def IsReady (m : Machine) : Op FrameId → Prop
  | .discard f => ¬ m.Stands f
  | _ => True

theorem isReady_before (h : m.Haunted ids) (applies : op.applies m = true) :
    op.IsReady (op.before m) := by
  cases op with
  | discard id =>
    rintro (hm | hm)
    · exact h.parked id (List.contains_iff_mem.mp applies) hm
    · exact (mem_without.mp hm).2 rfl
  | _ => trivial

theorem haunted_after (h : m.Haunted ids) (ready : op.IsReady m) (issued : op.namesIssued m = true) :
    (op.after m).Haunted (op.staleAfter m ids) := by
  cases op with
  | ret id value | unwind id | raise id e => exact h.popFrame id
  | yieldValue id value => exact h.suspend issued
  | discard id => exact h.forget ready
  | _ => exact h

/-- Operations that report nothing end no frame and put none in place. -/
theorem staleAfter_of_quiet (event : op.event? m = none) (m' : Machine) :
    op.staleAfter m' ids = ids := by
  cases op with
  | ret id value | unwind id | raise id e | yieldValue id value => cases event
  | _ => rfl

/-- The end of a live frame leaves the ended ones as they stand. -/
theorem staleAfter_of_live (h : m.Haunted ids) {m₀ : Machine} {f : FrameId} {e : Event}
    (event : op.event? m₀ = some (f, e)) (live : m.frames.contains f = true) :
    op.staleAfter m ids = ids := by
  cases op with
  | ret id value | unwind id | raise id e =>
    cases event
    exact h.without_of_live live
  | yieldValue id value =>
    cases event
    exact if_pos live
  | _ => rfl

/-- Nothing lives or dies before the event of an end or of a yield. -/
theorem staleAfter_before (m : Machine) (ids : List FrameId) (op : Op FrameId) :
    op.staleAfter (op.before m) ids = op.staleAfter m ids := by
  cases op with
  | yieldValue id value =>
    have hlive : (m.setOpcode id (some .yieldValue)).frames.contains id = m.frames.contains id := by
      simp [Table.contains, setOpcode, get?_modifyFrame]
    exact congrArg (fun b => if b then ids else ids.insert id) hlive
  | _ => rfl

end Op

namespace Machine
variable {σ : Type} {deliver : Deliver σ} {m : Machine} {s : σ} {ids : List FrameId}
  {op : Op FrameId} {ops : List (Op FrameId)}

/-- A hook fails about a live frame only. -/
theorem live_of_panic {id : FrameId} {e : Event}
    (panics : (m.dispatch deliver s id e).panic.isSome = true) : m.frames.contains id = true := by
  unfold dispatch at panics
  split at panics
  next hf => simp [Table.contains, hf]
  · cases panics

/-- One operation, whether or not its hook fails. -/
theorem Haunted.step (h : m.Haunted ids) (issued : op.namesIssued m = true) :
    (m.step deliver s op).machine.Haunted (op.stale m ids) := by
  unfold Machine.step
  cases applies : op.applies m with
  | false =>
    rw [Op.stale_of_not_applies applies]
    exact h
  | true =>
    simp only [Bool.not_true, Bool.false_eq_true, if_false]
    have hb := h.before applies
    rw [Op.stale_of_applies applies, ← Op.staleAfter_before]
    cases he : op.event? m with
    | none =>
      rw [Op.staleAfter_of_quiet he]
      exact hb
    | some ev =>
      have hready := Op.isReady_before h applies
      have hissued := Op.namesIssued_before issued
      obtain ⟨a, ha⟩ := dispatch_machine deliver (op.before m) s ev.1 ev.2
      dsimp only
      split
      next panics =>
        rw [ha, Op.staleAfter_of_live hb he (live_of_panic panics)]
        exact hb.heed ev.1 ev.2 a
      · have hh := hb.heed ev.1 ev.2 a
        dsimp only
        rw [ha]
        rw [heed_eq] at hh ⊢
        exact Op.haunted_after hh hready hissued

/-- A whole run. -/
theorem Haunted.carryOn (h : m.Haunted ids) (issued : m.NamesIssued deliver s ops) :
    (m.carryOn deliver s ops).1.Haunted (m.staleAmong deliver s ids ops) := by
  induction ops generalizing m s ids with
  | nil => exact h
  | cons op ops ih => exact ih (h.step issued.1) issued.2

theorem carryOn_concat (deliver : Deliver σ) (m : Machine) (s : σ) (ops : List (Op FrameId))
    (op : Op FrameId) : m.carryOn deliver s (ops ++ [op]) =
      let x := m.carryOn deliver s ops
      ((x.1.step deliver x.2 op).machine, (x.1.step deliver x.2 op).state) := by
  induction ops generalizing m s with
  | nil => rfl
  | cons o ops ih => exact ih _ _

theorem staleAmong_concat (deliver : Deliver σ) (m : Machine) (s : σ) (ids : List FrameId)
    (ops : List (Op FrameId)) (op : Op FrameId) : m.staleAmong deliver s ids (ops ++ [op]) =
      op.stale (m.carryOn deliver s ops).1 (m.staleAmong deliver s ids ops) := by
  induction ops generalizing m s ids with
  | nil => rfl
  | cons o ops ih => exact ih _ _ _

def YieldsInTime (deliver : Deliver σ) (m : Machine) (s : σ) (ops : List (Op FrameId)) : Prop :=
  ∀ done f v, done ++ [.yieldValue f v] <+: ops →
    (m.carryOn deliver s done).1.frames.contains f = true

theorem Haunted.standsAlive_iff (h : m.Haunted ids) : m.StandsAlive ↔ ids = [] := by
  constructor
  · intro alive
    refine List.eq_nil_iff_forall_not_mem.mpr fun id hid => ?_
    obtain ⟨hstands, hdead⟩ := (h.stale id).mp hid
    rw [alive id hstands] at hdead
    cases hdead
  · rintro rfl id hstands
    cases hlive : m.frames.contains id with
    | true => rfl
    | false => cases (h.stale id).mpr ⟨hstands, hlive⟩

/-- Nothing but a late yield puts an ended frame in a place. -/
theorem stale_nil_iff : op.stale m [] = [] ↔
    ∀ f v, op = .yieldValue f v → m.frames.contains f = true := by
  cases op with
  | yieldValue f v =>
    by_cases hlive : m.frames.contains f = true <;> simp [Op.stale, hlive]
  | _ => simp [Op.stale, without]

theorem staleAmong_eq_nil (timely : m.YieldsInTime deliver s ops) :
    m.staleAmong deliver s [] ops = [] := by
  induction ops using List.reverseRecOn with
  | nil => rfl
  | append_singleton ops op ih =>
    have hops := ih fun done f v start => timely done f v (start.trans (List.prefix_append _ _))
    rw [staleAmong_concat, hops, stale_nil_iff]
    rintro f v rfl
    exact timely ops f v (List.prefix_refl _)

/-- Every frame that stands is live throughout the run exactly if none is yielded after its end. -/
theorem standsAlive_iff (fresh : m.IsNew) (issued : m.NamesIssued deliver s ops) :
    (∀ done, done <+: ops → (m.carryOn deliver s done).1.StandsAlive) ↔
      m.YieldsInTime deliver s ops := by
  have haunted : ∀ done, done <+: ops →
      (m.carryOn deliver s done).1.Haunted (m.staleAmong deliver s [] done) :=
    fun done start => fresh.haunted.carryOn (issued.prefix_of start)
  constructor
  · intro alive done f v start
    have hdone : done <+: ops := (List.prefix_append _ _).trans start
    have hbefore := (haunted done hdone).standsAlive_iff.mp (alive done hdone)
    have hafter := (haunted _ start).standsAlive_iff.mp (alive _ start)
    rw [staleAmong_concat, hbefore, stale_nil_iff] at hafter
    exact hafter f v rfl
  · intro timely done start
    refine (haunted done start).standsAlive_iff.mpr (staleAmong_eq_nil ?_)
    exact fun done' f v start' => timely done' f v (start'.trans start)

theorem StandsAlive.current (h : m.StandsAlive) {id : FrameId} (hid : m.current = some id) :
    m.frames.contains id = true :=
  h id (Or.inl (List.mem_of_mem_head? hid))

/-- A new frame links back to the one that ran, whatever the hook makes of its call. -/
theorem back_of_birth (birth : op.isBirth = true) (deliver : Deliver σ) (m : Machine) (s : σ) :
    ∃ f, (m.step deliver s op).machine.frames.get? m.nextId = some f ∧ f.back = m.current := by
  have hbefore : ∃ f, (op.before m).frames.get? m.nextId = some f ∧ f.back = m.current := by
    cases op with
    | enterModule code | call code args => exact ⟨_, (get?_pushFrame m code _ _).trans (if_pos rfl), rfl⟩
    | _ => cases birth
  have hframes : (m.step deliver s op).machine.frames = (op.before m).frames := by
    have hd := dispatch_machine deliver (op.before m) s m.nextId .call
    unfold Machine.step
    cases op with
    | enterModule code | call code args =>
      obtain ⟨a, ha⟩ := hd
      simp only [Op.applies, Op.event?, Op.after, Bool.not_true, Bool.false_eq_true, if_false, ite_self]
      rw [ha, heed_eq]
    | _ => cases birth
  rw [hframes]
  exact hbefore

/-- Any operations on a new machine, under any hooks and with handles of any frames. The frames that run
or are suspended after their end are those that were yielded then and were not ended or dropped again.
So all are live throughout exactly if no frame is yielded after its end; then the current frame is live,
and every new frame links back to a live one. -/
theorem ended_frames_stand_by_late_yields (fresh : m.IsNew) (issued : m.NamesIssued deliver s ops) :
    (∀ id, ((m.carryOn deliver s ops).1.Stands id ∧
        (m.carryOn deliver s ops).1.frames.contains id = false) ↔
      id ∈ m.staleAmong deliver s [] ops) ∧
    ((∀ done, done <+: ops → (m.carryOn deliver s done).1.StandsAlive) ↔
      m.YieldsInTime deliver s ops) ∧
    (m.YieldsInTime deliver s ops → ∀ done op, done ++ [op] <+: ops →
      let before := (m.carryOn deliver s done).1
      (∀ id, before.current = some id → before.frames.contains id = true) ∧
      (op.isBirth = true → ∃ f,
        (m.carryOn deliver s (done ++ [op])).1.frames.get? before.nextId = some f ∧
        f.back = before.current ∧ ∀ j, f.back = some j → before.frames.contains j = true)) := by
  have hiff := standsAlive_iff fresh issued
  refine ⟨?_, hiff, ?_⟩
  · intro id
    exact ((fresh.haunted.carryOn issued).stale id).symm
  · intro timely done op start
    have halive := hiff.mpr timely done ((List.prefix_append _ _).trans start)
    refine ⟨fun id hid => halive.current hid, fun birth => ?_⟩
    rw [carryOn_concat]
    obtain ⟨f, hf, hback⟩ := back_of_birth birth deliver (m.carryOn deliver s done).1
      (m.carryOn deliver s done).2
    exact ⟨f, hf, hback, fun j hj => halive.current (hback ▸ hj)⟩

def lateYieldOps : List (Op FrameId) :=
  let file : Path := ⟨"/w/p.py"⟩
  [.call ⟨"f", file, 1⟩ [], .ret ⟨0, 0⟩ (.int 1), .yieldValue ⟨0, 0⟩ (.int 2), .resume ⟨0, 0⟩,
    .call ⟨"g", file, 4⟩ []]

/-- Here every call fails in the hook. -/
theorem ended_frames_stand_by_late_yields_of_failing_calls :
    let deliver : Deliver Unit := fun _ ctx s =>
      (if ctx.event.isCall then .panicked "hook failed" else .proceed, s)
    let ops := .setTrace (some "hook") :: lateYieldOps
    IsNew { id := 0 } ∧ NamesIssued deliver { id := 0 } () ops ∧
      ∀ id, ((carryOn deliver { id := 0 } () ops).1.Stands id ∧
        (carryOn deliver { id := 0 } () ops).1.frames.contains id = false) ↔ id = ⟨0, 0⟩ := by
  intro deliver ops
  have hnew : IsNew { id := 0 } := ⟨⟨rfl, rfl, rfl, rfl⟩, rfl, rfl⟩
  have hissued : NamesIssued deliver { id := 0 } () ops := by decide +kernel
  refine ⟨hnew, hissued, fun id => ?_⟩
  have hstale : staleAmong deliver { id := 0 } () [] ops = [⟨0, 0⟩] := by decide +kernel
  rw [(ended_frames_stand_by_late_yields hnew hissued).1 id, hstale, List.mem_singleton]

/-- The frame that runs has ended, and the new one links back to it. -/
theorem ended_frame_runs_again :
    let m := (carryOn (fun _ _ s => (.proceed, s)) { id := 0 } () (lateYieldOps.take 4)).1
    let m' := (carryOn (fun _ _ s => (.proceed, s)) { id := 0 } () lateYieldOps).1
    NamesIssued (fun _ _ s => (.proceed, s)) { id := 0 } () lateYieldOps ∧
      m.current = some ⟨0, 0⟩ ∧ m.frames.contains ⟨0, 0⟩ = false ∧
      (m'.frames.get? ⟨0, 1⟩).map Frame.back = some (some ⟨0, 0⟩) ∧
      m'.frames.contains ⟨0, 0⟩ = false := by
  decide +kernel

end Machine
end SelectiveTrace
