import SelectiveTrace.Proofs.Tracer.Region

/-! What a session keeps for single frames, and which frames it keeps anything for. Every change that
an event of a frame makes touches that frame alone. -/
namespace SelectiveTrace

namespace Table
variable {κ α : Type} [DecidableEq κ]

theorem mem_keys {t : Table κ α} {k : κ} : k ∈ t.keys ↔ t.contains k = true := by
  simp [keys, contains, get?, List.find?_isSome]

theorem keys_eq_nil {t : Table κ α} (h : ∀ k, t.contains k = false) : t.keys = [] := by
  refine List.eq_nil_iff_forall_not_mem.mpr ?_
  intro k hk
  rw [mem_keys, h k] at hk
  cases hk

theorem contains_insert (t : Table κ α) (k j : κ) (v : α) :
    (t.insert k v).contains j = (decide (j = k) || t.contains j) := by
  unfold contains
  rw [get?_insert]
  by_cases h : j = k <;> simp [h]

theorem contains_erase (t : Table κ α) (k j : κ) :
    (t.erase k).contains j = (!decide (j = k) && t.contains j) := by
  unfold contains
  rw [get?_erase]
  by_cases h : j = k <;> simp [h]

theorem erase_of_absent {t : Table κ α} {k : κ} (h : t.contains k = false) : t.erase k = t := by
  have hk : ∀ e ∈ t.entries, e.1 ≠ k := by
    intro e he hek
    have hm : k ∈ t.keys := List.mem_map.mpr ⟨e, he, hek⟩
    rw [mem_keys, h] at hm
    cases hm
  unfold erase
  rw [List.filter_eq_self.mpr fun e he => by simpa using hk e he]

theorem get?_insertNew_of_ne (t : Table κ α) {k j : κ} (v : α) (h : j ≠ k) :
    (t.insertNew k v).get? j = t.get? j := by
  unfold insertNew
  split
  · rfl
  · exact get?_insert_of_ne t v h

end Table

namespace Session
variable {s s' s'' : Session} {id j : FrameId}

def Remembers (s : Session) (id : FrameId) : Prop :=
  id ∈ s.targetFrames ∨ s.snapshots.contains id = true ∨ s.lineHits.contains id = true ∨
    s.timers.contains id = true

instance (s : Session) (id : FrameId) : Decidable (s.Remembers id) :=
  inferInstanceAs (Decidable (_ ∨ _))

/-- A session that remembers no frame counts none. -/
theorem trackedFrames_of_forgotten (h : ∀ id, ¬ s.Remembers id) :
    s.trackedFrames = 0 ∧ s.targetFrames = [] := by
  have none : ∀ id, s.snapshots.contains id = false ∧ s.lineHits.contains id = false ∧
      s.timers.contains id = false := by
    intro id
    have hn := h id
    simp only [Remembers, not_or, Bool.not_eq_true] at hn
    exact hn.2
  refine ⟨?_, ?_⟩
  · unfold trackedFrames
    rw [Table.keys_eq_nil fun k => (none k).1, Table.keys_eq_nil fun k => (none k).2.1,
      Table.keys_eq_nil fun k => (none k).2.2]
    rfl
  · exact List.eq_nil_iff_forall_not_mem.mpr fun id hm => h id (Or.inl hm)

theorem not_remembers_evict (h : id ∉ s.targetFrames) : ¬ (s.evict id).Remembers id := by
  simp [Remembers, evict, h, Table.contains_erase]

theorem evict_of_forgotten (h : ¬ s.Remembers id) : s.evict id = s := by
  simp only [Remembers, not_or, Bool.not_eq_true] at h
  unfold evict
  rw [Table.erase_of_absent h.2.1, Table.erase_of_absent h.2.2.1, Table.erase_of_absent h.2.2.2]

theorem detach_of_forgotten (h : ¬ s.Remembers id) : s.detach id = s := by
  have hm : id ∉ s.targetFrames := fun hm => h (Or.inl hm)
  unfold detach
  rw [List.filter_eq_self.mpr]
  intro k hk
  have hne : k ≠ id := fun he => hm (he ▸ hk)
  simpa using hne

structure Touches (s s' : Session) (id : FrameId) : Prop extends Besides s s' id where
  snapshots : ∀ j, j ≠ id → s'.snapshots.get? j = s.snapshots.get? j
  timers : ∀ j, j ≠ id → s'.timers.get? j = s.timers.get? j

theorem Touches.refl (s : Session) (id : FrameId) : Touches s s id :=
  ⟨Besides.refl s id, fun _ _ => rfl, fun _ _ => rfl⟩

theorem Touches.trans (h : Touches s s' id) (h' : Touches s' s'' id) : Touches s s'' id :=
  ⟨h.toBesides.trans h'.toBesides, fun k hk => (h'.snapshots k hk).trans (h.snapshots k hk),
    fun k hk => (h'.timers k hk).trans (h.timers k hk)⟩

theorem Touches.remembers (h : Touches s s' id) (hj : j ≠ id) : s'.Remembers j ↔ s.Remembers j := by
  unfold Remembers Table.contains
  rw [h.attached j hj, h.snapshots j hj, h.hits j hj, h.timers j hj]

theorem touches_detach (s : Session) (id : FrameId) : Touches s (s.detach id) id :=
  ⟨besides_detach s id, fun _ _ => rfl, fun _ _ => rfl⟩

theorem touches_setDepth (s : Session) (thread : Nat) (n : Int) (id : FrameId) :
    Touches s (s.setDepth thread n) id :=
  ⟨⟨rfl, fun _ _ => Iff.rfl, fun _ _ => rfl⟩, fun _ _ => rfl, fun _ _ => rfl⟩

theorem touches_adjustDepth (s : Session) (thread : Nat) (n : Int) (id : FrameId) :
    Touches s (s.adjustDepth thread n) id :=
  touches_setDepth s thread _ id

theorem touches_evict (s : Session) (id : FrameId) : Touches s (s.evict id) id :=
  ⟨(keeps_evict s id).besides, fun _ hj => Table.get?_erase_of_ne _ hj,
    fun _ hj => Table.get?_erase_of_ne _ hj⟩

theorem touches_recordHit (s : Session) (id : FrameId) (line : Nat) :
    Touches s (s.recordHit id line) id :=
  ⟨(keeps_recordHit s id line).besides, fun _ _ => rfl, fun _ _ => rfl⟩

theorem touches_diff (s : Session) (id : FrameId) (vars : List (String × String)) :
    Touches s (s.diff id vars).2 id :=
  ⟨⟨rfl, fun _ _ => Iff.rfl, fun _ _ => rfl⟩, fun _ hj => Table.get?_insert_of_ne _ _ hj,
    fun _ _ => rfl⟩

theorem touches_attach (s : Session) (id : FrameId) : Touches s (s.attach id) id :=
  ⟨besides_attach s id, fun _ _ => rfl, fun _ _ => rfl⟩

theorem touches_startTimer (s : Session) (id : FrameId) (now : Nat) :
    Touches s (s.startTimer id now) id :=
  ⟨⟨rfl, fun _ _ => Iff.rfl, fun _ _ => rfl⟩, fun _ _ => rfl,
    fun _ hj => Table.get?_insertNew_of_ne _ _ hj⟩

end Session

namespace Tracer

theorem touches_activate (s : Session) (now : Nat) (f : Frame) (isFirst : Bool) :
    s.Touches (activate s now f isFirst) f.id := by
  have h := (Session.touches_attach s f.id).trans
    (Session.touches_startTimer (s.attach f.id) f.id now)
  unfold activate
  cases isFirst with
  | false => exact h
  | true => exact h.trans (Session.touches_setDepth _ f.thread.id 0 f.id)

/-- A frame that is deactivated is forgotten. -/
theorem touches_deactivate (s : Session) (f : Frame) :
    s.Touches (deactivate s f) f.id ∧ ¬ (deactivate s f).Remembers f.id := by
  have h₁ := Session.touches_adjustDepth s f.thread.id (-1) f.id
  have h₂ := Session.touches_detach (s.adjustDepth f.thread.id (-1)) f.id
  refine ⟨(h₁.trans h₂).trans (Session.touches_evict _ f.id), ?_⟩
  exact Session.not_remembers_evict fun h => (Session.mem_detach.mp h).2 rfl

end Tracer
end SelectiveTrace
