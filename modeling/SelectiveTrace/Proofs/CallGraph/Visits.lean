import SelectiveTrace.Proofs.Tracer.Region

/-! The visits of frames to an observed region. A visit is one activation, from its call to its end; a
generator that is resumed makes another one. Where the calls, lines and ends of a visit happen tells
which of its events open and shut a node. -/
namespace SelectiveTrace

structure Visit where
  frame : FrameId
  file : Path
  /-- The call is made inside the region. -/
  entered : Bool
  /-- Tracing is handed on to the call from below. -/
  handed : Bool
  /-- A line inside the region has run, heard or not. -/
  ran : Bool := false
  /-- The call, or a line inside the region, was heard there. -/
  met : Bool := entered
  /-- Where the activation has ended, if it has: inside the region or outside. -/
  left? : Option Bool := none
  /-- The generator was dropped afterwards, and that was heard. -/
  dropped : Bool := false

namespace Visit

def opened (v : Visit) : Bool :=
  v.entered || v.handed

def shut (v : Visit) : Bool :=
  v.left?.any fun inside => if v.met then inside else v.opened

def pass (v : Visit) (inside heard : Bool) : Visit :=
  { v with ran := v.ran || inside, met := v.met || (inside && heard) }

def leave (v : Visit) (inside : Bool) : Visit :=
  { v with left? := some inside }

def drop (v : Visit) (heard : Bool) : Visit :=
  { v with dropped := v.dropped || heard }

def amend (id : FrameId) (change : Visit → Visit) : List Visit → List Visit
  | [] => []
  | v :: vs => if v.frame = id then change v :: vs else v :: amend id change vs

def of (id : FrameId) (V : List Visit) : List Visit :=
  V.filter fun v => v.frame = id

def shown (V : List Visit) : List Visit :=
  V.reverse.filter opened

def leavesOpen : List Visit → Bool
  | [] => false
  | v :: vs => (v.opened || leavesOpen vs) && !v.shut && !v.dropped

def IsMatched : List Visit → Prop
  | [] => True
  | v :: vs => IsMatched vs ∧ (v.shut = true → v.opened = true ∨ leavesOpen vs = true)

def IsKept : List Visit → Prop
  | [] => True
  | v :: vs => IsKept vs ∧ (v.opened = true → leavesOpen vs = false)

instance decidableIsMatched : (vs : List Visit) → Decidable (IsMatched vs)
  | [] => inferInstanceAs (Decidable True)
  | v :: vs =>
    have := decidableIsMatched vs
    inferInstanceAs (Decidable (IsMatched vs ∧
      (v.shut = true → v.opened = true ∨ leavesOpen vs = true)))

instance decidableIsKept : (vs : List Visit) → Decidable (IsKept vs)
  | [] => inferInstanceAs (Decidable True)
  | v :: vs =>
    have := decidableIsKept vs
    inferInstanceAs (Decidable (IsKept vs ∧ (v.opened = true → leavesOpen vs = false)))

def after (r : Region) (m : Machine) (s : Tracer × Surroundings) (op : Op FrameId)
    (V : List Visit) : List Visit :=
  match op.event? m with
  | none => V
  | some (id, e) =>
    match (op.before m).frames.get? id with
    | none => V
    | some f =>
      let inside := r.surrounds f
      let heard := (op.before m).hears id e
      match e with
      | .call =>
        { frame := id, file := f.file, entered := inside
          handed := s.1.handsOn r (Tracer.levels s.1.config) (m.framesAt m.stack) } :: V
      | .line => amend id (·.pass inside heard) V
      | .ret _ | .exception _ => amend id (·.leave inside) V
      | .discard => amend id (·.drop heard) V

def during (r : Region) : Machine → Tracer × Surroundings → List (Op FrameId) → List Visit →
    List Visit
  | _, _, [], V => V
  | m, s, op :: ops, V =>
    during r (m.step Tracer.deliver s op).machine (m.step Tracer.deliver s op).state ops
      (after r m s op V)

theorem shut_of_running {v : Visit} (running : v.left? = none) : v.shut = false := by
  unfold shut
  rw [running]
  rfl

structure SparesCall (change : Visit → Visit) : Prop where
  frame : ∀ v, (change v).frame = v.frame
  file : ∀ v, (change v).file = v.file
  opened : ∀ v, (change v).opened = v.opened

theorem sparesCall_pass (inside heard : Bool) : SparesCall (·.pass inside heard) :=
  ⟨fun _ => rfl, fun _ => rfl, fun _ => rfl⟩

theorem sparesCall_leave (inside : Bool) : SparesCall (·.leave inside) :=
  ⟨fun _ => rfl, fun _ => rfl, fun _ => rfl⟩

theorem sparesCall_drop (heard : Bool) : SparesCall (·.drop heard) :=
  ⟨fun _ => rfl, fun _ => rfl, fun _ => rfl⟩

section
variable {id : FrameId} {change : Visit → Visit} {V vs : List Visit} {v : Visit}

theorem of_cons_self (v : Visit) (V : List Visit) : of v.frame (v :: V) = v :: of v.frame V := by
  simp [of]

theorem of_cons_of_ne (h : v.frame ≠ id) (V : List Visit) : of id (v :: V) = of id V := by
  simp [of, h]

theorem of_amend (hc : SparesCall change) (h : of id V = v :: vs) :
    of id (amend id change V) = change v :: vs := by
  induction V with
  | nil => cases h
  | cons u V ih =>
    unfold amend
    by_cases hu : u.frame = id
    · subst hu
      rw [of_cons_self] at h
      obtain ⟨rfl, rfl⟩ := List.cons.inj h
      rw [if_pos rfl, ← hc.frame u, of_cons_self, hc.frame]
    · rw [of_cons_of_ne hu] at h
      rw [if_neg hu, of_cons_of_ne hu]
      exact ih h

theorem of_amend_of_ne (hc : SparesCall change) {j : FrameId} (hj : j ≠ id) (V : List Visit) :
    of j (amend id change V) = of j V := by
  induction V with
  | nil => rfl
  | cons u V ih =>
    unfold amend
    by_cases hu : u.frame = id
    · have hne : u.frame ≠ j := fun he => hj (he.symm.trans hu)
      rw [if_pos hu, of_cons_of_ne hne, of_cons_of_ne (by rwa [hc.frame])]
    · rw [if_neg hu]
      by_cases he : u.frame = j
      · subst he
        rw [of_cons_self, of_cons_self, ih]
      · rw [of_cons_of_ne he, of_cons_of_ne he, ih]

theorem amend_of_nil (h : of id V = []) : amend id change V = V := by
  induction V with
  | nil => rfl
  | cons u V ih =>
    have hu : u.frame ≠ id := by
      rintro rfl
      rw [of_cons_self] at h
      cases h
    rw [of_cons_of_ne hu] at h
    rw [amend, if_neg hu, ih h]

theorem amend_drop_false (id : FrameId) (V : List Visit) : amend id (·.drop false) V = V := by
  induction V with
  | nil => rfl
  | cons u V ih =>
    unfold amend
    by_cases hu : u.frame = id
    · rw [if_pos hu]
      simp [drop]
    · rw [if_neg hu, ih]

theorem forall_amend {P : Visit → Prop} (h : ∀ v ∈ V, P v)
    (hchange : ∀ v ∈ V, v.frame = id → P v → P (change v)) : ∀ v ∈ amend id change V, P v := by
  induction V with
  | nil => exact fun v hv => absurd hv List.not_mem_nil
  | cons u V ih =>
    obtain ⟨hu, hV⟩ := List.forall_mem_cons.mp h
    unfold amend
    by_cases he : u.frame = id
    · rw [if_pos he]
      exact List.forall_mem_cons.mpr ⟨hchange u List.mem_cons_self he hu, hV⟩
    · rw [if_neg he]
      refine List.forall_mem_cons.mpr ⟨hu, ih hV ?_⟩
      exact fun v hv => hchange v (List.mem_cons_of_mem _ hv)

/-- The calls shown stay as they are. -/
theorem map_shown_amend (hc : SparesCall change) (V : List Visit) :
    (shown (amend id change V)).map file = (shown V).map file := by
  induction V with
  | nil => rfl
  | cons u V ih =>
    unfold shown at ih ⊢
    unfold amend
    by_cases he : u.frame = id
    · rw [if_pos he]
      cases ho : u.opened <;> simp [ho, hc.opened, hc.file]
    · rw [if_neg he]
      simp only [List.reverse_cons, List.filter_append, List.map_append, ih]

end

end Visit
end SelectiveTrace
