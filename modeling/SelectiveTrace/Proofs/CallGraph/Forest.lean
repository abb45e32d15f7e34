import SelectiveTrace.Proofs.Tracer.Verdict

/-! The forest of the calls that were shown. It grows with the operations of the machine alone: a call
begins when it is shown, inside the shown calls that run at that time, and ends when its activation
does. -/
namespace SelectiveTrace

inductive Ending where
  | value (v : Value)
  | brokenOff

def Op.ending (op : Op FrameId) : Ending :=
  match op.result? with
  | some v => .value v
  | none => .brokenOff

/-- A call that was shown: its file, the numbers of the calls around it, the innermost first, and its
end, if it has ended. -/
structure Call where
  file : Path
  enclosing : List Nat
  ending? : Option Ending

/-- The calls in the order they were shown, and the activations that run, the innermost first, each
with the number of its call if that was shown. -/
structure Forest where
  calls : List Call := []
  active : List (Option Nat) := []

def Tracer.isShown (t : Tracer) (w : Surroundings) (ctx : Context) : Bool :=
  match (t.decide w ctx).1 with
  | .show_ _ => true
  | .skip | .ignore | .overflow => false

namespace Forest

def running (F : Forest) : List Nat :=
  F.active.filterMap id

def enter (F : Forest) (file : Path) (shown : Bool) : Forest :=
  if shown then
    { calls := F.calls ++ [⟨file, F.running, none⟩], active := some F.calls.length :: F.active }
  else { F with active := none :: F.active }

def leave (F : Forest) (e : Ending) : Forest :=
  match F.active with
  | [] => F
  | none :: rest => { F with active := rest }
  | some i :: rest =>
    { calls := F.calls.modify i fun c => { c with ending? := some e }, active := rest }

def after (F : Forest) (m : Machine) (s : Tracer × Surroundings) (op : Op FrameId) : Forest :=
  match op.event? m with
  | some (id, .call) =>
    match (op.before m).frames.get? id with
    | some f => F.enter f.file (s.1.isShown s.2 ((op.before m).context f .call))
    | none => F
  | some (_, .ret _) | some (_, .exception _) => F.leave op.ending
  | some (_, .line) | some (_, .discard) | none => F

def grow : Machine → Tracer × Surroundings → List (Op FrameId) → Forest → Forest
  | _, _, [], F => F
  | m, s, op :: ops, F =>
    grow (m.step Tracer.deliver s op).machine (m.step Tracer.deliver s op).state ops
      (F.after m s op)

def around? (F : Forest) (i : Nat) : Option (List Nat) :=
  F.calls[i]?.map Call.enclosing

def IsOpen (F : Forest) (i : Nat) : Prop :=
  ∃ c, F.calls[i]? = some c ∧ c.ending? = none

structure IsNested (F : Forest) : Prop where
  nodup : F.running.Nodup
  isOpen : ∀ i, i ∈ F.running ↔ F.IsOpen i
  around : ∀ i rest, i :: rest <:+ F.running → F.around? i = some rest
  /-- Whatever began after a call in progress lies inside it. -/
  inside : ∀ i rest, i :: rest <:+ F.running → ∀ j outer, i < j → F.around? j = some outer →
    rest.length < outer.length
  /-- The innermost call around another one is the last call before it on the level above. -/
  parent : ∀ i p rest, F.around? i = some (p :: rest) →
    p < i ∧ F.around? p = some rest ∧
      ∀ j outer, p < j → j < i → F.around? j = some outer → rest.length < outer.length

theorem isNested_empty : ({} : Forest).IsNested := by
  refine ⟨List.nodup_nil, ?_, ?_, ?_, ?_⟩
  · intro i
    simp [running, IsOpen]
  · intro i rest h
    simp [running] at h
  · intro i rest h
    simp [running] at h
  · intro i p rest h
    simp [around?] at h

section
variable {F F' : Forest}

theorem IsNested.lt_length (h : F.IsNested) {i : Nat} (hi : i ∈ F.running) :
    i < F.calls.length := by
  obtain ⟨c, hc, -⟩ := (h.isOpen i).mp hi
  exact (List.getElem?_eq_some_iff.mp hc).1

theorem around?_enter (F : Forest) (file : Path) (i : Nat) :
    (F.enter file true).around? i =
      if i = F.calls.length then some F.running else F.around? i := by
  unfold around? enter
  simp only [if_true, List.getElem?_append]
  by_cases hi : i < F.calls.length
  · simp [hi, Nat.ne_of_lt hi]
  · by_cases he : i = F.calls.length
    · simp [he]
    · have hs : 0 < i - F.calls.length := by omega
      rw [List.getElem?_eq_none (l := F.calls) (by omega)]
      simp [hi, he, Nat.ne_of_gt hs]

theorem around?_lt {i : Nat} {outer : List Nat} (h : F.around? i = some outer) :
    i < F.calls.length := by
  obtain ⟨c, hc, -⟩ := Option.map_eq_some_iff.mp h
  exact (List.getElem?_eq_some_iff.mp hc).1

theorem running_enter (F : Forest) (file : Path) (shown : Bool) :
    (F.enter file shown).running = if shown then F.calls.length :: F.running else F.running := by
  unfold enter running
  cases shown <;> simp

theorem isOpen_enter (F : Forest) (file : Path) (i : Nat) :
    (F.enter file true).IsOpen i ↔ i = F.calls.length ∨ F.IsOpen i := by
  unfold IsOpen enter
  simp only [if_true, List.getElem?_append]
  by_cases hi : i < F.calls.length
  · simp [hi, Nat.ne_of_lt hi]
  · by_cases he : i = F.calls.length
    · simp [he]
    · have hs : 0 < i - F.calls.length := by omega
      simp [hi, he, Nat.ne_of_gt hs]

theorem IsNested.enter (h : F.IsNested) (file : Path) (shown : Bool) :
    (F.enter file shown).IsNested := by
  cases shown with
  | false =>
    exact ⟨h.nodup, h.isOpen, h.around, h.inside, h.parent⟩
  | true =>
    have hr : (F.enter file true).running = F.calls.length :: F.running := running_enter F file true
    have hn : F.calls.length ∉ F.running := fun hm => Nat.lt_irrefl _ (h.lt_length hm)
    refine ⟨?_, ?_, ?_, ?_, ?_⟩
    · rw [hr]
      exact List.nodup_cons.mpr ⟨hn, h.nodup⟩
    · intro i
      rw [hr, isOpen_enter, List.mem_cons, h.isOpen]
    · intro i rest hs
      rw [hr, List.suffix_cons_iff] at hs
      rw [around?_enter]
      rcases hs with hs | hs
      · obtain ⟨rfl, rfl⟩ := List.cons.inj hs
        simp
      · have hi := h.lt_length (hs.mem List.mem_cons_self)
        rw [if_neg (Nat.ne_of_lt hi)]
        exact h.around i rest hs
    · intro i rest hs j outer hij hj
      rw [around?_enter] at hj
      rw [hr, List.suffix_cons_iff] at hs
      rcases hs with hs | hs
      · obtain ⟨rfl, rfl⟩ := List.cons.inj hs
        rw [if_neg (Nat.ne_of_gt hij)] at hj
        exact absurd (around?_lt hj) (by omega)
      · split at hj
        · cases hj
          have hl := hs.length_le
          rw [List.length_cons] at hl
          omega
        · exact h.inside i rest hs j outer hij hj
    · intro i p rest hi
      rw [around?_enter] at hi
      split at hi
      next he =>
        have hp : p :: rest <:+ F.running := Option.some.inj hi ▸ List.suffix_rfl
        have hlt := h.lt_length (hp.mem List.mem_cons_self)
        refine ⟨he ▸ hlt, ?_, ?_⟩
        · rw [around?_enter, if_neg (Nat.ne_of_lt hlt)]
          exact h.around p rest hp
        · intro j outer hpj hji hj
          rw [around?_enter, if_neg (by omega)] at hj
          exact h.inside p rest hp j outer hpj hj
      next =>
        have hlt := around?_lt hi
        obtain ⟨hp, hr, hb⟩ := h.parent i p rest hi
        refine ⟨hp, ?_, ?_⟩
        · rw [around?_enter, if_neg (by omega)]
          exact hr
        · intro j outer hpj hji hj
          rw [around?_enter, if_neg (by omega)] at hj
          exact hb j outer hpj hji hj

theorem around?_leave (F : Forest) (e : Ending) (i : Nat) :
    (F.leave e).around? i = F.around? i := by
  unfold leave
  split
  · rfl
  · rfl
  · unfold around?
    simp only [List.getElem?_modify]
    cases F.calls[i]? with
    | none => rfl
    | some c =>
      simp only [Option.map_some]
      split <;> rfl

theorem running_leave (F : Forest) (e : Ending) : (F.leave e).running <:+ F.running := by
  unfold leave
  split
  · exact List.suffix_rfl
  next rest hrest =>
    simp [running, hrest]
  next i rest hrest =>
    simp [running, hrest]

theorem isOpen_leave_some {i : Nat} {rest : List (Option Nat)} (hrest : F.active = some i :: rest)
    (e : Ending) (j : Nat) : (F.leave e).IsOpen j ↔ j ≠ i ∧ F.IsOpen j := by
  unfold IsOpen leave
  rw [hrest]
  simp only [List.getElem?_modify]
  by_cases hj : i = j
  · subst hj
    simp
  · simp [hj, Ne.symm hj]

theorem IsNested.leave (h : F.IsNested) (e : Ending) : (F.leave e).IsNested := by
  have hs := running_leave F e
  refine ⟨h.nodup.sublist hs.sublist, ?_, ?_, ?_, ?_⟩
  · intro j
    cases hrest : F.active with
    | nil =>
      have he : F.leave e = F := by
        unfold Forest.leave
        rw [hrest]
      rw [he]
      exact h.isOpen j
    | cons a rest =>
      cases a with
      | none =>
        have he : F.leave e = { F with active := rest } := by
          unfold Forest.leave
          rw [hrest]
        have hr : ({ F with active := rest } : Forest).running = F.running := by
          simp [running, hrest]
        rw [he, hr]
        exact h.isOpen j
      | some i =>
        have hr : F.running = i :: rest.filterMap id := by
          simp [running, hrest]
        have hl : (F.leave e).running = rest.filterMap id := by
          unfold Forest.leave running
          rw [hrest]
        have hn := h.nodup
        rw [hr] at hn
        have hi := (List.nodup_cons.mp hn).1
        rw [isOpen_leave_some hrest, ← h.isOpen, hl, hr, List.mem_cons]
        constructor
        · intro hj
          exact ⟨fun he => hi (he ▸ hj), Or.inr hj⟩
        · rintro ⟨hne, hj⟩
          exact hj.resolve_left hne
  · intro i rest hi
    rw [around?_leave]
    exact h.around i rest (hi.trans hs)
  · intro i rest hi j outer hij hj
    rw [around?_leave] at hj
    exact h.inside i rest (hi.trans hs) j outer hij hj
  · intro i p rest hi
    rw [around?_leave] at hi
    obtain ⟨hp, hr, hb⟩ := h.parent i p rest hi
    refine ⟨hp, (around?_leave F e p).trans hr, ?_⟩
    intro j outer hpj hji hj
    rw [around?_leave] at hj
    exact hb j outer hpj hji hj

theorem IsNested.after (h : F.IsNested) (m : Machine) (s : Tracer × Surroundings)
    (op : Op FrameId) : (F.after m s op).IsNested := by
  unfold Forest.after
  split
  · split
    · exact h.enter _ _
    · exact h
  · exact h.leave _
  · exact h.leave _
  · exact h
  · exact h
  · exact h

end
end Forest
end SelectiveTrace
