import SelectiveTrace.Proofs.Host.Turn

/-! What the hooks of a machine hear in a run. The state that they share changes by the events heard
and by nothing else. -/
namespace SelectiveTrace
namespace Machine
variable {σ : Type}

def heardOf? (m : Machine) (id : FrameId) (e : Event) : Option (HookName × Context) := do
  let hook ← m.hook
  let frame ← m.frames.get? id
  if m.hears id e then some (hook, m.context frame e) else none

def heardBy? (m : Machine) (op : Op FrameId) : Option (HookName × Context) :=
  if op.applies m then (op.event? m).bind fun ev => (op.before m).heardOf? ev.1 ev.2 else none

/-- All that is behind it when an operation is heard of. -/
theorem heardBy?_cases {m : Machine} {op : Op FrameId} {hook : HookName} {ctx : Context}
    (heard : m.heardBy? op = some (hook, ctx)) :
    op.applies m = true ∧ ∃ id f, op.event? m = some (id, ctx.event) ∧
      (op.before m).hook = some hook ∧ (op.before m).frames.get? id = some f ∧
      (op.before m).hears id ctx.event = true ∧ ctx = (op.before m).context f ctx.event := by
  unfold heardBy? at heard
  split at heard
  next applies =>
    obtain ⟨⟨id, e⟩, event, heard⟩ := Option.bind_eq_some_iff.mp heard
    unfold heardOf? at heard
    obtain ⟨hook', installed, heard⟩ := Option.bind_eq_some_iff.mp heard
    obtain ⟨f, live, heard⟩ := Option.bind_eq_some_iff.mp heard
    split at heard
    next hears =>
      cases heard
      exact ⟨applies, id, f, event, installed, live, hears, rfl⟩
    next => cases heard
  next => cases heard

def heard (deliver : Deliver σ) : Machine → σ → List (Op FrameId) → List (HookName × Context)
  | _, _, [] => []
  | m, s, op :: ops =>
    let r := m.step deliver s op
    (m.heardBy? op).toList ++
      if r.panic.isSome then [] else heard deliver r.machine r.state ops

theorem length_heard_le (deliver : Deliver σ) (m : Machine) (s : σ) (ops : List (Op FrameId)) :
    (m.heard deliver s ops).length ≤ ops.length := by
  induction ops generalizing m s with
  | nil => exact Nat.le_refl _
  | cons op ops ih =>
    have hfirst : (m.heardBy? op).toList.length ≤ 1 := by
      cases m.heardBy? op <;> simp
    have hrest := ih (m.step deliver s op).machine (m.step deliver s op).state
    rw [heard, List.length_append, List.length_cons]
    split
    · rw [List.length_nil]
      omega
    · omega

def informed (deliver : Deliver σ) (s : σ) (events : List (HookName × Context)) : σ :=
  events.foldl (fun s e => (deliver e.1 e.2 s).2) s

theorem informed_append (deliver : Deliver σ) (s : σ) (es es' : List (HookName × Context)) :
    informed deliver s (es ++ es') = informed deliver (informed deliver s es) es' :=
  List.foldl_append

theorem state_dispatch (deliver : Deliver σ) (m : Machine) (s : σ) (id : FrameId) (e : Event) :
    (m.dispatch deliver s id e).state = informed deliver s (m.heardOf? id e).toList := by
  unfold dispatch heardOf?
  cases m.hook with
  | none => rfl
  | some hook =>
    cases m.frames.get? id with
    | none => rfl
    | some f =>
      simp only [not_hears]
      cases hu : m.hears id e with
      | false => simp [informed]
      | true =>
        cases ha : deliver hook (m.context f e) s with
        | mk a s' => cases a <;> simp [informed, ha]

theorem state_step (deliver : Deliver σ) (m : Machine) (s : σ) (op : Op FrameId) :
    (m.step deliver s op).state = informed deliver s (m.heardBy? op).toList := by
  unfold step heardBy?
  cases op.applies m with
  | false => rfl
  | true =>
    cases op.event? m with
    | none => rfl
    | some ev =>
      have hd := state_dispatch deliver (op.before m) s ev.1 ev.2
      simp only [Bool.not_true, Bool.false_eq_true, if_false, if_true, Option.bind_some, ← hd]
      split <;> rfl

/-- The state of a run is told by what was heard. -/
theorem state_run (deliver : Deliver σ) (m : Machine) (s : σ) (ops : List (Op FrameId)) :
    (m.run deliver s ops).state = informed deliver s (m.heard deliver s ops) := by
  induction ops generalizing m s with
  | nil => rfl
  | cons op ops ih =>
    have hs := state_step deliver m s op
    unfold run heard
    dsimp only
    rw [informed_append, ← hs]
    split
    · rfl
    · exact ih _ _

section panic
variable {deliver : Deliver σ}

/-- No operation is broken off by hooks that do not fail in the state they are in. -/
theorem panic_step_of_calm {s : σ} (calm : ∀ hook ctx text, (deliver hook ctx s).1 ≠ .panicked text)
    (m : Machine) (op : Op FrameId) : (m.step deliver s op).panic = none := by
  have hd : ∀ m' id e, (dispatch deliver m' s id e).panic = none := by
    intro m' id e
    unfold dispatch
    split
    next hook f _ _ =>
      have ha := calm hook (m'.context f e)
      split
      · rfl
      · cases h : deliver hook (m'.context f e) s with
        | mk a s' =>
          rw [h] at ha
          cases a with
          | panicked text => exact absurd rfl (ha text)
          | skipFrame => rfl
          | proceed => rfl
    · rfl
  unfold step
  split
  · rfl
  · cases op.event? m with
    | none => rfl
    | some ev => simp [hd]

theorem panic_step (calm : ∀ hook ctx s text, (deliver hook ctx s).1 ≠ .panicked text)
    (m : Machine) (s : σ) (op : Op FrameId) : (m.step deliver s op).panic = none :=
  panic_step_of_calm (fun hook ctx => calm hook ctx s) m op

/-- A run goes to its end where no hook fails. -/
theorem panic_run (calm : ∀ hook ctx s text, (deliver hook ctx s).1 ≠ .panicked text)
    (m : Machine) (s : σ) (ops : List (Op FrameId)) : (m.run deliver s ops).panic = none := by
  induction ops generalizing m s with
  | nil => rfl
  | cons op ops ih =>
    unfold run
    simp only [panic_step calm, Option.isSome_none, Bool.false_eq_true, if_false]
    exact ih _ _

end panic

section heed
variable {m : Machine} {id j : FrameId} {e : Event} {a : Answer}

/-- No answer gives up or takes back another frame. -/
theorem mem_untraced_heed (h : j ≠ id) :
    j ∈ (m.heed id e a).untraced ↔ j ∈ m.untraced := by
  cases a with
  | skipFrame => simp [heed, h]
  | panicked text => exact Iff.rfl
  | proceed => cases hc : e.isCall <;> simp [heed, hc, mem_without, h]

/-- A frame that was heard is given up exactly if the answer says so. -/
theorem mem_untraced_of_heard (heard : m.hears id e = true)
    (calm : ∀ text, a ≠ .panicked text) :
    id ∈ (m.heed id e a).untraced ↔ a = .skipFrame := by
  cases a with
  | skipFrame => simp [heed]
  | panicked text => exact absurd rfl (calm text)
  | proceed =>
    unfold heed
    unfold hears at heard
    cases hc : e.isCall with
    | true => simp [mem_without]
    | false =>
      have hno : id ∉ m.untraced := by simpa [hc] using heard
      simp [hno]

end heed

end Machine
end SelectiveTrace
