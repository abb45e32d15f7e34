import SelectiveTrace.Proofs.Host.Bookkeeping
import SelectiveTrace.Proofs.Host.Reporting

/-! What lasts of a frame in any run, whatever frames the operations name: its handle is never given out
again, and the file it is of. -/
namespace SelectiveTrace

def Answer.failure? : Answer → Option String
  | .panicked text => some text
  | .proceed | .skipFrame => none

namespace Machine
variable {σ : Type} {deliver : Deliver σ} {m m' m'' : Machine} {s : σ} {op : Op FrameId}

/-- Handles stay given out, and a frame is either as old as its handle or of the file it was of. -/
structure Continues (m m' : Machine) : Prop where
  id : m'.id = m.id
  next : m.next ≤ m'.next
  frames : ∀ j f, m'.frames.get? j = some f →
    (m.hasIssued j = false ∧ m'.hasIssued j = true ∧ f.id = j) ∨
      ∃ f₀, m.frames.get? j = some f₀ ∧ f.id = f₀.id ∧ f.file = f₀.file

def IsIssued (m : Machine) : Prop :=
  ∀ j f, m.frames.get? j = some f → m.hasIssued j = true ∧ f.id = j

structure Knows (m : Machine) (c : Frame) : Prop where
  issued : m.hasIssued c.id = true
  file : ∀ f, m.frames.get? c.id = some f → f.file = c.file

def IsGone (m : Machine) (id : FrameId) : Prop :=
  m.hasIssued id = true ∧ m.frames.get? id = none

theorem IsFresh.isIssued (h : m.IsFresh) : m.IsIssued := by
  intro j f hf
  rw [h.frames] at hf
  cases hf

namespace Continues

theorem of_fewer (id : m'.id = m.id) (next : m'.next = m.next)
    (frames : ∀ j f, m'.frames.get? j = some f → m.frames.get? j = some f) : m.Continues m' :=
  ⟨id, Nat.le_of_eq next.symm, fun j f hf => Or.inr ⟨f, frames j f hf, rfl, rfl⟩⟩

theorem refl (m : Machine) : m.Continues m :=
  of_fewer rfl rfl fun _ _ h => h

theorem hasIssued (h : m.Continues m') {j : FrameId} (hj : m.hasIssued j = true) :
    m'.hasIssued j = true := by
  have hn := h.next
  unfold Machine.hasIssued at hj ⊢
  rw [h.id]
  simp only [Bool.or_eq_true, decide_eq_true_eq] at hj ⊢
  omega

theorem trans (h : m.Continues m') (h' : m'.Continues m'') : m.Continues m'' := by
  refine ⟨h'.id.trans h.id, Nat.le_trans h.next h'.next, ?_⟩
  intro j f hf
  rcases h'.frames j f hf with ⟨hnew, hissued, hid⟩ | ⟨f₁, hf₁, hid, hfile⟩
  · refine Or.inl ⟨?_, hissued, hid⟩
    rw [Bool.eq_false_iff]
    intro hj
    rw [h.hasIssued hj] at hnew
    cases hnew
  · rcases h.frames j f₁ hf₁ with ⟨hnew, hissued, hid₁⟩ | ⟨f₀, hf₀, hid₀, hfile₀⟩
    · exact Or.inl ⟨hnew, h'.hasIssued hissued, hid.trans hid₁⟩
    · exact Or.inr ⟨f₀, hf₀, hid.trans hid₀, hfile.trans hfile₀⟩

theorem isIssued (h : m.Continues m') (hm : m.IsIssued) : m'.IsIssued := by
  intro j f hf
  rcases h.frames j f hf with ⟨-, hissued, hid⟩ | ⟨f₀, hf₀, hid, -⟩
  · exact ⟨hissued, hid⟩
  · obtain ⟨hissued, hid₀⟩ := hm j f₀ hf₀
    exact ⟨h.hasIssued hissued, hid.trans hid₀⟩

/-- No handle is given out again. -/
theorem isGone (h : m.Continues m') {id : FrameId} (gone : m.IsGone id) : m'.IsGone id := by
  refine ⟨h.hasIssued gone.1, ?_⟩
  cases hf : m'.frames.get? id with
  | none => rfl
  | some g =>
    rcases h.frames id g hf with ⟨hnew, -⟩ | ⟨g₀, hg₀, -⟩
    · rw [gone.1] at hnew
      cases hnew
    · rw [gone.2] at hg₀
      cases hg₀

theorem knows (h : m.Continues m') {c : Frame} (hc : m.Knows c) : m'.Knows c := by
  refine ⟨h.hasIssued hc.issued, ?_⟩
  intro f hf
  rcases h.frames c.id f hf with ⟨hnew, -, -⟩ | ⟨f₀, hf₀, -, hfile⟩
  · rw [hc.issued] at hnew
    cases hnew
  · exact hfile.trans (hc.file f₀ hf₀)

end Continues

theorem continues_modifyFrame (m : Machine) (id : FrameId) {g : Frame → Frame}
    (hid : ∀ f, (g f).id = f.id) (hfile : ∀ f, (g f).file = f.file) :
    m.Continues (m.modifyFrame id g) := by
  refine ⟨id_modifyFrame m id g, Nat.le_of_eq (next_modifyFrame m id g).symm, ?_⟩
  intro j f hf
  rw [get?_modifyFrame] at hf
  by_cases hj : j = id
  · subst hj
    rw [if_pos rfl] at hf
    obtain ⟨f₀, hf₀, rfl⟩ := Option.map_eq_some_iff.mp hf
    exact Or.inr ⟨f₀, hf₀, hid f₀, hfile f₀⟩
  · rw [if_neg hj] at hf
    exact Or.inr ⟨f, hf, rfl, rfl⟩

theorem continues_pushFrame (m : Machine) (code : Code) (locals : Namespace) :
    m.Continues (m.pushFrame code locals) := by
  refine ⟨rfl, Nat.le_succ _, ?_⟩
  intro j f hf
  rw [get?_pushFrame] at hf
  by_cases hj : j = m.nextId
  · subst hj
    rw [if_pos rfl] at hf
    cases hf
    refine Or.inl ⟨not_hasIssued_nextId m, ?_, rfl⟩
    simp [hasIssued, nextId, pushFrame]
  · rw [if_neg hj] at hf
    exact Or.inr ⟨f, hf, rfl, rfl⟩

/-- Where every frame stands as it stood, none is made. -/
theorem continues_of_spares (id : m'.id = m.id) (next : m'.next = m.next)
    (spares : ∀ j, m.Spares m' j) : m.Continues m' := by
  refine ⟨id, Nat.le_of_eq next.symm, ?_⟩
  intro j f hf
  have hs := (spares j).standing.symm.trans (standing_of_get? hf)
  obtain ⟨f₀, hf₀, hplace⟩ := get?_of_standing hs
  exact Or.inr ⟨f₀, hf₀, (congrArg Frame.id hplace).symm, (congrArg Frame.file hplace).symm⟩

theorem continues_forget (m : Machine) (id : FrameId) : m.Continues (m.forget id) := by
  refine .of_fewer rfl rfl ?_
  intro j f hf
  rw [forget, Table.get?_erase] at hf
  split at hf
  · cases hf
  · exact hf

theorem continues_before (m : Machine) (op : Op FrameId) : m.Continues (op.before m) := by
  cases op with
  | enterModule code =>
    exact (continues_pushFrame m code _).trans (.of_fewer rfl rfl fun _ _ h => h)
  | call code args => exact continues_pushFrame m code _
  | line id n => exact continues_modifyFrame m id (fun _ => rfl) fun _ => rfl
  | setLocal id name value =>
    refine continues_of_spares ?_ ?_ fun j => spares_setLocal m id j name value
    · rw [Op.before, setLocal_eq]
    · rw [Op.before, setLocal_eq]
  | setGlobal file name value =>
    refine continues_of_spares ?_ ?_ fun j => spares_setGlobal m file name value j
    · rw [Op.before, setGlobal_eq]
    · rw [Op.before, setGlobal_eq]
  | ret id value | unwind id | yieldValue id value =>
    exact continues_modifyFrame m id (fun _ => rfl) fun _ => rfl
  | resume id =>
    have hw : m.Continues { m with suspended := without m.suspended id } :=
      .of_fewer rfl rfl fun _ _ h => h
    have hm := hw.trans (continues_modifyFrame _ id
      (g := fun f => { f with back := m.current, lastOpcode := none }) (fun _ => rfl) fun _ => rfl)
    exact hm.trans (.of_fewer rfl rfl fun _ _ h => h)
  | raise id e | discard id | traceFrame id | setTrace hook | pushTrace hook | popTrace =>
    exact .of_fewer rfl rfl fun _ _ h => h

theorem continues_after (m : Machine) (op : Op FrameId) : m.Continues (op.after m) := by
  cases op with
  | ret id value | unwind id | raise id e =>
    have hp : m.Continues
        { m with stack := leave m.stack id, suspended := without m.suspended id } :=
      .of_fewer rfl rfl fun _ _ h => h
    exact hp.trans (continues_forget _ id)
  | yieldValue id value => exact .of_fewer rfl rfl fun _ _ h => h
  | discard id => exact continues_forget m id
  | _ => exact .refl m

theorem continues_heed (m : Machine) (id : FrameId) (e : Event) (a : Answer) :
    m.Continues (m.heed id e a) := by
  rw [heed_eq]
  exact .of_fewer rfl rfl fun _ _ h => h

/-- One operation, from what it changes before its event. -/
theorem continues_step_of_before (deliver : Deliver σ) (m : Machine) (s : σ) {op : Op FrameId}
    (applies : op.applies m = true) : (op.before m).Continues (m.step deliver s op).machine := by
  unfold step
  rw [applies]
  cases op.event? m with
  | none => exact .refl _
  | some ev =>
    obtain ⟨a, ha⟩ := dispatch_machine deliver (op.before m) s ev.1 ev.2
    have hh := continues_heed (op.before m) ev.1 ev.2 a
    rw [← ha] at hh
    simp only [Bool.not_true, Bool.false_eq_true, if_false]
    split
    · exact hh
    · exact hh.trans (continues_after _ op)

theorem continues_step (deliver : Deliver σ) (m : Machine) (s : σ) (op : Op FrameId) :
    m.Continues (m.step deliver s op).machine := by
  by_cases applies : op.applies m = true
  · exact (continues_before m op).trans (continues_step_of_before deliver m s applies)
  · have hm : (m.step deliver s op).machine = m := by
      unfold step
      simp [applies]
    rw [hm]
    exact .refl m

theorem IsIssued.run (h : m.IsIssued) (s : σ) (ops : List (Op FrameId)) :
    (m.run deliver s ops).machine.IsIssued := by
  induction ops generalizing m s with
  | nil => exact h
  | cons op ops ih =>
    have hstep := (continues_step deliver m s op).isIssued h
    unfold Machine.run
    dsimp only
    split
    · exact hstep
    · exact ih hstep _

/-- What is heard of an operation is about a frame that is live then. -/
theorem get?_of_heardBy {hook : HookName} {ctx : Context} (heard : m.heardBy? op = some (hook, ctx)) :
    op.applies m = true ∧ ∃ j, (op.before m).frames.get? j = some ctx.frame := by
  obtain ⟨applies, id, f, -, -, live, -, hctx⟩ := heardBy?_cases heard
  have hf : ctx.frame = f := congrArg Context.frame hctx
  exact ⟨applies, id, hf ▸ live⟩

theorem hook_of_heardBy {hook : HookName} {ctx : Context}
    (heard : m.heardBy? op = some (hook, ctx)) : (op.before m).hook = some hook := by
  obtain ⟨-, -, -, -, installed, -⟩ := heardBy?_cases heard
  exact installed

/-- What is heard of an operation is the event that it reports, of a frame that stands under its handle,
with the machine before it. -/
theorem IsIssued.heardBy?_cases (h : m.IsIssued) {hook : HookName} {ctx : Context}
    (heard : m.heardBy? op = some (hook, ctx)) : op.event? m = some (ctx.frame.id, ctx.event) ∧
      (op.before m).frames.get? ctx.frame.id = some ctx.frame ∧
      (op.before m).hears ctx.frame.id ctx.event = true ∧
      ctx = (op.before m).context ctx.frame ctx.event := by
  obtain ⟨-, id, f, event, -, live, hears, hctx⟩ := Machine.heardBy?_cases heard
  have hf : ctx.frame = f := congrArg Context.frame hctx
  have hid : ctx.frame.id = id := hf ▸ ((continues_before m op).isIssued h id f live).2
  rw [hid, hf]
  exact ⟨event, live, hears, hctx⟩

theorem IsIssued.get?_of_heardBy (h : m.IsIssued) {hook : HookName} {ctx : Context}
    (heard : m.heardBy? op = some (hook, ctx)) :
    (op.before m).frames.get? ctx.frame.id = some ctx.frame :=
  (h.heardBy?_cases heard).2.1

theorem IsIssued.event?_of_heardBy (h : m.IsIssued) {hook : HookName} {ctx : Context}
    (heard : m.heardBy? op = some (hook, ctx)) : op.event? m = some (ctx.frame.id, ctx.event) :=
  (h.heardBy?_cases heard).1

theorem context_of_heardBy {hook : HookName} {ctx : Context} (issued : m.IsIssued)
    (heard : m.heardBy? op = some (hook, ctx)) :
    ctx = (op.before m).context ctx.frame ctx.event ∧
      (op.before m).hears ctx.frame.id ctx.event = true := by
  obtain ⟨-, -, hears, hctx⟩ := issued.heardBy?_cases heard
  exact ⟨hctx, hears⟩

/-- The frame that an event is about is known from then on. -/
theorem IsIssued.knows_step (h : m.IsIssued) {hook : HookName} {ctx : Context}
    (heard : m.heardBy? op = some (hook, ctx)) (deliver : Deliver σ) (s : σ) :
    (m.step deliver s op).machine.Knows ctx.frame := by
  have hget := h.get?_of_heardBy heard
  have hb : (op.before m).Knows ctx.frame := by
    refine ⟨((continues_before m op).isIssued h _ _ hget).1, ?_⟩
    intro f hf
    rw [hget] at hf
    cases hf
    rfl
  exact (continues_step_of_before deliver m s (Machine.get?_of_heardBy heard).1).knows hb

/-! What becomes of an event is told by what is heard of it. -/

theorem dispatch_eq (deliver : Deliver σ) (m : Machine) (s : σ) (id : FrameId) (e : Event) :
    m.dispatch deliver s id e = (m.heardOf? id e).elim ⟨m, s, none⟩ fun h =>
      ⟨m.heed id e (deliver h.1 h.2 s).1, (deliver h.1 h.2 s).2,
        (deliver h.1 h.2 s).1.failure?⟩ := by
  unfold dispatch heardOf?
  cases hk : m.hook with
  | none => rfl
  | some hook =>
    cases m.frames.get? id with
    | none => rfl
    | some f =>
      simp only [not_hears]
      cases m.hears id e with
      | false => simp
      | true =>
        cases ha : deliver hook (m.context f e) s with
        | mk a s' =>
          cases a with
          | proceed => cases hc : e.isCall <;> simp [ha, heed, hc, hk, Answer.failure?]
          | skipFrame => simp [ha, heed, hk, Answer.failure?]
          | panicked text => simp [ha, heed, Answer.failure?]

theorem step_of_silent (silent : m.heardBy? op = none) :
    m.step deliver s op = ⟨if op.applies m then op.after (op.before m) else m, s, none⟩ := by
  unfold heardBy? at silent
  unfold step
  cases happlies : op.applies m with
  | false => rfl
  | true =>
    rw [happlies] at silent
    cases hev : op.event? m with
    | none =>
      have hafter : op.after (op.before m) = op.before m := by cases op <;> first | rfl | cases hev
      simp [hafter]
    | some ev =>
      rw [hev] at silent
      have hnone : (op.before m).heardOf? ev.1 ev.2 = none := silent
      simp [dispatch_eq, hnone]

theorem step_of_told (issued : m.IsIssued) {h : HookName × Context} (heard : m.heardBy? op = some h) :
    m.step deliver s op =
      let a := (deliver h.1 h.2 s).1
      let m' := (op.before m).heed h.2.frame.id h.2.event a
      ⟨if a.failure?.isSome then m' else op.after m', (deliver h.1 h.2 s).2, a.failure?⟩ := by
  have hev := issued.event?_of_heardBy heard
  have happlies := (get?_of_heardBy heard).1
  have hof : (op.before m).heardOf? h.2.frame.id h.2.event = some h := by
    unfold heardBy? at heard
    rw [happlies, hev] at heard
    exact heard
  unfold step
  rw [happlies, hev]
  simp only [dispatch_eq, hof, Option.elim_some, Bool.not_true, Bool.false_eq_true, if_false]
  split <;> simp_all

/-! The marks after an operation, on frames that are still there. -/

/-- What an operation changes after its event takes no frame back that stays. -/
theorem mem_untraced_after_of_live {id : FrameId} {e : Event} (event : op.event? m = some (id, e))
    (stays : (op.after m').frames.get? id ≠ none) :
    id ∈ (op.after m').untraced ↔ id ∈ m'.untraced := by
  cases op with
  | ret f _ | unwind f | raise f _ | discard f =>
    cases event
    exact absurd (Table.get?_erase_self _ _) stays
  | _ => exact Iff.rfl

theorem mem_untraced_of_told (issued : m.IsIssued) {h : HookName × Context}
    (heard : m.heardBy? op = some h) (calm : ∀ text, (deliver h.1 h.2 s).1 ≠ .panicked text)
    (stays : (m.step deliver s op).machine.frames.get? h.2.frame.id ≠ none) :
    h.2.frame.id ∈ (m.step deliver s op).machine.untraced ↔ (deliver h.1 h.2 s).1 = .skipFrame := by
  have event := issued.event?_of_heardBy heard
  have hears := (context_of_heardBy issued heard).2
  have hcalm : (deliver h.1 h.2 s).1.failure? = none := by
    cases ha : (deliver h.1 h.2 s).1 with
    | panicked text => exact absurd ha (calm text)
    | proceed | skipFrame => rfl
  rw [step_of_told issued heard] at stays ⊢
  simp only [hcalm, Option.isSome_none, Bool.false_eq_true, if_false] at stays ⊢
  rw [mem_untraced_after_of_live event stays, mem_untraced_of_heard hears calm]

theorem mem_untraced_of_silent (applies : op.applies m = true) (silent : m.heardBy? op = none)
    {id : FrameId} (stays : ∀ e, op.event? m = some (id, e) →
      (m.step deliver s op).machine.frames.get? id ≠ none) :
    id ∈ (m.step deliver s op).machine.untraced ↔ id ∈ m.untraced ∧ op.retraces id = false := by
  rw [← Op.mem_untraced_before]
  rw [step_of_silent silent, applies, if_pos rfl] at stays ⊢
  cases hev : op.event? m with
  | none =>
    have hafter : op.after (op.before m) = op.before m := by cases op <;> first | rfl | cases hev
    rw [hafter]
  | some ev =>
    by_cases hid : id = ev.1
    · subst hid
      exact mem_untraced_after_of_live hev (stays ev.2 hev)
    · exact Op.mem_untraced_after hev hid

end Machine
end SelectiveTrace
