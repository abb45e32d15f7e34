import SelectiveTrace.Proofs.Host.Reporting
import SelectiveTrace.Proofs.Tracer.Handling

/-! What a tracer keeps belongs to frames that run. A frame gives back all that is kept for it when it
ends or is suspended, inside the region or not, shown or not; only a renderer that fails on the end of
a frame can keep it from doing so. -/
namespace SelectiveTrace

structure Failure where
  ctx : Context
  text : String
  /-- It failed while it was shown. Otherwise the levels above it were too many to be counted. -/
  shown : Bool

/-- The end of a frame is among the failures of what was shown. -/
def Failure.EndOf (failures : List Failure) (id : FrameId) : Prop :=
  ∃ x ∈ failures, x.shown = true ∧ x.ctx.frame.id = id ∧ x.ctx.event.isTerminal = true

def Failure.ends (failures : List Failure) : Nat :=
  failures.countP fun x => x.shown && x.ctx.event.isTerminal

theorem Failure.ends_append (failures more : List Failure) :
    ends (failures ++ more) = ends failures + ends more :=
  List.countP_append

theorem Failure.EndOf.append {failures : List Failure} {id : FrameId} (h : EndOf failures id)
    (more : List Failure) : EndOf (failures ++ more) id := by
  obtain ⟨x, hx, hid⟩ := h
  exact ⟨x, List.mem_append_left _ hx, hid⟩

theorem Failure.EndOf.prepend {failures : List Failure} {id : FrameId} (h : EndOf failures id)
    (first : List Failure) : EndOf (first ++ failures) id := by
  obtain ⟨x, hx, hid⟩ := h
  exact ⟨x, List.mem_append_right _ hx, hid⟩

theorem Failure.not_endOf_of_unshown {failures : List Failure}
    (unshown : ∀ x ∈ failures, x.shown = false) (id : FrameId) : ¬ EndOf failures id := by
  rintro ⟨x, hx, shown, -⟩
  rw [unshown x hx] at shown
  cases shown

def Tracer.broken? (t : Tracer) (w : Surroundings) (ctx : Context) : Option Failure :=
  ((t.failure? w ctx).or (t.overflow? w ctx)).map fun text =>
    ⟨ctx, text, (t.decide w ctx).1.isShow⟩

namespace Tracer
variable {t : Tracer} {w : Surroundings} {ctx : Context} {text : String}

theorem isShow_of_failure? (h : t.failure? w ctx = some text) :
    (t.decide w ctx).1.isShow = true := by
  unfold failure? at h
  split at h
  next shown => exact (Bool.and_eq_true _ _ ▸ shown).2
  next => cases h

theorem isShow_of_overflow? (h : t.overflow? w ctx = some text) :
    (t.decide w ctx).1.isShow = false := by
  unfold overflow? at h
  split at h
  next uncounted =>
    rw [Bool.and_eq_true, decide_eq_true_eq] at uncounted
    rw [uncounted.2]
    rfl
  next => cases h

/-- An end that fails counts just if it was shown. -/
theorem ends_broken? (t : Tracer) (w : Surroundings) (ctx : Context) :
    Failure.ends (t.broken? w ctx).toList =
      if ctx.event.isTerminal && (t.failure? w ctx).isSome then 1 else 0 := by
  unfold broken?
  cases hf : t.failure? w ctx with
  | some text => simp [Failure.ends, List.countP_singleton, isShow_of_failure? hf]
  | none =>
    cases hx : t.overflow? w ctx with
    | none => simp [Failure.ends]
    | some text => simp [Failure.ends, isShow_of_overflow? hx]

end Tracer

namespace Machine

def failuresBy (m : Machine) (s : Tracer × Surroundings) (op : Op FrameId) : List Failure :=
  ((m.heardBy? op).bind fun h => s.1.broken? s.2 h.2).toList

def failures : Machine → Tracer × Surroundings → List (Op FrameId) → List Failure
  | _, _, [] => []
  | m, s, op :: ops =>
    let r := m.step Tracer.deliver s op
    m.failuresBy s op ++ failures r.machine r.state ops

theorem calm_deliver (hook : HookName) (ctx : Context) (s : Tracer × Surroundings) (text : String) :
    (Tracer.deliver hook ctx s).1 ≠ .panicked text :=
  (s.1.onEvent_mishaps ctx s.2).1 text

/-- The failures of an operation become faults, and the tracer stays what it was made to be. -/
theorem mishaps_step (m : Machine) (s : Tracer × Surroundings) (op : Op FrameId) :
    (m.step Tracer.deliver s op).state.1.observed = s.1.observed ∧
      (m.step Tracer.deliver s op).state.1.renderer = s.1.renderer ∧
      (m.step Tracer.deliver s op).state.1.mishaps =
        s.1.mishaps ++ (m.failuresBy s op).map fun x => (x.ctx.event.name, x.text) := by
  rw [state_step, failuresBy]
  cases m.heardBy? op with
  | none => simp [informed]
  | some h =>
    obtain ⟨-, ho, hr, hm⟩ := s.1.onEvent_mishaps h.2 s.2
    refine ⟨ho, hr, hm.trans ?_⟩
    rw [Option.bind_some, Tracer.broken?]
    cases (s.1.failure? s.2 h.2).or (s.1.overflow? s.2 h.2) <;> rfl

theorem config_step (m : Machine) (s : Tracer × Surroundings) (op : Op FrameId) :
    (m.step Tracer.deliver s op).state.1.config = s.1.config := by
  rw [state_step]
  cases m.heardBy? op with
  | none => rfl
  | some h => exact s.1.config_onEvent h.2 s.2

/-- The failures of a run become faults, in their order. -/
theorem mishaps_run (m : Machine) (s : Tracer × Surroundings) (ops : List (Op FrameId)) :
    (m.run Tracer.deliver s ops).state.1.mishaps =
      s.1.mishaps ++ (m.failures s ops).map fun x => (x.ctx.event.name, x.text) := by
  induction ops generalizing m s with
  | nil => simp [run, failures]
  | cons op ops ih =>
    rw [run_of_calm (panic_step calm_deliver m s op), ih, (mishaps_step m s op).2.2, failures]
    simp

/-- Renderers with a text for every value never fail on what is shown. -/
theorem unshown_of_isTotal {m : Machine} {s : Tracer × Surroundings} (h : s.1.renderer.IsTotal)
    (ops : List (Op FrameId)) : ∀ x ∈ m.failures s ops, x.shown = false := by
  induction ops generalizing m s with
  | nil => simp [failures]
  | cons op ops ih =>
    intro x hx
    rcases List.mem_append.mp hx with hx | hx
    · have hf : ∀ ctx, s.1.failure? s.2 ctx = none := by
        intro ctx
        simp [Tracer.failure?, Tracer.mishap?_of_isTotal h]
      obtain ⟨heard, -, hbroken⟩ := Option.bind_eq_some_iff.mp (Option.mem_toList.mp hx)
      rw [Tracer.broken?, hf, Option.none_or] at hbroken
      obtain ⟨text, hover, rfl⟩ := Option.map_eq_some_iff.mp hbroken
      exact Tracer.isShow_of_overflow? hover
    · exact ih ((mishaps_step m s op).2.1 ▸ h) x hx

/-- What a hook hears of the event of a live frame. -/
theorem heardBy?_of_event {m : Machine} {op : Op FrameId} {hook : HookName} {f : Frame} {e : Event}
    (hd : op.IsDisciplined m) (installed : (op.before m).hook = some hook)
    (event : op.event? m = some (f.id, e)) (live : (op.before m).frames.get? f.id = some f)
    (heard : (op.before m).hears f.id e = true) :
    m.heardBy? op = some (hook, (op.before m).context f e) := by
  simp [heardBy?, applies_of_disciplined hd, event, heardOf?, installed, live, heard]

theorem heardBy?_of_unheard {m : Machine} {op : Op FrameId} {f : Frame} {e : Event}
    (event : op.event? m = some (f.id, e)) (live : (op.before m).frames.get? f.id = some f)
    (unheard : (op.before m).hears f.id e = false) : m.heardBy? op = none := by
  cases h : (op.before m).hook <;> simp [heardBy?, event, heardOf?, h, live, unheard]

end Machine

/-- What is kept belongs to frames that run and are traced, or whose end failed before; and no frame
that runs and is traced has been given up. -/
structure Homed (m : Machine) (s : Tracer × Surroundings) (failures : List Failure) : Prop where
  linked : m.Linked
  unentered : s.1.Unentered
  home : ∀ id, s.1.Holds id → Failure.EndOf failures id ∨
    ∃ rest f, id :: rest <:+ m.stack ∧ m.standing id = some f ∧
      s.1.traces s.2 f (m.framesAt rest) = true
  passed : ∀ id rest f, id :: rest <:+ m.stack → m.standing id = some f → id ∈ m.untraced →
    s.1.traces s.2 f (m.framesAt rest) = false

inductive Deed (m : Machine) (s : Tracer × Surroundings) (op : Op FrameId) (m' : Machine)
    (s' : Tracer × Surroundings) : Prop
  /-- It has no event. -/
  | quiet (same : s' = s) (silent : m.failuresBy s op = []) (stack : m'.stack = m.stack)
    (linked : m'.Linked) (spares : ∀ j, m.Spares m' j)
  /-- It has an event of the frame on top of `rest`, which was heard or not. -/
  | told (f : Frame) (e : Event) (rest : List FrameId) (a : Answer) (reports : op.Reports m f e rest)
    (off : f.id ∉ rest) (acts : m.Acts m' f.id)
    (after : m'.stack = if e.isTerminal then rest else f.id :: rest)
    (stands : e.isTerminal = false → m'.standing f.id = some f.place)
    (handles : s.1.Handles s.2 ((op.before m).context f e) (m.framesAt rest) a s'.1 s'.2)
    (failures : s.1.observed = none → Failure.ends (m.failuresBy s op) =
      if e.isTerminal && (s.1.failure? s.2 ((op.before m).context f e)).isSome then 1 else 0)
    (ended : e.isTerminal = true →
      (s.1.Holds f.id → s.1.traces s.2 f (m.framesAt rest) = true) →
      s'.1.Holds f.id → Failure.EndOf (m.failuresBy s op) f.id)
    (passed : e.isTerminal = false → f.id ∈ m'.untraced →
      s'.1.traces s'.2 f (m.framesAt rest) = false)
  /-- It drops a suspended generator. -/
  | dropped (id : FrameId) (acts : m.Acts m' id) (off : id ∉ m.stack) (stack : m'.stack = m.stack)
    (carries : Tracer.Carries s.1 s.2 s'.1 s'.2 id) (forgotten : s'.1.Holds id → s.1.Holds id)
    (depths : s'.1.session.depths = s.1.session.depths) (silent : m.failuresBy s op = [])

namespace Homed
open Machine
variable {m m' : Machine} {s s' : Tracer × Surroundings} {fs fs' : List Failure} {op : Op FrameId}
  {hook : HookName} {id : FrameId} {rest : List FrameId}

/-- Whatever stands on top of `rest`, the other frames of the stack stand in `rest`. -/
theorem suffix_of_ne {ids under : List FrameId} {j : FrameId} (hj : j ≠ id)
    (stack : ids = rest ∨ ids = id :: rest) (hs : j :: under <:+ ids) : j :: under <:+ rest := by
  rcases stack with rfl | rfl
  · exact hs
  · exact (List.suffix_cons_iff.mp hs).resolve_left fun he => hj (List.cons.inj he).1

theorem below_top {under : List FrameId} (off : id ∉ rest) (hs : id :: under <:+ id :: rest) :
    under = rest := by
  rcases List.suffix_cons_iff.mp hs with he | hin
  · exact (List.cons.inj he).2
  · exact absurd (hin.mem (by simp)) off

/-- For the frames below it is the same as before whether they are traced. -/
theorem traces_below (h : Homed m s fs) (acts : m.Acts m' id)
    (carries : Tracer.Carries s.1 s.2 s'.1 s'.2 id) (off : id ∉ rest) {j : FrameId}
    {under : List FrameId} {f : Frame} (hs : j :: under <:+ rest) (hf : m.standing j = some f) :
    s'.1.traces s'.2 f (m'.framesAt under) = s.1.traces s.2 f (m.framesAt under) := by
  have hunder : under <:+ rest := (List.suffix_cons j under).trans hs
  have hoff : id ∉ under := fun hi => off (hunder.mem hi)
  have hj : f.id ≠ id := by
    rw [(h.linked.known j f hf).1]
    exact fun he => off (he ▸ hs.mem (by simp))
  rw [acts.framesAt_eq hoff]
  exact carries.minds.traces hj (h.linked.framesAt_ne hoff)

/-- Something happened to the frame on top of `rest`, or to one that does not run. -/
theorem acted (h : Homed m s fs) (acts : m.Acts m' id)
    (carries : Tracer.Carries s.1 s.2 s'.1 s'.2 id)
    (mono : ∀ j, Failure.EndOf fs j → Failure.EndOf fs' j)
    (stack : m.stack = rest ∨ m.stack = id :: rest) (off : id ∉ rest)
    (own : (m'.stack = rest ∧ (s'.1.Holds id → Failure.EndOf fs' id)) ∨
      ∃ f, m'.stack = id :: rest ∧ m'.standing id = some f ∧
        (s'.1.Holds id → Failure.EndOf fs' id ∨
          s'.1.traces s'.2 f (m.framesAt rest) = true) ∧
        (id ∈ m'.untraced → s'.1.traces s'.2 f (m.framesAt rest) = false)) :
    Homed m' s' fs' := by
  have stack' : m'.stack = rest ∨ m'.stack = id :: rest :=
    own.imp And.left fun ⟨_, hstack, _⟩ => hstack
  have inside : ∀ {ids : List FrameId}, ids = rest ∨ ids = id :: rest → rest <:+ ids := by
    rintro _ (rfl | rfl)
    · exact List.suffix_rfl
    · exact List.suffix_cons id rest
  have hframes := acts.framesAt_eq off
  refine ⟨acts.linked, carries.unentered h.unentered, fun j hold => ?_, fun j under f hs hf hu => ?_⟩
  · by_cases hj : j = id
    · subst hj
      rcases own with ⟨-, hown⟩ | ⟨f, hstack, hf, hown, -⟩
      · exact Or.inl (hown hold)
      · refine (hown hold).imp_right fun ht => ⟨rest, f, hstack ▸ List.suffix_rfl, hf, ?_⟩
        rw [hframes]
        exact ht
    · rcases h.home j (carries.holds hj hold) with hend | ⟨under, f, hs, hf, ht⟩
      · exact Or.inl (mono j hend)
      · have hs' := suffix_of_ne hj stack hs
        refine Or.inr ⟨under, f, hs'.trans (inside stack'), ?_, ?_⟩
        · exact (acts.spares j hj).standing.trans hf
        · exact (h.traces_below acts carries off hs' hf).trans ht
  · by_cases hj : j = id
    · subst hj
      rcases own with ⟨hstack, -⟩ | ⟨g, hstack, hg, -, hown⟩
      · exact absurd (hstack ▸ hs.mem (by simp)) off
      · rw [hg] at hf
        cases hf
        have hunder : under = rest := below_top off (hstack ▸ hs)
        rw [hunder, hframes]
        exact hown hu
    · have hs' := suffix_of_ne hj stack' hs
      have hspares := acts.spares j hj
      rw [hspares.standing] at hf
      rw [h.traces_below acts carries off hs' hf]
      exact h.passed j under f (hs'.trans (inside stack)) hf (hspares.untraced hu)

/-- An operation without an event changes nothing that counts. -/
theorem quiet (h : Homed m s fs) (linked : m'.Linked) (stack : m'.stack = m.stack)
    (hspares : ∀ j, m.Spares m' j) : Homed m' s fs := by
  have hframes : ∀ ids, m'.framesAt ids = m.framesAt ids :=
    fun ids => framesAt_congr fun j _ => (hspares j).standing
  refine ⟨linked, h.unentered, ?_, ?_⟩
  · intro j hold
    refine (h.home j hold).imp_right ?_
    rintro ⟨under, f, hs, hf, ht⟩
    exact ⟨under, f, stack ▸ hs, (hspares j).standing.trans hf, (hframes under).symm ▸ ht⟩
  · intro j under f hs hf hu
    rw [hframes under]
    exact h.passed j under f (stack ▸ hs) ((hspares j).standing ▸ hf) ((hspares j).untraced hu)

/-- A frame that does not run holds something only by the failure of its end. -/
theorem endOf_of_off (h : Homed m s fs) (off : id ∉ m.stack) (hold : s.1.Holds id) :
    Failure.EndOf fs id := by
  refine (h.home id hold).resolve_right ?_
  rintro ⟨under, g, hs, -⟩
  exact off (hs.mem (by simp))

/-- What is known of the innermost frame before its event. -/
theorem top (h : Homed m s fs) {f f₀ : Frame} (top : m.stack = f.id :: rest)
    (was : m.standing f.id = some f₀) (code : f₀.code = f.code) :
    (s.1.Holds f.id → Failure.EndOf fs f.id ∨ s.1.traces s.2 f (m.framesAt rest) = true) ∧
      (f.id ∈ m.untraced → s.1.traces s.2 f (m.framesAt rest) = false) := by
  have hid : f₀.id = f.id := (h.linked.known _ _ was).1
  rw [← Tracer.traces_of_code code hid]
  refine ⟨fun hold => ?_, h.passed f.id rest f₀ (top ▸ List.suffix_rfl) was⟩
  refine (h.home f.id hold).imp_right ?_
  rintro ⟨under, g, hs, hg, ht⟩
  rw [was] at hg
  cases hg
  have hunder : under = rest := below_top (h.linked.not_mem_rest top) (top ▸ hs)
  exact hunder ▸ ht

/-- What is known of the frame of an event that was on the stack before. -/
theorem known (h : Homed m s fs) {f : Frame} {e : Event} (reports : op.Reports m f e rest)
    (call : e.isCall = false) :
    (s.1.Holds f.id → Failure.EndOf fs f.id ∨ s.1.traces s.2 f (m.framesAt rest) = true) ∧
      (f.id ∈ m.untraced → s.1.traces s.2 f (m.framesAt rest) = false) := by
  rcases reports.was with ⟨-, hcall⟩ | ⟨hs, -, f₀, hf₀, code, -⟩
  · rw [call] at hcall
    cases hcall
  · exact h.top hs hf₀ code

section
variable {f : Frame} {e : Event}

/-- An event that is not heard, because its frame was given up. -/
theorem told_unheard (h : Homed m s fs) (hk : m.hook = some hook) (hd : op.IsDisciplined m)
    (keeps : op.KeepsHook m) (reports : op.Reports m f e rest)
    (unheard : (op.before m).hears f.id e = false) :
    Deed m s op (m.step Tracer.deliver s op).machine (m.step Tracer.deliver s op).state := by
  have acts : m.Acts (m.step Tracer.deliver s op).machine f.id :=
    h.linked.acts_step hd reports.event
  have off := reports.off h.linked hd
  have hframes := framesAt_before reports.event off
  have hstep : m.step Tracer.deliver s op = ⟨op.after (op.before m), s, none⟩ :=
    step_of_unheard hd (keeps.trans hk) reports.event reports.live unheard
  obtain ⟨hcall, hmem⟩ := mem_untraced_of_unheard unheard
  -- it was given up because it was not traced, and nothing has changed that since
  have dark := (h.known reports hcall).2 hmem
  have handles := h.unentered.handles_unheard s.2 ((op.before m).context f e)
    (h.linked.before hd) rfl reports.running reports.below reports.back off (hframes ▸ dark)
  rw [hframes] at handles
  have hsilent : m.failuresBy s op = [] := by
    unfold failuresBy
    rw [heardBy?_of_unheard reports.event reports.live unheard]
    rfl
  rw [hstep] at acts ⊢
  refine .told f e rest _ reports off acts (reports.stack_after reports.stack) ?_ handles ?_ ?_
    fun _ _ => dark
  · intro running
    rw [reports.stays running]
    exact standing_of_get? reports.live
  · intro ho
    rw [hsilent, (handles.blind ho dark).2.2.1]
    simp [Failure.ends]
  · intro _ known hold
    exact absurd (dark.symm.trans (known hold)) (by simp)

/-- An event that is heard. -/
theorem told_heard (h : Homed m s fs) (hk : m.hook = some hook) (hd : op.IsDisciplined m)
    (keeps : op.KeepsHook m) (reports : op.Reports m f e rest)
    (heard : (op.before m).hears f.id e = true) :
    Deed m s op (m.step Tracer.deliver s op).machine (m.step Tracer.deliver s op).state := by
  have acts : m.Acts (m.step Tracer.deliver s op).machine f.id :=
    h.linked.acts_step hd reports.event
  have off := reports.off h.linked hd
  obtain ⟨a, t', w', ha, handles⟩ := h.unentered.handles s.2 ((op.before m).context f e)
    (h.linked.before hd) rfl reports.running reports.below reports.back off
  rw [framesAt_before reports.event off] at handles
  have hstep : m.step Tracer.deliver s op =
      ⟨op.after ((op.before m).heed f.id e a), (t', w'), none⟩ :=
    step_of_heard hd (keeps.trans hk) reports.event reports.live heard ha handles.calm
  have hfailures : m.failuresBy s op =
      (s.1.broken? s.2 ((op.before m).context f e)).toList := by
    unfold failuresBy
    rw [heardBy?_of_event hd (keeps.trans hk) reports.event reports.live heard]
    rfl
  rw [hstep] at acts ⊢
  refine .told f e rest a reports off acts
    (reports.stack_after ((stack_heed _ _ _ _).trans reports.stack)) ?_ handles
    (fun _ => hfailures ▸ Tracer.ends_broken? _ _ _) ?_ ?_
  · intro running
    rw [reports.stays running]
    exact standing_heed reports.live
  · intro terminal known hold
    obtain ⟨text, htext⟩ := Option.isSome_iff_exists.mp (handles.ended terminal known hold)
    refine ⟨⟨(op.before m).context f e, text, true⟩, ?_, rfl, rfl, terminal⟩
    rw [hfailures, Tracer.broken?, htext, Tracer.isShow_of_failure? htext]
    simp
  · intro running hmem
    rw [reports.stays running] at hmem
    exact handles.skipped ((mem_untraced_of_heard heard handles.calm).mp hmem)

/-- A suspended generator that is dropped. -/
theorem dropped (h : Homed m s fs) (hk : m.hook = some hook) (hd : op.IsDisciplined m)
    (keeps : op.KeepsHook m) (drops : op.Drops m f) :
    Deed m s op (m.step Tracer.deliver s op).machine (m.step Tracer.deliver s op).state := by
  have acts : m.Acts (m.step Tracer.deliver s op).machine f.id :=
    h.linked.acts_step hd drops.event
  cases hu : (op.before m).hears f.id .discard with
  | false =>
    have hstep : m.step Tracer.deliver s op = ⟨op.after (op.before m), s, none⟩ :=
      step_of_unheard hd (keeps.trans hk) drops.event drops.live hu
    have hsilent : m.failuresBy s op = [] := by
      unfold failuresBy
      rw [heardBy?_of_unheard drops.event drops.live hu]
      rfl
    rw [hstep] at acts ⊢
    exact .dropped f.id acts drops.off ((drops.after _).trans drops.stack)
      (Tracer.Carries.refl _ _ _) (fun hold => hold) rfl hsilent
  | true =>
    obtain ⟨carries, gone⟩ := h.unentered.dropFrame s.2 f.id
    have ha : Tracer.deliver hook ((op.before m).context f .discard) s =
        (.proceed, s.1.dropFrame f.id, s.2) := rfl
    have hstep : m.step Tracer.deliver s op =
        ⟨op.after ((op.before m).heed f.id .discard .proceed), (s.1.dropFrame f.id, s.2), none⟩ :=
      step_of_heard hd (keeps.trans hk) drops.event drops.live hu ha (fun _ => by simp)
    have hsilent : m.failuresBy s op = [] := by
      unfold failuresBy
      rw [heardBy?_of_event hd (keeps.trans hk) drops.event drops.live hu]
      rfl
    rw [hstep] at acts ⊢
    refine .dropped f.id acts drops.off ?_ carries (fun hold => absurd hold gone)
      (Tracer.depths_dropFrame s.1 f.id) hsilent
    rw [drops.after, stack_heed, drops.stack]

end

/-- One operation, by what it comes to. -/
theorem deed (h : Homed m s fs) (hk : m.hook = some hook) (hd : op.IsDisciplined m)
    (keeps : op.KeepsHook m) :
    Deed m s op (m.step Tracer.deliver s op).machine (m.step Tracer.deliver s op).state := by
  cases Op.Telling.of_disciplined h.linked hd with
  | nothing event stack =>
    rw [step_of_quiet hd event]
    refine .quiet rfl (by simp [failuresBy, heardBy?, event]) stack (h.linked.before hd) fun j => ?_
    exact Op.spares_before (by simp [event])
  | event f e rest reports =>
    cases hu : (op.before m).hears f.id e with
    | false => exact h.told_unheard hk hd keeps reports hu
    | true => exact h.told_heard hk hd keeps reports hu
  | drop f drops => exact h.dropped hk hd keeps drops

/-- One operation. -/
theorem step (h : Homed m s fs) (hk : m.hook = some hook) (hd : op.IsDisciplined m)
    (keeps : op.KeepsHook m) :
    Homed (m.step Tracer.deliver s op).machine (m.step Tracer.deliver s op).state
      (fs ++ m.failuresBy s op) := by
  have mono := fun j (hj : Failure.EndOf fs j) => hj.append (m.failuresBy s op)
  have hdeed := h.deed hk hd keeps
  generalize (m.step Tracer.deliver s op).machine = m' at hdeed ⊢
  generalize (m.step Tracer.deliver s op).state = s' at hdeed ⊢
  cases hdeed with
  | quiet same silent stack linked spares =>
    rw [same, silent, List.append_nil]
    exact h.quiet linked stack spares
  | dropped id acts off stack carries forgotten _ _ =>
    exact h.acted acts carries mono (Or.inl rfl) off
      (Or.inl ⟨stack, fun hold => mono id (h.endOf_of_off off (forgotten hold))⟩)
  | told f e rest a reports off acts after stands handles _ ended passed =>
    have known : s.1.Holds f.id → Failure.EndOf fs f.id ∨
        s.1.traces s.2 f (m.framesAt rest) = true := by
      rcases reports.was with ⟨hs, -⟩ | ⟨-, hcall, -⟩
      · exact fun hold => Or.inl (h.endOf_of_off (hs ▸ off) hold)
      · exact (h.known reports hcall).1
    refine h.acted acts handles.toCarries mono (reports.was.imp And.left And.left) off ?_
    cases terminal : e.isTerminal with
    | true =>
      rw [terminal] at after
      refine Or.inl ⟨after, fun hold => ?_⟩
      by_cases hend : Failure.EndOf fs f.id
      · exact mono _ hend
      · exact (ended terminal (fun h₀ => (known h₀).resolve_left hend) hold).prepend fs
    | false =>
      rw [terminal] at after
      refine Or.inr ⟨f.place, after, stands terminal, fun hold => ?_, passed terminal⟩
      by_cases hend : Failure.EndOf fs f.id
      · exact Or.inl (mono _ hend)
      · exact Or.inr (handles.running terminal (fun h₀ => (known h₀).resolve_left hend) hold)

/-- A whole run. -/
theorem run (h : Homed m s fs) (hk : m.hook = some hook) {ops : List (Op FrameId)}
    (hd : m.Disciplined Tracer.deliver s ops) :
    Homed (m.run Tracer.deliver s ops).machine (m.run Tracer.deliver s ops).state
      (fs ++ m.failures s ops) := by
  induction ops generalizing m s fs with
  | nil => simpa [Machine.run, failures] using h
  | cons op ops ih =>
    obtain ⟨hop, keeps, hrest⟩ := hd
    rw [run_of_calm (panic_step calm_deliver m s op), failures, ← List.append_assoc]
    exact ih (h.step hk hop keeps) ((hook_step keeps).trans hk) hrest

/-- Where nothing that was shown has failed, it is as if nothing had. -/
theorem clear (h : Homed m s fs) (unshown : ∀ x ∈ fs, x.shown = false) : Homed m s [] :=
  ⟨h.linked, h.unentered,
    fun id hold => Or.inr ((h.home id hold).resolve_left (Failure.not_endOf_of_unshown unshown id)),
    h.passed⟩

theorem step_of_isTotal (h : Homed m s []) (total : s.1.renderer.IsTotal) (hk : m.hook = some hook)
    (hd : op.IsDisciplined m) (keeps : op.KeepsHook m) :
    Homed (m.step Tracer.deliver s op).machine (m.step Tracer.deliver s op).state [] := by
  refine (h.step hk hd keeps).clear ?_
  simpa [failures] using unshown_of_isTotal (m := m) total [op]

end Homed
namespace Tracer

structure IsNew (t : Tracer) (custom : List CustomFormat) : Prop where
  session : t.session = { targetCodes := t.session.targetCodes }
  codes : ∀ r, t.observed = some r → t.session.targetCodes = []
  custom : t.renderer.custom = custom
  shut : ∀ id, t.opens id = false
  faults : t.faults = []

theorem IsNew.targetCode {t : Tracer} {custom : List CustomFormat} (h : t.IsNew custom)
    (code : CodeId) : (t.targetCode code).IsNew custom := by
  unfold Tracer.targetCode
  split
  · exact h
  next ho =>
    refine ⟨?_, ?_, h.custom, h.shut, h.faults⟩
    · simp only [onSession, Session.addCode]
      rw [h.session]
    · intro r hr
      have hr' : t.observed = some r := hr
      simp [hr'] at ho

theorem isNew_of_outfit {c : TracerConfig} {disk : Disk} {codes : List CodeId}
    {custom : List CustomFormat} {sources : SourceCache} {sink : Sink} {t : Tracer}
    (setup : outfit c disk codes custom sources sink = .ok t) : t.IsNew custom := by
  have hfoldl : ∀ (more : List CodeId) (u : Tracer), u.IsNew custom →
      (more.foldl Tracer.targetCode u).IsNew custom := by
    intro more
    induction more with
    | nil => exact fun _ hu => hu
    | cons code more ih => exact fun u hu => ih _ (hu.targetCode code)
  unfold outfit ofConfig at setup
  cases hv : c.validate disk with
  | error e =>
    rw [hv] at setup
    cases setup
  | ok u =>
    rw [hv] at setup
    cases setup
    refine hfoldl codes _ ⟨rfl, fun _ _ => rfl, rfl, ?_, rfl⟩
    intro id
    cases c.callGraph <;> simp [opens, CallGraph.isOpen, Table.contains]

/-- The file of the region is seen from the root. -/
theorem observed_of_outfit {c : TracerConfig} {disk : Disk} {codes : List CodeId}
    {custom : List CustomFormat} {sources : SourceCache} {sink : Sink} {t : Tracer} {scope : Region}
    (setup : outfit c disk codes custom sources sink = .ok t) (region : c.observed = some scope) :
    t.config = c ∧ t.observed = some { scope with file := disk.absolute scope.file } := by
  have hfoldl : ∀ (more : List CodeId) (u : Tracer), u.observed.isSome = true →
      more.foldl Tracer.targetCode u = u := by
    intro more
    induction more with
    | nil => exact fun _ _ => rfl
    | cons code more ih =>
      intro u hu
      rw [List.foldl_cons, targetCode, if_pos hu]
      exact ih u hu
  unfold outfit ofConfig at setup
  cases hv : c.validate disk with
  | error e =>
    rw [hv] at setup
    cases setup
  | ok u =>
    rw [hv] at setup
    cases setup
    dsimp only
    rw [hfoldl _ _ (by simp [region])]
    exact ⟨rfl, by simp [region]⟩

theorem IsNew.not_holds {t : Tracer} {custom : List CustomFormat} (h : t.IsNew custom)
    (id : FrameId) : ¬ t.Holds id := by
  rintro (hr | ⟨-, ho⟩)
  · rw [h.session] at hr
    simp [Session.Remembers, Table.contains] at hr
  · rw [h.shut id] at ho
    cases ho

/-- Before anything has run there is nothing to give back. -/
theorem IsNew.homed {t : Tracer} {custom : List CustomFormat} (h : t.IsNew custom) {m : Machine}
    (fresh : m.IsFresh) (w : Surroundings) : Homed m (t, w) [] := by
  refine ⟨fresh.linked, ⟨?_, h.codes⟩, fun id hold => absurd hold (h.not_holds id), ?_⟩
  · intro _
    rw [h.session]
  · intro id rest f hs
    rw [fresh.stack] at hs
    simp at hs

theorem IsNew.isTotal {t : Tracer} {custom : List CustomFormat} (h : t.IsNew custom)
    (formats : ∀ f ∈ custom, ∀ v, ∃ text, f.format v = .ok text) : t.renderer.IsTotal := by
  refine Renderer.isTotal_of_custom ?_
  rw [h.custom]
  exact formats

end Tracer

/-- Whatever the configuration, a tracer whose renderers do not fail keeps things for running frames
only, at every point of a run that keeps to the stack: nothing for frames that are suspended or gone,
and nothing at all when no frame runs. -/
theorem kept_only_for_running_frames {c : TracerConfig} {disk : Disk} {codes : List CodeId}
    {custom : List CustomFormat} {sources : SourceCache} {sink : Sink} {t : Tracer}
    {w : Surroundings} {m : Machine} {hook : HookName} {ops : List (Op FrameId)}
    (setup : Tracer.outfit c disk codes custom sources sink = .ok t)
    (formats : ∀ f ∈ custom, ∀ v, ∃ text, f.format v = .ok text)
    (fresh : m.IsFresh) (installed : m.hook = some hook)
    (disciplined : m.Disciplined Tracer.deliver (t, w) ops) :
    let r := m.run Tracer.deliver (t, w) ops
    let s := r.state.1.session
    r.panic = none ∧ (∀ id, s.Remembers id → id ∈ r.machine.stack) ∧
      (∀ id ∈ r.machine.suspended, ¬ s.Remembers id) ∧
      (∀ id, r.machine.frame? id = none → ¬ s.Remembers id) ∧
      (r.machine.stack = [] → s.trackedFrames = 0 ∧ s.targetFrames = []) := by
  intro r s
  have hnew := Tracer.isNew_of_outfit setup
  have h := ((hnew.homed fresh w).run installed disciplined).clear
    (Machine.unshown_of_isTotal (hnew.isTotal formats) ops)
  have hstack : ∀ id, s.Remembers id → id ∈ r.machine.stack := by
    intro id hr
    rcases h.home id (Or.inl hr) with ⟨x, hx, -⟩ | ⟨rest, f, hs, -⟩
    · cases hx
    · exact hs.mem (by simp)
  refine ⟨Machine.panic_run Machine.calm_deliver m (t, w) ops, hstack, ?_, ?_, ?_⟩
  · exact fun id hid hr => (h.linked.parked id hid).1 (hstack id hr)
  · intro id hgone hr
    obtain ⟨above, rest, hsplit⟩ := List.append_of_mem (hstack id hr)
    obtain ⟨f, hf, -⟩ := h.linked.chained id rest ⟨above, hsplit.symm⟩
    have hnone : r.machine.frames.get? id = none := hgone
    have hf' : r.machine.standing id = some f := hf
    simp [Machine.standing, hnone] at hf'
  · intro hempty
    refine Session.trackedFrames_of_forgotten fun id hr => ?_
    have hm := hstack id hr
    rw [hempty] at hm
    cases hm

def leavingGenerator : List (Op FrameId) :=
  let main : Code := ⟨"main", ⟨"/main.py"⟩, 1⟩
  let steps : Code := ⟨"steps", ⟨"/p.py"⟩, 1⟩
  [.call main [], .call steps [], .line ⟨0, 1⟩ 2, .line ⟨0, 1⟩ 3, .yieldValue ⟨0, 1⟩ (.int 7),
    .resume ⟨0, 1⟩, .line ⟨0, 1⟩ 9, .yieldValue ⟨0, 1⟩ (.int 8)]

def diskOfFile : Disk :=
  { entries := (⟨[]⟩ : Table _ _).insert ["p.py"] (.file ByteArray.empty) }

theorem absolute_diskOfFile : diskOfFile.absolute ⟨"/p.py"⟩ = ⟨"/p.py"⟩ := by decide +kernel

/-- A tracer of a region of that file. -/
theorem outfit_diskOfFile {depth start stop : Nat} (loopLimit : Option Nat) (deep : 0 < depth)
    (ordered : start ≤ stop) :
    let c : TracerConfig := { depth, observed := some ⟨⟨"/p.py"⟩, start, stop⟩, loopLimit }
    Tracer.outfit c diskOfFile [] [] {} (.lines []) = .ok
      { config := c, observed := c.observed, renderer := { maxLength := some 100 }
        sink := .lines [] } := by
  have there : diskOfFile.pathExists ⟨"/p.py"⟩ = true := by decide +kernel
  have hdepth : ¬ depth < 1 := by omega
  have hrange : ¬ stop < start := by omega
  simp [Tracer.outfit, Tracer.ofConfig, TracerConfig.validate, there, hdepth, hrange,
    absolute_diskOfFile, pure, Except.pure, Except.map, TracerConfig.lengthLimit]

theorem kept_only_for_running_frames_of_generator :
    let c : TracerConfig := { observed := some ⟨⟨"/p.py"⟩, 2, 4⟩, loopLimit := some 2 }
    let t : Tracer :=
      { config := c, observed := c.observed, renderer := { maxLength := some 100 }
        sink := .lines [] }
    let m : Machine := { hook := some "trace" }
    Tracer.outfit c diskOfFile [] [] {} (.lines []) = .ok t ∧ m.IsFresh ∧
      m.Disciplined Tracer.deliver (t, {}) leavingGenerator ∧
      let r := m.run Tracer.deliver (t, {}) leavingGenerator
      let s := r.state.1.session
      r.panic = none ∧ (∀ id, s.Remembers id → id ∈ r.machine.stack) ∧
        (∀ id ∈ r.machine.suspended, ¬ s.Remembers id) ∧
        (∀ id, r.machine.frame? id = none → ¬ s.Remembers id) ∧
        (r.machine.stack = [] → s.trackedFrames = 0 ∧ s.targetFrames = []) := by
  intro c t m
  have setup : Tracer.outfit c diskOfFile [] [] {} (.lines []) = .ok t :=
    outfit_diskOfFile _ (by decide) (by decide)
  have fresh : m.IsFresh := ⟨rfl, rfl, rfl, rfl⟩
  have disciplined : m.Disciplined Tracer.deliver (t, {}) leavingGenerator := by decide +kernel
  refine ⟨setup, fresh, disciplined, ?_⟩
  refine kept_only_for_running_frames setup ?_ fresh rfl disciplined
  intro f hf
  cases hf

/-- While it runs in the region the generator is attached, and neither suspension leaves it so. -/
example :
    let t : Tracer := { observed := some ⟨⟨"/p.py"⟩, 2, 4⟩, sink := .lines [] }
    let attached := fun n =>
      (Machine.run Tracer.deliver { hook := some "trace" } (t, {})
        (leavingGenerator.take n)).state.1.session.targetFrames
    attached 4 = [⟨0, 1⟩] ∧ attached 5 = [] ∧ attached 7 = [⟨0, 1⟩] ∧ attached 8 = [] := by
  decide +kernel

end SelectiveTrace
