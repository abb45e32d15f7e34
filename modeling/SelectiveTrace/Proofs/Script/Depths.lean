import SelectiveTrace.Proofs.Script.Watching

/-! The depth across a block of a tracer. A block has its frame followed without having counted a call of it;
so when the frame leaves within the block, its end takes a level away that nobody has added. -/
namespace SelectiveTrace

namespace Machine
variable {m : Machine} {f : FrameId}

theorem IsGone.not_mem_stack (gone : m.IsGone f) (linked : m.Linked) : f ∉ m.stack := by
  intro hin
  obtain ⟨above, rest, hsplit⟩ := List.append_of_mem hin
  obtain ⟨g, hg, -⟩ := linked.chained f rest ⟨above, hsplit.symm⟩
  simp [standing, gone.2] at hg

end Machine

namespace Move
variable {s : Scene} {name : HookName} {key : Option String} {t : Tracer} {c : TracerConfig}
  {f : FrameId} {rest : List FrameId} {moves : List Move} {move : Move}

/-- Nothing disturbs a block on the thread. What happens there is told to the tracer and is of no frame below
the block's, no frame is taken back by name, and the tracer has no other block on the thread. -/
def Undisturbed (name : HookName) (key : Option String) (rest : List FrameId) (s : Scene) :
    Move → Prop
  | operate op => s.running = key → (∀ g ∈ op.frame?, op.retraces g = false) ∧
      ∀ ev ∈ op.event? s.machine, s.machine.hook = some name ∧ ev.1 ∉ rest
  | begin_ tracer g => s.running ≠ key ∧ (tracer = name → g.machine ≠ (s.machineOf key).id)
  | enter tracer g | exit tracer g => tracer = name → g.machine ≠ (s.machineOf key).id
  | target tracer _ => tracer ≠ name
  | finish _ | register .. | place .. | turn .. | turnBack _ => True

instance (s : Scene) : (move : Move) → Decidable (move.Undisturbed name key rest s)
  | operate _ | begin_ .. | enter .. | exit .. | target .. => by
    unfold Undisturbed
    infer_instance
  | finish _ | register .. | place .. | turn .. | turnBack _ => inferInstanceAs (Decidable True)

def IsElsewhere (key : Option String) (s : Scene) : Move → Prop
  | operate _ | begin_ .. => s.running ≠ key
  | _ => True

theorem machineOf_elsewhere (there : s.machines.contains key = true)
    (elsewhere : move.IsElsewhere key s) : (move.apply s).machineOf key = s.machineOf key := by
  unfold apply
  cases move with
  | operate op =>
    dsimp only
    rw [Scene.machineOf_operate, if_neg (Ne.symm elsewhere)]
  | begin_ tracer g =>
    have hrunning : (s.enter tracer g).running = s.running := (Scene.machine_onTracer s tracer _).2
    dsimp only
    rw [Scene.machineOf_operate, hrunning, if_neg (Ne.symm elsewhere)]
    exact Scene.machineOf_onTracer s tracer _ key
  | enter tracer g => exact Scene.machineOf_onTracer s tracer _ key
  | exit tracer g => exact Scene.machineOf_onTracer s tracer _ key
  | target tracer code => exact Scene.machineOf_onTracer s tracer _ key
  | finish tracer => exact Scene.machineOf_onTracer s tracer _ key
  | register tracer file text => exact Scene.machineOf_onTracer s tracer _ key
  | place file contents => cases contents <;> rfl
  | turnBack label => rfl
  | turn label name =>
    dsimp only
    unfold Scene.turn Scene.openThread
    split
    · rfl
    next unknown =>
      have hne : key ≠ some label := fun he => by
        rw [he] at there
        exact unknown there
      unfold Scene.machineOf
      dsimp only
      rw [Table.get?_insert_of_ne _ _ hne]

/-- A move elsewhere is about a frame of another machine at most. -/
theorem besides_elsewhere (h : Watches name key c s t) (orderly : move.Orderly s)
    (undisturbed : move.Undisturbed name key rest s) (elsewhere : move.IsElsewhere key s) :
    ∃ g : FrameId, g.machine ≠ (s.machineOf key).id ∧
      Tracer.Besides t (move.change s name t) g := by
  have hsame : ∀ {t' : Tracer}, t'.config = t.config → t'.observed = t.observed →
      t'.renderer = t.renderer → t'.session = t.session →
      ∃ g : FrameId, g.machine ≠ (s.machineOf key).id ∧ Tracer.Besides t t' g := by
    intro t' config observed renderer session
    refine ⟨⟨(s.machineOf key).id + 1, 0⟩, Nat.succ_ne_self _, config, observed, renderer, ?_⟩
    rw [session]
    exact Session.Besides.refl _ _
  have henter : ∀ g, Tracer.Besides t (t.enter s.around g) g := by
    intro g
    rw [Tracer.enter_eq h.fit.observed]
    exact ⟨rfl, rfl, rfl,
      ((Session.touches_attach _ g).trans (Session.touches_startTimer _ g _)).toBesides⟩
  cases move with
  | operate op =>
    rw [change]
    cases heard : s.heard? name op with
    | none => exact hsame rfl rfl rfl rfl
    | some ctx =>
      have hby := Scene.heardBy?_of_heard heard
      have linked : s.machine.Linked := h.apart.linked s.running
      have hminds := (Tracer.minds_heard linked orderly h.fit.total (h.fit.settled s.machine) hby
        s.around).1
      exact ⟨ctx.frame.id, (heard_elsewhere h.apart h.there elsewhere orderly hby).1,
        hminds.toBesides⟩
  | begin_ tracer g =>
    rw [change]
    split
    next hname => exact ⟨g, undisturbed.2 hname, henter g⟩
    · exact hsame rfl rfl rfl rfl
  | enter tracer g =>
    rw [change]
    split
    next hname => exact ⟨g, undisturbed hname, henter g⟩
    · exact hsame rfl rfl rfl rfl
  | exit tracer g =>
    rw [change]
    split
    next hname =>
      refine ⟨g, undisturbed hname, ?_⟩
      rw [Tracer.exit_eq h.fit.observed]
      have hd := Session.besides_detach t.session g
      exact ⟨rfl, rfl, rfl, hd.codes, hd.attached, hd.hits⟩
    · exact hsame rfl rfl rfl rfl
  | target tracer code =>
    rw [change, if_neg undisturbed]
    exact hsame rfl rfl rfl rfl
  | finish tracer =>
    rw [change]
    split
    · unfold Tracer.flush
      split
      · exact hsame rfl rfl rfl rfl
      · split <;> exact hsame rfl rfl rfl rfl
    · exact hsame rfl rfl rfl rfl
  | register tracer file text =>
    rw [change]
    split <;> exact hsame rfl rfl rfl rfl
  | place file contents | turn label thread | turnBack label => exact hsame rfl rfl rfl rfl

/-! Operations on the thread of the block. -/

section
variable {op : Op FrameId}

/-- What nobody hears changes no hook. -/
theorem operate_of_silent (name : HookName) (t : Tracer) (silent : s.machine.heardBy? op = none) :
    (operate op).change s name t = t ∧ ((operate op).apply s).around = s.around := by
  have haudience := Scene.audience_operate s op
  rw [silent] at haudience
  refine ⟨?_, congrArg Audience.around haudience⟩
  rw [change, Scene.heard?, silent]
  rfl

/-- In an undisturbed block an event on the thread is heard by the tracer or by nobody. -/
theorem Undisturbed.heard (linked : s.machine.Linked)
    (undisturbed : (operate op).Undisturbed name s.running rest s) :
    s.machine.heardBy? op = none ∨ ∃ ctx, s.heard? name op = some ctx := by
  cases heard : s.machine.heardBy? op with
  | none => exact .inl rfl
  | some x =>
    have hevent := linked.isIssued.event?_of_heardBy heard
    have hname : x.1 = name := by
      have hhook := Machine.hook_of_heardBy heard
      rw [Machine.hook_of_event hevent, ((undisturbed rfl).2 _ hevent).1] at hhook
      exact (Option.some.inj hhook).symm
    refine .inr ⟨x.2, ?_⟩
    rw [Scene.heard?, heard, Option.bind_some, if_pos hname]

/-- The machine and the tracer after an operation that the tracer has heard. -/
theorem operate_of_heard (h : Watches name s.running c s t) {ctx : Context}
    (heard : s.heard? name op = some ctx) :
    (operate op).change s name t = (t.onEvent ctx s.around).2.1 ∧
      ((operate op).apply s).around = (t.onEvent ctx s.around).2.2 ∧
      s.machine.step Audience.deliver s.audience op =
        ⟨op.after ((op.before s.machine).heed ctx.frame.id ctx.event (t.onEvent ctx s.around).1),
          (s.operate op).2.audience, none⟩ := by
  have hby := Scene.heardBy?_of_heard heard
  have linked : s.machine.Linked := h.apart.linked s.running
  have hcalm : (t.onEvent ctx s.around).1.failure? = none := by
    cases ha : (t.onEvent ctx s.around).1 with
    | panicked text => exact absurd ha ((t.onEvent_mishaps ctx s.around).1 text)
    | proceed | skipFrame => rfl
  refine ⟨?_, (Scene.tracer?_operate_of_heard h.known heard).2, ?_⟩
  · rw [change, heard]
    rfl
  · rw [Machine.step_of_told linked.isIssued hby, Scene.audience_operate, hby]
    dsimp only
    rw [Scene.answer_of_known h.known, hcalm]
    rfl

theorem not_retraces (h : ∀ g ∈ op.frame?, op.retraces g = false) (id : FrameId) :
    op.retraces id = false := by
  cases op with
  | traceFrame g => simp [Op.frame?, Op.retraces] at h
  | _ => rfl

/-- The frames below the block are followed as they were. -/
theorem below_operate (h : Watches name s.running c s t) (hd : op.IsDisciplined s.machine)
    (undisturbed : (operate op).Undisturbed name s.running rest s) :
    ((operate op).change s name t).followed ((operate op).apply s).around
        (((operate op).apply s).machineOf s.running) rest = t.followed s.around s.machine rest := by
  have linked : s.machine.Linked := h.apart.linked s.running
  obtain ⟨unretraced, told⟩ := undisturbed rfl
  rw [machineOf_operated]
  cases event : op.event? s.machine with
  | none =>
    have silent : s.machine.heardBy? op = none := by simp [Machine.heardBy?, event]
    obtain ⟨htracer, haround⟩ := operate_of_silent name t silent
    rw [htracer, haround, Machine.step_of_quiet hd event]
    refine Tracer.followed_congr fun j under _ => Tracer.follows_quiet event fun g _ hr => ?_
    rw [not_retraces unretraced] at hr
    cases hr
  | some ev =>
    have hoff := (told ev event).2
    have hminds : Tracer.Minds t s.around ((operate op).change s name t)
        ((operate op).apply s).around ev.1 := by
      rcases Undisturbed.heard linked undisturbed with silent | ⟨ctx, heard⟩
      · obtain ⟨htracer, haround⟩ := operate_of_silent name t silent
        rw [htracer, haround]
        exact (Tracer.Carries.refl t s.around ev.1).minds
      · obtain ⟨htracer, haround, -⟩ := operate_of_heard h heard
        have hby := Scene.heardBy?_of_heard heard
        have hid : ctx.frame.id = ev.1 := congrArg Prod.fst
          (Option.some.inj ((linked.isIssued.event?_of_heardBy hby).symm.trans event))
        rw [htracer, haround, ← hid]
        exact (Tracer.minds_heard linked hd h.fit.total (h.fit.settled s.machine) hby s.around).1
    exact Tracer.followed_off linked (linked.acts_step hd event)
      (fun j hj => Machine.mem_untraced_step event hj) hminds hoff

/-- What the tracer does not hear in an undisturbed block swings nothing. -/
theorem followed_of_silent (h : Watches name s.running c s t) (hd : op.IsDisciplined s.machine)
    (undisturbed : (operate op).Undisturbed name s.running rest s)
    (silent : s.machine.heardBy? op = none) :
    ((operate op).apply s).followed name s.running = s.followed name s.running := by
  have linked : s.machine.Linked := h.apart.linked s.running
  obtain ⟨unretraced, told⟩ := undisturbed rfl
  obtain ⟨htracer, haround⟩ := operate_of_silent name t silent
  have h' := h.apply (operate op) hd
  have hbefore : (op.event? s.machine).isSome = true → (op.before s.machine).hook = some name := by
    intro hsome
    obtain ⟨ev, event⟩ := Option.isSome_iff_exists.mp hsome
    exact (Machine.hook_of_event event).trans (told ev event).1
  have hground : t.ground s.around (s.machine.step Audience.deliver s.audience op).machine =
      t.ground s.around s.machine :=
    Tracer.ground_unheard linked hd hbefore (fun id _ _ _ _ hr => by
      rw [not_retraces unretraced] at hr
      cases hr) silent
  unfold Tracer.ground at hground
  rw [Machine.thread_step] at hground
  rw [h'.followed_eq, h.followed_eq, htracer, haround, machineOf_operated]
  simp only [Scene.machineOf_running]
  omega

end

def Holds (t : Tracer) (m : Machine) (f : FrameId) : Prop :=
  f ∈ t.session.targetFrames ∧ (f ∈ m.stack → f ∉ m.untraced)

/-- An event of a frame that is held and runs on does not give it up. -/
theorem clear_own {op : Op FrameId} (h : Watches name s.running c s t)
    (hd : op.IsDisciplined s.machine)
    (undisturbed : (operate op).Undisturbed name s.running rest s) {g : Frame} {e : Event}
    {under : List FrameId} (reports : op.Reports s.machine g e under)
    (holds : Holds t s.machine g.id)
    (attached : g.id ∈ ((operate op).change s name t).session.targetFrames)
    (goes : e.isTerminal = false) :
    g.id ∉ (s.machine.step Audience.deliver s.audience op).machine.untraced := by
  have linked : s.machine.Linked := h.apart.linked s.running
  have hhook : (op.before s.machine).hook = some name :=
    (Machine.hook_of_event reports.event).trans ((undisturbed rfl).2 _ reports.event).1
  rcases Undisturbed.heard linked undisturbed with silent | ⟨ctx, heard⟩
  · -- the frame would have been given up while it ran
    have hears := Tracer.unheard_of_none hd hhook reports.event reports.live silent
    obtain ⟨hcall, hmark⟩ := Machine.mem_untraced_of_unheard hears
    rcases reports.was with ⟨-, hno⟩ | ⟨hs, -⟩
    · rw [hcall] at hno
      cases hno
    · exact absurd hmark (holds.2 (hs ▸ List.mem_cons_self))
  · have hby := Scene.heardBy?_of_heard heard
    obtain ⟨htracer, -, hstep⟩ := operate_of_heard h heard
    obtain ⟨hid, he⟩ := Prod.mk.inj
      (Option.some.inj ((linked.isIssued.event?_of_heardBy hby).symm.trans reports.event))
    have hframe : ctx.frame = g := by
      have hget := linked.isIssued.get?_of_heardBy hby
      rw [hid, reports.live] at hget
      exact (Option.some.inj hget).symm
    obtain ⟨hctx, hears⟩ := Machine.context_of_heardBy linked.isIssued hby
    rw [hframe, he] at hctx hears
    have hr := Tracer.reckons_reported linked hd h.fit.total (h.fit.settled s.machine) reports
      s.around
    rw [← hctx] at hr
    rw [hstep, hid, he, reports.stays goes, Machine.mem_untraced_of_heard hears hr.calm]
    intro skip
    have htraced := Tracer.traces_of_attached (w := (t.onEvent ctx s.around).2.2)
      (htracer ▸ attached) (s.machine.framesAt under)
    rw [← hframe] at htraced
    rw [hr.skipped skip (he ▸ goes)] at htraced
    cases htraced

/-- Nothing on the thread of an undisturbed block panics. -/
theorem calm_operate {op : Op FrameId} (h : Watches name s.running c s t)
    (undisturbed : (operate op).Undisturbed name s.running rest s) :
    (s.machine.step Audience.deliver s.audience op).panic = none := by
  rcases Undisturbed.heard (h.apart.linked s.running) undisturbed with silent | ⟨ctx, heard⟩
  · rw [Machine.step_of_silent silent]
  · rw [(operate_of_heard h heard).2.2]

/-- Only a discarding of the frame itself takes it from the tracer. -/
theorem attached_operate {op : Op FrameId} (h : Watches name s.running c s t)
    (undisturbed : (operate op).Undisturbed name s.running rest s)
    (attached : f ∈ t.session.targetFrames)
    (running : ∀ e, op.event? s.machine = some (f, e) → e.isDiscard = false) :
    f ∈ ((operate op).change s name t).session.targetFrames := by
  have linked : s.machine.Linked := h.apart.linked s.running
  rcases Undisturbed.heard linked undisturbed with silent | ⟨ctx, heard⟩
  · rw [(operate_of_silent name t silent).1]
    exact attached
  · rw [(operate_of_heard h heard).1]
    have hmem := (Tracer.course_onEvent h.fit.observed h.fit.total s.around ctx).mem_targetFrames f
    refine hmem.mpr ⟨attached, fun hdrop => ?_⟩
    have hevent := linked.isIssued.event?_of_heardBy (Scene.heardBy?_of_heard heard)
    rw [hdrop.2] at hevent
    rw [running ctx.event hevent] at hdrop
    cases hdrop.1

/-- The event of another frame leaves the frame held. -/
theorem holds_of_other {op : Op FrameId} (h : Watches name s.running c s t)
    (hd : op.IsDisciplined s.machine)
    (undisturbed : (operate op).Undisturbed name s.running rest s) (holds : Holds t s.machine f)
    {ev : FrameId × Event} (event : op.event? s.machine = some ev) (other : ev.1 ≠ f) :
    Holds ((operate op).change s name t)
      (s.machine.step Audience.deliver s.audience op).machine f := by
  have hno : ∀ e, op.event? s.machine ≠ some (f, e) := by
    intro e he
    rw [event] at he
    exact other (congrArg Prod.fst (Option.some.inj he))
  refine ⟨attached_operate h undisturbed holds.1 fun e he => absurd he (hno e), fun hin hmark => ?_⟩
  exact holds.2 ((h.apart.linked s.running).mem_stack_step (calm_operate h undisturbed) hd hno hin)
    ((Machine.mem_untraced_step event other.symm).mp hmark)

/-- A frame that is discarded is gone. -/
theorem isGone_of_drops {op : Op FrameId} (h : Watches name s.running c s t)
    (hd : op.IsDisciplined s.machine)
    (undisturbed : (operate op).Undisturbed name s.running rest s) {g : Frame}
    (drops : op.Drops s.machine g) :
    (s.machine.step Audience.deliver s.audience op).machine.IsGone g.id := by
  obtain ⟨a, ha⟩ := Machine.machine_step_of_event (calm_operate h undisturbed) hd drops.event
  have hop : op = .discard g.id := by
    have event := drops.event
    cases op <;> simp_all [Op.event?]
  have hissued := ((Machine.continues_before s.machine op).isIssued
    (h.apart.linked s.running).isIssued _ _ drops.live).1
  refine ⟨?_, ?_⟩
  · exact (Machine.continues_step_of_before Audience.deliver s.machine s.audience
      (Machine.applies_of_disciplined hd)).hasIssued hissued
  · rw [ha, hop]
    exact Table.get?_erase_self _ _

/-- An event of the frame that runs on leaves it held, and so does its end, which takes the frame
off the stack. -/
theorem holds_of_own {op : Op FrameId} (h : Watches name s.running c s t)
    (hd : op.IsDisciplined s.machine)
    (undisturbed : (operate op).Undisturbed name s.running rest s) {g : Frame} {e : Event}
    {under : List FrameId} (reports : op.Reports s.machine g e under)
    (holds : Holds t s.machine g.id) :
    Holds ((operate op).change s name t)
      (s.machine.step Audience.deliver s.audience op).machine g.id := by
  have hrunning : ∀ e', op.event? s.machine = some (g.id, e') → e'.isDiscard = false := by
    intro e' he
    rw [reports.event] at he
    rw [← (Prod.mk.inj (Option.some.inj he)).2]
    exact reports.running
  have hattached := attached_operate h undisturbed holds.1 hrunning
  refine ⟨hattached, fun hin hmark => ?_⟩
  obtain ⟨a, ha⟩ := Machine.machine_step_of_event (calm_operate h undisturbed) hd reports.event
  have hstack := reports.stack_after
    ((Machine.stack_heed (op.before s.machine) g.id e a).trans reports.stack)
  have goes : e.isTerminal = false := by
    cases hterm : e.isTerminal with
    | false => rfl
    | true =>
      rw [ha, hstack, hterm] at hin
      exact absurd hin (reports.off (h.apart.linked s.running) hd)
  exact clear_own h hd undisturbed reports holds hattached goes hmark

/-- An operation on the thread leaves the frame held, or drops it for good. -/
theorem holds_operate {op : Op FrameId} (h : Watches name s.running c s t)
    (hd : op.IsDisciplined s.machine)
    (undisturbed : (operate op).Undisturbed name s.running rest s) (holds : Holds t s.machine f) :
    Holds ((operate op).change s name t) (((operate op).apply s).machineOf s.running) f ∨
      (((operate op).apply s).machineOf s.running).IsGone f := by
  have linked : s.machine.Linked := h.apart.linked s.running
  rw [machineOf_operated]
  cases Op.Telling.of_disciplined linked hd with
  | nothing event stack =>
    refine .inl ⟨attached_operate h undisturbed holds.1 fun e he => ?_, fun hin hmark => ?_⟩
    · rw [event] at he
      cases he
    · rw [Machine.step_of_quiet hd event] at hin hmark
      exact holds.2 (stack ▸ hin) (Op.mem_untraced_before.mp hmark).1
  | drop g drops =>
    by_cases hf : g.id = f
    · exact .inr (hf ▸ isGone_of_drops h hd undisturbed drops)
    · exact .inl (holds_of_other h hd undisturbed holds drops.event hf)
  | event g e under reports =>
    by_cases hf : g.id = f
    · subst hf
      exact .inl (holds_of_own h hd undisturbed reports holds)
    · exact .inl (holds_of_other h hd undisturbed holds reports.event hf)

theorem elsewhere_or (undisturbed : move.Undisturbed name key rest s) :
    (∃ op, move = operate op ∧ s.running = key) ∨ move.IsElsewhere key s := by
  cases move with
  | operate op =>
    by_cases hrunning : s.running = key
    · exact .inl ⟨op, rfl, hrunning⟩
    · exact .inr hrunning
  | begin_ tracer g => exact .inr undisturbed.1
  | _ => exact .inr trivial

/-- In an undisturbed block of the frame, where so many frames below it are followed. -/
structure Inside (name : HookName) (key : Option String) (c : TracerConfig) (f : FrameId)
    (rest : List FrameId) (n : Nat) (s : Scene) (t : Tracer) : Prop
    extends Watches name key c s t where
  ours : ∀ j ∈ f :: rest, j.machine = (s.machineOf key).id
  below : t.followed s.around (s.machineOf key) rest = n
  held : Holds t (s.machineOf key) f ∨ (s.machineOf key).IsGone f

namespace Inside
variable {n : Nat}

/-- Where a block begins its frame is held. -/
theorem of_begin (h : Watches name s.running c s t) (stack : s.machine.stack = f :: rest) :
    (∃ n, Inside name s.running c f rest n ((begin_ name f).apply s)
      ((begin_ name f).change s name t)) ∧
      (((begin_ name f).apply s).machineOf s.running).stack = f :: rest := by
  have hwatches := h.apply (begin_ name f) trivial
  have linked : s.machine.Linked := h.apart.linked s.running
  have hmachine : ((begin_ name f).apply s).machineOf s.running =
      { s.machine with untraced := Machine.without s.machine.untraced f } := by
    have hpassage := passage_apply s s.running (begin_ name f)
    generalize ((begin_ name f).apply s).machineOf s.running = m at hpassage ⊢
    cases hpassage with
    | same idle => exact absurd rfl (idle name f rfl)
    | retraced => rfl
  have hours : ∀ j ∈ f :: rest, j.machine = s.machine.id := by
    intro j hj
    obtain ⟨above, under, hsplit⟩ := List.append_of_mem (stack.symm ▸ hj : j ∈ s.machine.stack)
    obtain ⟨x, hx, -⟩ := linked.chained j under ⟨above, hsplit.symm⟩
    exact (linked.known j x hx).2.2.1
  have hattached : f ∈ ((begin_ name f).change s name t).session.targetFrames := by
    rw [change, if_pos rfl, Tracer.enter_eq h.fit.observed]
    exact Session.mem_attach.mpr (.inl rfl)
  refine ⟨⟨_, hwatches, ?_, rfl, .inl ⟨hattached, fun _ => ?_⟩⟩, ?_⟩ <;> rw [hmachine]
  · exact hours
  · exact fun hmark => (Machine.mem_without.mp hmark).2 rfl
  · exact stack

theorem apply (h : Inside name key c f rest n s t) (orderly : move.Orderly s)
    (undisturbed : move.Undisturbed name key rest s) :
    Inside name key c f rest n (move.apply s) (move.change s name t) := by
  have hwatches := h.toWatches.apply move orderly
  obtain ⟨-, hid, -⟩ := numbers_apply h.apart h.there move
  have hours : ∀ j ∈ f :: rest, j.machine = ((move.apply s).machineOf key).id :=
    fun j hj => (h.ours j hj).trans hid.symm
  rcases elsewhere_or undisturbed with ⟨op, rfl, rfl⟩ | elsewhere
  · refine ⟨hwatches, hours, (below_operate h.toWatches orderly undisturbed).trans h.below, ?_⟩
    rcases h.held with holds | gone
    · exact holds_operate h.toWatches orderly undisturbed holds
    · rw [machineOf_operated]
      exact .inr ((Machine.continues_step Audience.deliver _ s.audience op).isGone gone)
  · obtain ⟨g, hg, besides⟩ := besides_elsewhere h.toWatches orderly undisturbed elsewhere
    have hmachine := machineOf_elsewhere h.there elsewhere
    have hne : f ≠ g := fun he => hg (he ▸ h.ours f List.mem_cons_self)
    have hoff : g ∉ rest := fun hin => hg (h.ours g (List.mem_cons_of_mem f hin))
    refine ⟨hwatches, hours, ?_, ?_⟩
    · rw [hmachine, Tracer.followed_of_besides hwatches.fit.observed (h.apart.linked key) besides
        hoff s.around]
      exact h.below
    · rw [hmachine]
      exact h.held.imp_left fun holds => ⟨(besides.session.attached f hne).mpr holds.1, holds.2⟩

theorem swing_eq (h : Inside name key c f rest n s t) (orderly : move.Orderly s)
    (undisturbed : move.Undisturbed name key rest s) : move.swing name key s = 0 := by
  unfold swing
  cases hear : move.isHeard name key s with
  | true => rfl
  | false =>
    have hwatches := h.toWatches.apply move orderly
    refine (if_neg Bool.false_ne_true).trans (Int.sub_eq_zero.mpr ?_)
    rcases elsewhere_or undisturbed with ⟨op, rfl, rfl⟩ | elsewhere
    · refine followed_of_silent h.toWatches orderly undisturbed ?_
      refine (Undisturbed.heard (h.apart.linked s.running) undisturbed).resolve_right ?_
      rintro ⟨ctx, heard⟩
      simp [isHeard, heard] at hear
    · obtain ⟨g, hg, besides⟩ := besides_elsewhere h.toWatches orderly undisturbed elsewhere
      have linked := h.apart.linked key
      have hoff : g ∉ (s.machineOf key).stack := by
        intro hin
        obtain ⟨above, under, hsplit⟩ := List.append_of_mem hin
        obtain ⟨x, hx, -⟩ := linked.chained g under ⟨above, hsplit.symm⟩
        exact hg (linked.known g x hx).2.2.1
      rw [hwatches.followed_eq, h.followed_eq, machineOf_elsewhere h.there elsewhere,
        Tracer.followed_of_besides hwatches.fit.observed linked besides hoff s.around]

theorem after (h : Inside name key c f rest n s t) (orderly : Throughout Orderly s moves)
    (undisturbed : Throughout (Undisturbed name key rest) s moves) :
    (∃ t', Inside name key c f rest n (Move.after s moves) t') ∧ swings name key s moves = 0 := by
  induction moves generalizing s t with
  | nil => exact ⟨⟨t, h⟩, rfl⟩
  | cons move moves ih =>
    obtain ⟨hend, hswings⟩ := ih (h.apply orderly.1 undisturbed.1) orderly.2 undisturbed.2
    refine ⟨hend, ?_⟩
    rw [swings, h.swing_eq orderly.1 undisturbed.1, hswings]
    rfl

/-- While the frame runs on top of the others it is followed. -/
theorem followed_top (h : Inside name key c f rest n s t)
    (stack : (s.machineOf key).stack = f :: rest) : s.followed name key = n + 1 := by
  have linked := h.apart.linked key
  have hin : f ∈ (s.machineOf key).stack := stack ▸ List.mem_cons_self
  have hholds : Holds t (s.machineOf key) f :=
    h.held.resolve_right fun gone => gone.not_mem_stack linked hin
  obtain ⟨x, hx, -⟩ := linked.top stack
  have hfollows : t.follows s.around (s.machineOf key) f rest = true := by
    have hmark : (s.machineOf key).untraced.contains f = false := by
      simpa using hholds.2 hin
    have hattached : x.id ∈ t.session.targetFrames := (linked.known f x hx).1 ▸ hholds.1
    unfold Tracer.follows
    rw [hmark, hx, Option.any_some, Tracer.traces_of_attached hattached]
    rfl
  rw [h.followed_eq, stack, Tracer.followed, hfollows, h.below]
  simp only [Bool.toNat_true]
  omega

theorem followed_left (h : Inside name key c f rest n s t)
    (stack : (s.machineOf key).stack = rest) : s.followed name key = n := by
  rw [h.followed_eq, stack, h.below]

end Inside

end Move

open Move

/-- A tracer without a region, whose renderers do not fail, and a block on the frame that runs. The depth of
its thread moves with the frames that the tracer follows, as far as it hears of them. So in a block that
nothing disturbs, and in which the frames below it come to nothing, the calls and ends of all other frames
cancel out: the depth is the one before if the block's frame still runs when the block ends, and one less if it
has left by then. -/
theorem block_depth_by_frames_followed {s : Scene} {name : HookName} {t : Tracer} {f : FrameId}
    {rest : List FrameId} (enabled : s.isDisabled = false) (known : s.tracer? name = some t)
    (region : t.observed = none) (total : t.renderer.IsTotal) (apart : s.IsApart)
    (stack : s.machine.stack = f :: rest) (body : Program)
    (orderly : Throughout Orderly s.stand ((Step.snoop name body).moves s)) :
    let key := s.running
    let begun := (Move.begin_ name f).apply s.stand
    let inner := movesUnder name body (s.beginBlock name)
    let s' := ((Step.snoop name body).run s).2
    ∃ t', s'.tracer? name = some t' ∧
      t'.session.depth s.machine.thread.id = t.session.depth s.machine.thread.id +
        (after begun inner).followed name key - begun.followed name key -
        swings name key begun inner ∧
      (Throughout (Undisturbed name key rest) begun inner →
        ((s'.machineOf key).stack = f :: rest →
          t'.session.depth s.machine.thread.id = t.session.depth s.machine.thread.id) ∧
        ((s'.machineOf key).stack = rest →
          t'.session.depth s.machine.thread.id = t.session.depth s.machine.thread.id - 1)) := by
  intro key begun inner s'
  have watches : Watches name key t.config s.stand t :=
    ⟨known, ⟨rfl, region, total⟩, apart.of_machines rfl apart.running rfl, apart.running⟩
  have hmoves : (Step.snoop name body).moves s = .begin_ name f :: (inner ++ [.exit name f]) :=
    Step.moves_snoop name body enabled (by rw [Machine.current, stack]; rfl)
  rw [hmoves] at orderly
  obtain ⟨horderly, -⟩ := throughout_append.mp orderly.2
  have hbegun := watches.apply (.begin_ name f) trivial
  have hdepth₀ := watches.depth_unheard (.begin_ name f) trivial rfl
  obtain ⟨-, -, hthread₀⟩ := numbers_apply watches.apart watches.there (.begin_ name f)
  obtain ⟨u, hu, hthread, hdepth⟩ := hbegun.depth_after horderly
  have hdepth' := hu.depth_unheard (.exit name f) trivial rfl
  rw [hthread₀] at hdepth
  rw [hthread.trans hthread₀] at hdepth'
  have hend : s'.stand = (Move.exit name f).apply (after begun inner) := by
    rw [show s'.stand = _ from Step.stand_run (Step.snoop name body) s, hmoves, after_cons,
      after_append]
    rfl
  have hlaw : ((Move.exit name f).change (after begun inner) name u).session.depth
      s.machine.thread.id = t.session.depth s.machine.thread.id +
        (after begun inner).followed name key - begun.followed name key -
        swings name key begun inner :=
    hdepth'.trans (hdepth.trans (by rw [hdepth₀]; rfl))
  refine ⟨(Move.exit name f).change (after begun inner) name u, ?_, hlaw, fun undisturbed => ?_⟩
  · show s'.stand.tracer? name = _
    rw [hend]
    exact tracer?_apply hu.known _
  · obtain ⟨⟨n, hinside⟩, hstack⟩ := Inside.of_begin (s := s.stand) watches stack
    obtain ⟨⟨v, hv⟩, hswings⟩ := hinside.after horderly undisturbed
    have hmachine : s'.machineOf key = (after begun inner).machineOf key := by
      show s'.stand.machineOf key = _
      rw [hend]
      exact machineOf_elsewhere hu.there trivial
    have hbefore : begun.followed name key = n + 1 := hinside.followed_top hstack
    have hnone : swings name key begun inner = 0 := hswings
    rw [hmachine, hlaw, hbefore, hnone]
    refine ⟨fun runs => ?_, fun left => ?_⟩
    · rw [show (after begun inner).followed name key = n + 1 from hv.followed_top runs]
      omega
    · rw [show (after begun inner).followed name key = n from hv.followed_left left]
      omega

theorem Scene.isApart_ofRunning (c : TracerConfig) : (Scene.ofRunning c).IsApart := by
  have hfresh : Machine.Linked {} := Machine.IsFresh.linked ⟨rfl, rfl, rfl, rfl⟩
  have hknown : ∀ key, (Scene.ofRunning c).machines.contains key = true → key = none := by
    intro key hkey
    have hinsert := Table.contains_insert (⟨[]⟩ : Table (Option String) Machine) none key
      (({} : Machine).pushFrame ⟨"f", ⟨"/p.py"⟩, 1⟩ {})
    rw [show (Scene.ofRunning c).machines.contains key = _ from hinsert] at hkey
    simpa [Table.contains] using hkey
  refine ⟨rfl, fun key => ?_, fun key hkey => ?_, fun k k' hk hk' hne => ?_⟩
  · cases key with
    | none => exact hfresh.pushFrame ⟨"f", ⟨"/p.py"⟩, 1⟩ {}
    | some label => exact hfresh
  · rw [hknown key hkey]
    exact ⟨Nat.one_pos, Nat.one_pos⟩
  · exact absurd ((hknown k hk).trans (hknown k' hk').symm) hne

def raisingBlock : Program :=
  [.act (.host (some "b") (.call ⟨"g", ⟨"/p.py"⟩, 4⟩ [])), .act (.host none (.ret "b" (.int 1))),
    .act (.host none (.raise "a" ⟨"ValueError", "boom"⟩))]

/-- The call and the return cancel out, the end by the exception does not. -/
theorem block_depth_by_frames_followed_when_raising :
    let s := Scene.ofRunning {}
    let block := Step.snoop "T" raisingBlock
    Throughout Orderly s.stand (block.moves s) ∧
      Throughout (Undisturbed "T" none []) ((Move.begin_ "T" ⟨0, 0⟩).apply s.stand)
        (movesUnder "T" raisingBlock (s.beginBlock "T")) ∧
      ((block.run s).2.machineOf none).stack = [] ∧
      ∃ t t', s.tracer? "T" = some t ∧ (block.run s).2.tracer? "T" = some t' ∧
        t'.session.depth 0 = t.session.depth 0 - 1 := by
  intro s block
  have total : Renderer.IsTotal {} := Renderer.isTotal_of_custom (by simp)
  have orderly : Throughout Orderly s.stand (block.moves s) := by
    unfold block s
    simp only [raisingBlock, Step.moves, movesAll, movesUnder, Step.run]
    decide +kernel
  have undisturbed : Throughout (Undisturbed "T" none [])
      ((Move.begin_ "T" ⟨0, 0⟩).apply s.stand)
      (movesUnder "T" raisingBlock (s.beginBlock "T")) := by
    unfold s
    simp only [raisingBlock, Step.moves, movesAll, movesUnder, Step.run]
    decide +kernel
  have left : ((block.run s).2.machineOf none).stack = [] := by
    unfold block
    simp only [raisingBlock, runAll, Step.run, runUnder]
    decide +kernel
  obtain ⟨t', hknown, -, hdepth⟩ := @block_depth_by_frames_followed s "T" _ ⟨0, 0⟩ [] rfl rfl rfl
    total (Scene.isApart_ofRunning {}) rfl raisingBlock orderly
  exact ⟨orderly, undisturbed, left, _, t', rfl, hknown, (hdepth undisturbed).2 left⟩

/-- A block in which its frame returns: the depth of the thread is one less after it than before it. -/
theorem block_ended_by_return_takes_level :
    let s := Scene.ofRunning {}
    let block := Step.snoop "T" [.act (.host none (.ret "a" (.int 1)))]
    s.isDisabled = false ∧ s.machine.current = some ⟨0, 0⟩ ∧
      (∃ t, s.tracer? "T" = some t ∧ t.observed = none ∧ t.renderer.IsTotal ∧
        t.session.depth s.machine.thread.id = -1) ∧
      Throughout Orderly s.stand (block.moves s) ∧ (block.run s).1 = .done ∧
      ∃ t', (block.run s).2.tracer? "T" = some t' ∧
        t'.session.depth s.machine.thread.id = -2 := by
  intro s block
  have total : Renderer.IsTotal {} := Renderer.isTotal_of_custom (by simp)
  refine ⟨rfl, rfl, ⟨_, rfl, rfl, total, by decide +kernel⟩, ?_, ?_, ?_⟩
  · unfold block s
    simp only [Step.moves, movesAll, movesUnder, Step.run]
    decide +kernel
  · unfold block
    simp only [runAll, Step.run, runUnder]
    decide +kernel
  · have hleft : ((block.run s).2.tracer? "T").any
        (fun t => t.session.depth s.machine.thread.id = -2) = true := by
      unfold block
      simp only [runAll, Step.run, runUnder]
      decide +kernel
    obtain ⟨t', hknown, hdepth⟩ := (Option.any_eq_true _ _).mp hleft
    exact ⟨t', hknown, of_decide_eq_true hdepth⟩

end SelectiveTrace
