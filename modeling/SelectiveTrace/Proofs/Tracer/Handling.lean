import SelectiveTrace.Proofs.Tracer.Inheritance
import SelectiveTrace.Proofs.Tracer.Progress

/-! What an event of a frame makes of all that a tracer keeps. Only the frame itself gains or loses
anything; it gains only while it is traced, and with its end it loses all, unless a renderer fails on
that end. -/
namespace SelectiveTrace
namespace Tracer
variable {t t' : Tracer} {w w' : Surroundings} {ctx : Context} {m : Machine} {id : FrameId}

/-- Something is kept for a frame. Without a region its open node in the graph counts as well. -/
def Holds (t : Tracer) (id : FrameId) : Prop :=
  t.session.Remembers id ∨ t.observed = none ∧ t.opens id = true

def failure? (t : Tracer) (w : Surroundings) (ctx : Context) : Option String :=
  if !ctx.event.isDiscard && (t.decide w ctx).1.isShow then t.mishap? ctx else none

def overflow? (t : Tracer) (w : Surroundings) (ctx : Context) : Option String :=
  if !ctx.event.isDiscard && (t.decide w ctx).1 = .overflow then some overflowText else none

structure Carries (t : Tracer) (w : Surroundings) (t' : Tracer) (w' : Surroundings)
    (id : FrameId) : Prop where
  config : t'.config = t.config
  observed : t'.observed = t.observed
  renderer : t'.renderer = t.renderer
  watches : t'.watches = t.watches
  directory : w'.disk.current = w.disk.current
  touches : t.session.Touches t'.session id
  others : ∀ j, j ≠ id → t'.opens j = true → t.opens j = true
  frames : t.observed = none → t'.session.targetFrames = t.session.targetFrames

theorem Carries.refl (t : Tracer) (w : Surroundings) (id : FrameId) : Carries t w t w id :=
  ⟨rfl, rfl, rfl, rfl, rfl, Session.Touches.refl _ _, fun _ _ h => h, fun _ => rfl⟩

theorem Carries.trans {t'' : Tracer} {w'' : Surroundings} (h : Carries t w t' w' id)
    (h' : Carries t' w' t'' w'' id) : Carries t w t'' w'' id :=
  ⟨h'.config.trans h.config, h'.observed.trans h.observed, h'.renderer.trans h.renderer,
    h'.watches.trans h.watches, h'.directory.trans h.directory, h.touches.trans h'.touches,
    fun j hj ho => h.others j hj (h'.others j hj ho),
    fun ho => (h'.frames (h.observed.trans ho)).trans (h.frames ho)⟩

theorem Carries.minds (h : Carries t w t' w' id) : Minds t w t' w' id :=
  ⟨⟨h.config, h.observed, h.renderer, h.touches.toBesides⟩, h.directory⟩

theorem Carries.unentered (h : Carries t w t' w' id) (ht : t.Unentered) : t'.Unentered := by
  refine ⟨?_, ?_⟩
  · intro ho
    rw [h.observed] at ho
    rw [h.frames ho, ht.frames ho]
  · intro r hr
    rw [h.observed] at hr
    rw [h.touches.codes, ht.codes r hr]

theorem Carries.holds (h : Carries t w t' w' id) {j : FrameId} (hj : j ≠ id) (hold : t'.Holds j) :
    t.Holds j := by
  rcases hold with hr | ⟨ho, hopen⟩
  · exact Or.inl ((h.touches.remembers hj).mp hr)
  · exact Or.inr ⟨h.observed ▸ ho, h.others j hj hopen⟩

/-- A frame stays traced as long as its targets stay. -/
theorem Carries.traces (h : Carries t w t' w' id)
    (frames : t'.session.targetFrames = t.session.targetFrames) (f : Frame) {below : List Frame}
    (off : ∀ g ∈ below, g.id ≠ id) : t'.traces w' f below = t.traces w f below := by
  unfold Tracer.traces Session.isTarget
  rw [h.touches.codes, frames, h.config, h.minds.handsDown off]

theorem carries_session (t : Tracer) (w : Surroundings) {s : Session}
    (touches : t.session.Touches s id)
    (frames : t.observed = none → s.targetFrames = t.session.targetFrames) :
    Carries t w { t with session := s } w id :=
  ⟨rfl, rfl, rfl, rfl, rfl, touches, fun _ _ h => h, frames⟩

theorem carries_onSession (t : Tracer) (w : Surroundings) {change : Session → Session}
    (touches : t.session.Touches (change t.session) id)
    (frames : t.observed = none → (change t.session).targetFrames = t.session.targetFrames) :
    Carries t w (t.onSession change) w id :=
  carries_session t w touches frames

theorem carries_descend (t : Tracer) (w : Surroundings) (ctx : Context) :
    Carries t w (t.descend ctx) w ctx.frame.id := by
  unfold descend
  split
  · exact carries_onSession t w (Session.touches_adjustDepth _ _ _ _) fun _ => rfl
  · exact Carries.refl _ _ _

theorem carries_noting (t : Tracer) (w : Surroundings) (ctx : Context)
    (vars : List (String × String)) : Carries t w (t.noting ctx vars) w ctx.frame.id :=
  carries_onSession t w (Session.touches_diff _ _ _) fun _ => rfl

theorem touches_release (t : Tracer) (s : Session) (id : FrameId) : s.Touches (t.release s id) id := by
  unfold release
  split
  · exact (Session.touches_detach s id).trans (Session.touches_evict _ id)
  · split
    · exact Session.Touches.refl _ _
    · exact Session.touches_evict s id

theorem targetFrames_release (s : Session) (id : FrameId) (ho : t.observed = none) :
    (t.release s id).targetFrames = s.targetFrames := by
  unfold release
  rw [ho]
  dsimp only [Option.isSome_none, Bool.false_eq_true]
  simp only [Bool.false_eq_true, if_false]
  split <;> rfl

/-- A frame that is released is forgotten. -/
theorem Unentered.forgotten_release (ht : t.Unentered) (id : FrameId) :
    ¬ (t.release t.session id).Remembers id := by
  unfold release
  cases ho : t.observed with
  | some r => exact Session.not_remembers_evict fun h => (Session.mem_detach.mp h).2 rfl
  | none =>
    have hid : id ∉ t.session.targetFrames := by simp [ht.frames ho]
    simpa [hid] using Session.not_remembers_evict hid

theorem carries_ended (t : Tracer) (w : Surroundings) (ctx : Context) :
    Carries t w (t.ended ctx) w ctx.frame.id := by
  unfold ended
  split
  · refine carries_onSession t w ?_ fun ho => targetFrames_release _ _ ho
    exact (touches_release t _ _).trans (Session.touches_adjustDepth _ _ _ _)
  · exact Carries.refl _ _ _

theorem Steady.carries (h : Steady t w t' w' id) : Carries t w t' w' id := by
  refine ⟨h.config, h.observed, h.renderer, h.watches, h.directory, ?_, h.others, ?_⟩
  · rw [h.session]
    exact ⟨⟨rfl, fun _ _ => Iff.rfl, fun _ _ => rfl⟩, fun _ _ => rfl, fun _ _ => rfl⟩
  · intro _
    rw [h.session]

section
variable {e : Option String}

theorem Progress.carries (h : Progress t w ctx t' w' e) : Carries t w t' w' ctx.frame.id := by
  have hd := carries_descend t w ctx
  cases h with
  | opened steady => exact hd.trans steady.carries
  | noted vars steady => exact (hd.trans (carries_noting _ w ctx vars)).trans steady.carries
  | whole vars steady _ =>
    exact ((hd.trans (carries_noting _ w ctx vars)).trans (carries_ended _ w ctx)).trans
      steady.carries

/-- Showing an event that is no end attaches and detaches nothing. -/
theorem Progress.frames (h : Progress t w ctx t' w' e) (running : ctx.event.isTerminal = false) :
    t'.session.targetFrames = t.session.targetFrames := by
  have hd : (t.descend ctx).session.targetFrames = t.session.targetFrames := by
    unfold descend
    split <;> rfl
  have hended : ∀ u : Tracer, u.ended ctx = u := by
    intro u
    unfold ended
    rw [running]
    rfl
  cases h with
  | opened steady => rw [steady.session, ← hd]
  | noted vars steady =>
    rw [steady.session, ← hd]
    rfl
  | whole vars steady _ =>
    rw [hended] at steady
    rw [steady.session, ← hd]
    rfl

/-- An end that is shown without a failure leaves nothing of its frame. -/
theorem Progress.forgotten (h : Progress t w ctx t' w' none) (ht : t.Unentered)
    (terminal : ctx.event.isTerminal = true) (running : ctx.event.isDiscard = false) :
    ¬ t'.Holds ctx.frame.id := by
  cases h with
  | whole vars steady shut =>
    have hu : ((t.descend ctx).noting ctx vars).Unentered :=
      ((carries_descend t w ctx).trans (carries_noting _ w ctx vars)).unentered ht
    rintro (hr | ⟨-, hopen⟩)
    · rw [steady.session] at hr
      unfold ended at hr
      rw [terminal] at hr
      exact hu.forgotten_release ctx.frame.id hr
    · rw [shut terminal running] at hopen
      cases hopen

end

/-- The session forgets a frame that is dropped, and the graph closes its node if there is one. -/
theorem dropFrame_cases (t : Tracer) (id : FrameId) :
    (t.dropFrame id = (t.onSession fun s => (s.evict id).detach id) ∧ t.opens id = false) ∨
      ∃ g, t.dropFrame id =
          { t.onSession fun s => (s.evict id).detach id with graph := some g } ∧
        ∀ j, g.isOpen j = (!Decidable.decide (j = id) && t.opens j) := by
  cases hg : t.graph with
  | none =>
    refine Or.inl ⟨by simp only [dropFrame, onSession, hg], ?_⟩
    simp [opens, hg]
  | some g =>
    cases hc : g.closeException id with
    | error e =>
      refine Or.inl ⟨by simp only [dropFrame, onSession, hg, hc], ?_⟩
      simp [opens, hg, (CallGraph.isOpen_of_unclosed hc).1]
    | ok g' =>
      refine Or.inr ⟨g', by simp only [dropFrame, onSession, hg, hc], ?_⟩
      intro j
      rw [CallGraph.isOpen_of_close hc]
      simp [opens, hg]

/-- Nothing is kept for a generator that was dropped. -/
theorem Unentered.dropFrame (ht : t.Unentered) (w : Surroundings) (id : FrameId) :
    Carries t w (t.dropFrame id) w id ∧ ¬ (t.dropFrame id).Holds id := by
  have hs : Carries t w (t.onSession fun s => (s.evict id).detach id) w id := by
    refine carries_onSession t w ?_ ?_
    · exact (Session.touches_evict _ id).trans (Session.touches_detach _ id)
    · intro ho
      simp [Session.detach, Session.evict, ht.frames ho]
  have hr : ¬ ((t.session.evict id).detach id).Remembers id := by
    have hd : id ∉ (t.session.detach id).targetFrames := fun h => (Session.mem_detach.mp h).2 rfl
    exact Session.not_remembers_evict hd
  rcases t.dropFrame_cases id with ⟨hdrop, hopen⟩ | ⟨g, hdrop, hopen⟩
  · rw [hdrop]
    refine ⟨hs, ?_⟩
    rintro (h | ⟨-, ho⟩)
    · exact hr h
    · have hno : t.opens id = true := ho
      rw [hopen] at hno
      cases hno
  · rw [hdrop]
    have hopens : ∀ j, g.isOpen j = true → j ≠ id ∧ t.opens j = true := by
      intro j hj
      simpa [hopen] using hj
    refine ⟨⟨rfl, rfl, rfl, rfl, rfl, hs.touches, fun j _ hj => (hopens j hj).2, hs.frames⟩, ?_⟩
    rintro (h | ⟨-, ho⟩)
    · exact hr h
    · exact (hopens id ho).1 rfl

theorem depths_dropFrame (t : Tracer) (id : FrameId) :
    (t.dropFrame id).session.depths = t.session.depths := by
  rcases t.dropFrame_cases id with ⟨hdrop, -⟩ | ⟨g, hdrop, -⟩ <;>
  · rw [hdrop]
    rfl

def noteFailure (t : Tracer) (ctx : Context) : Option String → Tracer
  | none => t
  | some text => t.fault (.handling ctx.event.name text)

theorem carries_noteFailure (t : Tracer) (w : Surroundings) (ctx : Context) (e : Option String)
    (id : FrameId) : Carries t w (t.noteFailure ctx e) w id := by
  cases e with
  | none => exact Carries.refl _ _ _
  | some text =>
    exact ⟨rfl, rfl, rfl, rfl, rfl, Session.Touches.refl _ _, fun _ _ h => h, fun _ => rfl⟩

/-- A shown event fails or not as its texts do. -/
theorem onEvent_of_shown {expanded : Bool} {s : Session} (running : ctx.event.isDiscard = false)
    (hd : t.decide w ctx = (.show_ expanded, { t with session := s })) :
    ∃ t' w', t.onEvent ctx w = (.proceed, t'.noteFailure ctx (t.failure? w ctx), w') ∧
      Progress { t with session := s } w ctx t' w' (t.failure? w ctx) := by
  obtain ⟨t', w', hr, hp⟩ := progress_render { t with session := s } w ctx expanded
  have hf : t.failure? w ctx = mishap? { t with session := s } ctx := by
    have hm : mishap? { t with session := s } ctx = t.mishap? ctx := by
      apply mishap?_congr <;> rfl
    rw [hm]
    simp [failure?, hd, running, Verdict.isShow]
  rw [← hf] at hr hp
  refine ⟨t', w', ?_, hp⟩
  unfold onEvent
  rw [running, hd]
  dsimp only
  rw [hr]
  cases t.failure? w ctx <;> rfl

/-- By how much the event of the frame on top of `below` moves the depth of its thread: a traced call
goes down a level, and its end goes up unless it fails. -/
def shift (t : Tracer) (w : Surroundings) (ctx : Context) (below : List Frame) : Int :=
  if t.traces w ctx.frame below then
    (if ctx.event.isCall then 1 else 0) -
      if ctx.event.isTerminal && (t.failure? w ctx).isNone then 1 else 0
  else 0

theorem Steady.depth (h : Steady t w t' w' id) (thread : Nat) :
    t'.session.depth thread = t.session.depth thread := by
  rw [h.session]
  rfl

theorem depth_release (t : Tracer) (s : Session) (id : FrameId) (thread : Nat) :
    (t.release s id).depth thread = s.depth thread := by
  unfold release
  split
  · rfl
  · split <;> rfl

theorem depth_descend (t : Tracer) (ctx : Context) :
    (t.descend ctx).session.depth ctx.frame.thread.id =
      t.session.depth ctx.frame.thread.id + if ctx.event.isCall then 1 else 0 := by
  unfold descend
  split
  · exact Session.depth_adjustDepth _ _ _
  · simp

theorem depth_ended (t : Tracer) (ctx : Context) :
    (t.ended ctx).session.depth ctx.frame.thread.id =
      t.session.depth ctx.frame.thread.id - if ctx.event.isTerminal then 1 else 0 := by
  unfold ended
  split
  · unfold onSession
    rw [Session.depth_adjustDepth, depth_release]
    rfl
  · simp

/-- The depth of a call is counted first and that of an end last. -/
theorem Progress.depth {e : Option String} (h : Progress t w ctx t' w' e) :
    t'.session.depth ctx.frame.thread.id = t.session.depth ctx.frame.thread.id +
      ((if ctx.event.isCall then 1 else 0) -
        if ctx.event.isTerminal && e.isNone then 1 else 0) := by
  have hnoting : ∀ vars, ((t.descend ctx).noting ctx vars).session.depth ctx.frame.thread.id =
      t.session.depth ctx.frame.thread.id + if ctx.event.isCall then 1 else 0 :=
    fun _ => depth_descend t ctx
  cases h with
  | opened steady => simp [steady.depth, depth_descend]
  | noted vars steady => simp [steady.depth, hnoting]
  | whole vars steady _ =>
    rw [steady.depth, depth_ended, hnoting]
    simp [Int.add_sub_assoc]

structure Handles (t : Tracer) (w : Surroundings) (ctx : Context) (below : List Frame) (a : Answer)
    (t' : Tracer) (w' : Surroundings) : Prop extends Carries t w t' w' ctx.frame.id where
  calm : ∀ text, a ≠ .panicked text
  /-- Only a frame that is not traced is given up. -/
  skipped : a = .skipFrame → t'.traces w' ctx.frame below = false
  /-- A frame that goes on holds something only while it is traced. -/
  running : ctx.event.isTerminal = false →
    (t.Holds ctx.frame.id → t.traces w ctx.frame below = true) →
    t'.Holds ctx.frame.id → t'.traces w' ctx.frame below = true
  /-- A frame that ends holds something only by a failure. -/
  ended : ctx.event.isTerminal = true →
    (t.Holds ctx.frame.id → t.traces w ctx.frame below = true) →
    t'.Holds ctx.frame.id → (t.failure? w ctx).isSome = true
  /-- Without a region, what is not traced changes nothing but the faults, and not even them where
  the levels can be counted. -/
  blind : t.observed = none → t.traces w ctx.frame below = false →
    (∃ faults, t' = { t with faults }) ∧ w' = w ∧ t.failure? w ctx = none ∧
      (t.config.overflows = false → t' = t)
  /-- Without a region, the depth follows the calls that are traced. -/
  depth : t.observed = none → t'.session.depth ctx.frame.thread.id =
    t.session.depth ctx.frame.thread.id + t.shift w ctx below

section
variable {below : List Frame} {v : Verdict} {s : Session}

theorem Ruling.carries (h : t.Ruling w ctx below v s) :
    Carries t w { t with session := s } w ctx.frame.id := by
  cases h with
  | traced _ touches _ _ _ plain =>
    exact carries_session t w touches fun ho => (plain ho).1
  | ended | untraced => exact Carries.refl _ _ _
  | released _ region touches _ =>
    refine carries_session t w touches fun ho => ?_
    rw [ho] at region
    cases region

/-- An event that is shown. -/
theorem Ruling.handles_shown {expanded : Bool} (h : t.Ruling w ctx below (.show_ expanded) s)
    (ht : t.Unentered) (off : ∀ g ∈ below, g.id ≠ ctx.frame.id)
    (live : ctx.event.isDiscard = false) {w' : Surroundings}
    (progress : Progress { t with session := s } w ctx t' w' (t.failure? w ctx)) :
    t.Handles w ctx below .proceed (t'.noteFailure ctx (t.failure? w ctx)) w' := by
  have hn := carries_noteFailure t' w' ctx (t.failure? w ctx) ctx.frame.id
  have hnoted : (t'.noteFailure ctx (t.failure? w ctx)).session = t'.session ∧
      (t'.noteFailure ctx (t.failure? w ctx)).opens = t'.opens := by
    cases t.failure? w ctx <;> exact ⟨rfl, rfl⟩
  have hshown := progress.carries.trans hn
  have hc := h.carries.trans hshown
  refine ⟨hc, by simp, by simp, ?_, ?_, ?_, ?_⟩
  · intro running _ _
    rw [hshown.traces (by rw [hnoted.1, progress.frames running]) _ off]
    cases h with
    | traced _ _ _ traces => exact traces
    | ended terminal =>
      rw [terminal] at running
      cases running
    | untraced hidden => cases hidden
  · intro terminal _ hold
    cases hf : t.failure? w ctx with
    | some text => rfl
    | none =>
      rw [hf] at progress
      have hu := h.carries.unentered ht
      refine absurd ?_ (progress.forgotten hu terminal live)
      unfold Holds at hold ⊢
      rw [hnoted.1, hnoted.2, hn.observed] at hold
      exact hold
  · intro ho dark
    have hcarries := h.carries
    cases h with
    | traced _ _ _ traces _ plain =>
      rw [hcarries.traces (plain ho).1 _ off, dark] at traces
      cases traces
    | ended _ _ traces =>
      rw [dark] at traces
      cases traces
    | untraced hidden => cases hidden
  · intro ho
    have htraces : t.traces w ctx.frame below = true ∧ s.depths = t.session.depths := by
      have hcarries := h.carries
      cases h with
      | traced _ _ _ traces _ plain =>
        exact ⟨hcarries.traces (plain ho).1 _ off ▸ traces, (plain ho).2⟩
      | ended _ _ traces => exact ⟨traces, rfl⟩
      | untraced hidden => cases hidden
    have hdepth := progress.depth
    unfold shift
    rw [htraces.1, if_pos rfl, hnoted.1, hdepth]
    simp only [Session.depth, htraces.2]

theorem carries_faults (t : Tracer) (w : Surroundings) (faults : List Error) (id : FrameId) :
    Carries t w { t with faults } w id :=
  ⟨rfl, rfl, rfl, rfl, rfl, Session.Touches.refl _ _, fun _ _ h => h, fun _ => rfl⟩

/-- An event that is not shown. -/
theorem Ruling.handles_hidden (h : t.Ruling w ctx below v s)
    (off : ∀ g ∈ below, g.id ≠ ctx.frame.id) (hidden : v.isShow = false) {a : Answer}
    (silent : t.failure? w ctx = none) (calm : ∀ text, a ≠ .panicked text)
    (skipped : a = .skipFrame → v = .skip) {faults : List Error}
    (noted : t.config.overflows = false → faults = t.faults) :
    t.Handles w ctx below a { t with session := s, faults } w := by
  have hnoted := carries_faults { t with session := s } w faults ctx.frame.id
  refine ⟨h.carries.trans hnoted, calm, ?_, ?_, ?_, ?_, ?_⟩
  · intro ha
    rw [hnoted.traces rfl _ off]
    cases h with
    | traced _ _ stays => exact absurd (skipped ha) stays
    | ended => cases hidden
    | untraced _ dark => exact dark
    | released => cases skipped ha
  · intro running known hold
    rw [hnoted.traces rfl _ off]
    cases h with
    | traced _ _ _ traces => exact traces
    | ended => cases hidden
    | untraced _ dark => exact known hold
    | released terminal =>
      rw [terminal] at running
      cases running
  · intro terminal known hold
    cases h with
    | traced running =>
      rw [terminal] at running
      cases running
    | ended => cases hidden
    | untraced _ dark =>
      rw [dark] at known
      cases known hold
    | released _ region _ forgotten =>
      rcases hold with hr | ⟨ho, -⟩
      · exact absurd hr forgotten
      · have hno : t.observed = none := ho
        rw [hno] at region
        cases region
  · intro ho dark
    have hcarries := h.carries
    cases h with
    | traced _ _ _ traces _ plain =>
      rw [hcarries.traces (plain ho).1 _ off, dark] at traces
      cases traces
    | ended => cases hidden
    | untraced =>
      refine ⟨⟨faults, rfl⟩, rfl, silent, fun counted => ?_⟩
      rw [noted counted]
    | released _ region =>
      rw [ho] at region
      cases region
  · intro ho
    have hshift : s.depths = t.session.depths ∧ t.shift w ctx below = 0 := by
      cases h with
      | traced running _ _ _ calls plain =>
        have hline : ctx.event.isCall = false := by
          cases hl : ctx.event.isLine with
          | true => cases he : ctx.event <;> simp [he, Event.isLine, Event.isCall] at hl ⊢
          | false =>
            rw [calls ho hl] at hidden
            cases hidden
        exact ⟨(plain ho).2, by simp [shift, running, hline]⟩
      | ended => cases hidden
      | untraced _ dark => exact ⟨rfl, by simp [shift, dark]⟩
      | released _ region =>
        rw [ho] at region
        cases region
    rw [hshift.2, Int.add_zero]
    simp only [Session.depth, hshift.1]

end

/-- Every event but a discard, of the frame that runs on top of `ids`. -/
theorem Unentered.handles (ht : t.Unentered) (w : Surroundings) (ctx : Context) (h : m.Linked)
    (frames : ctx.frames = m.frames)
    (live : ctx.event.isDiscard = false) {ids : List FrameId} (hs : ids <:+ m.stack)
    (back : ctx.frame.back = ids.head?) (off : ctx.frame.id ∉ ids) :
    ∃ a t' w', t.onEvent ctx w = (a, t', w') ∧ t.Handles w ctx (m.framesAt ids) a t' w' := by
  have hoff := h.framesAt_ne off
  obtain ⟨v, s, hd, ruling⟩ := ht.ruling h frames live hs back off (w := w)
  cases hv : v.isShow with
  | true =>
    obtain ⟨expanded, rfl⟩ := Verdict.isShow_iff.mp hv
    obtain ⟨t', w', he, progress⟩ := onEvent_of_shown live hd
    exact ⟨_, _, _, he, ruling.handles_shown ht hoff live progress⟩
  | false =>
    have hv' : (t.decide w ctx).1.isShow = false := by rw [hd, hv]
    obtain ⟨a, he, calm, skipped⟩ := onEvent_of_hidden live hv'
    have silent : t.failure? w ctx = none := by simp [failure?, hv']
    obtain ⟨faults, hnoted⟩ := noteVerdict_eq (t.decide w ctx).2 ctx (t.decide w ctx).1
    have counted : t.config.overflows = false → faults = t.faults := by
      intro counted
      rw [noteVerdict_of_ne _ _ (decide_ne_overflow counted w ctx), hd] at hnoted
      exact (congrArg Tracer.faults hnoted).symm
    rw [hnoted] at he
    rw [hd] at he skipped
    exact ⟨a, _, _, he, ruling.handles_hidden hoff hv silent calm skipped counted⟩

/-- An event that is not reported is handled if its frame is not traced. -/
theorem Unentered.handles_unheard (ht : t.Unentered) (w : Surroundings) (ctx : Context)
    (h : m.Linked) (frames : ctx.frames = m.frames)
    (live : ctx.event.isDiscard = false) {ids : List FrameId} (hs : ids <:+ m.stack)
    (back : ctx.frame.back = ids.head?) (off : ctx.frame.id ∉ ids)
    (dark : t.traces w ctx.frame (m.framesAt ids) = false) :
    t.Handles w ctx (m.framesAt ids) .proceed t w := by
  refine ⟨Carries.refl _ _ _, by simp, by simp, fun _ known => known, ?_, fun ho _ => ?_,
    fun _ => by simp [shift, dark]⟩
  · intro _ known hold
    rw [dark] at known
    cases known hold
  · obtain ⟨a, t', w', -, handles⟩ := ht.handles w ctx h frames live hs back off
    exact ⟨⟨t.faults, rfl⟩, rfl, (handles.blind ho dark).2.2.1, fun _ => rfl⟩

/-! Whatever the frame and the stack, an event leaves the region and the renderer alone, and it becomes
a fault exactly if it fails. -/

theorem decide_session (t : Tracer) (w : Surroundings) (ctx : Context) :
    ∃ s, (t.decide w ctx).2 = { t with session := s } := by
  unfold decide
  split
  · exact ⟨_, rfl⟩
  · dsimp only
    split
    · obtain ⟨s, hs, -⟩ := countHit_cases { t with session := _ } ctx
      exact ⟨s, hs⟩
    · exact ⟨_, rfl⟩

theorem Progress.mishaps {e : Option String} (h : Progress t w ctx t' w' e) :
    t'.mishaps = t.mishaps := by
  have hd : (t.descend ctx).mishaps = t.mishaps := by
    unfold descend
    split <;> rfl
  have hended : ∀ u : Tracer, (u.ended ctx).mishaps = u.mishaps := by
    intro u
    unfold ended
    split <;> rfl
  cases h with
  | opened steady => exact steady.mishaps.trans hd
  | noted vars steady => exact steady.mishaps.trans hd
  | whole vars steady _ => exact (steady.mishaps.trans (hended _)).trans hd

theorem onEvent_of_discard (discard : ctx.event.isDiscard = true) :
    t.onEvent ctx w = (.proceed, t.dropFrame ctx.frame.id, w) := by
  unfold onEvent
  rw [discard]
  rfl

theorem onEvent_mishaps (t : Tracer) (ctx : Context) (w : Surroundings) :
    (∀ text, (t.onEvent ctx w).1 ≠ .panicked text) ∧
      (t.onEvent ctx w).2.1.observed = t.observed ∧
      (t.onEvent ctx w).2.1.renderer = t.renderer ∧
      (t.onEvent ctx w).2.1.mishaps =
        t.mishaps ++ (((t.failure? w ctx).or (t.overflow? w ctx)).map fun text =>
          (ctx.event.name, text)).toList := by
  cases live : ctx.event.isDiscard with
  | true =>
    have hf : t.failure? w ctx = none := by simp [failure?, live]
    have hx : t.overflow? w ctx = none := by simp [overflow?, live]
    rw [onEvent_of_discard live, hf, hx]
    refine ⟨by simp, ?_⟩
    rcases t.dropFrame_cases ctx.frame.id with ⟨hdrop, -⟩ | ⟨g, hdrop, -⟩ <;>
    · rw [hdrop]
      exact ⟨rfl, rfl, (List.append_nil _).symm⟩
  | false =>
    obtain ⟨s, hs⟩ := t.decide_session w ctx
    cases hv : (t.decide w ctx).1.isShow with
    | true =>
      obtain ⟨expanded, hshow⟩ := Verdict.isShow_iff.mp hv
      obtain ⟨t', w', he, progress⟩ := onEvent_of_shown live (Prod.ext hshow hs)
      rw [he]
      refine ⟨by simp, ?_⟩
      have ho : t'.observed = t.observed := progress.carries.observed
      have hr : t'.renderer = t.renderer := progress.carries.renderer
      have hm : t'.mishaps = t.mishaps := progress.mishaps
      have hx : t.overflow? w ctx = none := by simp [overflow?, hshow]
      rw [hx, Option.or_none]
      cases t.failure? w ctx with
      | none => exact ⟨ho, hr, hm.trans (List.append_nil _).symm⟩
      | some text =>
        refine ⟨ho, hr, ?_⟩
        rw [← hm]
        simp [noteFailure, fault, mishaps, Error.mishap?]
    | false =>
      have hf : t.failure? w ctx = none := by simp [failure?, live, hv]
      obtain ⟨a, he, calm, -⟩ := onEvent_of_hidden live hv
      obtain ⟨faults, hnoted⟩ := noteVerdict_eq (t.decide w ctx).2 ctx (t.decide w ctx).1
      have hmishaps : ((t.decide w ctx).2.noteVerdict ctx (t.decide w ctx).1).mishaps =
          (t.decide w ctx).2.mishaps ++
            ((t.overflow? w ctx).map fun text => (ctx.event.name, text)).toList := by
        unfold overflow?
        cases (t.decide w ctx).1 <;> simp [noteVerdict, fault, mishaps, Error.mishap?, live]
      rw [he, hf, Option.none_or]
      refine ⟨calm, ?_, ?_, ?_⟩
      · rw [hnoted, hs]
      · rw [hnoted, hs]
      · dsimp only
        rw [hmishaps, hs]
        rfl

/-- No event changes the configuration. -/
theorem config_onEvent (t : Tracer) (ctx : Context) (w : Surroundings) :
    (t.onEvent ctx w).2.1.config = t.config := by
  cases live : ctx.event.isDiscard with
  | true =>
    rw [onEvent_of_discard live]
    rcases t.dropFrame_cases ctx.frame.id with ⟨hdrop, -⟩ | ⟨g, hdrop, -⟩ <;>
    · rw [hdrop]
      rfl
  | false =>
    obtain ⟨s, hs⟩ := t.decide_session w ctx
    cases hv : (t.decide w ctx).1.isShow with
    | true =>
      obtain ⟨expanded, hshow⟩ := Verdict.isShow_iff.mp hv
      obtain ⟨t', w', he, progress⟩ := onEvent_of_shown live (Prod.ext hshow hs)
      rw [he]
      exact (carries_noteFailure t' w' ctx _ ctx.frame.id).config.trans progress.carries.config
    | false =>
      obtain ⟨a, he, -⟩ := onEvent_of_hidden live hv
      obtain ⟨faults, hnoted⟩ := noteVerdict_eq (t.decide w ctx).2 ctx (t.decide w ctx).1
      rw [he, hnoted, hs]

end Tracer
end SelectiveTrace
