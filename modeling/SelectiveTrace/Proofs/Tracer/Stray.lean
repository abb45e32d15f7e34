import SelectiveTrace.Proofs.Host.Fleet
import SelectiveTrace.Proofs.Tracer.Upkeep

/-! The lines of an observed region that are missed. A call inside the region is always shown, and so
is a line, unless its frame has strayed: an earlier event of it came while other frames were attached
and fewer frames ran below it than are looked at. -/
namespace SelectiveTrace

/-- What stands inside by its spelling stands inside. -/
theorem Region.holds_of_surrounds (r : Region) (w : Surroundings) {f : Frame}
    (h : r.surrounds f = true) : r.holds w f = true := by
  simp only [surrounds, Bool.and_eq_true] at h
  simp [holds, h.1, h.2]

namespace Tracer
variable {t t' : Tracer} {w w' : Surroundings} {c : TracerConfig} {r : Region} {ctx : Context}
  {m : Machine}

structure Surveys (t : Tracer) (c : TracerConfig) (r : Region) : Prop where
  config : t.config = c
  observed : t.observed = some r
  codes : t.session.targetCodes = []
  unlimited : t.config.hitLimit = none
  total : t.renderer.IsTotal

theorem Surveys.unentered (h : t.Surveys c r) : t.Unentered := by
  refine ⟨fun ho => ?_, fun _ _ => h.codes⟩
  rw [h.observed] at ho
  cases ho

theorem Surveys.carried {id : FrameId} (h : t.Surveys c r) (carries : Carries t w t' w' id) :
    t'.Surveys c r :=
  ⟨carries.config.trans h.config, carries.observed.trans h.observed,
    carries.touches.codes.trans h.codes, carries.config ▸ h.unlimited, carries.renderer ▸ h.total⟩

/-- An event loses its frame. Frames are attached but not this one, and it is not going to be; it runs
on top of fewer frames than are looked at, and none of them hands tracing down. -/
def Loses (t : Tracer) (w : Surroundings) (r : Region) (ctx : Context) (below : List Frame) : Prop :=
  t.session.targetFrames ≠ [] ∧ ctx.frame.id ∉ t.session.targetFrames ∧
    ¬ (r.holds w ctx.frame = true ∧ ctx.event.isTerminal = false) ∧
    below.length < levels t.config ∧
    ∀ g ∈ below, ¬ (g.id ∈ t.session.targetFrames ∧ r.holds w g = true)

instance (t : Tracer) (w : Surroundings) (r : Region) (ctx : Context) (below : List Frame) :
    Decidable (t.Loses w r ctx below) :=
  inferInstanceAs (Decidable (_ ∧ _))

theorem Surveys.isSource (h : t.Surveys c r) (w : Surroundings) (g : Frame) :
    t.isSource w g = true ↔ g.id ∈ t.session.targetFrames ∧ r.holds w g = true := by
  simp [Tracer.isSource, h.codes, h.observed]

/-- The search for a target gives an event of the observed file up only if it runs out of frames. -/
theorem Surveys.inheritFrom_eq_skip (hs : t.Surveys c r) (h : m.Linked) (w : Surroundings)
    (frames : ctx.frames = m.frames) (file : ctx.frame.file.same r.file = true) (n : Nat)
    {ids : List FrameId} (hids : ids <:+ m.stack) {f : Frame} (back : f.back = ids.head?) :
    t.inheritFrom w ctx n f = .skip ↔ (m.framesAt ids).length < n ∧
      ∀ g ∈ m.framesAt ids, ¬ (g.id ∈ t.session.targetFrames ∧ r.holds w g = true) := by
  -- the levels that are left against the frames that are left
  induction n generalizing ids f with
  | zero => simp [inheritFrom, unrelated, hs.observed, file]
  | succ n ih =>
    cases ids with
    | nil =>
      rw [inheritFrom, back]
      simp [Machine.framesAt]
    | cons id ids =>
      obtain ⟨above, ha, hback⟩ := h.chained id ids hids
      obtain ⟨g, hg, rfl⟩ := Machine.get?_of_standing ha
      have hsource : t.isSource w g = true ↔
          g.place.id ∈ t.session.targetFrames ∧ r.holds w g.place = true := hs.isSource w g
      rw [inheritFrom, back, List.head?_cons, Option.bind_some, frames, hg,
        Machine.framesAt_cons ha]
      dsimp only
      by_cases hc : t.isSource w g = true
      · have hx : t.isExhausted g = false := by simp [isExhausted, hs.unlimited]
        rw [if_pos hc, hx]
        refine iff_of_false ?_ fun hall => hall.2 g.place List.mem_cons_self (hsource.mp hc)
        simp only [Bool.false_eq_true, if_false]
        split
        · split <;> simp
        · simp
      · have hnext := ih (f := g.place) ((List.suffix_cons id ids).trans hids) hback
        have hplace : t.inheritFrom w ctx n g.place = t.inheritFrom w ctx n g := by
          cases n <;> rfl
        have hno := fun hp => hc (hsource.mpr hp)
        rw [if_neg hc, ← hplace, hnext]
        simp only [List.length_cons, Nat.add_lt_add_iff_right, List.forall_mem_cons]
        exact and_congr_right fun _ => (and_iff_right hno).symm

/-! What the gate says about a frame of the observed file. -/

theorem gate_inside (s : Session) (w : Surroundings) (file : ctx.frame.file.same r.file = true)
    (inside : r.holds w ctx.frame = true) (running : ctx.event.isTerminal = false)
    (live : ctx.event.isDiscard = false) :
    ∃ s', gate r w s ctx = (none, s') ∧ ctx.frame.id ∈ s'.targetFrames := by
  unfold gate
  rw [activating_eq live]
  simp only [file, inside, running, Bool.not_true, Bool.not_false, Bool.or_self, Bool.true_and,
    Bool.false_eq_true, if_false, if_true]
  have hactivate := fun isFirst => (besides_activate s w.now ctx.frame isFirst).2
  split
  · exact ⟨_, rfl, hactivate true⟩
  · split
    · exact ⟨_, rfl, hactivate false⟩
    next hin => exact ⟨s, rfl, by simpa using hin⟩

theorem gate_beyond (s : Session) (w : Surroundings) (file : ctx.frame.file.same r.file = true)
    (beyond : ¬ (r.holds w ctx.frame = true ∧ ctx.event.isTerminal = false))
    (live : ctx.event.isDiscard = false) :
    (gate r w s ctx = (none, s) ∧ s.targetFrames ≠ []) ∨
      (∃ s', gate r w s ctx = (some .ignore, s')) ∧
        (s.targetFrames = [] ∨ ctx.frame.id ∈ s.targetFrames) := by
  have hidle : (r.holds w ctx.frame && !ctx.event.isTerminal) = false := by
    simpa using beyond
  unfold gate
  rw [activating_eq live]
  simp only [file, Bool.not_true, Bool.false_eq_true, if_false, ← Bool.not_and, hidle,
    Bool.not_false, if_true]
  split
  next hempty => exact Or.inr ⟨⟨_, rfl⟩, Or.inl (List.isEmpty_iff.mp hempty)⟩
  next hsome =>
    have hne : s.targetFrames ≠ [] := by simpa using hsome
    split
    next inside =>
      have hterm : ctx.event.isTerminal = true := by simpa [inside] using hidle
      simp [hterm, hne]
    · split
      next hin => exact Or.inr ⟨⟨_, rfl⟩, Or.inr (List.contains_iff_mem.mp hin)⟩
      · exact Or.inl ⟨rfl, hne⟩

/-- Where no hits are counted, the targets decide what the gate lets pass. -/
theorem Surveys.decide_passed (hs : t.Surveys c r) {s : Session}
    (passed : gate r w t.session ctx = (none, s)) :
    t.decide w ctx = (verdict { t with session := s } w ctx, { t with session := s }) := by
  have hgated : t.gated w ctx = (none, s) := by
    unfold gated
    rw [hs.observed]
    exact passed
  have hcount : countHit { t with session := s } ctx = (false, { t with session := s }) := by
    simp [countHit, hs.unlimited]
  unfold decide
  rw [hgated]
  dsimp only
  cases verdict { t with session := s } w ctx with
  | show_ expanded =>
    rw [hcount]
    rfl
  | skip | ignore | overflow => rfl

theorem verdict_of_attached {s : Session} (h : ctx.frame.id ∈ s.targetFrames) :
    verdict { t with session := s } w ctx = .show_ false := by
  simp [verdict, Session.isTarget, h]

/-- An event inside the region is shown. -/
theorem Surveys.decide_inside (hs : t.Surveys c r) (w : Surroundings)
    (file : ctx.frame.file.same r.file = true) (inside : r.holds w ctx.frame = true)
    (running : ctx.event.isTerminal = false) (live : ctx.event.isDiscard = false) :
    ∃ s, t.decide w ctx = (.show_ false, { t with session := s }) := by
  obtain ⟨s, passed, attached⟩ := gate_inside t.session w file inside running live
  refine ⟨s, ?_⟩
  rw [hs.decide_passed passed, verdict_of_attached attached]

/-- An event of a frame of the observed file gives the frame up exactly if it loses it. -/
theorem Surveys.decide_eq_skip (hs : t.Surveys c r) (h : m.Linked) (w : Surroundings)
    (ctx : Context) (frames : ctx.frames = m.frames) (file : ctx.frame.file.same r.file = true)
    (live : ctx.event.isDiscard = false) {ids : List FrameId} (hids : ids <:+ m.stack)
    (back : ctx.frame.back = ids.head?) :
    (t.decide w ctx).1 = .skip ↔ t.Loses w r ctx (m.framesAt ids) := by
  by_cases hin : r.holds w ctx.frame = true ∧ ctx.event.isTerminal = false
  · obtain ⟨s, hd⟩ := hs.decide_inside w file hin.1 hin.2 live
    rw [hd]
    exact iff_of_false (by simp) fun hl => hl.2.2.1 hin
  · rcases gate_beyond t.session w file hin live with ⟨passed, hne⟩ | ⟨⟨s, hignored⟩, hkept⟩
    · rw [hs.decide_passed passed]
      by_cases hattached : ctx.frame.id ∈ t.session.targetFrames
      · rw [verdict_of_attached hattached]
        exact iff_of_false (by simp) fun hl => hl.2.1 hattached
      · cases counted : t.config.overflows with
        | true =>
          have hverdict : t.verdict w ctx = .overflow := by
            simp [verdict, Session.isTarget, hs.codes, hattached, counted]
          refine iff_of_false (by simp [hverdict]) fun hl => ?_
          have hlevels : levels t.config = 0 := by simp [levels, counted]
          exact Nat.not_lt_zero _ (hlevels ▸ hl.2.2.2.1)
        | false =>
          have hverdict : t.verdict w ctx = t.inheritFrom w ctx (levels t.config) ctx.frame := by
            simp [verdict, Session.isTarget, hs.codes, hattached, counted]
          have hsearch := hs.inheritFrom_eq_skip h w frames file (levels t.config) hids back
          refine Iff.trans (Eq.congr_left hverdict) (hsearch.trans ?_)
          exact ⟨fun hl => ⟨hne, hattached, hin, hl⟩, fun hl => hl.2.2.2⟩
    · have hd : (t.decide w ctx).1 = .ignore := by
        simp only [decide, gated, hs.observed, hignored]
      rw [hd]
      exact iff_of_false (by simp) fun hl => hkept.elim hl.1 hl.2.1

def Shows (s : Tracer × Surroundings) (ctx : Context) (s' : Tracer × Surroundings) : Prop :=
  let d := s.1.decide s.2 ctx
  d.1 = .show_ false ∧ d.2.render s.2 ctx false = (s'.1, s'.2, none)

theorem Surveys.shows_inside (hs : t.Surveys c r) (w : Surroundings) (ctx : Context)
    (file : ctx.frame.file.same r.file = true) (inside : r.holds w ctx.frame = true)
    (running : ctx.event.isTerminal = false) (live : ctx.event.isDiscard = false) :
    ∃ s', t.onEvent ctx w = (.proceed, s') ∧ Shows (t, w) ctx s' := by
  obtain ⟨s, hd⟩ := hs.decide_inside w file inside running live
  obtain ⟨t', w', hr, -⟩ := progress_render { t with session := s } w ctx false
  have hnone : mishap? { t with session := s } ctx = none :=
    mishap?_of_isTotal (t := { t with session := s }) hs.total ctx
  rw [hnone] at hr
  refine ⟨(t', w'), ?_, ?_⟩
  · unfold onEvent
    rw [live, hd]
    simp [hr]
  · simp only [Shows, hd, hr, and_self]

theorem onEvent_eq_skipFrame (live : ctx.event.isDiscard = false) :
    (t.onEvent ctx w).1 = .skipFrame ↔ (t.decide w ctx).1 = .skip := by
  cases hv : (t.decide w ctx).1 with
  | skip => simp [onEvent_of_skip live hv]
  | ignore => simp [onEvent_of_ignore live hv]
  | overflow => simp [onEvent_of_overflow live hv]
  | show_ expanded =>
    obtain ⟨s, hs⟩ := t.decide_session w ctx
    obtain ⟨t', w', he, -⟩ := onEvent_of_shown live (Prod.ext hv hs)
    simp [he]

end Tracer

namespace Machine
variable {m : Machine} {s : Tracer × Surroundings} {c : TracerConfig} {r : Region}
  {op : Op FrameId} {hook : HookName} {f : Frame} {e : Event} {id : FrameId} {rest : List FrameId}

def losesBy (m : Machine) (s : Tracer × Surroundings) (r : Region) (id : FrameId)
    (op : Op FrameId) : Bool :=
  (op.event? m).any fun ev => ev.1 = id && ((op.before m).frames.get? id).any fun f =>
    s.1.Loses s.2 r ((op.before m).context f ev.2)
      ((op.before m).framesAt (op.before m).stack.tail)

/-- Whether a frame has strayed after an operation. It stays so until it is called again or taken
back. -/
def straysBy (m : Machine) (s : Tracer × Surroundings) (r : Region) (id : FrameId) (strayed : Bool)
    (op : Op FrameId) : Bool :=
  m.losesBy s r id op || (strayed && !op.retraces id && !op.calls m id)

theorem losesBy_of_event (reports : op.Reports m f e rest) : m.losesBy s r f.id op = true ↔
    s.1.Loses s.2 r ((op.before m).context f e) ((op.before m).framesAt rest) := by
  simp [losesBy, reports.event, reports.live, reports.stack]

/-- The event of the frame that runs on top of `rest`, heard or not. It gives the frame up exactly if
the frame strays. -/
theorem strays_of_event (hs : s.1.Surveys c r) (h : m.Linked) (hk : m.hook = some hook)
    (hd : op.IsDisciplined m) (keeps : op.KeepsHook m) (reports : op.Reports m f e rest) :
    (m.step Tracer.deliver s op).state.1.Surveys c r ∧
      (e.isTerminal = false → f.file.same r.file = true → ∀ strayed : Bool,
        (e.isCall = false → (f.id ∈ m.untraced ↔ strayed = true)) →
        (f.id ∈ (m.step Tracer.deliver s op).machine.untraced ↔
          m.straysBy s r f.id strayed op = true)) := by
  have hlinked := h.before hd
  have hcalls : op.calls m f.id = e.isCall := by simp [Op.calls, reports.event]
  have hretraces := Op.retraces_of_event reports.event f.id
  cases hu : (op.before m).hears f.id e with
  | false =>
    have hstep : m.step Tracer.deliver s op = ⟨op.after (op.before m), s, none⟩ :=
      step_of_unheard hd (keeps.trans hk) reports.event reports.live hu
    obtain ⟨hcall, hmem⟩ := mem_untraced_of_unheard hu
    rw [hstep]
    refine ⟨hs, fun running _ strayed known => ?_⟩
    rw [reports.stays running, reports.mem_untraced]
    simp [straysBy, hcalls, hretraces, hcall, hmem, (known hcall).mp hmem]
  | true =>
    obtain ⟨a, t', w', ha, handles⟩ := hs.unentered.handles s.2 ((op.before m).context f e)
      hlinked rfl reports.running reports.below reports.back (reports.off h hd)
    have hstep : m.step Tracer.deliver s op =
        ⟨op.after ((op.before m).heed f.id e a), (t', w'), none⟩ :=
      step_of_heard hd (keeps.trans hk) reports.event reports.live hu ha handles.calm
    rw [hstep]
    refine ⟨hs.carried handles.toCarries, fun running file strayed known => ?_⟩
    -- it is given up now or not at all: what was heard had not been given up, or is called anew
    have hskip : a = .skipFrame ↔ m.losesBy s r f.id op = true := by
      have hanswer : (s.1.onEvent ((op.before m).context f e) s.2).1 = a := by rw [ha]
      rw [← hanswer, Tracer.onEvent_eq_skipFrame reports.running, losesBy_of_event reports]
      exact hs.decide_eq_skip hlinked s.2 ((op.before m).context f e) rfl file reports.running
        reports.below reports.back
    rw [reports.stays running, mem_untraced_of_heard hu handles.calm, hskip, straysBy, hcalls,
      hretraces]
    cases hcall : e.isCall with
    | true => simp
    | false =>
      have hno : f.id ∉ (op.before m).untraced := by simpa [hears, hcall] using hu
      rw [reports.mem_untraced, known hcall] at hno
      simp [hno]

/-- A suspended generator that is dropped, heard or not. -/
theorem surveys_of_drop (hs : s.1.Surveys c r) (hk : m.hook = some hook) (hd : op.IsDisciplined m)
    (keeps : op.KeepsHook m) (drops : op.Drops m f) :
    (m.step Tracer.deliver s op).state.1.Surveys c r := by
  cases hu : (op.before m).hears f.id .discard with
  | false =>
    rw [step_of_unheard hd (keeps.trans hk) drops.event drops.live hu]
    exact hs
  | true =>
    have ha : Tracer.deliver hook ((op.before m).context f .discard) s =
        (.proceed, s.1.dropFrame f.id, s.2) := rfl
    rw [step_of_heard hd (keeps.trans hk) drops.event drops.live hu ha (by simp)]
    exact hs.carried (hs.unentered.dropFrame s.2 f.id).1

theorem standing_step (calm : (m.step Tracer.deliver s op).panic = none) (hd : op.IsDisciplined m)
    (reports : op.Reports m f e rest) (running : e.isTerminal = false) :
    (m.step Tracer.deliver s op).machine.standing f.id = some f.place := by
  obtain ⟨a, ha⟩ := machine_step_of_event calm hd reports.event
  rw [ha, reports.stays running]
  exact standing_heed reports.live

/-- It is known of every running frame of the observed file whether it has been given up. -/
structure Marked (m : Machine) (r : Region) (strayed : FrameId → Bool) : Prop where
  linked : m.Linked
  given : ∀ id ∈ m.stack, ∀ f, m.standing id = some f → f.file.same r.file = true →
    (id ∈ m.untraced ↔ strayed id = true)

variable {strayed : FrameId → Bool}

/-- A frame without an event strays no more and no less. -/
theorem Marked.other (h : m.Marked r strayed) (hd : op.IsDisciplined m)
    (hne : ∀ e, op.event? m ≠ some (id, e))
    (running : id ∈ (m.step Tracer.deliver s op).machine.stack)
    (stands : (m.step Tracer.deliver s op).machine.standing id = some f)
    (file : f.file.same r.file = true) :
    id ∈ (m.step Tracer.deliver s op).machine.untraced ↔
      m.straysBy s r id (strayed id) op = true := by
  have calm := panic_step calm_deliver m s op
  have hknown := h.given id (h.linked.mem_stack_step calm hd hne running) f
    ((spares_step hne).standing ▸ stands) file
  cases he : op.event? m with
  | none =>
    rw [step_of_quiet hd he, Op.mem_untraced_before, hknown]
    simp [straysBy, losesBy, Op.calls, he]
  | some ev =>
    have hid : ev.1 ≠ id := fun heq => hne ev.2 (by rw [he, ← heq])
    rw [mem_untraced_step he hid.symm, hknown]
    simp [straysBy, losesBy, Op.calls, he, hid, Op.retraces_of_event he]

/-- All but the frame of an event is as it was. -/
theorem Marked.after_event (h : m.Marked r strayed) (hd : op.IsDisciplined m)
    (event : op.event? m = some (id, e))
    (own : id ∈ (m.step Tracer.deliver s op).machine.stack →
      ∀ f, (m.step Tracer.deliver s op).machine.standing id = some f → f.file.same r.file = true →
        (id ∈ (m.step Tracer.deliver s op).machine.untraced ↔
          m.straysBy s r id (strayed id) op = true)) :
    (m.step Tracer.deliver s op).machine.Marked r fun j => m.straysBy s r j (strayed j) op := by
  refine ⟨h.linked.step hd, fun j running f stands file => ?_⟩
  by_cases hj : j = id
  · subst hj
    exact own running f stands file
  · exact h.other hd (by simp [event, Ne.symm hj]) running stands file

/-- Of a frame of the observed file that has an event without being called it is known whether it was
given up. -/
theorem Marked.given_of_event (h : m.Marked r strayed) (reports : op.Reports m f e rest)
    (file : f.file.same r.file = true) (call : e.isCall = false) :
    f.id ∈ m.untraced ↔ strayed f.id = true := by
  rcases reports.was with ⟨-, hcall⟩ | ⟨hs, -, f₀, hf₀, -, hfile⟩
  · rw [call] at hcall
    cases hcall
  · exact h.given f.id (by simp [hs]) f₀ hf₀ (hfile ▸ file)

/-- One operation. -/
theorem Marked.step (h : m.Marked r strayed) (hs : s.1.Surveys c r) (hk : m.hook = some hook)
    (hd : op.IsDisciplined m) (keeps : op.KeepsHook m) :
    (m.step Tracer.deliver s op).state.1.Surveys c r ∧
      (m.step Tracer.deliver s op).machine.Marked r fun id => m.straysBy s r id (strayed id) op := by
  have calm := panic_step calm_deliver m s op
  cases Op.Telling.of_disciplined h.linked hd with
  | nothing event stack =>
    refine ⟨by rw [step_of_quiet hd event]; exact hs, h.linked.step hd, ?_⟩
    exact fun id running f stands file => h.other hd (by simp [event]) running stands file
  | event f e rest reports =>
    obtain ⟨hs', hown⟩ := strays_of_event hs h.linked hk hd keeps reports
    refine ⟨hs', h.after_event hd reports.event fun stays g stands file => ?_⟩
    -- only a frame that goes on is still on the stack
    have running : e.isTerminal = false := by
      obtain ⟨a, ha⟩ := machine_step_of_event calm hd reports.event
      rw [ha, reports.stack_after ((stack_heed _ _ _ _).trans reports.stack)] at stays
      by_contra terminal
      rw [if_pos (by simpa using terminal)] at stays
      exact reports.off h.linked hd stays
    obtain rfl : f.place = g := by simpa [standing_step calm hd reports running] using stands
    exact hown running file _ fun call => h.given_of_event reports file call
  | drop f drops =>
    refine ⟨surveys_of_drop hs hk hd keeps drops, h.after_event hd drops.event fun stays => ?_⟩
    obtain ⟨a, ha⟩ := machine_step_of_event calm hd drops.event
    rw [ha, drops.after, stack_heed, drops.stack] at stays
    exact absurd stays drops.off

/-- A call or a line inside the region is shown, unless it is a line of a frame that has strayed: then
nothing changes. -/
theorem Marked.inside (h : m.Marked r strayed) (hs : s.1.Surveys c r) (hk : m.hook = some hook)
    (hd : op.IsDisciplined m) (keeps : op.KeepsHook m) (event : op.event? m = some (f.id, e))
    (live : (op.before m).frames.get? f.id = some f) (begins : e.isCall = true ∨ e.isLine = true)
    (inside : r.surrounds f = true) :
    let s' := (m.step Tracer.deliver s op).state
    if e.isLine && strayed f.id then s' = s
    else Tracer.Shows s ((op.before m).context f e) s' := by
  intro s'
  have running : e.isTerminal = false ∧ e.isDiscard = false := by
    cases e <;> simp_all [Event.isCall, Event.isLine, Event.isTerminal, Event.isDiscard]
  have hfile : f.file.same r.file = true := by
    simp only [Region.surrounds, Bool.and_eq_true] at inside
    exact inside.1
  obtain ⟨rest, reports⟩ := Op.reports_of_event h.linked hd event live running.2
  have hgiven := h.given_of_event reports hfile
  cases hu : (op.before m).hears f.id e with
  | false =>
    obtain ⟨hcall, hmem⟩ := mem_untraced_of_unheard hu
    have hline : e.isLine = true := begins.resolve_left (by simp [hcall])
    have hstate : s' = s := by
      simp only [s', step_of_unheard hd (keeps.trans hk) event live hu]
    simp [hline, (hgiven hcall).mp hmem, hstate]
  | true =>
    have hkept : (e.isLine && strayed f.id) = false := by
      cases hcall : e.isCall with
      | true => cases e <;> simp_all [Event.isCall, Event.isLine]
      | false =>
        have hno : f.id ∉ (op.before m).untraced := by simpa [hears, hcall] using hu
        rw [reports.mem_untraced, hgiven hcall] at hno
        simp [hno]
    obtain ⟨s₁, ha, shows⟩ := hs.shows_inside s.2 ((op.before m).context f e) hfile
      (r.holds_of_surrounds s.2 inside) running.1 running.2
    have answer : Tracer.deliver hook ((op.before m).context f e) s = (.proceed, s₁) := ha
    have hstate : s' = s₁ := by
      simp only [s', step_of_heard hd (keeps.trans hk) event live hu answer (by simp)]
    rw [hkept, hstate]
    exact shows

end Machine

namespace Fleet
variable {ι : Type} [DecidableEq ι] {x : Fleet ι × (Tracer × Surroundings)} {c : TracerConfig}
  {r : Region} {hook : HookName} {given : ι → FrameId → Bool} {k : ι} {op : Op FrameId}

def strayed (r : Region) : Fleet ι × (Tracer × Surroundings) → (ι → FrameId → Bool) →
    List (ι × Op FrameId) → ι → FrameId → Bool
  | _, given, [] => given
  | x, given, (k, op) :: ops =>
    strayed r (step Tracer.deliver x (k, op))
      (Function.update given k fun id => (x.1 k).straysBy x.2 r id (given k id) op) ops

structure Watched (x : Fleet ι × (Tracer × Surroundings)) (c : TracerConfig) (r : Region)
    (hook : HookName) (given : ι → FrameId → Bool) : Prop where
  surveys : x.2.1.Surveys c r
  installed : ∀ k, (x.1 k).hook = some hook
  marked : ∀ k, (x.1 k).Marked r (given k)

theorem Watched.step (h : Watched x c r hook given) (hd : op.IsDisciplined (x.1 k))
    (keeps : op.KeepsHook (x.1 k)) :
    Watched (step Tracer.deliver x (k, op)) c r hook
      (Function.update given k fun id => (x.1 k).straysBy x.2 r id (given k id) op) := by
  obtain ⟨hs, hm⟩ := (h.marked k).step h.surveys (h.installed k) hd keeps
  refine ⟨hs, fun j => ?_, fun j => ?_⟩
  · by_cases hj : j = k
    · subst hj
      rw [step_self]
      exact (Machine.hook_step keeps).trans (h.installed j)
    · rw [step_of_ne x hj]
      exact h.installed j
  · by_cases hj : j = k
    · subst hj
      rw [step_self, Function.update_self]
      exact hm
    · rw [step_of_ne x hj, Function.update_of_ne hj]
      exact h.marked j

theorem Watched.run (h : Watched x c r hook given) {ops : List (ι × Op FrameId)}
    (hd : Disciplined Tracer.deliver x ops) :
    Watched (run Tracer.deliver x ops) c r hook (strayed r x given ops) := by
  induction ops generalizing x given with
  | nil => exact h
  | cons o ops ih =>
    obtain ⟨hop, keeps, hrest⟩ := hd
    exact ih (h.step hop keeps) hrest

/-- Where no frames below are looked at, nothing strays. -/
theorem Watched.not_strayed (h : Watched x c r hook given) (levels : Tracer.levels c = 0)
    (none : ∀ k id, given k id = false) {ops : List (ι × Op FrameId)}
    (hd : Disciplined Tracer.deliver x ops) (k : ι) (id : FrameId) :
    strayed r x given ops k id = false := by
  induction ops generalizing x given with
  | nil => exact none k id
  | cons o ops ih =>
    obtain ⟨hop, keeps, hrest⟩ := hd
    refine ih (h.step hop keeps) (fun j i => ?_) hrest
    by_cases hj : j = o.1
    · subst hj
      rw [Function.update_self, none]
      simp [Machine.straysBy, Machine.losesBy, Tracer.Loses, h.surveys.config, levels]
    · rw [Function.update_of_ne hj]
      exact none j i

end Fleet

/-- A tracer as it is set up for a region. -/
theorem Tracer.surveys_of_outfit {c : TracerConfig} {disk : Disk} {codes : List CodeId}
    {custom : List CustomFormat} {sources : SourceCache} {sink : Sink} {t : Tracer} {scope : Region}
    (setup : Tracer.outfit c disk codes custom sources sink = .ok t)
    (region : c.observed = some scope) (unlimited : c.hitLimit = none)
    (formats : ∀ f ∈ custom, ∀ v, ∃ text, f.format v = .ok text) :
    t.Surveys c { scope with file := disk.absolute scope.file } := by
  obtain ⟨hconfig, hobserved⟩ := observed_of_outfit setup region
  have hnew := isNew_of_outfit setup
  exact ⟨hconfig, hobserved, hnew.codes _ hobserved, hconfig ▸ unlimited, hnew.isTotal formats⟩

/-- Machines share a tracer that observes a region and counts no hits, and their operations come in any
order. A call inside the region is shown, and so is a line, unless its frame has strayed: then nothing
changes. No frame strays where no frames below are looked at. -/
theorem region_shown_but_for_strays {ι : Type} [DecidableEq ι] {c : TracerConfig} {disk : Disk}
    {codes : List CodeId} {custom : List CustomFormat} {sources : SourceCache} {sink : Sink}
    {t : Tracer} {w : Surroundings} {scope : Region} {ms : Fleet ι} {hook : HookName}
    {ops : List (ι × Op FrameId)} {k : ι} {op : Op FrameId}
    (setup : Tracer.outfit c disk codes custom sources sink = .ok t)
    (region : c.observed = some scope) (unlimited : c.hitLimit = none)
    (formats : ∀ f ∈ custom, ∀ v, ∃ text, f.format v = .ok text)
    (fresh : ∀ k, (ms k).IsFresh) (installed : ∀ k, (ms k).hook = some hook)
    (disciplined : Fleet.Disciplined Tracer.deliver (ms, (t, w)) (ops ++ [(k, op)])) :
    let r : Region := { scope with file := disk.absolute scope.file }
    let x := Fleet.run Tracer.deliver (ms, (t, w)) ops
    let strayed := Fleet.strayed r (ms, (t, w)) (fun _ _ => false) ops
    let m := op.before (x.1 k)
    ∀ f e, op.event? (x.1 k) = some (f.id, e) → m.frames.get? f.id = some f →
    e.isCall = true ∨ e.isLine = true → r.surrounds f = true →
    let s' := ((x.1 k).step Tracer.deliver x.2 op).state
    (if e.isLine && strayed k f.id then s' = x.2
      else Tracer.Shows x.2 (m.context f e) s') ∧
      (Tracer.levels c = 0 → strayed k f.id = false) := by
  intro r x strayed m f e event live begins inside
  have hwatched : Fleet.Watched (ms, (t, w)) c r hook fun _ _ => false := by
    refine ⟨Tracer.surveys_of_outfit setup region unlimited formats, installed, fun j => ?_⟩
    refine ⟨(fresh j).linked, fun id running => ?_⟩
    have hempty : (ms j).stack = [] := (fresh j).stack
    rw [hempty] at running
    cases running
  obtain ⟨hops, hop, keeps, -⟩ := Fleet.disciplined_append.mp disciplined
  have h := hwatched.run hops
  refine ⟨(h.marked k).inside h.surveys (h.installed k) hop keeps event live begins inside, ?_⟩
  exact fun levels => hwatched.not_strayed levels (fun _ _ => rfl) hops k f.id

def callOutside : List (Bool × Op FrameId) :=
  let code : Code := ⟨"f", ⟨"/p.py"⟩, 1⟩
  [(false, .call code []), (false, .line ⟨0, 0⟩ 2), (true, .call code [])]

theorem region_shown_but_for_strays_of_two_machines :
    let r : Region := ⟨⟨"/p.py"⟩, 2, 3⟩
    let c : TracerConfig := { depth := 2, observed := some r }
    let t : Tracer :=
      { config := c, observed := c.observed, renderer := { maxLength := some 100 }
        sink := .lines [] }
    let ms : Fleet Bool := fun k =>
      { id := k.toNat, thread := ⟨k.toNat, none⟩, hook := some "trace" }
    let op : Op FrameId := .line ⟨1, 0⟩ 2
    let x := Fleet.run Tracer.deliver (ms, (t, {})) callOutside
    let m := op.before (x.1 true)
    let f := (m.frames.get? ⟨1, 0⟩).getD default
    Tracer.outfit c diskOfFile [] [] {} (.lines []) = .ok t ∧ c.hitLimit = none ∧
      (∀ k, (ms k).IsFresh) ∧
      Fleet.Disciplined Tracer.deliver (ms, (t, {})) (callOutside ++ [(true, op)]) ∧
      op.event? (x.1 true) = some (f.id, .line) ∧ m.frames.get? f.id = some f ∧
      r.surrounds f = true ∧
      let strayed := Fleet.strayed r (ms, (t, {})) (fun _ _ => false) callOutside
      let s' := ((x.1 true).step Tracer.deliver x.2 op).state
      (if Event.line.isLine && strayed true f.id then s' = x.2
        else Tracer.Shows x.2 (m.context f .line) s') ∧
        (Tracer.levels c = 0 → strayed true f.id = false) := by
  intro r c t ms op x m f
  have setup : Tracer.outfit c diskOfFile [] [] {} (.lines []) = .ok t :=
    outfit_diskOfFile _ (by decide) (by decide)
  have fresh : ∀ k, (ms k).IsFresh := fun _ => ⟨rfl, rfl, rfl, rfl⟩
  have disciplined :
      Fleet.Disciplined Tracer.deliver (ms, (t, {})) (callOutside ++ [(true, op)]) := by
    decide +kernel
  have hid : f.id = ⟨1, 0⟩ := by decide +kernel
  have event : op.event? (x.1 true) = some (f.id, .line) := by rw [hid]; rfl
  have live : m.frames.get? f.id = some f := by
    have hsome : (m.frames.get? ⟨1, 0⟩).isSome = true := by decide +kernel
    obtain ⟨g, hg⟩ := Option.isSome_iff_exists.mp hsome
    rw [hid, hg]
    simp only [f, hg, Option.getD_some]
  have inside : r.surrounds f = true := by decide +kernel
  refine ⟨setup, rfl, fresh, disciplined, event, live, inside, ?_⟩
  have h := region_shown_but_for_strays setup rfl rfl (by simp) fresh (fun _ => rfl) disciplined
  have hr : ({ r with file := diskOfFile.absolute r.file } : Region) = r := by
    rw [absolute_diskOfFile]
  rw [hr] at h
  exact h f .line event live (Or.inr rfl) inside

def callBehind : List (Op FrameId) :=
  let code : Code := ⟨"f", ⟨"/p.py"⟩, 1⟩
  [.call code [], .line ⟨0, 0⟩ 2, .line ⟨0, 0⟩ 4, .call code []]

/-- The inner call loses its frame to the search, which runs out of frames. Nobody hears of the line in
the region that follows. -/
theorem recursive_line_is_missed :
    let region : Region := ⟨⟨"/p.py"⟩, 2, 3⟩
    let c : TracerConfig := { depth := 2, observed := some region }
    let t : Tracer :=
      { config := c, observed := c.observed, renderer := { maxLength := some 100 }
        sink := .lines [] }
    let m : Machine := { hook := some "trace" }
    let op : Op FrameId := .line ⟨0, 1⟩ 2
    let r := m.run Tracer.deliver (t, {}) callBehind
    let f := ((op.before r.machine).frames.get? ⟨0, 1⟩).getD default
    let s' := (r.machine.step Tracer.deliver r.state op).state
    Tracer.outfit c diskOfFile [] [] {} (.lines []) = .ok t ∧
      m.Disciplined Tracer.deliver (t, {}) (callBehind ++ [op]) ∧
      op.event? r.machine = some (f.id, .line) ∧ region.surrounds f = true ∧
      s'.1.sink.written = r.state.1.sink.written ∧
      ¬ Tracer.Shows r.state ((op.before r.machine).context f .line) s' := by
  intro region c t m op r f s'
  have setup : Tracer.outfit c diskOfFile [] [] {} (.lines []) = .ok t :=
    outfit_diskOfFile _ (by decide) (by decide)
  have hid : f.id = ⟨0, 1⟩ := by decide +kernel
  refine ⟨setup, by decide +kernel, by rw [hid]; rfl, by decide +kernel, by decide +kernel, ?_⟩
  rintro ⟨-, hr⟩
  have hwritten := congrArg (fun o => o.1.sink.written) hr
  revert hwritten
  decide +kernel

end SelectiveTrace
