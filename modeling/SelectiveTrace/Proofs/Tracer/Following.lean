import SelectiveTrace.Proofs.Host.Continuing
import SelectiveTrace.Proofs.Tracer.Upkeep

/-! The frames that a tracer follows, and the depth that it counts. A call that is followed adds a level
and its end takes one away, so the depth less the frames that are followed stays what it is; but a frame
that a line attaches is followed without its call having been counted. -/
namespace SelectiveTrace

namespace Event
variable {e : Event}

theorem of_isCall (h : e.isCall = true) : e.isLine = false ∧ e.isTerminal = false := by
  cases e <;> first | exact ⟨rfl, rfl⟩ | cases h

theorem of_isLine (h : e.isLine = true) : e.isCall = false ∧ e.isTerminal = false := by
  cases e <;> first | exact ⟨rfl, rfl⟩ | cases h

theorem of_isTerminal (h : e.isTerminal = true) : e.isCall = false ∧ e.isLine = false := by
  cases e <;> first | exact ⟨rfl, rfl⟩ | cases h

theorem isLine_of_not (call : e.isCall = false) (running : e.isTerminal = false) :
    e.isLine = true := by
  cases e <;> simp_all [isCall, isTerminal, isLine]

end Event

theorem Verdict.Fits.isShow_eq {e : Event} {b : Bool} {v : Verdict}
    (h : Verdict.Fits e b v) (line : e.isLine = false) : v.isShow = b := by
  cases h with
  | shown expanded => rfl
  | omitted isLine =>
    rw [isLine] at line
    cases line
  | hidden quiet => exact quiet

namespace Tracer
variable {t t' : Tracer} {w w' : Surroundings} {ctx : Context} {m m' : Machine}

/-- A frame that runs on top of others is followed: it is traced, and it has not been given up. -/
def follows (t : Tracer) (w : Surroundings) (m : Machine) (id : FrameId) (below : List FrameId) :
    Bool :=
  !m.untraced.contains id && (m.standing id).any fun f => t.traces w f (m.framesAt below)

theorem traces_of_attached {f : Frame} (h : f.id ∈ t.session.targetFrames) (below : List Frame) :
    t.traces w f below = true := by
  unfold traces Session.isTarget
  simp [h]

def followed (t : Tracer) (w : Surroundings) (m : Machine) : List FrameId → Nat
  | [] => 0
  | id :: below => (t.follows w m id below).toNat + t.followed w m below

def ground (t : Tracer) (w : Surroundings) (m : Machine) : Int :=
  t.session.depth m.thread.id - t.followed w m m.stack

/-- A line attaches its frame, which was not traced before. -/
def picksUp (t : Tracer) (w : Surroundings) (m : Machine) (ctx : Context) : Bool :=
  ctx.event.isLine && !t.traces w ctx.frame (m.framesAt m.stack.tail) &&
    (t.onEvent ctx w).2.1.session.targetFrames.contains ctx.frame.id

theorem followed_congr {ids : List FrameId}
    (same : ∀ j under, j :: under <:+ ids → t'.follows w' m' j under = t.follows w m j under) :
    t'.followed w' m' ids = t.followed w m ids := by
  induction ids with
  | nil => rfl
  | cons id ids ih =>
    rw [followed, followed, same id ids List.suffix_rfl,
      ih fun j under hs => same j under (hs.trans (List.suffix_cons id ids))]

/-- What happens to one frame changes nothing for another that does not run on top of it. -/
theorem follows_off {id j : FrameId} {under : List FrameId} (linked : m.Linked) (acts : m.Acts m' id)
    (marks : ∀ j, j ≠ id → (j ∈ m'.untraced ↔ j ∈ m.untraced)) (minds : Minds t w t' w' id)
    (off : id ∉ j :: under) : t'.follows w' m' j under = t.follows w m j under := by
  have hj : j ≠ id := fun he => off (he ▸ List.mem_cons_self)
  have hunder : id ∉ under := fun hi => off (List.mem_cons_of_mem j hi)
  have hmark : m'.untraced.contains j = m.untraced.contains j := by
    rw [Bool.eq_iff_iff, List.contains_iff_mem, List.contains_iff_mem]
    exact marks j hj
  unfold follows
  rw [hmark, (acts.spares j hj).standing, acts.framesAt_eq hunder]
  cases hf : m.standing j with
  | none => rfl
  | some f =>
    have hid : f.id ≠ id := (linked.known j f hf).1 ▸ hj
    rw [Option.any_some, Option.any_some, minds.traces hid (linked.framesAt_ne hunder)]

theorem followed_off {id : FrameId} (linked : m.Linked) (acts : m.Acts m' id)
    (marks : ∀ j, j ≠ id → (j ∈ m'.untraced ↔ j ∈ m.untraced)) (minds : Minds t w t' w' id)
    {ids : List FrameId} (off : id ∉ ids) : t'.followed w' m' ids = t.followed w m ids :=
  followed_congr fun _ _ hs => follows_off linked acts marks minds fun hi => off (hs.mem hi)

/-! What is decided on an event that the gate lets pass. -/

/-- Once the gate has let an event pass, the targets decide; only a hit is noted besides. -/
theorem decide_of_passed (linked : m.Linked) (frames : ctx.frames = m.frames)
    {ids : List FrameId} (hs : ids <:+ m.stack) (back : ctx.frame.back = ids.head?) {s : Session}
    (gate : t.gated w ctx = (none, s)) :
    ∃ s', (t.decide w ctx).2 = { t with session := s' } ∧ s.Touches s' ctx.frame.id ∧
      s'.targetFrames = s.targetFrames ∧ s'.depths = s.depths ∧
      Verdict.Fits ctx.event (traces { t with session := s } w ctx.frame (m.framesAt ids))
        (t.decide w ctx).1 := by
  have hfits := fits_verdict { t with session := s } linked w frames hs back
  unfold decide
  rw [gate]
  dsimp only
  obtain ⟨s', hs', touches, ⟨hframes, hdepths⟩, -⟩ := countHit_cases { t with session := s } ctx
  generalize Tracer.verdict { t with session := s } w ctx = v at hfits ⊢
  generalize traces { t with session := s } w ctx.frame (m.framesAt ids) = b at hfits ⊢
  cases hfits with
  | shown expanded =>
    refine ⟨s', hs', touches, hframes, hdepths, ?_⟩
    dsimp only
    split
    · exact .omitted (isLine_of_countHit ‹_›)
    · exact .shown expanded
  | omitted line => exact ⟨s, rfl, Session.Touches.refl _ _, rfl, rfl, .omitted line⟩
  | hidden quiet =>
    cases v with
    | show_ expanded => cases quiet
    | skip | ignore | overflow =>
      exact ⟨s, rfl, Session.Touches.refl _ _, rfl, rfl, .hidden quiet⟩

/-- Where an event is not the first of its region the gate leaves the depth alone. -/
theorem depths_of_passed (begun : t.observed = none ∨ t.session.targetFrames ≠ []) {s : Session}
    (gate : t.gated w ctx = (none, s)) : s.depths = t.session.depths := by
  unfold gated at gate
  split at gate
  next r hr =>
    have hne : t.session.targetFrames.isEmpty = false := by
      rcases begun with ho | hne
      · rw [hr] at ho
        cases ho
      · simpa using hne
    unfold Tracer.gate at gate
    rw [hne] at gate
    simp only [Bool.false_eq_true, if_false] at gate
    repeat' split at gate
    all_goals first | (cases gate; rfl) | cases gate
  next => cases gate; rfl

/-! What an event makes of a tracer, after the decision on it. -/

section
variable {s : Session}

theorem Progress.depth_of_ne {e : Option String} (h : Progress t w ctx t' w' e) {thread : Nat}
    (other : thread ≠ ctx.frame.thread.id) :
    t'.session.depth thread = t.session.depth thread := by
  have hdescend : (t.descend ctx).session.depth thread = t.session.depth thread := by
    unfold descend
    split
    · exact Session.depth_setDepth_of_ne _ _ other
    · rfl
  have hended : ∀ u : Tracer, (u.ended ctx).session.depth thread = u.session.depth thread := by
    intro u
    unfold ended
    split
    · exact (Session.depth_setDepth_of_ne _ _ other).trans (depth_release u _ _ thread)
    · rfl
  cases h with
  | opened steady => exact (steady.depth thread).trans hdescend
  | noted vars steady => exact (steady.depth thread).trans hdescend
  | whole vars steady _ =>
    exact (steady.depth thread).trans ((hended _).trans hdescend)

structure CarriesOut (t : Tracer) (w : Surroundings) (ctx : Context) (v : Verdict) (a : Answer)
    (t' : Tracer) (w' : Surroundings) : Prop extends Carries t w t' w' ctx.frame.id where
  depth : t'.session.depth ctx.frame.thread.id = t.session.depth ctx.frame.thread.id +
    if v.isShow then (if ctx.event.isCall then 1 else 0) - if ctx.event.isTerminal then 1 else 0
    else 0
  elsewhere : ∀ thread, thread ≠ ctx.frame.thread.id →
    t'.session.depth thread = t.session.depth thread
  attached : ctx.event.isTerminal = false →
    t'.session.targetFrames = t.session.targetFrames
  skipped : a = .skipFrame → v = .skip
  calm : ∀ text, a ≠ .panicked text

theorem carriesOut (total : t.renderer.IsTotal) (running : ctx.event.isDiscard = false)
    (hd : (t.decide w ctx).2 = { t with session := s }) :
    CarriesOut { t with session := s } w ctx (t.decide w ctx).1 (t.onEvent ctx w).1
      (t.onEvent ctx w).2.1 (t.onEvent ctx w).2.2 := by
  cases hv : (t.decide w ctx).1.isShow with
  | true =>
    obtain ⟨expanded, hshow⟩ := Verdict.isShow_iff.mp hv
    obtain ⟨t', w', he, progress⟩ := onEvent_of_shown running (Prod.ext hshow hd)
    have hf : t.failure? w ctx = none := by
      simp [failure?, mishap?_of_isTotal total]
    rw [hf] at he progress
    rw [he, hshow]
    refine ⟨progress.carries, ?_, fun _ => progress.depth_of_ne, progress.frames, by simp, by simp⟩
    simpa [Verdict.isShow, noteFailure] using progress.depth
  | false =>
    obtain ⟨a, he, calm, skipped⟩ := onEvent_of_hidden running hv
    obtain ⟨faults, hnoted⟩ := noteVerdict_eq (t.decide w ctx).2 ctx (t.decide w ctx).1
    rw [he, hnoted, hd]
    refine ⟨carries_faults _ _ _ _, ?_, fun _ _ => rfl, fun _ => rfl, skipped, calm⟩
    simp only [hv, Bool.false_eq_true, if_false, Int.add_zero]

end

/-! What an event of a running frame comes to. -/

structure Reckons (t : Tracer) (w : Surroundings) (ctx : Context) (below : List Frame) (a : Answer)
    (t' : Tracer) (w' : Surroundings) : Prop extends Minds t w t' w' ctx.frame.id where
  elsewhere : ∀ thread, thread ≠ ctx.frame.thread.id →
    t'.session.depth thread = t.session.depth thread
  calm : ∀ text, a ≠ .panicked text
  call : ctx.event.isCall = true → t'.session.depth ctx.frame.thread.id =
    t.session.depth ctx.frame.thread.id + (t'.traces w' ctx.frame below).toNat
  line : ctx.event.isLine = true →
    t'.session.depth ctx.frame.thread.id = t.session.depth ctx.frame.thread.id ∧
      t'.traces w' ctx.frame below =
        (t.traces w ctx.frame below || t'.session.targetFrames.contains ctx.frame.id)
  ended : ctx.event.isTerminal = true → t'.session.depth ctx.frame.thread.id =
    t.session.depth ctx.frame.thread.id - (t.traces w ctx.frame below).toNat
  skipped : a = .skipFrame → ctx.event.isTerminal = false → t'.traces w' ctx.frame below = false

section
variable {ids : List FrameId}

/-- The gate lets the event pass. -/
theorem reckons_of_passed (linked : m.Linked) (total : t.renderer.IsTotal)
    (frames : ctx.frames = m.frames) (running : ctx.event.isDiscard = false)
    (hs : ids <:+ m.stack) (back : ctx.frame.back = ids.head?) (off : ctx.frame.id ∉ ids)
    (begun : t.observed = none ∨ t.session.targetFrames ≠ []) {s : Session}
    (gate : t.gated w ctx = (none, s)) (touches : t.session.Touches s ctx.frame.id)
    (same : s = t.session ∨ t.observed.isSome = true ∧ ctx.event.isTerminal = false ∧
      ctx.frame.id ∈ s.targetFrames) :
    t.Reckons w ctx (m.framesAt ids) (t.onEvent ctx w).1 (t.onEvent ctx w).2.1
      (t.onEvent ctx w).2.2 := by
  have hoff := linked.framesAt_ne off
  obtain ⟨s', hd, touches', hframes, hdepths, hfits⟩ :=
    decide_of_passed linked frames hs back gate
  have out := carriesOut total running hd
  have hdepth : ∀ thread, s'.depth thread = t.session.depth thread := by
    intro thread
    unfold Session.depth
    rw [hdepths, depths_of_passed begun gate]
  -- a hit that is noted, and what is shown after it, leave it as it is whether the frame is traced
  have hnoted : traces { t with session := s' } w ctx.frame (m.framesAt ids) =
      traces { t with session := s } w ctx.frame (m.framesAt ids) :=
    traces_of_same_frames touches' hframes hoff
  generalize hb : traces { t with session := s } w ctx.frame (m.framesAt ids) = b at hfits hnoted
  have htraced : ctx.event.isTerminal = false →
      (t.onEvent ctx w).2.1.traces (t.onEvent ctx w).2.2 ctx.frame (m.framesAt ids) = b := by
    intro goes
    rw [out.toCarries.traces (out.attached goes) ctx.frame hoff, hnoted]
  have noted : Besides t { t with session := s' } ctx.frame.id :=
    ⟨rfl, rfl, rfl, (touches.trans touches').toBesides⟩
  have minds : Minds t w (t.onEvent ctx w).2.1 (t.onEvent ctx w).2.2 ctx.frame.id :=
    ⟨noted.trans out.minds.toBesides, out.directory⟩
  refine ⟨minds, fun thread other => (out.elsewhere thread other).trans (hdepth thread), out.calm,
    fun call => ?_, fun line => ?_, fun ended => ?_, fun skip goes => ?_⟩
  · obtain ⟨hline, hterm⟩ := Event.of_isCall call
    rw [htraced hterm, out.depth, hfits.isShow_eq hline, call, hterm, hdepth]
    cases b <;> rfl
  · obtain ⟨hcall, hterm⟩ := Event.of_isLine line
    refine ⟨?_, ?_⟩
    · rw [out.depth, hcall, hterm, hdepth]
      simp
    · rw [htraced hterm, out.attached hterm]
      dsimp only
      rw [hframes]
      rcases same with rfl | ⟨-, -, hin⟩
      · rw [hb]
        cases b with
        | true => rfl
        | false =>
          have hno : t.session.targetFrames.contains ctx.frame.id = false := by
            unfold traces Session.isTarget at hb
            simp only [Bool.or_eq_false_iff] at hb
            exact hb.1.2
          rw [hno]
          rfl
      · have hin' : s.targetFrames.contains ctx.frame.id = true := List.contains_iff_mem.mpr hin
        rw [hin', Bool.or_true, ← hb]
        unfold traces Session.isTarget
        dsimp only
        rw [hin']
        simp
  · obtain ⟨hcall, hline⟩ := Event.of_isTerminal ended
    have hs : s = t.session := same.resolve_right fun h => by
      rw [ended] at h
      cases h.2.1
    subst hs
    rw [out.depth, hfits.isShow_eq hline, hcall, ended, hdepth, hb]
    cases b <;> simp [Int.sub_eq_add_neg]
  · rw [htraced goes]
    rw [out.skipped skip] at hfits
    cases hfits
    rfl

/-- The frame is attached and stands outside of the region. -/
theorem reckons_outside (total : t.renderer.IsTotal) (running : ctx.event.isDiscard = false)
    (below : List Frame) (goes : ctx.event.isCall = false)
    (gate : t.gated w ctx = (some .ignore,
      if ctx.event.isTerminal then deactivate t.session ctx.frame else t.session))
    (attached : ctx.frame.id ∈ t.session.targetFrames) :
    t.Reckons w ctx below (t.onEvent ctx w).1 (t.onEvent ctx w).2.1 (t.onEvent ctx w).2.2 := by
  have hd : t.decide w ctx = (.ignore, { t with
      session := if ctx.event.isTerminal then deactivate t.session ctx.frame else t.session }) := by
    simp only [decide, gate]
  have out := carriesOut total running (congrArg Prod.snd hd)
  rw [hd] at out
  have htraced := traces_of_attached (w := w) attached below
  cases terminal : ctx.event.isTerminal with
  | false =>
    simp only [terminal, Bool.false_eq_true, if_false] at out
    have hframes := out.attached terminal
    have hafter : (t.onEvent ctx w).2.1.session.targetFrames.contains ctx.frame.id = true := by
      rw [hframes]
      exact List.contains_iff_mem.mpr attached
    have htraced' := traces_of_attached (w := (t.onEvent ctx w).2.2)
      (List.contains_iff_mem.mp hafter) below
    refine ⟨out.minds, out.elsewhere, out.calm, fun call => ?_, fun _ => ⟨?_, ?_⟩,
      fun ended => ?_, fun skip => ?_⟩
    · rw [goes] at call
      cases call
    · simpa [Verdict.isShow] using out.depth
    · rw [htraced, htraced']
      rfl
    · rw [terminal] at ended
      cases ended
    · cases out.skipped skip
  | true =>
    simp only [terminal, if_true] at out
    have hdepth : ∀ thread, (deactivate t.session ctx.frame).depth thread =
        (t.session.adjustDepth ctx.frame.thread.id (-1)).depth thread := fun _ => rfl
    have released : Besides t { t with session := deactivate t.session ctx.frame } ctx.frame.id :=
      ⟨rfl, rfl, rfl, (besides_deactivate t.session ctx.frame).1⟩
    refine ⟨⟨released.trans out.minds.toBesides, out.directory⟩, fun thread other => ?_, out.calm,
      fun call => ?_, fun line => ?_, fun _ => ?_, fun skip => ?_⟩
    · exact (out.elsewhere thread other).trans (Session.depth_setDepth_of_ne _ _ other)
    · rw [goes] at call
      cases call
    · rw [(Event.of_isLine line).2] at terminal
      cases terminal
    · rw [out.depth, hdepth, Session.depth_adjustDepth, htraced]
      simp [Verdict.isShow, Int.sub_eq_add_neg]
    · cases out.skipped skip

/-- Every event of the frame on top of `ids`, once its region has been entered. -/
theorem reckons (linked : m.Linked) (total : t.renderer.IsTotal) (frames : ctx.frames = m.frames)
    (running : ctx.event.isDiscard = false) (hs : ids <:+ m.stack)
    (back : ctx.frame.back = ids.head?) (off : ctx.frame.id ∉ ids)
    (begun : t.observed = none ∨ t.session.targetFrames ≠ [])
    (unattached : ctx.event.isCall = true → t.observed.isSome = true →
      ctx.frame.id ∉ t.session.targetFrames) :
    t.Reckons w ctx (m.framesAt ids) (t.onEvent ctx w).1 (t.onEvent ctx w).2.1
      (t.onEvent ctx w).2.2 := by
  rcases t.gated_cases w running with ⟨s, hg, touches, same⟩ | ⟨ho, ⟨v, -, -, hnil⟩ | ⟨hg, hin⟩⟩
  · exact reckons_of_passed linked total frames running hs back off begun hg touches same
  · rcases begun with hno | hne
    · rw [hno] at ho
      cases ho
    · exact absurd hnil hne
  · refine reckons_outside total running _ ?_ hg hin
    cases call : ctx.event.isCall with
    | false => rfl
    | true => exact absurd hin (unattached call ho)

end

end Tracer

namespace Machine

theorem Linked.isIssued {m : Machine} (h : m.Linked) : m.IsIssued := by
  intro j f hf
  obtain ⟨hid, -, hm, hserial⟩ := h.known j f.place (standing_of_get? hf)
  exact ⟨by simp [hasIssued, hm, hserial], hid⟩

end Machine

namespace Tracer
variable {t t' : Tracer} {w w' : Surroundings} {m m' : Machine} {op : Op FrameId} {f : Frame}
  {e : Event} {rest : List FrameId}

/-- A frame whose event is heard was followed before it just if it was traced. -/
theorem follows_before (linked : m.Linked) (reports : op.Reports m f e rest)
    (goes : e.isCall = false) (hears : (op.before m).hears f.id e = true) :
    m.stack = f.id :: rest ∧ t.follows w m f.id rest = t.traces w f (m.framesAt rest) := by
  have hmark : m.untraced.contains f.id = false := by
    unfold Machine.hears at hears
    rw [goes, Bool.false_or, Bool.not_eq_true'] at hears
    rw [← hears, Bool.eq_iff_iff, List.contains_iff_mem, List.contains_iff_mem]
    exact reports.mem_untraced.symm
  rcases reports.was with ⟨-, hcall⟩ | ⟨hs, -, f₀, hf₀, code, -⟩
  · rw [goes] at hcall
    cases hcall
  · refine ⟨hs, ?_⟩
    unfold follows
    rw [hmark, hf₀, Option.any_some, traces_of_code code (linked.known f.id f₀ hf₀).1]
    rfl

/-- A frame whose event was heard and that goes on is followed after it just if it is traced. -/
theorem follows_after (reports : op.Reports m f e rest) (running : e.isTerminal = false)
    (hears : (op.before m).hears f.id e = true) {a : Answer} (calm : ∀ text, a ≠ .panicked text)
    (skipped : a = .skipFrame → t.traces w f (m.framesAt rest) = false)
    (below : (op.after ((op.before m).heed f.id e a)).framesAt rest = m.framesAt rest) :
    t.follows w (op.after ((op.before m).heed f.id e a)) f.id rest =
      t.traces w f (m.framesAt rest) := by
  unfold follows
  rw [below, reports.stays running, Machine.standing_heed reports.live, Option.any_some]
  have hplace : t.traces w f.place (m.framesAt rest) = t.traces w f (m.framesAt rest) :=
    traces_of_code rfl rfl
  have hmark := Machine.mem_untraced_of_heard hears calm
  rw [hplace]
  cases hin : ((op.before m).heed f.id e a).untraced.contains f.id with
  | false => rfl
  | true => rw [skipped (hmark.mp (List.contains_iff_mem.mp hin))]; rfl

/-- The region has been entered, if there is one, and only running frames are attached by it. -/
structure Settled (t : Tracer) (m : Machine) : Prop where
  begun : t.observed = none ∨ t.session.targetFrames ≠ []
  running : t.observed.isSome = true → ∀ id ∈ t.session.targetFrames, id ∈ m.stack

section
variable {σ : Type} {deliver : Deliver σ} {s : σ} {hook : HookName} {ctx : Context}

/-- What an event of the frame on top of `rest` comes to, heard or not. -/
theorem reckons_reported (linked : m.Linked) (hd : op.IsDisciplined m) (total : t.renderer.IsTotal)
    (settled : t.Settled m) (reports : op.Reports m f e rest) (w : Surroundings) :
    let r := t.onEvent ((op.before m).context f e) w
    Reckons t w ((op.before m).context f e) (m.framesAt rest) r.1 r.2.1 r.2.2 := by
  intro r
  have off := reports.off linked hd
  rw [← Machine.framesAt_before reports.event off]
  refine reckons (linked.before hd) total rfl reports.running reports.below reports.back off
    settled.begun fun call region hin => ?_
  rcases reports.was with ⟨hs, -⟩ | ⟨-, hcall, -⟩
  · exact off (hs ▸ settled.running region f.id hin)
  · rw [show e.isCall = true from call] at hcall
    cases hcall

/-- An event that is heard of the frame on top of `rest`. -/
theorem ground_reported (linked : m.Linked) (hd : op.IsDisciplined m) (total : t.renderer.IsTotal)
    (settled : t.Settled m) (reports : op.Reports m f e rest)
    (hears : (op.before m).hears f.id e = true) :
    let r := t.onEvent ((op.before m).context f e) w
    m.Acts (op.after ((op.before m).heed f.id e r.1)) f.id →
    (∀ j, j ≠ f.id →
      (j ∈ (op.after ((op.before m).heed f.id e r.1)).untraced ↔ j ∈ m.untraced)) →
    r.2.1.ground r.2.2 (op.after ((op.before m).heed f.id e r.1)) =
      t.ground w m - (t.picksUp w m ((op.before m).context f e)).toNat := by
  intro r acts marks
  have off := reports.off linked hd
  have hr : Reckons t w ((op.before m).context f e) (m.framesAt rest) r.1 r.2.1 r.2.2 :=
    reckons_reported linked hd total settled reports w
  have hpick : t.picksUp w m ((op.before m).context f e) = (e.isLine &&
      !t.traces w f (m.framesAt m.stack.tail) && r.2.1.session.targetFrames.contains f.id) := rfl
  have hcall : e.isCall = true → r.2.1.session.depth f.thread.id =
    t.session.depth f.thread.id + (r.2.1.traces r.2.2 f (m.framesAt rest)).toNat := hr.call
  have hline : e.isLine = true → r.2.1.session.depth f.thread.id = t.session.depth f.thread.id ∧
      r.2.1.traces r.2.2 f (m.framesAt rest) = (t.traces w f (m.framesAt rest) ||
        r.2.1.session.targetFrames.contains f.id) := hr.line
  have hended : e.isTerminal = true → r.2.1.session.depth f.thread.id =
      t.session.depth f.thread.id - (t.traces w f (m.framesAt rest)).toNat := hr.ended
  have hskipped : r.1 = .skipFrame → e.isTerminal = false →
      r.2.1.traces r.2.2 f (m.framesAt rest) = false := hr.skipped
  have hcalm := hr.calm
  have hrest := followed_off linked acts marks hr.toMinds off
  have hframes := acts.framesAt_eq off
  have hstack := reports.stack_after
    ((Machine.stack_heed (op.before m) f.id e r.1).trans reports.stack)
  have hthread := reports.thread linked hd
  rw [hpick]
  obtain ⟨a, t', w'⟩ := r
  dsimp only at *
  have hafter : e.isTerminal = false → t'.follows w' (op.after ((op.before m).heed f.id e a)) f.id
      rest = t'.traces w' f (m.framesAt rest) :=
    fun goes => follows_after reports goes hears hcalm (fun skip => hskipped skip goes) hframes
  unfold ground
  rw [hstack, acts.thread, ← hthread]
  cases he : e.isCall with
  | true =>
    obtain ⟨notLine, goes⟩ := Event.of_isCall he
    have hs : m.stack = rest := by
      rcases reports.was with ⟨hs, -⟩ | ⟨-, hno, -⟩
      · exact hs
      · rw [he] at hno
        cases hno
    rw [goes, if_neg Bool.false_ne_true, followed, hafter goes, hrest, hcall he, hs, notLine]
    simp only [Bool.false_and, Bool.toNat_false]
    omega
  | false =>
    obtain ⟨hs, hbefore⟩ := follows_before (t := t) (w := w) linked reports he hears
    rw [hs, followed, hbefore, List.tail_cons]
    cases hterm : e.isTerminal with
    | true =>
      rw [if_pos rfl, hrest, hended hterm, (Event.of_isTerminal hterm).2]
      simp only [Bool.false_and, Bool.toNat_false]
      omega
    | false =>
      have hisLine := Event.isLine_of_not he hterm
      obtain ⟨hdepth, htraces⟩ := hline hisLine
      have hsplit : ∀ b c : Bool, (b || c).toNat = b.toNat + (!b && c).toNat := by decide
      rw [if_neg Bool.false_ne_true, followed, hafter hterm, hrest, hdepth, htraces, hisLine,
        hsplit, Bool.true_and]
      omega

theorem minds_dropFrame (t : Tracer) (w : Surroundings) (id : FrameId) :
    Minds t w (t.dropFrame id) w id := by
  have hs : t.session.Besides ((t.session.evict id).detach id) id :=
    ((Session.touches_evict t.session id).trans (Session.touches_detach _ id)).toBesides
  rcases t.dropFrame_cases id with ⟨hdrop, -⟩ | ⟨g, hdrop, -⟩ <;>
  · rw [hdrop]
    exact ⟨⟨rfl, rfl, rfl, hs⟩, rfl⟩

/-- What is heard changes nothing that other frames look at, and the depth of no other thread. -/
theorem minds_heard (linked : m.Linked) (hd : op.IsDisciplined m) (total : t.renderer.IsTotal)
    (settled : t.Settled m) (heard : m.heardBy? op = some (hook, ctx)) (w : Surroundings) :
    Minds t w (t.onEvent ctx w).2.1 (t.onEvent ctx w).2.2 ctx.frame.id ∧
      ∀ thread, thread ≠ ctx.frame.thread.id →
        (t.onEvent ctx w).2.1.session.depth thread = t.session.depth thread := by
  have issued := linked.isIssued
  cases live : ctx.event.isDiscard with
  | true =>
    rw [onEvent_of_discard live]
    refine ⟨t.minds_dropFrame w ctx.frame.id, fun thread _ => ?_⟩
    unfold Session.depth
    rw [t.depths_dropFrame]
  | false =>
    obtain ⟨under, reports⟩ := Op.reports_of_event linked hd (issued.event?_of_heardBy heard)
      (issued.get?_of_heardBy heard) live
    have hr := reckons_reported linked hd total settled reports w
    rw [← (Machine.context_of_heardBy issued heard).1] at hr
    exact ⟨hr.toMinds, hr.elsewhere⟩

/-- A suspended generator that is dropped. -/
theorem ground_dropped (linked : m.Linked) (hd : op.IsDisciplined m) (drops : op.Drops m f)
    {m₁ : Machine} (hm : (m.step deliver s op).machine = op.after m₁)
    (stack : m₁.stack = (op.before m).stack) (minds : Minds t w t' w' f.id)
    (depths : t'.session.depths = t.session.depths) :
    t'.ground w' (m.step deliver s op).machine = t.ground w m := by
  have acts : m.Acts (m.step deliver s op).machine f.id := linked.acts_step hd drops.event
  have hstack : (m.step deliver s op).machine.stack = m.stack := by
    rw [hm, drops.after, stack, drops.stack]
  have hsame := followed_off linked acts (fun j hj => Machine.mem_untraced_step drops.event hj)
    minds drops.off
  unfold ground Session.depth
  rw [hstack, hsame, acts.thread, depths]

/-- Whatever is heard of a disciplined operation, the ground stays, but for a frame that is picked up. -/
theorem ground_heard (linked : m.Linked) (hd : op.IsDisciplined m) (total : t.renderer.IsTotal)
    (settled : t.Settled m) (heard : m.heardBy? op = some (hook, ctx))
    (answer : (deliver hook ctx s).1 = (t.onEvent ctx w).1) :
    (t.onEvent ctx w).2.1.ground (t.onEvent ctx w).2.2 (m.step deliver s op).machine =
      t.ground w m - (t.picksUp w m ctx).toNat := by
  have issued := linked.isIssued
  have hevent := issued.event?_of_heardBy heard
  have hlive := issued.get?_of_heardBy heard
  have acts : m.Acts (m.step deliver s op).machine ctx.frame.id := linked.acts_step hd hevent
  have marks : ∀ j, j ≠ ctx.frame.id →
      (j ∈ (m.step deliver s op).machine.untraced ↔ j ∈ m.untraced) :=
    fun _ hj => Machine.mem_untraced_step hevent hj
  obtain ⟨hctx, hears⟩ := Machine.context_of_heardBy issued heard
  have calm : ∀ text, (t.onEvent ctx w).1 ≠ .panicked text := (t.onEvent_mishaps ctx w).1
  have hfailure : (t.onEvent ctx w).1.failure? = none := by
    cases ha : (t.onEvent ctx w).1 with
    | panicked text => exact absurd ha (calm text)
    | proceed | skipFrame => rfl
  have hstep : (m.step deliver s op).machine =
      op.after ((op.before m).heed ctx.frame.id ctx.event (t.onEvent ctx w).1) := by
    rw [Machine.step_of_told issued heard]
    dsimp only
    rw [answer, hfailure]
    rfl
  cases live : ctx.event.isDiscard with
  | false =>
    obtain ⟨rest, reports⟩ := Op.reports_of_event linked hd hevent hlive live
    rw [hstep] at acts marks ⊢
    have hground := ground_reported linked hd total settled reports hears (w := w)
    rw [← hctx] at hground
    exact hground acts marks
  | true =>
    have hdrop := onEvent_of_discard (t := t) (w := w) live
    have hdepth := t.depths_dropFrame ctx.frame.id
    have hpick : t.picksUp w m ctx = false := by
      cases he : ctx.event with
      | discard => simp [picksUp, he, Event.isLine]
      | _ =>
        rw [he] at live
        cases live
    cases Op.Telling.of_disciplined linked hd with
    | nothing event =>
      rw [event] at hevent
      cases hevent
    | event f e rest reports =>
      have he : e = ctx.event := congrArg Prod.snd (Option.some.inj (reports.event.symm.trans hevent))
      have running := reports.running
      rw [he, live] at running
      cases running
    | drop f drops =>
      have hid : f.id = ctx.frame.id :=
        congrArg Prod.fst (Option.some.inj (drops.event.symm.trans hevent))
      have hminds : Minds t w (t.dropFrame ctx.frame.id) w f.id :=
        hid ▸ t.minds_dropFrame w ctx.frame.id
      have hground := ground_dropped linked hd drops hstep (Machine.stack_heed _ _ _ _) hminds hdepth
      rw [hdrop, hpick, hground]
      simp

/-- An operation without an event changes nothing for any frame, but for one that it takes back. -/
theorem follows_quiet (event : op.event? m = none) {id : FrameId} {under : List FrameId}
    (retraced : ∀ f, m.standing id = some f → op.retraces id = true → id ∈ m.untraced →
      t.traces w f (m.framesAt under) = false) :
    t.follows w (op.before m) id under = t.follows w m id under := by
  have hspares : ∀ j, m.Spares (op.before m) j := fun j => Op.spares_before (by simp [event])
  have hmark : (op.before m).untraced.contains id =
      (m.untraced.contains id && !op.retraces id) := by
    rw [Bool.eq_iff_iff, List.contains_iff_mem, Op.mem_untraced_before]
    simp
  unfold follows
  rw [hmark, (hspares id).standing, Machine.framesAt_congr fun k _ => (hspares k).standing]
  cases hf : m.standing id with
  | none => simp
  | some f =>
    cases hr : op.retraces id with
    | false => simp
    | true =>
      cases hin : m.untraced.contains id with
      | false => rfl
      | true => simp [retraced f hf hr (List.contains_iff_mem.mp hin)]

/-- An event that is not heard, since its frame was given up. -/
theorem ground_missed (linked : m.Linked) (hd : op.IsDisciplined m) (reports : op.Reports m f e rest)
    (hears : (op.before m).hears f.id e = false)
    (hstep : (m.step deliver s op).machine = op.after (op.before m)) :
    t.ground w (m.step deliver s op).machine = t.ground w m := by
  have acts : m.Acts (m.step deliver s op).machine f.id := linked.acts_step hd reports.event
  have hrest := followed_off linked acts (fun j hj => Machine.mem_untraced_step reports.event hj)
    (Carries.refl t w f.id).minds (reports.off linked hd)
  obtain ⟨hcall, hmark⟩ := Machine.mem_untraced_of_unheard hears
  have hs : m.stack = f.id :: rest := by
    rcases reports.was with ⟨-, hno⟩ | ⟨hs, -⟩
    · rw [hcall] at hno
      cases hno
    · exact hs
  have hdark : t.followed w m (f.id :: rest) = t.followed w m rest := by
    simp [followed, follows, hmark]
  have hafter : t.followed w (m.step deliver s op).machine (m.step deliver s op).machine.stack =
      t.followed w m rest := by
    rw [hstep] at hrest ⊢
    rw [reports.stack_after reports.stack]
    cases hterm : e.isTerminal with
    | true => exact hrest
    | false =>
      -- while it runs it stays given up
      have hstill : f.id ∈ (op.after (op.before m)).untraced := by
        rw [reports.stays hterm]
        exact reports.mem_untraced.mpr hmark
      rw [if_neg Bool.false_ne_true, ← hrest]
      simp [followed, follows, hstill]
  unfold ground
  rw [hafter, acts.thread, hs, hdark]

theorem unheard_of_none {m : Machine} (hd : op.IsDisciplined m)
    (installed : (op.before m).hook = some hook) (event : op.event? m = some (f.id, e))
    (live : (op.before m).frames.get? f.id = some f) (unheard : m.heardBy? op = none) :
    (op.before m).hears f.id e = false := by
  cases hears : (op.before m).hears f.id e with
  | false => rfl
  | true =>
    rw [Machine.heardBy?_of_event hd installed event live hears] at unheard
    cases unheard

/-- So it does where nothing is heard of an operation under the hook, as long as no frame that is traced is
taken back by name. -/
theorem ground_unheard (linked : m.Linked) (hd : op.IsDisciplined m)
    (installed : (op.event? m).isSome = true → (op.before m).hook = some hook)
    (retraced : ∀ id under f, id :: under <:+ m.stack → m.standing id = some f →
      op.retraces id = true → id ∈ m.untraced → t.traces w f (m.framesAt under) = false)
    (unheard : m.heardBy? op = none) : t.ground w (m.step deliver s op).machine = t.ground w m := by
  cases Op.Telling.of_disciplined linked hd with
  | nothing event stack =>
    have hsame : t.followed w (op.before m) m.stack = t.followed w m m.stack :=
      followed_congr fun j under hs => follows_quiet event fun f => retraced j under f hs
    unfold ground
    rw [Machine.step_of_quiet hd event]
    dsimp only
    rw [stack, Op.thread_before, hsame]
  | event f e rest reports =>
    have hhook := installed (by rw [reports.event]; rfl)
    have hears := unheard_of_none hd hhook reports.event reports.live unheard
    have hstep : m.step deliver s op = _ :=
      Machine.step_of_unheard hd hhook reports.event reports.live hears
    exact ground_missed linked hd reports hears (congrArg Outcome.machine hstep)
  | drop f drops =>
    have hhook := installed (by rw [drops.event]; rfl)
    have hears := unheard_of_none hd hhook drops.event drops.live unheard
    have hstep : m.step deliver s op = _ :=
      Machine.step_of_unheard hd hhook drops.event drops.live hears
    exact ground_dropped linked hd drops (congrArg Outcome.machine hstep) rfl
      (Carries.refl t w f.id).minds rfl

end

end Tracer
end SelectiveTrace
