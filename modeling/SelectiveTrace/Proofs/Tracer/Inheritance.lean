import SelectiveTrace.Proofs.Tracer.Memory

/-! How tracing is handed down the stack, for codes and for regions alike. A frame is traced when it
is a target or when the nearest source above it hands tracing down; no event of a frame changes this
for the frames below it. -/
namespace SelectiveTrace

/-- A verdict on an event fits a frame that is traced, or one that is not: the calls and ends of the
one are shown, nothing of the other, and only the other is skipped. -/
inductive Verdict.Fits (e : Event) : Bool → Verdict → Prop
  | shown (expanded : Bool) : Fits e true (.show_ expanded)
  | omitted (line : e.isLine = true) : Fits e true .ignore
  | hidden {v : Verdict} (quiet : v.isShow = false) : Fits e false v

theorem Region.holds_congr (r : Region) {w w' : Surroundings}
    (h : w'.disk.current = w.disk.current) (f : Frame) : r.holds w' f = r.holds w f := by
  have ha : w'.absolute f.file = w.absolute f.file := by
    unfold Surroundings.absolute Disk.absolute
    rw [h]
  unfold holds
  rw [ha]

theorem Machine.Linked.framesAt_ne {m : Machine} (h : m.Linked) {ids : List FrameId} {id : FrameId}
    (off : id ∉ ids) : ∀ f ∈ m.framesAt ids, f.id ≠ id := by
  intro f hf he
  exact off (he ▸ h.mem_framesAt hf)

/-- What happens to one frame leaves the others where they stand. -/
theorem Machine.Acts.framesAt_eq {m m' : Machine} {id : FrameId} (acts : m.Acts m' id)
    {ids : List FrameId} (off : id ∉ ids) : m'.framesAt ids = m.framesAt ids :=
  framesAt_congr fun j hj => (acts.spares j fun he => off (he ▸ hj)).standing

theorem Session.Besides.contains {s s' : Session} {id j : FrameId} (h : s.Besides s' id)
    (hj : j ≠ id) : s'.targetFrames.contains j = s.targetFrames.contains j := by
  rw [Bool.eq_iff_iff, List.contains_iff_mem, List.contains_iff_mem]
  exact h.attached j hj

namespace Tracer
variable {t t' : Tracer} {w w' : Surroundings} {ctx : Context} {m : Machine} {id : FrameId}

structure Unentered (t : Tracer) : Prop where
  frames : t.observed = none → t.session.targetFrames = []
  codes : ∀ r, t.observed = some r → t.session.targetCodes = []

/-- Whether the nearest source among the first `n` frames hands tracing down. -/
def handsDown (t : Tracer) (w : Surroundings) : Nat → List Frame → Bool
  | 0, _ => false
  | _ + 1, [] => false
  | n + 1, above :: below =>
    if t.isSource w above then !t.isExhausted above else t.handsDown w n below

def traces (t : Tracer) (w : Surroundings) (f : Frame) (below : List Frame) : Bool :=
  t.session.isTarget f.code f.id || t.handsDown w (levels t.config) below

theorem traces_of_code {f f' : Frame} {below : List Frame} (code : f.code = f'.code)
    (hid : f.id = f'.id) : t.traces w f below = t.traces w f' below := by
  unfold traces
  rw [code, hid]

structure Minds (t : Tracer) (w : Surroundings) (t' : Tracer) (w' : Surroundings) (id : FrameId) :
    Prop extends Besides t t' id where
  directory : w'.disk.current = w.disk.current

theorem isSource_congr (h : Minds t w t' w' id) {f : Frame} (hf : f.id ≠ id) :
    t'.isSource w' f = t.isSource w f := by
  unfold isSource
  rw [h.session.codes, h.session.contains hf, h.observed]
  simp only [Region.holds_congr _ h.directory]

theorem Minds.handsDown (h : Minds t w t' w' id) {below : List Frame}
    (off : ∀ f ∈ below, f.id ≠ id) (n : Nat) : t'.handsDown w' n below = t.handsDown w n below := by
  induction below generalizing n with
  | nil => cases n <;> rfl
  | cons above below ih =>
    cases n with
    | zero => rfl
    | succ n =>
      have hne := off above List.mem_cons_self
      have hx := isExhausted_congr h.config (h.session.hits above.id hne)
      simp only [Tracer.handsDown, isSource_congr h hne, hx,
        ih fun f hf => off f (List.mem_cons_of_mem _ hf)]

theorem Minds.traces (h : Minds t w t' w' id) {f : Frame} {below : List Frame} (hf : f.id ≠ id)
    (off : ∀ g ∈ below, g.id ≠ id) : t'.traces w' f below = t.traces w f below := by
  unfold Tracer.traces Session.isTarget
  rw [h.session.codes, h.session.contains hf, h.config, h.handsDown off]

/-- A session that attaches the same frames, as a hit leaves it, has the frame traced as before. -/
theorem traces_of_same_frames {s s' : Session} {f : Frame} {below : List Frame}
    (touches : s.Touches s' f.id) (frames : s'.targetFrames = s.targetFrames)
    (off : ∀ g ∈ below, g.id ≠ f.id) :
    Tracer.traces { t with session := s' } w f below =
      Tracer.traces { t with session := s } w f below := by
  have minds : Minds { t with session := s } w { t with session := s' } w f.id :=
    ⟨⟨rfl, rfl, rfl, touches.toBesides⟩, rfl⟩
  unfold traces Session.isTarget
  rw [minds.handsDown off, touches.codes]
  simp only [frames]

/-- Where frames are attached, tracing begins only with them. -/
theorem traces_of_unattached (observed : t.observed.isSome = true) (ht : t.Unentered)
    (h : t.session.targetFrames = []) (f : Frame) (below : List Frame) :
    t.traces w f below = false := by
  obtain ⟨r, hr⟩ := Option.isSome_iff_exists.mp observed
  have hsource : ∀ g, t.isSource w g = false := by
    intro g
    simp [isSource, ht.codes r hr, h]
  have hdown : ∀ n, t.handsDown w n below = false := by
    induction below with
    | nil => intro n; cases n <;> rfl
    | cons above below ih =>
      intro n
      cases n with
      | zero => rfl
      | succ n => simp [handsDown, hsource, ih]
  simp [traces, Session.isTarget, ht.codes r hr, h, hdown]

/-- The search for a target walks down the stack. -/
theorem fits_inheritFrom (t : Tracer) (h : m.Linked) (w : Surroundings)
    (frames : ctx.frames = m.frames) (n : Nat) {ids : List FrameId} (hs : ids <:+ m.stack)
    {f : Frame} (back : f.back = ids.head?) :
    Verdict.Fits ctx.event (t.handsDown w n (m.framesAt ids)) (t.inheritFrom w ctx n f) := by
  -- each level that is searched takes one frame off the stack
  induction n generalizing ids f with
  | zero =>
    refine .hidden ?_
    simp only [inheritFrom, unrelated]
    split <;> rfl
  | succ n ih =>
    cases ids with
    | nil =>
      rw [inheritFrom, back]
      exact .hidden rfl
    | cons id ids =>
      obtain ⟨above, ha, hback⟩ := h.chained id ids hs
      obtain ⟨g, hg, rfl⟩ := Machine.get?_of_standing ha
      have hids : ids <:+ m.stack := (List.suffix_cons id ids).trans hs
      have hsource : t.isSource w g.place = t.isSource w g := rfl
      have hx : t.isExhausted g.place = t.isExhausted g := rfl
      rw [inheritFrom, back, List.head?_cons, Option.bind_some, frames, hg,
        Machine.framesAt_cons ha, handsDown, hsource, hx]
      dsimp only
      by_cases hc : t.isSource w g = true
      · rw [if_pos hc, if_pos hc]
        cases t.isExhausted g with
        | true => exact .hidden rfl
        | false =>
          simp only [Bool.not_false, Bool.false_eq_true, if_false]
          split
          · split
            · exact .omitted ‹_›
            · exact .shown true
          · exact .shown false
      · rw [if_neg hc, if_neg hc]
        exact ih hids hback

theorem fits_verdict (t : Tracer) (h : m.Linked) (w : Surroundings) (frames : ctx.frames = m.frames)
    {ids : List FrameId} (hs : ids <:+ m.stack) (back : ctx.frame.back = ids.head?) :
    Verdict.Fits ctx.event (t.traces w ctx.frame (m.framesAt ids)) (t.verdict w ctx) := by
  unfold traces verdict
  cases t.session.isTarget ctx.frame.code ctx.frame.id with
  | true => exact .shown false
  | false =>
    cases counted : t.config.overflows with
    | false => exact t.fits_inheritFrom h w frames _ hs back
    | true =>
      -- no level is looked at
      simp only [levels, counted, if_true, handsDown]
      exact .hidden rfl

inductive Ruling (t : Tracer) (w : Surroundings) (ctx : Context) (below : List Frame) :
    Verdict → Session → Prop
  /-- The frame is traced and goes on. Without a region nothing but a line is passed over. -/
  | traced {v : Verdict} {s : Session} (running : ctx.event.isTerminal = false)
    (touches : t.session.Touches s ctx.frame.id) (stays : v ≠ .skip)
    (traces : Tracer.traces { t with session := s } w ctx.frame below = true)
    (calls : t.observed = none → ctx.event.isLine = false → v.isShow = true)
    (plain : t.observed = none →
      s.targetFrames = t.session.targetFrames ∧ s.depths = t.session.depths) :
    Ruling t w ctx below v s
  /-- The frame is traced and ends. -/
  | ended (terminal : ctx.event.isTerminal = true) (expanded : Bool)
    (traces : t.traces w ctx.frame below = true) :
    Ruling t w ctx below (.show_ expanded) t.session
  /-- The frame is not traced. -/
  | untraced {v : Verdict} (hidden : v.isShow = false)
    (traces : t.traces w ctx.frame below = false) : Ruling t w ctx below v t.session
  /-- The frame ends outside of the region. -/
  | released {s : Session} (terminal : ctx.event.isTerminal = true)
    (region : t.observed.isSome = true) (touches : t.session.Touches s ctx.frame.id)
    (forgotten : ¬ s.Remembers ctx.frame.id) : Ruling t w ctx below .ignore s

/-- Counting a hit touches the frame alone; what ends is not counted. -/
theorem countHit_cases (t : Tracer) (ctx : Context) :
    ∃ s, (t.countHit ctx).2 = { t with session := s } ∧ t.session.Touches s ctx.frame.id ∧
      (s.targetFrames = t.session.targetFrames ∧ s.depths = t.session.depths) ∧
      (ctx.event.isTerminal = true → (t.countHit ctx).1 = false ∧ s = t.session) := by
  unfold countHit
  split
  · exact ⟨t.session, rfl, Session.Touches.refl _ _, ⟨rfl, rfl⟩, fun _ => ⟨rfl, rfl⟩⟩
  · split
    · exact ⟨t.session, rfl, Session.Touches.refl _ _, ⟨rfl, rfl⟩, fun _ => ⟨rfl, rfl⟩⟩
    next hterm =>
      exact ⟨_, rfl, Session.touches_recordHit _ _ _, ⟨rfl, rfl⟩, fun h => absurd h hterm⟩

section
variable {ids : List FrameId}

/-- What the targets say, once the gate has let the event pass. -/
theorem ruling_of_passed (h : m.Linked) (frames : ctx.frames = m.frames) (hs : ids <:+ m.stack)
    (back : ctx.frame.back = ids.head?) (off : ctx.frame.id ∉ ids) {s : Session}
    (gate : t.gated w ctx = (none, s)) (touches : t.session.Touches s ctx.frame.id)
    (same : s = t.session ∨ t.observed.isSome = true ∧ ctx.event.isTerminal = false ∧
      ctx.frame.id ∈ s.targetFrames) :
    ∃ v s', t.decide w ctx = (v, { t with session := s' }) ∧
      t.Ruling w ctx (m.framesAt ids) v s' := by
  have hfits := fits_verdict { t with session := s } h w frames hs back
  unfold decide
  rw [gate]
  dsimp only
  obtain ⟨s', hs', touches', hplain, hterm⟩ := countHit_cases { t with session := s } ctx
  have htraces : Tracer.traces { t with session := s' } w ctx.frame (m.framesAt ids) =
      Tracer.traces { t with session := s } w ctx.frame (m.framesAt ids) :=
    traces_of_same_frames touches' hplain.1 (h.framesAt_ne off)
  have hsame : t.observed = none → s = t.session := by
    intro ho
    refine same.resolve_right fun hr => ?_
    rw [ho] at hr
    cases hr.1
  generalize Tracer.verdict { t with session := s } w ctx = v at hfits ⊢
  generalize hb : Tracer.traces { t with session := s } w ctx.frame (m.framesAt ids) = b at *
  cases hfits with
  | shown expanded =>
    dsimp only
    refine ⟨_, s', Prod.ext rfl hs', ?_⟩
    cases ht : ctx.event.isTerminal with
    | false =>
      refine .traced ht (touches.trans touches') ?_ htraces ?_ fun ho => hsame ho ▸ hplain
      · split <;> simp
      · intro _ hl
        cases hc : (countHit { t with session := s } ctx).1 with
        | false => rfl
        | true =>
          rw [isLine_of_countHit hc] at hl
          cases hl
    | true =>
      obtain ⟨hc, rfl⟩ := hterm ht
      rcases same with rfl | ⟨-, hrun, -⟩
      · rw [hc]
        exact .ended ht expanded hb
      · rw [ht] at hrun
        cases hrun
  | omitted line =>
    refine ⟨.ignore, s, rfl, ?_⟩
    have ht : ctx.event.isTerminal = false := by
      cases he : ctx.event <;> rw [he] at line <;> first | rfl | cases line
    refine .traced ht touches (by simp) hb ?_ fun ho => hsame ho ▸ ⟨rfl, rfl⟩
    intro _ hl
    rw [line] at hl
    cases hl
  | hidden quiet =>
    have hdark : ∀ v' : Verdict, v'.isShow = false → t.Ruling w ctx (m.framesAt ids) v' s := by
      intro v' hv'
      rcases same with rfl | ⟨-, -, hin⟩
      · exact .untraced hv' hb
      · exfalso
        simp [traces, Session.isTarget, hin] at hb
    cases v with
    | show_ expanded => cases quiet
    | skip => exact ⟨.skip, s, rfl, hdark .skip rfl⟩
    | ignore => exact ⟨.ignore, s, rfl, hdark .ignore rfl⟩
    | overflow => exact ⟨.overflow, s, rfl, hdark .overflow rfl⟩

/-- The gate of a region lets an event pass, maybe because its frame is attached now; or no frame is
attached and the event is hidden; or an attached frame stands outside. -/
theorem gated_cases (t : Tracer) (w : Surroundings) (running : ctx.event.isDiscard = false) :
    (∃ s, t.gated w ctx = (none, s) ∧ t.session.Touches s ctx.frame.id ∧
      (s = t.session ∨ t.observed.isSome = true ∧ ctx.event.isTerminal = false ∧
        ctx.frame.id ∈ s.targetFrames)) ∨
    t.observed.isSome = true ∧
      ((∃ v : Verdict, t.gated w ctx = (some v, t.session) ∧ v.isShow = false ∧
        t.session.targetFrames = []) ∨
      (t.gated w ctx = (some .ignore,
          if ctx.event.isTerminal then deactivate t.session ctx.frame else t.session) ∧
        ctx.frame.id ∈ t.session.targetFrames)) := by
  cases ho : t.observed with
  | none =>
    refine Or.inl ⟨t.session, ?_, Session.Touches.refl _ _, Or.inl rfl⟩
    unfold gated
    rw [ho]
  | some r =>
    have hg : t.gated w ctx = gate r w t.session ctx := by
      unfold gated
      rw [ho]
    have attached : ∀ isFirst, ctx.event.isTerminal = false →
        t.session.Touches (activate t.session w.now ctx.frame isFirst) ctx.frame.id ∧
          (activate t.session w.now ctx.frame isFirst = t.session ∨
            (some r).isSome = true ∧ ctx.event.isTerminal = false ∧
              ctx.frame.id ∈ (activate t.session w.now ctx.frame isFirst).targetFrames) :=
      fun isFirst hterm => ⟨touches_activate _ _ _ _,
        Or.inr ⟨rfl, hterm, (besides_activate t.session w.now ctx.frame isFirst).2⟩⟩
    rw [hg]
    unfold gate
    rw [activating_eq running]
    dsimp only
    split
    next he =>
      have hnil : t.session.targetFrames = [] := List.isEmpty_iff.mp he
      split
      · exact Or.inr ⟨rfl, Or.inl ⟨.skip, rfl, rfl, hnil⟩⟩
      · split
        · exact Or.inr ⟨rfl, Or.inl ⟨.ignore, rfl, rfl, hnil⟩⟩
        next hin =>
          have hterm : ctx.event.isTerminal = false := by
            simp only [Bool.or_eq_true, not_or] at hin
            simpa using hin.2
          exact Or.inl ⟨_, rfl, attached true hterm⟩
    · split
      · split
        next hact =>
          have hterm : ctx.event.isTerminal = false := by
            simp only [Bool.and_eq_true] at hact
            simpa using hact.1
          exact Or.inl ⟨_, rfl, attached false hterm⟩
        · exact Or.inl ⟨_, rfl, Session.Touches.refl _ _, Or.inl rfl⟩
      · split
        next hin => exact Or.inr ⟨rfl, Or.inr ⟨rfl, List.contains_iff_mem.mp hin⟩⟩
        · exact Or.inl ⟨_, rfl, Session.Touches.refl _ _, Or.inl rfl⟩

/-- The ruling on every event but a discard. -/
theorem Unentered.ruling (ht : t.Unentered) (h : m.Linked) (frames : ctx.frames = m.frames)
    (running : ctx.event.isDiscard = false) (hs : ids <:+ m.stack)
    (back : ctx.frame.back = ids.head?) (off : ctx.frame.id ∉ ids) :
    ∃ v s, t.decide w ctx = (v, { t with session := s }) ∧
      t.Ruling w ctx (m.framesAt ids) v s := by
  rcases t.gated_cases w running with ⟨s, hg, touches, same⟩ | ⟨ho, ⟨v, hg, hv, hnil⟩ | ⟨hg, hin⟩⟩
  · exact ruling_of_passed h frames hs back off hg touches same
  · refine ⟨v, t.session, by simp only [decide, hg], ?_⟩
    exact .untraced hv (traces_of_unattached ho ht hnil _ _)
  · refine ⟨.ignore, if ctx.event.isTerminal then deactivate t.session ctx.frame else t.session,
      by simp only [decide, hg], ?_⟩
    cases hterm : ctx.event.isTerminal with
    | true =>
      obtain ⟨touches, forgotten⟩ := touches_deactivate t.session ctx.frame
      exact .released hterm ho touches forgotten
    | false =>
      refine .traced hterm (Session.Touches.refl _ _) (by simp) ?_ ?_ fun _ => ⟨rfl, rfl⟩
      · simp [traces, Session.isTarget, hin]
      · intro hno
        rw [hno] at ho
        cases ho

end

end Tracer
end SelectiveTrace
