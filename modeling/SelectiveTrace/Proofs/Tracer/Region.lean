import SelectiveTrace.Proofs.Tracer.Verdict

/-! The verdicts of a tracer that observes a region and collects a call graph. A frame that was heard
inside the region is attached until its activation ends, and its events are shown as long as it stands
inside. For any other frame it is settled below it, as for codes, whether its calls and ends are
shown. -/
namespace SelectiveTrace

def Region.surrounds (r : Region) (f : Frame) : Bool :=
  f.file.same r.file && r.containsLine f.line

theorem Region.holds_eq (r : Region) (w : Surroundings) {f : Frame} (h : f.file.isAbsolute = true) :
    r.holds w f = r.surrounds f := by
  have ha : w.absolute f.file = f.file := by
    unfold Surroundings.absolute Disk.absolute Path.join
    rw [if_pos h]
  unfold Region.holds surrounds
  rw [ha, Bool.or_self]

def Verdict.isShow : Verdict → Bool
  | .show_ _ => true
  | .skip | .ignore | .overflow => false

theorem Verdict.isShow_iff {v : Verdict} : v.isShow = true ↔ ∃ expanded, v = .show_ expanded := by
  cases v <;> simp [isShow]

namespace Session

structure Besides (s s' : Session) (id : FrameId) : Prop where
  codes : s'.targetCodes = s.targetCodes
  attached : ∀ j, j ≠ id → (j ∈ s'.targetFrames ↔ j ∈ s.targetFrames)
  hits : ∀ j, j ≠ id → s'.lineHits.get? j = s.lineHits.get? j

theorem Besides.refl (s : Session) (id : FrameId) : Besides s s id :=
  ⟨rfl, fun _ _ => Iff.rfl, fun _ _ => rfl⟩

theorem Besides.trans {s s' s'' : Session} {id : FrameId} (h : Besides s s' id)
    (h' : Besides s' s'' id) : Besides s s'' id :=
  ⟨h'.codes.trans h.codes, fun j hj => (h'.attached j hj).trans (h.attached j hj),
    fun j hj => (h'.hits j hj).trans (h.hits j hj)⟩

theorem Keeps.besides {s s' : Session} {id : FrameId} (h : Keeps s s' id) : Besides s s' id :=
  ⟨h.codes, fun _ _ => by rw [h.frames], h.hits⟩

theorem mem_detach {s : Session} {id j : FrameId} :
    j ∈ (s.detach id).targetFrames ↔ j ∈ s.targetFrames ∧ j ≠ id := by
  simp [detach]

theorem besides_detach (s : Session) (id : FrameId) : Besides s (s.detach id) id :=
  ⟨rfl, fun _ hj => mem_detach.trans (and_iff_left hj), fun _ _ => rfl⟩

theorem mem_attach {s : Session} {id j : FrameId} :
    j ∈ (s.attach id).targetFrames ↔ j = id ∨ j ∈ s.targetFrames :=
  List.mem_insert_iff

theorem besides_attach (s : Session) (id : FrameId) : Besides s (s.attach id) id :=
  ⟨rfl, fun _ hj => mem_attach.trans (or_iff_right hj), fun _ _ => rfl⟩

end Session

namespace Tracer
variable {t t' : Tracer} {r : Region} {ctx : Context}

theorem besides_activate (s : Session) (now : Nat) (f : Frame) (isFirst : Bool) :
    s.Besides (activate s now f isFirst) f.id ∧ f.id ∈ (activate s now f isFirst).targetFrames := by
  have hmem : f.id ∈ (s.attach f.id).targetFrames := Session.mem_attach.mpr (Or.inl rfl)
  have hb := Session.besides_attach s f.id
  unfold activate
  cases isFirst with
  | false => exact ⟨⟨hb.codes, hb.attached, hb.hits⟩, hmem⟩
  | true => exact ⟨⟨hb.codes, hb.attached, hb.hits⟩, hmem⟩

theorem besides_deactivate (s : Session) (f : Frame) :
    s.Besides (deactivate s f) f.id ∧ f.id ∉ (deactivate s f).targetFrames := by
  refine ⟨?_, ?_⟩
  · have h₁ := (Session.keeps_adjustDepth s f.thread.id (-1) f.id).besides
    have h₂ := Session.besides_detach (s.adjustDepth f.thread.id (-1)) f.id
    exact (h₁.trans h₂).trans (Session.keeps_evict _ f.id).besides
  · intro h
    have h' : f.id ∈ ((s.adjustDepth f.thread.id (-1)).detach f.id).targetFrames := h
    exact (Session.mem_detach.mp h').2 rfl

structure ByRegion (t : Tracer) (r : Region) : Prop where
  observed : t.observed = some r
  codes : t.session.targetCodes = []
  compact : t.config.expands = false

def Attaches (t : Tracer) (id : FrameId) : Prop :=
  id ∈ t.session.targetFrames

instance (t : Tracer) (id : FrameId) : Decidable (t.Attaches id) :=
  inferInstanceAs (Decidable (id ∈ t.session.targetFrames))

structure Besides (t t' : Tracer) (id : FrameId) : Prop where
  config : t'.config = t.config
  observed : t'.observed = t.observed
  renderer : t'.renderer = t.renderer
  session : t.session.Besides t'.session id

theorem Besides.refl (t : Tracer) (id : FrameId) : Besides t t id :=
  ⟨rfl, rfl, rfl, Session.Besides.refl _ _⟩

theorem Besides.trans {t'' : Tracer} {id : FrameId} (h : Besides t t' id)
    (h' : Besides t' t'' id) : Besides t t'' id :=
  ⟨h'.config.trans h.config, h'.observed.trans h.observed, h'.renderer.trans h.renderer,
    h.session.trans h'.session⟩

theorem Keeps.besides {id : FrameId} (h : Keeps t t' id) : Besides t t' id :=
  ⟨h.config, h.observed, h.renderer, h.session.besides⟩

theorem Besides.byRegion {id : FrameId} (h : Besides t t' id) (ht : t.ByRegion r) :
    t'.ByRegion r :=
  ⟨h.observed.trans ht.observed, h.session.codes.trans ht.codes, by rw [h.config, ht.compact]⟩

/-- Whether tracing is handed on by the nearest attached frame inside the region among the first
`n`. -/
def handsOn (t : Tracer) (r : Region) : Nat → List Frame → Bool
  | 0, _ => false
  | _ + 1, [] => false
  | n + 1, above :: below =>
    if t.Attaches above.id ∧ r.surrounds above = true then !t.isExhausted above
    else t.handsOn r n below

theorem handsOn_of_isEmpty (h : t.session.targetFrames = []) (n : Nat) (below : List Frame) :
    t.handsOn r n below = false := by
  induction below generalizing n with
  | nil => cases n <;> rfl
  | cons above below ih =>
    cases n with
    | zero => rfl
    | succ n => simp [handsOn, Attaches, h, ih]

theorem Besides.handsOn {id : FrameId} (h : Besides t t' id) {below : List Frame}
    (hb : ∀ f ∈ below, f.id ≠ id) (n : Nat) : t'.handsOn r n below = t.handsOn r n below := by
  induction below generalizing n with
  | nil => cases n <;> rfl
  | cons above below ih =>
    cases n with
    | zero => rfl
    | succ n =>
      have hne := hb above List.mem_cons_self
      have ha := isExhausted_congr h.config (h.session.hits above.id hne)
      have hm : t'.Attaches above.id ↔ t.Attaches above.id := h.session.attached above.id hne
      simp only [Tracer.handsOn, hm, ha, ih fun f hf => hb f (List.mem_cons_of_mem _ hf)]

end Tracer

namespace Tracer
variable {t : Tracer} {r : Region} {ctx : Context} {m : Machine}

theorem ByRegion.isSource (ht : t.ByRegion r) (w : Surroundings) {f : Frame}
    (h : f.file.isAbsolute = true) :
    t.isSource w f = true ↔ t.Attaches f.id ∧ r.surrounds f = true := by
  unfold Tracer.isSource Attaches
  simp [ht.codes, ht.observed, r.holds_eq w h]

/-- The search for a target walks down the stack. -/
theorem ByRegion.isShow_inheritFrom (ht : t.ByRegion r) (h : m.Linked) (spelled : m.IsSpelled)
    (w : Surroundings) (frames : ctx.frames = m.frames) (n : Nat) {ids : List FrameId}
    (hs : ids <:+ m.stack) {f : Frame} (back : f.back = ids.head?) :
    (t.inheritFrom w ctx n f).isShow = t.handsOn r n (m.framesAt ids) := by
  induction n generalizing ids f with
  | zero =>
    simp only [inheritFrom, unrelated, Tracer.handsOn]
    split <;> rfl
  | succ n ih =>
    cases ids with
    | nil =>
      rw [inheritFrom, back]
      rfl
    | cons id ids =>
      obtain ⟨above, ha, hback⟩ := h.chained id ids hs
      have habs := spelled id above ha
      obtain ⟨g, hg, rfl⟩ := Machine.get?_of_standing ha
      have hids : ids <:+ m.stack := (List.suffix_cons id ids).trans hs
      have hsource : t.isSource w g = true ↔ t.Attaches g.place.id ∧ r.surrounds g.place = true :=
        ht.isSource w habs
      rw [inheritFrom, back, List.head?_cons, Option.bind_some, frames, hg,
        Machine.framesAt_cons ha, Tracer.handsOn]
      dsimp only
      by_cases hc : t.isSource w g = true
      · have he : t.isExhausted g.place = t.isExhausted g := rfl
        rw [if_pos hc, if_pos (hsource.mp hc), he]
        cases t.isExhausted g with
        | true => rfl
        | false => simp [ht.compact, Verdict.isShow]
      · rw [if_neg hc, if_neg fun hp => hc (hsource.mpr hp)]
        exact ih hids hback

/-- The frame of an event is attached, or is going to be: a call or a line inside the region
attaches it. -/
def Attends (t : Tracer) (r : Region) (ctx : Context) : Prop :=
  t.Attaches ctx.frame.id ∨ (r.surrounds ctx.frame = true ∧ ctx.event.isTerminal = false)

structure Judges (t : Tracer) (r : Region) (ctx : Context) (below : List Frame) (v : Verdict)
    (t' : Tracer) : Prop where
  session : ∃ s, t' = { t with session := s } ∧ t.session.Besides s ctx.frame.id
  attached : t'.Attaches ctx.frame.id ↔
    t.Attends r ctx ∧ (r.surrounds ctx.frame = true ∨ ctx.event.isTerminal = false)
  attending : t.Attends r ctx → ctx.event.isLine = false → v.isShow = r.surrounds ctx.frame
  handedOn : ¬ t.Attends r ctx → ctx.event.isLine = false →
    v.isShow = t.handsOn r (levels t.config) below
  skipped : v = .skip → ¬ t.Attends r ctx ∧ t.handsOn r (levels t.config) below = false

theorem activating_eq {e : Event} (h : e.isDiscard = false) :
    (e.isCall || e.isLine) = !e.isTerminal := by
  cases e with
  | discard => cases h
  | _ => rfl

/-- A verdict to show counts a hit, and nothing but a line is ever one too many. -/
theorem counted (t : Tracer) (ctx : Context) (expanded : Bool) :
    (ctx.event.isLine = false →
      (if (t.countHit ctx).1 then Verdict.ignore else .show_ expanded) = .show_ expanded) ∧
    (if (t.countHit ctx).1 then Verdict.ignore else .show_ expanded) ≠ .skip ∧
    ∃ s, (t.countHit ctx).2 = { t with session := s } ∧ s.targetFrames = t.session.targetFrames ∧
      t.session.Besides s ctx.frame.id := by
  refine ⟨?_, ?_, ?_⟩
  · intro hl
    cases hc : (t.countHit ctx).1 with
    | false => rfl
    | true =>
      rw [isLine_of_countHit hc] at hl
      cases hl
  · split <;> simp
  · have hk := (keeps_countHit t ctx).session
    refine ⟨_, countHit_eq t ctx, rfl, ?_⟩
    rw [countHit_eq] at hk
    exact hk.besides

section
variable {w : Surroundings}

/-- The gate lets an event inside the region pass, and its frame is attached. -/
theorem ByRegion.gated_inside (ht : t.ByRegion r) (abs : ctx.frame.file.isAbsolute = true)
    (running : ctx.event.isDiscard = false) (attends : t.Attends r ctx)
    (inside : r.surrounds ctx.frame = true) :
    ∃ s, t.gated w ctx = (none, s) ∧ t.session.Besides s ctx.frame.id ∧
      ctx.frame.id ∈ s.targetFrames := by
  have hh : r.holds w ctx.frame = true := (r.holds_eq w abs).trans inside
  have hfile : ctx.frame.file.same r.file = true := by
    unfold Region.surrounds at inside
    exact (Bool.and_eq_true _ _ ▸ inside).1
  unfold gated gate
  rw [ht.observed]
  dsimp only
  rw [activating_eq running, hh, hfile]
  by_cases he : t.session.targetFrames = []
  · have hterm : ctx.event.isTerminal = false := by
      rcases attends with ha | ha
      · unfold Attaches at ha
        rw [he] at ha
        cases ha
      · exact ha.2
    obtain ⟨hb, hm⟩ := besides_activate t.session w.now ctx.frame true
    exact ⟨_, by simp [he, hterm], hb, hm⟩
  · have hne : t.session.targetFrames.isEmpty = false := by simpa using he
    by_cases hm : t.Attaches ctx.frame.id
    · have hc : ctx.frame.id ∈ t.session.targetFrames := hm
      exact ⟨t.session, by simp [hne, hc], Session.Besides.refl _ _, hm⟩
    · have hc : ctx.frame.id ∉ t.session.targetFrames := hm
      have hterm : ctx.event.isTerminal = false := (attends.resolve_left hm).2
      obtain ⟨hb, hin⟩ := besides_activate t.session w.now ctx.frame false
      exact ⟨_, by simp [hne, hc, hterm], hb, hin⟩

/-- An attached frame outside of the region is passed over, and its end detaches it. -/
theorem ByRegion.gated_outside (ht : t.ByRegion r) (abs : ctx.frame.file.isAbsolute = true)
    (attached : t.Attaches ctx.frame.id) (outside : r.surrounds ctx.frame = false) :
    t.gated w ctx = (some .ignore,
      if ctx.event.isTerminal then deactivate t.session ctx.frame else t.session) := by
  have hh : r.holds w ctx.frame = false := (r.holds_eq w abs).trans outside
  have hne : t.session.targetFrames.isEmpty = false := by
    cases hs : t.session.targetFrames with
    | nil =>
      unfold Attaches at attached
      rw [hs] at attached
      cases attached
    | cons => rfl
  have hc : ctx.frame.id ∈ t.session.targetFrames := attached
  unfold gated gate
  rw [ht.observed]
  simp [hh, hne, hc]

/-- For any other frame the gate leaves it to the frames below, if any frame is attached. -/
theorem ByRegion.gated_other (ht : t.ByRegion r) (abs : ctx.frame.file.isAbsolute = true)
    (running : ctx.event.isDiscard = false) (other : ¬ t.Attends r ctx) :
    t.gated w ctx = (none, t.session) ∨ t.session.targetFrames = [] ∧
      (t.gated w ctx = (some .skip, t.session) ∨ t.gated w ctx = (some .ignore, t.session)) := by
  have hh : r.holds w ctx.frame = r.surrounds ctx.frame := r.holds_eq w abs
  obtain ⟨hm, hin⟩ := not_or.mp other
  have hc : t.session.targetFrames.contains ctx.frame.id = false := by
    rw [Bool.eq_false_iff]
    exact fun h => hm (List.contains_iff_mem.mp h)
  have hterm : r.surrounds ctx.frame = true → ctx.event.isTerminal = true := by
    intro hs
    cases ht' : ctx.event.isTerminal with
    | true => rfl
    | false => exact absurd ⟨hs, ht'⟩ hin
  unfold gated gate
  rw [ht.observed]
  dsimp only
  rw [activating_eq running, hh, hc]
  by_cases he : t.session.targetFrames = []
  · refine Or.inr ⟨he, ?_⟩
    by_cases hf : ctx.frame.file.same r.file = true
    · refine Or.inr ?_
      cases hs : r.surrounds ctx.frame with
      | false => simp [he, hf]
      | true => simp [he, hf, hterm hs]
    · exact Or.inl (by simp [he, hf])
  · refine Or.inl ?_
    have hne : t.session.targetFrames.isEmpty = false := by simpa using he
    cases hs : r.surrounds ctx.frame with
    | false => simp [hne]
    | true => simp [hne, hterm hs]

theorem ByRegion.judges_inside (ht : t.ByRegion r) (abs : ctx.frame.file.isAbsolute = true)
    (running : ctx.event.isDiscard = false) (below : List Frame) (attends : t.Attends r ctx)
    (inside : r.surrounds ctx.frame = true) :
    t.Judges r ctx below (t.decide w ctx).1 (t.decide w ctx).2 := by
  obtain ⟨s, hg, hb, hm⟩ := ht.gated_inside abs running attends inside (w := w)
  obtain ⟨hshow, hskip, s', hs', hf, hb'⟩ := counted { t with session := s } ctx false
  have hv : Tracer.verdict { t with session := s } w ctx = .show_ false := by
    unfold verdict Session.isTarget
    simp [hm]
  have hd : t.decide w ctx = (if (countHit { t with session := s } ctx).1 then .ignore
      else .show_ false, { t with session := s' }) := by
    unfold decide
    rw [hg]
    dsimp only
    rw [hv]
    dsimp only
    rw [hs']
  rw [hd]
  refine ⟨⟨s', rfl, hb.trans hb'⟩, ?_, ?_, fun hno => absurd attends hno,
    fun hsk => absurd hsk hskip⟩
  · refine iff_of_true ?_ ⟨attends, Or.inl inside⟩
    unfold Attaches
    rw [hf]
    exact hm
  · intro _ hl
    dsimp only
    rw [hshow hl, inside]
    rfl

theorem ByRegion.judges_outside (ht : t.ByRegion r) (abs : ctx.frame.file.isAbsolute = true)
    (below : List Frame) (attends : t.Attends r ctx) (outside : r.surrounds ctx.frame = false) :
    t.Judges r ctx below (t.decide w ctx).1 (t.decide w ctx).2 := by
  have hatt : t.Attaches ctx.frame.id := by
    refine attends.resolve_right ?_
    rw [outside]
    simp
  have hg := ht.gated_outside abs hatt outside (w := w)
  have hd : t.decide w ctx = (.ignore,
      t.onSession fun s => if ctx.event.isTerminal then deactivate s ctx.frame else s) := by
    unfold decide
    rw [hg]
    rfl
  rw [hd]
  obtain ⟨hb, hm⟩ := besides_deactivate t.session ctx.frame
  refine ⟨⟨_, rfl, ?_⟩, ?_, ?_, fun hno => absurd attends hno, ?_⟩
  · split
    · exact hb
    · exact Session.Besides.refl _ _
  · unfold Attaches onSession
    rw [outside]
    cases ctx.event.isTerminal with
    | true => simpa using hm
    | false => exact iff_of_true hatt ⟨attends, Or.inr rfl⟩
  · intro _ _
    rw [outside]
    rfl
  · intro hsk
    cases hsk

theorem ByRegion.judges_other (ht : t.ByRegion r) (h : m.Linked) (spelled : m.IsSpelled)
    (frames : ctx.frames = m.frames) (abs : ctx.frame.file.isAbsolute = true)
    (running : ctx.event.isDiscard = false) {ids : List FrameId} (hs : ids <:+ m.stack)
    (back : ctx.frame.back = ids.head?) (other : ¬ t.Attends r ctx) :
    t.Judges r ctx (m.framesAt ids) (t.decide w ctx).1 (t.decide w ctx).2 := by
  have hno : ¬ t.Attaches ctx.frame.id := fun ha => other (Or.inl ha)
  have hself : ∀ v, v.isShow = t.handsOn r (levels t.config) (m.framesAt ids) →
      t.Judges r ctx (m.framesAt ids) v t := by
    intro v hv
    refine ⟨⟨t.session, rfl, Session.Besides.refl _ _⟩, ?_, fun ha => absurd ha other,
      fun _ _ => hv, ?_⟩
    · exact iff_of_false hno fun ha => other ha.1
    · rintro rfl
      exact ⟨other, hv.symm⟩
  rcases ht.gated_other abs running other (w := w) with hg | ⟨he, hg⟩
  · have hinherit := ht.isShow_inheritFrom h spelled w frames (levels t.config) hs back
    have hv : t.verdict w ctx = t.inheritFrom w ctx (levels t.config) ctx.frame := by
      have hm : t.session.targetFrames.contains ctx.frame.id = false := by
        rw [Bool.eq_false_iff]
        exact fun hc => hno (List.contains_iff_mem.mp hc)
      rw [verdict_of_counted (TracerConfig.overflows_of_compact ht.compact)]
      unfold Session.isTarget
      rw [ht.codes, hm]
      rfl
    unfold decide
    rw [hg]
    dsimp only
    rw [hv]
    cases hi : t.inheritFrom w ctx (levels t.config) ctx.frame with
    | skip => exact hself .skip (hi ▸ hinherit)
    | ignore => exact hself .ignore (hi ▸ hinherit)
    | overflow => exact hself .overflow (hi ▸ hinherit)
    | show_ expanded =>
      rw [hi] at hinherit
      obtain ⟨hshow, hskip, s', hs', hf, hb'⟩ := counted t ctx expanded
      dsimp only
      rw [hs']
      refine ⟨⟨s', rfl, hb'⟩, ?_, fun ha => absurd ha other, ?_, fun hsk => absurd hsk hskip⟩
      · unfold Attaches
        rw [hf]
        exact iff_of_false hno fun ha => other ha.1
      · intro _ hl
        rw [hshow hl]
        exact hinherit
  · have hfalse := handsOn_of_isEmpty he (levels t.config) (m.framesAt ids) (r := r)
    unfold decide
    rcases hg with hg | hg
    · rw [hg]
      exact hself .skip hfalse.symm
    · rw [hg]
      exact hself .ignore hfalse.symm

/-- The verdict on an event of the frame that runs on top of `ids`. -/
theorem ByRegion.judges (ht : t.ByRegion r) (h : m.Linked) (spelled : m.IsSpelled)
    (frames : ctx.frames = m.frames) (abs : ctx.frame.file.isAbsolute = true)
    (running : ctx.event.isDiscard = false) {ids : List FrameId} (hs : ids <:+ m.stack)
    (back : ctx.frame.back = ids.head?) :
    t.Judges r ctx (m.framesAt ids) (t.decide w ctx).1 (t.decide w ctx).2 := by
  by_cases attends : t.Attends r ctx
  · cases inside : r.surrounds ctx.frame with
    | true => exact ht.judges_inside abs running _ attends inside
    | false => exact ht.judges_outside abs _ attends inside
  · exact ht.judges_other h spelled frames abs running hs back attends

def noteVerdict (t : Tracer) (ctx : Context) : Verdict → Tracer
  | .overflow => t.fault (.handling ctx.event.name overflowText)
  | .skip | .ignore | .show_ _ => t

theorem noteVerdict_eq (t : Tracer) (ctx : Context) (v : Verdict) :
    ∃ faults, t.noteVerdict ctx v = { t with faults } := by
  cases v <;> exact ⟨_, rfl⟩

theorem noteVerdict_of_ne (t : Tracer) (ctx : Context) {v : Verdict} (h : v ≠ .overflow) :
    t.noteVerdict ctx v = t := by
  cases v with
  | overflow => exact absurd rfl h
  | skip | ignore | show_ => rfl

/-- An event that is not shown. -/
theorem onEvent_of_hidden (hd : ctx.event.isDiscard = false)
    (hv : (t.decide w ctx).1.isShow = false) :
    ∃ a, t.onEvent ctx w = (a, (t.decide w ctx).2.noteVerdict ctx (t.decide w ctx).1, w) ∧
      (∀ text, a ≠ .panicked text) ∧ (a = .skipFrame → (t.decide w ctx).1 = .skip) := by
  cases hc : (t.decide w ctx).1 with
  | show_ expanded =>
    rw [hc] at hv
    cases hv
  | skip => exact ⟨.skipFrame, onEvent_of_skip hd hc, fun _ => by simp, fun _ => rfl⟩
  | ignore =>
    refine ⟨.proceed, onEvent_of_ignore hd hc, fun _ => by simp, ?_⟩
    intro ha
    cases ha
  | overflow =>
    refine ⟨.proceed, onEvent_of_overflow hd hc, fun _ => by simp, ?_⟩
    intro ha
    cases ha

theorem onEvent_of_counted (levels : t.config.overflows = false) (hd : ctx.event.isDiscard = false)
    (hv : (t.decide w ctx).1.isShow = false) :
    ∃ a, t.onEvent ctx w = (a, (t.decide w ctx).2, w) ∧ (∀ text, a ≠ .panicked text) ∧
      (a = .skipFrame → (t.decide w ctx).1 = .skip) := by
  have h := onEvent_of_hidden hd hv
  rwa [noteVerdict_of_ne _ _ (decide_ne_overflow levels w ctx)] at h

end

end Tracer
end SelectiveTrace
