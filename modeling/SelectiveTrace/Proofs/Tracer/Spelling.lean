import SelectiveTrace.Proofs.Host.Respelled
import SelectiveTrace.Proofs.Tracer.Courses

/-! What the spelling of a file decides for a tracer of a region. Whether a frame stands inside the region is
told by its file as it is seen from the root; but where no frame is attached, and where the frames above run
out before one hands tracing down, the file is compared as it is spelled. -/
namespace SelectiveTrace

/-- A file that is respelled is inside the region as before. -/
theorem Region.holds_respelled {r : Region} {base : Path} {relative : FrameId → Bool} {f f' : Frame}
    {w w' : Surroundings} (h : Frame.Respells base relative f f') (rooted : r.file.isAbsolute = true)
    (here : w.disk.current = base) (here' : w'.disk.current = base) :
    r.holds w' f' = r.holds w f := by
  have hfile := h.file
  split at hfile
  next =>
    have habsolute : (w'.absolute f'.file).same r.file = f.file.same r.file := by
      unfold Surroundings.absolute Disk.absolute
      rw [here', Path.same_congr hfile.same]
    rw [r.holds_eq w hfile.rooted]
    unfold Region.holds Region.surrounds
    rw [habsolute, Path.same_of_relative hfile.relative rooted, Bool.false_or, containsLine,
      containsLine, h.line]
  next =>
    unfold Region.holds Surroundings.absolute Disk.absolute
    rw [hfile, here, here', containsLine, containsLine, h.line]

namespace Session

structure Agrees (live : FrameId → Prop) (s s' : Session) : Prop where
  codes : s'.targetCodes = s.targetCodes
  frames : s'.targetFrames = s.targetFrames
  depths : s'.depths = s.depths
  hits : ∀ id, live id → s'.lineHits.get? id = s.lineHits.get? id

namespace Agrees
variable {live live' : FrameId → Prop} {s s' s'' : Session}

theorem refl (live : FrameId → Prop) (s : Session) : Agrees live s s :=
  ⟨rfl, rfl, rfl, fun _ _ => rfl⟩

theorem symm (h : Agrees live s s') : Agrees live s' s :=
  ⟨h.codes.symm, h.frames.symm, h.depths.symm, fun id hid => (h.hits id hid).symm⟩

theorem trans (h : Agrees live s s') (h' : Agrees live s' s'') : Agrees live s s'' :=
  ⟨h'.codes.trans h.codes, h'.frames.trans h.frames, h'.depths.trans h.depths,
    fun id hid => (h'.hits id hid).trans (h.hits id hid)⟩

theorem mono (h : Agrees live s s') (fewer : ∀ id, live' id → live id) : Agrees live' s s' :=
  ⟨h.codes, h.frames, h.depths, fun id hid => h.hits id (fewer id hid)⟩

theorem depth (h : Agrees live s s') (thread : Nat) : s'.depth thread = s.depth thread := by
  unfold Session.depth
  rw [h.depths]

theorem hits_eq (h : Agrees live s s') {id : FrameId} (hid : live id) (line : Nat) :
    s'.hits id line = s.hits id line := by
  unfold Session.hits
  rw [h.hits id hid]

theorem setDepth (h : Agrees live s s') (thread : Nat) (n : Int) :
    Agrees live (s.setDepth thread n) (s'.setDepth thread n) :=
  ⟨h.codes, h.frames, congrArg (fun depths => depths.insert thread n) h.depths, h.hits⟩

theorem adjustDepth (h : Agrees live s s') (thread : Nat) (n : Int) :
    Agrees live (s.adjustDepth thread n) (s'.adjustDepth thread n) := by
  unfold Session.adjustDepth
  rw [h.depth]
  exact h.setDepth thread _

theorem detach (h : Agrees live s s') (id : FrameId) : Agrees live (s.detach id) (s'.detach id) :=
  ⟨h.codes, congrArg (fun frames => frames.filter (· ≠ id)) h.frames, h.depths, h.hits⟩

theorem evict (h : Agrees live s s') (id : FrameId) : Agrees live (s.evict id) (s'.evict id) := by
  refine ⟨h.codes, h.frames, h.depths, fun j hj => ?_⟩
  unfold Session.evict
  rw [Table.get?_erase, Table.get?_erase, h.hits j hj]

theorem recordHit (h : Agrees live s s') {id : FrameId} (hid : live id) (line : Nat) :
    Agrees live (s.recordHit id line) (s'.recordHit id line) := by
  refine ⟨h.codes, h.frames, h.depths, fun j hj => ?_⟩
  unfold Session.recordHit
  rw [Table.get?_insert, Table.get?_insert, h.hits id hid, h.hits j hj, h.hits_eq hid]

end Agrees
end Session

namespace Tracer

def runsOut (t : Tracer) (w : Surroundings) (frames : Table FrameId Frame) : Nat → Frame → Bool
  | 0, _ => true
  | n + 1, f =>
    match f.back.bind frames.get? with
    | none => false
    | some above => !t.isSource w above && t.runsOut w frames n above

def activates (r : Region) (w : Surroundings) (ctx : Context) : Bool :=
  r.holds w ctx.frame && (ctx.event.isCall || ctx.event.isLine)

/-- The event is of the file of the region, which is seen from the spelling of the frame's file alone: no
frame is attached, or the frame is not, and the frames above are counted and none of them decides for
it. -/
def turnsOnSpelling (t : Tracer) (w : Surroundings) (ctx : Context) : Bool :=
  !ctx.event.isDiscard && t.observed.any fun r => ctx.frame.file.same r.file &&
    (t.session.targetFrames.isEmpty ||
      !t.session.targetFrames.contains ctx.frame.id && !activates r w ctx &&
        !t.config.overflows && t.runsOut w ctx.frames (levels t.config) ctx.frame)

/-- The tracer takes the event up: it shows it, unless it is beyond the limit on hits. -/
def regards (t : Tracer) (w : Surroundings) (ctx : Context) : Bool :=
  !ctx.event.isDiscard && (t.gated w ctx).1.isNone &&
    (verdict { t with session := (t.gated w ctx).2 } w ctx).isShow

variable {base : Path} {r : Region} {relative : FrameId → Bool} {live live' : FrameId → Prop}
  {t t' : Tracer} {w w' : Surroundings} {ctx ctx' : Context} {f f' : Frame}

structure Matches (base : Path) (r : Region) (live : FrameId → Prop) (t : Tracer) (w : Surroundings)
    (t' : Tracer) (w' : Surroundings) : Prop where
  rooted : r.file.isAbsolute = true
  observed : t.observed = some r
  observed' : t'.observed = some r
  config : t'.config = t.config
  codes : t.session.targetCodes = []
  here : w.disk.current = base
  here' : w'.disk.current = base
  session : t.session.Agrees live t'.session

/-! What the gate says, by the frames that are attached. -/

theorem gated_of_none_attached (observed : t.observed = some r)
    (none_attached : t.session.targetFrames = []) :
    t.gated w ctx =
      if ctx.frame.file.same r.file then
        if activates r w ctx then (none, activate t.session w.now ctx.frame true)
        else (some .ignore, t.session)
      else (some .skip, t.session) := by
  unfold gated gate activates
  rw [observed, none_attached]
  dsimp only
  cases ctx.frame.file.same r.file with
  | false => rfl
  | true => cases r.holds w ctx.frame <;> cases ctx.event.isCall || ctx.event.isLine <;> rfl

theorem gated_of_attached (observed : t.observed = some r)
    (attached : ctx.frame.id ∈ t.session.targetFrames) :
    t.gated w ctx =
      if r.holds w ctx.frame then (none, t.session)
      else (some .ignore,
        if ctx.event.isTerminal then deactivate t.session ctx.frame else t.session) := by
  have hne : t.session.targetFrames.isEmpty = false := by
    rw [List.isEmpty_eq_false_iff]
    exact List.ne_nil_of_mem attached
  unfold gated gate
  rw [observed]
  simp [hne, attached]

theorem gated_of_other_attached (observed : t.observed = some r)
    (attached : t.session.targetFrames ≠ []) (off : ctx.frame.id ∉ t.session.targetFrames) :
    t.gated w ctx =
      (none, if activates r w ctx then activate t.session w.now ctx.frame false else t.session) := by
  have hne : t.session.targetFrames.isEmpty = false := List.isEmpty_eq_false_iff.mpr attached
  unfold gated gate activates
  rw [observed]
  dsimp only
  rw [hne, if_neg Bool.false_ne_true]
  cases r.holds w ctx.frame with
  | false => simp [off]
  | true => cases ctx.event.isCall || ctx.event.isLine <;> simp [off]

/-- An event that passes the gate without its frame being attached by then has changed nothing. -/
theorem gated_unattached (observed : t.observed = some r) (passed : (t.gated w ctx).1 = none)
    (off : ctx.frame.id ∉ (t.gated w ctx).2.targetFrames) :
    (t.gated w ctx).2 = t.session ∧ t.session.targetFrames ≠ [] ∧ activates r w ctx = false := by
  have hactive : ∀ isFirst,
      ctx.frame.id ∈ (activate t.session w.now ctx.frame isFirst).targetFrames :=
    fun isFirst => (besides_activate t.session w.now ctx.frame isFirst).2
  generalize hgate : t.gated w ctx = g at passed off ⊢
  by_cases hnone : t.session.targetFrames = []
  · rw [gated_of_none_attached observed hnone] at hgate
    split at hgate
    · split at hgate
      next => exact absurd (hgate ▸ hactive true) off
      next => cases hgate ▸ passed
    · cases hgate ▸ passed
  · by_cases hin : ctx.frame.id ∈ t.session.targetFrames
    · rw [gated_of_attached observed hin] at hgate
      split at hgate
      next => exact absurd (hgate ▸ hin) off
      next => cases hgate ▸ passed
    · rw [gated_of_other_attached observed hnone hin] at hgate
      split at hgate
      next => exact absurd (hgate ▸ hactive false) off
      next hidle => exact ⟨hgate ▸ rfl, hnone, Bool.eq_false_iff.mpr hidle⟩

theorem codes_gated (t : Tracer) (w : Surroundings) (ctx : Context) :
    (t.gated w ctx).2.targetCodes = t.session.targetCodes := by
  unfold gated gate
  split
  · dsimp only
    repeat' split
    all_goals rfl
  · rfl

theorem verdict_of_codeless (codes : t.session.targetCodes = []) (w : Surroundings) (ctx : Context) :
    t.verdict w ctx =
      if ctx.frame.id ∈ t.session.targetFrames then .show_ false
      else if t.config.overflows then .overflow
      else t.inheritFrom w ctx (levels t.config) ctx.frame := by
  unfold verdict Session.isTarget
  simp [codes]

theorem inheritFrom_of_runsOut {n : Nat} (out : t.runsOut w ctx.frames n f = true) :
    t.inheritFrom w ctx n f = t.unrelated ctx := by
  induction n generalizing f with
  | zero => rfl
  | succ n ih =>
    rw [runsOut] at out
    rw [inheritFrom]
    cases habove : f.back.bind ctx.frames.get? with
    | none => simp [habove] at out
    | some above =>
      simp only [habove, Bool.and_eq_true, Bool.not_eq_true'] at out ⊢
      rw [out.1]
      exact ih out.2

namespace Matches

theorem mono (h : Matches base r live t w t' w') (fewer : ∀ id, live' id → live id) :
    Matches base r live' t w t' w' :=
  ⟨h.rooted, h.observed, h.observed', h.config, h.codes, h.here, h.here', h.session.mono fewer⟩

theorem codes' (h : Matches base r live t w t' w') : t'.session.targetCodes = [] :=
  h.session.codes.trans h.codes

/-- The sessions may be changed on both sides, as long as they agree. -/
theorem withSession (h : Matches base r live t w t' w') {s s' : Session}
    (codes : s.targetCodes = []) (agrees : s.Agrees live s') :
    Matches base r live { t with session := s } w { t' with session := s' } w' :=
  ⟨h.rooted, h.observed, h.observed', h.config, codes, h.here, h.here', agrees⟩

theorem holds (h : Matches base r live t w t' w') (hf : Frame.Respells base relative f f') :
    r.holds w' f' = r.holds w f :=
  Region.holds_respelled hf h.rooted h.here h.here'

theorem activates (h : Matches base r live t w t' w') (hctx : Context.Respells base relative ctx ctx') :
    Tracer.activates r w' ctx' = Tracer.activates r w ctx := by
  unfold Tracer.activates
  rw [h.holds hctx.frame, hctx.event]

theorem agrees_activate (h : Matches base r live t w t' w') (hf : Frame.Respells base relative f f')
    (isFirst : Bool) : (activate t.session w.now f isFirst).Agrees live
      (activate t'.session w'.now f' isFirst) := by
  have hattached : ((t.session.attach f.id).startTimer f.id w.now).Agrees live
      ((t'.session.attach f'.id).startTimer f'.id w'.now) :=
    ⟨h.session.codes, by rw [hf.id]; exact congrArg (List.insert f.id) h.session.frames,
      h.session.depths, h.session.hits⟩
  unfold activate
  rw [hf.thread]
  cases isFirst with
  | false => exact hattached
  | true => exact hattached.setDepth _ _

theorem agrees_deactivate (h : Matches base r live t w t' w')
    (hf : Frame.Respells base relative f f') :
    (deactivate t.session f).Agrees live (deactivate t'.session f') := by
  unfold deactivate
  rw [hf.id, hf.thread]
  exact ((h.session.adjustDepth _ _).detach _).evict _

/-- Where the spelling makes no difference, the gate says the same to both. -/
theorem gated (h : Matches base r live t w t' w') (hctx : Context.Respells base relative ctx ctx')
    (same : t.session.targetFrames = [] → ctx'.frame.file.same r.file = ctx.frame.file.same r.file) :
    (t'.gated w' ctx').1 = (t.gated w ctx).1 ∧
      (t.gated w ctx).2.Agrees live (t'.gated w' ctx').2 := by
  have hframes := h.session.frames
  by_cases hnone : t.session.targetFrames = []
  · rw [gated_of_none_attached h.observed hnone,
      gated_of_none_attached h.observed' (hframes.trans hnone), same hnone, h.activates hctx]
    split
    · split
      · exact ⟨rfl, h.agrees_activate hctx.frame true⟩
      · exact ⟨rfl, h.session⟩
    · exact ⟨rfl, h.session⟩
  · by_cases hin : ctx.frame.id ∈ t.session.targetFrames
    · have hin' : ctx'.frame.id ∈ t'.session.targetFrames := by rwa [hframes, hctx.frame.id]
      rw [gated_of_attached h.observed hin, gated_of_attached h.observed' hin', h.holds hctx.frame,
        hctx.event]
      split
      · exact ⟨rfl, h.session⟩
      · refine ⟨rfl, ?_⟩
        dsimp only
        split
        · exact h.agrees_deactivate hctx.frame
        · exact h.session
    · have hin' : ctx'.frame.id ∉ t'.session.targetFrames := by rwa [hframes, hctx.frame.id]
      rw [gated_of_other_attached h.observed hnone hin,
        gated_of_other_attached h.observed' (hframes ▸ hnone) hin', h.activates hctx]
      refine ⟨rfl, ?_⟩
      dsimp only
      split
      · exact h.agrees_activate hctx.frame false
      · exact h.session

theorem isSource (h : Matches base r live t w t' w') (hf : Frame.Respells base relative f f') :
    t'.isSource w' f' = t.isSource w f := by
  unfold Tracer.isSource
  rw [h.codes, h.codes', h.session.frames, h.observed, h.observed', hf.id]
  simp [h.holds hf]

theorem isExhausted (h : Matches base r live t w t' w') (hf : Frame.Respells base relative f f')
    (alive : live f.id) : t'.isExhausted f' = t.isExhausted f := by
  unfold Tracer.isExhausted
  rw [h.config, hf.id, hf.line]
  simp only [h.session.hits_eq alive]

/-- The search for a target comes to the same, but where the frames above run out. -/
theorem inheritFrom (h : Matches base r live t w t' w')
    (hctx : Context.Respells base relative ctx ctx')
    (alive : ∀ j f, ctx.frames.get? j = some f → live f.id) (n : Nat) {f f' : Frame}
    (hf : Frame.Respells base relative f f') :
    t'.inheritFrom w' ctx' n f' =
      if t.runsOut w ctx.frames n f then t'.unrelated ctx' else t.inheritFrom w ctx n f := by
  induction n generalizing f f' with
  | zero => rfl
  | succ n ih =>
    rw [Tracer.inheritFrom, Tracer.inheritFrom, runsOut, hf.back]
    cases hback : f.back with
    | none => rfl
    | some id =>
      have hrel := hctx.frames id
      rw [Option.bind_some, Option.bind_some]
      generalize hx : ctx.frames.get? id = x at hrel
      generalize ctx'.frames.get? id = y at hrel
      cases hrel with
      | none => rfl
      | some habove =>
        dsimp only
        rw [h.isSource habove, h.isExhausted habove (alive _ _ hx), h.config, hctx.event]
        split
        next hsource => simp [hsource]
        next hsource =>
          rw [Bool.eq_false_iff.mpr hsource, Bool.not_false, Bool.true_and]
          exact ih habove

theorem countHit (h : Matches base r live t w t' w') (hctx : Context.Respells base relative ctx ctx')
    (alive : live ctx.frame.id) :
    (t'.countHit ctx').1 = (t.countHit ctx).1 ∧
      Matches base r live (t.countHit ctx).2 w (t'.countHit ctx').2 w' := by
  unfold Tracer.countHit
  rw [h.config, hctx.event]
  split
  · exact ⟨rfl, h⟩
  · split
    · exact ⟨rfl, h⟩
    · dsimp only
      rw [hctx.frame.id, hctx.frame.line, h.session.hits_eq alive]
      exact ⟨rfl, h.withSession h.codes (h.session.recordHit alive ctx.frame.line)⟩

/-- Where the file of the frame is not respelled, or nothing turns on its spelling. -/
theorem settled (h : Matches base r live t w t' w') (hctx : Context.Respells base relative ctx ctx')
    (running : ctx.event.isDiscard = false)
    (settled : relative ctx.frame.id = true → t.turnsOnSpelling w ctx = false) :
    ctx'.frame.file.same r.file = ctx.frame.file.same r.file ∨
      t.session.targetFrames ≠ [] ∧ (ctx.frame.id ∉ t.session.targetFrames →
        Tracer.activates r w ctx = false → t.config.overflows = false →
          t.runsOut w ctx.frames (levels t.config) ctx.frame = false) := by
  have hfile := hctx.frame.file
  split at hfile
  next respelled =>
    have hturns := settled respelled
    unfold turnsOnSpelling at hturns
    rw [running, Bool.not_false, Bool.true_and, h.observed, Option.any_some] at hturns
    cases hsame : ctx.frame.file.same r.file with
    | false => exact .inl (Path.same_of_relative hfile.relative h.rooted)
    | true =>
      refine .inr ?_
      rw [hsame] at hturns
      simpa [List.isEmpty_eq_false_iff] using hturns
  next => exact .inl (by rw [hfile])

theorem verdict (h : Matches base r live t w t' w') (hctx : Context.Respells base relative ctx ctx')
    (alive : ∀ j f, ctx.frames.get? j = some f → live f.id)
    (unrelated : ctx.frame.id ∉ t.session.targetFrames → t.config.overflows = false →
      t.runsOut w ctx.frames (levels t.config) ctx.frame = true →
        t'.unrelated ctx' = t.unrelated ctx) :
    t'.verdict w' ctx' = t.verdict w ctx := by
  rw [verdict_of_codeless h.codes, verdict_of_codeless h.codes', h.session.frames, hctx.frame.id,
    h.config]
  split
  next => rfl
  next off =>
    cases counted : t.config.overflows with
    | true => rfl
    | false =>
      rw [h.inheritFrom hctx alive _ hctx.frame]
      simp only [Bool.false_eq_true, if_false]
      split
      next out => rw [unrelated off counted out, inheritFrom_of_runsOut out]
      next => rfl

/-- The decision on such an event is the same for both. -/
theorem decide (h : Matches base r live t w t' w') (hctx : Context.Respells base relative ctx ctx')
    (running : ctx.event.isDiscard = false)
    (alive : ∀ j f, ctx.frames.get? j = some f → live f.id) (own : live ctx.frame.id)
    (settled : relative ctx.frame.id = true → t.turnsOnSpelling w ctx = false) :
    (t'.decide w' ctx').1 = (t.decide w ctx).1 ∧
      Matches base r live (t.decide w ctx).2 w (t'.decide w' ctx').2 w' := by
  have hsettled := h.settled hctx running settled
  obtain ⟨hgate, hagrees⟩ := h.gated hctx fun hnone => hsettled.resolve_right fun hne => hne.1 hnone
  have hu := h.withSession ((t.codes_gated w ctx).trans h.codes) hagrees
  have hverdict : (t.gated w ctx).1 = none →
      Tracer.verdict { t' with session := (t'.gated w' ctx').2 } w' ctx' =
        Tracer.verdict { t with session := (t.gated w ctx).2 } w ctx := by
    intro passed
    refine hu.verdict hctx alive fun off counted out => ?_
    unfold Tracer.unrelated
    rw [hu.observed, hu.observed', Option.any_some, Option.any_some]
    rcases hsettled with hsame | ⟨-, hout⟩
    · rw [hsame]
    · -- the frame is not attached, and so the frames above do not run out
      obtain ⟨hkept, hne, hidle⟩ := gated_unattached h.observed passed off
      rw [hkept] at off out
      exact absurd out (Bool.eq_false_iff.mp (hout off hidle counted))
  unfold Tracer.decide
  generalize t.gated w ctx = g at hgate hu hverdict ⊢
  generalize t'.gated w' ctx' = g' at hgate hu hverdict ⊢
  obtain ⟨v, s⟩ := g
  obtain ⟨v', s'⟩ := g'
  dsimp only at hgate hu hverdict ⊢
  subst hgate
  cases v' with
  | some v => exact ⟨rfl, hu⟩
  | none =>
    dsimp only
    rw [hverdict rfl]
    cases Tracer.verdict { t with session := s } w ctx with
    | skip | ignore | overflow => exact ⟨rfl, hu⟩
    | show_ expanded =>
      obtain ⟨hsuppressed, hcounted⟩ := hu.countHit hctx own
      dsimp only
      rw [hsuppressed]
      exact ⟨rfl, hcounted⟩

/-- Where all turns on the spelling, the tracer skips the frame that is spelled relative. -/
theorem decide_turned (h : Matches base r live t w t' w')
    (hctx : Context.Respells base relative ctx ctx')
    (alive : ∀ j f, ctx.frames.get? j = some f → live f.id)
    (respelled : relative ctx.frame.id = true) (turns : t.turnsOnSpelling w ctx = true) :
    t'.decide w' ctx' = (.skip, t') := by
  have hfile := hctx.frame.file
  rw [if_pos respelled] at hfile
  have hother := Path.same_of_relative hfile.relative h.rooted
  have hframes := h.session.frames
  unfold turnsOnSpelling at turns
  rw [h.observed, Option.any_some, Bool.and_eq_true, Bool.and_eq_true] at turns
  unfold Tracer.decide
  by_cases hnone : t.session.targetFrames = []
  · rw [gated_of_none_attached h.observed' (hframes.trans hnone), hother]
    rfl
  · obtain ⟨⟨⟨hoff, hidle⟩, counted⟩, hout⟩ : ((ctx.frame.id ∉ t.session.targetFrames ∧
        Tracer.activates r w ctx = false) ∧ t.config.overflows = false) ∧
          t.runsOut w ctx.frames (levels t.config) ctx.frame = true := by
      simpa [hnone] using turns.2.2
    have hoff' : ctx'.frame.id ∉ t'.session.targetFrames := by rwa [hframes, hctx.frame.id]
    have hverdict : t'.verdict w' ctx' = .skip := by
      rw [verdict_of_codeless h.codes', if_neg hoff', h.config, counted, if_neg Bool.false_ne_true,
        h.inheritFrom hctx alive _ hctx.frame, if_pos hout]
      unfold Tracer.unrelated
      rw [h.observed', Option.any_some, hother]
      rfl
    rw [gated_of_other_attached h.observed' (hframes ▸ hnone) hoff', h.activates hctx, hidle]
    simp only [Bool.false_eq_true, if_false, hverdict]

end Matches

/-- An event that is not taken up, of a frame that is not attached, changes nothing. -/
theorem decide_of_disregarded (observed : t.observed = some r) (codes : t.session.targetCodes = [])
    (running : ctx.event.isDiscard = false)
    (off : ctx.frame.id ∉ t.session.targetFrames) (aside : t.regards w ctx = false) :
    (t.decide w ctx).2 = t ∧ (t.decide w ctx).1.isShow = false ∧
      (t.turnsOnSpelling w ctx = true → (t.decide w ctx).1 = .ignore) := by
  -- a frame that the gate attaches would have its event taken up
  have hactive : ∀ isFirst, verdict { t with session := activate t.session w.now ctx.frame isFirst }
      w ctx = .show_ false := by
    intro isFirst
    obtain ⟨hbesides, hin⟩ := besides_activate t.session w.now ctx.frame isFirst
    have hcodes : (activate t.session w.now ctx.frame isFirst).targetCodes = [] :=
      hbesides.codes.trans codes
    rw [verdict_of_codeless hcodes, if_pos hin]
  unfold regards at aside
  unfold turnsOnSpelling
  rw [running] at aside ⊢
  rw [observed, Option.any_some]
  unfold decide
  by_cases hnone : t.session.targetFrames = []
  · rw [gated_of_none_attached observed hnone] at aside ⊢
    cases hsame : ctx.frame.file.same r.file with
    | false => exact ⟨rfl, rfl, by simp⟩
    | true =>
      cases hin : activates r w ctx with
      | false => exact ⟨rfl, rfl, fun _ => rfl⟩
      | true =>
        rw [hsame, hin] at aside
        simp [hactive true, Verdict.isShow] at aside
  · rw [gated_of_other_attached observed hnone off] at aside ⊢
    cases hin : activates r w ctx with
    | true =>
      rw [hin] at aside
      simp [hactive false, Verdict.isShow] at aside
    | false =>
      rw [hin] at aside
      have hquiet : (t.verdict w ctx).isShow = false := aside
      simp only [Bool.false_eq_true, if_false]
      have hignored : ctx.frame.file.same r.file = true → t.config.overflows = false →
          t.runsOut w ctx.frames (levels t.config) ctx.frame = true → t.verdict w ctx = .ignore := by
        intro hsame counted out
        rw [verdict_of_codeless codes, if_neg off, counted, if_neg Bool.false_ne_true,
          inheritFrom_of_runsOut out, unrelated, observed, Option.any_some, hsame, if_pos rfl]
      cases hv : t.verdict w ctx with
      | show_ expanded =>
        rw [hv] at hquiet
        cases hquiet
      | ignore => exact ⟨rfl, rfl, fun _ => rfl⟩
      | skip | overflow =>
        refine ⟨rfl, rfl, fun turns => ?_⟩
        have hout : ctx.frame.file.same r.file = true ∧ t.config.overflows = false ∧
            t.runsOut w ctx.frames (levels t.config) ctx.frame = true := by
          simpa [hnone, off] using turns
        exact hv.symm.trans (hignored hout.1 hout.2.1 hout.2.2)

/-- What showing an event makes of the session, as far as it decides about later events. -/
theorem Progress.agrees {e : Option String} (h : Progress t w ctx t' w' e) :
    (if e.isNone then (t.descend ctx).ended ctx else t.descend ctx).session.Agrees (fun _ => True)
      t'.session := by
  have hended : ∀ (u : Tracer) (vars : List (String × String)),
      (u.ended ctx).session.Agrees (fun _ => True) ((u.noting ctx vars).ended ctx).session := by
    intro u vars
    unfold ended noting onSession release
    split
    · dsimp only
      split
      · exact ⟨rfl, rfl, rfl, fun _ _ => rfl⟩
      · have hframes : (u.session.diff ctx.frame.id vars).2.targetFrames = u.session.targetFrames :=
          rfl
        rw [hframes]
        split <;> exact ⟨rfl, rfl, rfl, fun _ _ => rfl⟩
    · exact ⟨rfl, rfl, rfl, fun _ _ => rfl⟩
  cases h with
  | opened steady =>
    rw [steady.session]
    exact ⟨rfl, rfl, rfl, fun _ _ => rfl⟩
  | noted vars steady =>
    rw [steady.session]
    exact ⟨rfl, rfl, rfl, fun _ _ => rfl⟩
  | whole vars steady _ =>
    rw [steady.session]
    exact (hended (t.descend ctx) vars).trans ⟨rfl, rfl, rfl, fun _ _ => rfl⟩

theorem dropFrame_keeps (t : Tracer) (id : FrameId) :
    (t.dropFrame id).session = (t.session.evict id).detach id ∧
      (t.dropFrame id).config = t.config ∧ (t.dropFrame id).observed = t.observed := by
  rcases t.dropFrame_cases id with ⟨hdrop, -⟩ | ⟨g, hdrop, -⟩ <;>
  · rw [hdrop]
    exact ⟨rfl, rfl, rfl⟩

/-! An event attaches and detaches no other frame. -/

theorem besides_gated (observed : t.observed = some r) :
    t.session.Besides (t.gated w ctx).2 ctx.frame.id := by
  have hactive := fun isFirst => (besides_activate t.session w.now ctx.frame isFirst).1
  by_cases hnone : t.session.targetFrames = []
  · rw [gated_of_none_attached observed hnone]
    split
    · split
      · exact hactive true
      · exact Session.Besides.refl _ _
    · exact Session.Besides.refl _ _
  · by_cases hin : ctx.frame.id ∈ t.session.targetFrames
    · rw [gated_of_attached observed hin]
      split
      · exact Session.Besides.refl _ _
      · dsimp only
        split
        · exact (besides_deactivate t.session ctx.frame).1
        · exact Session.Besides.refl _ _
    · rw [gated_of_other_attached observed hnone hin]
      dsimp only
      split
      · exact hactive false
      · exact Session.Besides.refl _ _

theorem besides_decide (observed : t.observed = some r) :
    t.session.Besides (t.decide w ctx).2.session ctx.frame.id := by
  have hgated : t.session.Besides (t.gated w ctx).2 ctx.frame.id := besides_gated observed
  unfold decide
  generalize t.gated w ctx = g at hgated ⊢
  obtain ⟨v, s⟩ := g
  cases v with
  | some v => exact hgated
  | none =>
    have hcounted := (keeps_countHit { t with session := s } ctx).session.besides
    dsimp only
    split
    · exact hgated.trans hcounted
    · exact hgated

theorem besides_onEvent (observed : t.observed = some r) (ctx : Context) (w : Surroundings) :
    t.session.Besides (t.onEvent ctx w).2.1.session ctx.frame.id := by
  cases running : ctx.event.isDiscard with
  | true =>
    rw [onEvent_of_discard running, (t.dropFrame_keeps ctx.frame.id).1]
    exact (Session.keeps_evict _ _).besides.trans (Session.besides_detach _ _)
  | false =>
    have hdecided : t.session.Besides (t.decide w ctx).2.session ctx.frame.id :=
      besides_decide observed
    obtain ⟨s, hs⟩ := t.decide_session w ctx
    cases hv : (t.decide w ctx).1.isShow with
    | true =>
      obtain ⟨expanded, hshow⟩ := Verdict.isShow_iff.mp hv
      obtain ⟨u, v, he, progress⟩ := onEvent_of_shown running (Prod.ext hshow hs)
      have hnote : (u.noteFailure ctx (t.failure? w ctx)).session = u.session := by
        cases t.failure? w ctx <;> rfl
      rw [hs] at hdecided
      rw [he, hnote]
      exact hdecided.trans progress.carries.touches.toBesides
    | false =>
      obtain ⟨a, he, -⟩ := onEvent_of_hidden running hv
      obtain ⟨faults, hnoted⟩ := noteVerdict_eq (t.decide w ctx).2 ctx (t.decide w ctx).1
      rw [he, hnoted]
      exact hdecided

namespace Matches

theorem descend (h : Matches base r live t w t' w') (hctx : Context.Respells base relative ctx ctx') :
    Matches base r live (t.descend ctx) w (t'.descend ctx') w' := by
  unfold Tracer.descend
  rw [hctx.event, hctx.frame.thread]
  split
  · exact h.withSession h.codes (h.session.adjustDepth _ _)
  · exact h

theorem ended (h : Matches base r live t w t' w') (hctx : Context.Respells base relative ctx ctx') :
    Matches base r live (t.ended ctx) w (t'.ended ctx') w' := by
  have hreleased : (t.release t.session ctx.frame.id).Agrees live
      (t'.release t'.session ctx.frame.id) := by
    unfold release
    rw [h.observed, h.observed']
    exact (h.session.detach _).evict _
  unfold Tracer.ended
  rw [hctx.event, hctx.frame.id, hctx.frame.thread]
  split
  · refine h.withSession ?_ (hreleased.adjustDepth _ _)
    exact (touches_release t t.session ctx.frame.id).codes.trans h.codes
  · exact h

/-- Both show the event, and it fails for both or for none. -/
theorem shown (h : Matches base r live t w t' w') (hctx : Context.Respells base relative ctx ctx')
    {u u' : Tracer} {v v' : Surroundings} {e e' : Option String} (progress : Progress t w ctx u v e)
    (progress' : Progress t' w' ctx' u' v' e') (fails : e'.isSome = e.isSome) :
    Matches base r live u v u' v' := by
  have hd := h.descend hctx
  have carries := progress.carries
  have carries' := progress'.carries
  have hmiddle : (if e.isNone then (t.descend ctx).ended ctx else t.descend ctx).session.Agrees live
      (if e'.isNone then (t'.descend ctx').ended ctx' else t'.descend ctx').session := by
    cases e <;> cases e' <;> first | exact hd.session | exact (hd.ended hctx).session | cases fails
  have hall : ∀ id, live id → True := fun _ _ => trivial
  exact ⟨h.rooted, carries.observed.trans h.observed, carries'.observed.trans h.observed',
    carries'.config.trans (h.config.trans carries.config.symm),
    carries.touches.codes.trans h.codes, carries.directory.trans h.here,
    carries'.directory.trans h.here',
    ((progress.agrees.mono hall).symm.trans hmiddle).trans (progress'.agrees.mono hall)⟩

/-- Faults decide nothing. -/
theorem withFaults (h : Matches base r live t w t' w') (faults faults' : List Error) :
    Matches base r live { t with faults } w { t' with faults := faults' } w' :=
  ⟨h.rooted, h.observed, h.observed', h.config, h.codes, h.here, h.here', h.session⟩

theorem noteFailure (h : Matches base r live t w t' w') (e e' : Option String) :
    Matches base r live (t.noteFailure ctx e) w (t'.noteFailure ctx' e') w' := by
  cases e <;> cases e' <;> exact h.withFaults _ _

theorem dropFrame (h : Matches base r live t w t' w') (id : FrameId) :
    Matches base r live (t.dropFrame id) w (t'.dropFrame id) w' := by
  obtain ⟨hs, hc, ho⟩ := t.dropFrame_keeps id
  obtain ⟨hs', hc', ho'⟩ := t'.dropFrame_keeps id
  refine ⟨h.rooted, ho.trans h.observed, ho'.trans h.observed', hc'.trans (h.config.trans hc.symm),
    ?_, h.here, h.here', ?_⟩
  · rw [hs]
    exact h.codes
  · rw [hs, hs']
    exact (h.session.evict id).detach id

/-- One of them drops a frame that is not attached and no longer live. -/
theorem dropFrame_left (h : Matches base r live t w t' w') {id : FrameId}
    (off : id ∉ t.session.targetFrames) (gone : ¬ live id) :
    Matches base r live (t.dropFrame id) w t' w' := by
  obtain ⟨hs, hc, ho⟩ := t.dropFrame_keeps id
  have hagrees : ((t.session.evict id).detach id).Agrees live t.session := by
    refine ⟨rfl, (List.filter_eq_self.mpr fun j hj => ?_).symm, rfl, fun j hj => ?_⟩
    · exact decide_eq_true fun hid => off (hid ▸ hj)
    · have hne : j ≠ id := fun hid => gone (hid ▸ hj)
      exact (Table.get?_erase_of_ne _ hne).symm
  refine ⟨h.rooted, ho.trans h.observed, h.observed', h.config.trans hc.symm, ?_, h.here, h.here', ?_⟩
  · rw [hs]
    exact h.codes
  · rw [hs]
    exact hagrees.trans h.session

/-- An event that both hear, of a frame whose spelling decides nothing. -/
theorem onEvent (h : Matches base r live t w t' w') (hctx : Context.Respells base relative ctx ctx')
    (alive : ∀ j f, ctx.frames.get? j = some f → live f.id) (own : live ctx.frame.id)
    (settled : relative ctx.frame.id = true → t.turnsOnSpelling w ctx = false)
    (fails : (t'.failure? w' ctx').isSome = (t.failure? w ctx).isSome) :
    (t'.onEvent ctx' w').1 = (t.onEvent ctx w).1 ∧
      Matches base r live (t.onEvent ctx w).2.1 (t.onEvent ctx w).2.2 (t'.onEvent ctx' w').2.1
        (t'.onEvent ctx' w').2.2 := by
  cases running : ctx.event.isDiscard with
  | true =>
    rw [onEvent_of_discard running, onEvent_of_discard (hctx.event ▸ running), hctx.frame.id]
    exact ⟨rfl, h.dropFrame ctx.frame.id⟩
  | false =>
    have running' : ctx'.event.isDiscard = false := hctx.event ▸ running
    obtain ⟨hverdict, hmatch⟩ := h.decide hctx running alive own settled
    obtain ⟨s, hs⟩ := t.decide_session w ctx
    obtain ⟨s', hs'⟩ := t'.decide_session w' ctx'
    cases hv : (t.decide w ctx).1 with
    | show_ expanded =>
      obtain ⟨u, v, he, progress⟩ := onEvent_of_shown running (Prod.ext hv hs)
      obtain ⟨u', v', he', progress'⟩ :=
        onEvent_of_shown running' (Prod.ext (hverdict.trans hv) hs')
      rw [hs, hs'] at hmatch
      rw [he, he']
      exact ⟨rfl, (hmatch.shown hctx progress progress' fails).noteFailure _ _⟩
    | skip | ignore =>
      unfold Tracer.onEvent
      rw [running, running']
      generalize t.decide w ctx = d at hv hverdict hmatch ⊢
      generalize t'.decide w' ctx' = d' at hverdict hmatch ⊢
      obtain ⟨v, u⟩ := d
      obtain ⟨v', u'⟩ := d'
      obtain rfl : v' = v := hverdict
      obtain rfl : v' = _ := hv
      exact ⟨rfl, hmatch⟩
    | overflow =>
      rw [onEvent_of_overflow running hv, onEvent_of_overflow running' (hverdict.trans hv)]
      exact ⟨rfl, hmatch.withFaults _ _⟩

end Matches

end Tracer
end SelectiveTrace
