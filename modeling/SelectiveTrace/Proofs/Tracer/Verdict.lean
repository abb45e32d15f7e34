import Mathlib.Data.List.Basic
import SelectiveTrace.Proofs.Host.Turn
import SelectiveTrace.Proofs.Tracer.Showing

/-! The verdicts of a tracer whose targets are codes. Whether the calls and the ends of a frame are
shown depends on its code and on the frames below it, and so it is settled as long as the frame
runs: nothing that happens to a frame on top changes the frames below. -/
namespace SelectiveTrace

theorem TracerConfig.overflows_of_compact {c : TracerConfig} (compact : c.expands = false) :
    c.overflows = false := by
  simp [overflows, compact]

namespace Session

structure Keeps (s s' : Session) (id : FrameId) : Prop where
  codes : s'.targetCodes = s.targetCodes
  frames : s'.targetFrames = s.targetFrames
  hits : ∀ j, j ≠ id → s'.lineHits.get? j = s.lineHits.get? j

theorem Keeps.refl (s : Session) (id : FrameId) : Keeps s s id :=
  ⟨rfl, rfl, fun _ _ => rfl⟩

theorem Keeps.trans {s s' s'' : Session} {id : FrameId} (h : Keeps s s' id)
    (h' : Keeps s' s'' id) : Keeps s s'' id :=
  ⟨h'.codes.trans h.codes, h'.frames.trans h.frames,
    fun j hj => (h'.hits j hj).trans (h.hits j hj)⟩

theorem keeps_recordHit (s : Session) (id : FrameId) (line : Nat) :
    Keeps s (s.recordHit id line) id :=
  ⟨rfl, rfl, fun _ hj => Table.get?_insert_of_ne _ _ hj⟩

theorem keeps_evict (s : Session) (id : FrameId) : Keeps s (s.evict id) id :=
  ⟨rfl, rfl, fun _ hj => Table.get?_erase_of_ne _ hj⟩

theorem keeps_adjustDepth (s : Session) (thread : Nat) (n : Int) (id : FrameId) :
    Keeps s (s.adjustDepth thread n) id :=
  ⟨rfl, rfl, fun _ _ => rfl⟩

end Session

namespace Tracer

def deliver : Deliver (Tracer × Surroundings) := fun _ ctx s => s.1.onEvent ctx s.2

/-- The tracer of a configuration, with target codes, formats of its own, sources that were
registered, and a place for its lines. -/
def outfit (c : TracerConfig) (disk : Disk) (codes : List CodeId) (custom : List CustomFormat)
    (sources : SourceCache) (sink : Sink) : Except Error Tracer :=
  (ofConfig c disk).map fun t =>
    codes.foldl targetCode { t with renderer := { t.renderer with custom }, sources, sink }

structure IsOutfit (t : Tracer) (c : TracerConfig) (codes : List CodeId)
    (custom : List CustomFormat) (sink : Sink) : Prop where
  config : t.config = c
  observed : t.observed = none
  codes : ∀ code, code ∈ t.session.targetCodes ↔ code ∈ codes
  session : t.session = { targetCodes := t.session.targetCodes }
  custom : t.renderer.custom = custom
  sink : t.sink = sink
  graph : t.graph = c.callGraph.map fun output => { output }
  faults : t.faults = []

theorem targetCode_of_none {t : Tracer} (h : t.observed = none) (code : CodeId) :
    t.targetCode code = t.onSession (·.addCode code) := by
  unfold targetCode
  rw [h]
  rfl

theorem IsOutfit.foldl {t : Tracer} {c : TracerConfig} {codes : List CodeId}
    {custom : List CustomFormat} {sink : Sink} (h : t.IsOutfit c codes custom sink)
    (more : List CodeId) :
    (more.foldl targetCode t).IsOutfit c (codes ++ more) custom sink := by
  induction more generalizing t codes with
  | nil => simpa using h
  | cons code more ih =>
    rw [List.foldl_cons, targetCode_of_none h.observed, List.append_cons]
    refine ih ⟨h.config, h.observed, ?_, ?_, h.custom, h.sink, h.graph, h.faults⟩
    · intro other
      simp only [onSession, Session.addCode, List.mem_insert_iff, List.mem_append, h.codes,
        List.mem_singleton]
      exact Or.comm
    · simp only [onSession, Session.addCode]
      rw [h.session]

theorem isOutfit_of_outfit {c : TracerConfig} {disk : Disk} {codes : List CodeId}
    {custom : List CustomFormat} {sources : SourceCache} {sink : Sink} {t : Tracer}
    (setup : outfit c disk codes custom sources sink = .ok t) (region : c.observed = none) :
    t.IsOutfit c codes custom sink := by
  unfold outfit ofConfig at setup
  cases hv : c.validate disk with
  | error e =>
    rw [hv] at setup
    cases setup
  | ok u =>
    rw [hv] at setup
    cases setup
    refine @IsOutfit.foldl _ c [] custom sink ?_ codes
    refine ⟨rfl, ?_, fun _ => Iff.rfl, rfl, rfl, rfl, rfl, rfl⟩
    simp [region]

structure ByCode (t : Tracer) : Prop where
  observed : t.observed = none
  frames : t.session.targetFrames = []

structure Keeps (t t' : Tracer) (id : FrameId) : Prop where
  config : t'.config = t.config
  observed : t'.observed = t.observed
  renderer : t'.renderer = t.renderer
  session : t.session.Keeps t'.session id

theorem Keeps.refl (t : Tracer) (id : FrameId) : Keeps t t id :=
  ⟨rfl, rfl, rfl, Session.Keeps.refl _ _⟩

theorem Keeps.trans {t t' t'' : Tracer} {id : FrameId} (h : Keeps t t' id)
    (h' : Keeps t' t'' id) : Keeps t t'' id :=
  ⟨h'.config.trans h.config, h'.observed.trans h.observed, h'.renderer.trans h.renderer,
    h.session.trans h'.session⟩

theorem Alike.keeps {t t' : Tracer} (h : Alike t t') (id : FrameId) : Keeps t t' id :=
  ⟨h.config, h.observed, h.renderer, ⟨h.codes, h.frames, fun _ _ => by rw [h.hits]⟩⟩

theorem keeps_onSession (t : Tracer) {change : Session → Session} {id : FrameId}
    (h : t.session.Keeps (change t.session) id) : Keeps t (t.onSession change) id :=
  ⟨rfl, rfl, rfl, h⟩

theorem Keeps.byCode {t t' : Tracer} {id : FrameId} (h : Keeps t t' id) (ht : t.ByCode) :
    t'.ByCode :=
  ⟨h.observed.trans ht.observed, h.session.frames.trans ht.frames⟩

theorem keeps_descend (t : Tracer) (ctx : Context) : Keeps t (t.descend ctx) ctx.frame.id := by
  unfold descend
  split
  · exact keeps_onSession t (Session.keeps_adjustDepth _ _ _ _)
  · exact Keeps.refl _ _

theorem ByCode.release {t : Tracer} (h : t.ByCode) (s : Session)
    (frames : s.targetFrames = []) (id : FrameId) : t.release s id = s.evict id := by
  unfold Tracer.release
  simp [h.observed, frames]

theorem ByCode.keeps_ended {t : Tracer} (h : t.ByCode) (ctx : Context) :
    Keeps t (t.ended ctx) ctx.frame.id := by
  unfold ended
  split
  · refine keeps_onSession t ?_
    rw [h.release _ h.frames]
    exact (Session.keeps_evict _ _).trans (Session.keeps_adjustDepth _ _ _ _)
  · exact Keeps.refl _ _

theorem keeps_countHit (t : Tracer) (ctx : Context) :
    Keeps t (t.countHit ctx).2 ctx.frame.id := by
  unfold countHit
  split
  · exact Keeps.refl _ _
  · split
    · exact Keeps.refl _ _
    · exact ⟨rfl, rfl, rfl, Session.keeps_recordHit _ _ _⟩

/-- Counting hits touches nothing but the hits. -/
theorem countHit_eq (t : Tracer) (ctx : Context) :
    (t.countHit ctx).2 =
      t.onSession fun s => { s with lineHits := (t.countHit ctx).2.session.lineHits } := by
  unfold countHit
  split
  · rfl
  · split <;> rfl

/-- Only lines are suppressed. -/
theorem isLine_of_countHit {t : Tracer} {ctx : Context} (h : (t.countHit ctx).1 = true) :
    ctx.event.isLine = true := by
  unfold countHit at h
  split at h
  · cases h
  · split at h
    · cases h
    · simp only [Bool.and_eq_true] at h
      exact h.1

end Tracer

namespace Machine

def framesAt (m : Machine) (ids : List FrameId) : List Frame :=
  ids.filterMap m.standing

theorem framesAt_cons {m : Machine} {id : FrameId} {f : Frame} (h : m.standing id = some f)
    (ids : List FrameId) : m.framesAt (id :: ids) = f :: m.framesAt ids := by
  simp [framesAt, h]

theorem framesAt_congr {m m' : Machine} {ids : List FrameId}
    (h : ∀ id ∈ ids, m'.standing id = m.standing id) : m'.framesAt ids = m.framesAt ids :=
  List.filterMap_congr h

/-- What an operation reports about one frame leaves the frames below as they stand. -/
theorem framesAt_before {m : Machine} {op : Op FrameId} {f : Frame} {e : Event}
    (event : op.event? m = some (f.id, e)) {ids : List FrameId}
    (off : f.id ∉ ids) : (op.before m).framesAt ids = m.framesAt ids := by
  refine framesAt_congr fun j hj => (Op.spares_before ?_).standing
  intro e' he
  rw [event] at he
  have hid : f.id = j := congrArg Prod.fst (Option.some.inj he)
  exact off (hid ▸ hj)

theorem standing_heed {m : Machine} {f : Frame} {a : Answer} {e : Event}
    (live : m.frames.get? f.id = some f) :
    (m.heed f.id e a).standing f.id = some f.place := by
  rw [heed_eq]
  exact standing_of_get? live

theorem Linked.mem_framesAt {m : Machine} (h : m.Linked) {ids : List FrameId} {f : Frame}
    (hf : f ∈ m.framesAt ids) : f.id ∈ ids := by
  obtain ⟨id, hi, hs⟩ := List.mem_filterMap.mp hf
  rw [(h.known id f hs).1]
  exact hi

end Machine

inductive Verdict.Agrees (e : Event) : Bool → Verdict → Prop
  | shown (expanded : Bool) : Agrees e true (.show_ expanded)
  | omitted (line : e.isLine = true) : Agrees e true .ignore
  | skipped : Agrees e false .skip

theorem Verdict.Agrees.eq_show {e : Event} {v : Verdict} (h : Agrees e true v)
    (hl : e.isLine = false) : ∃ expanded, v = .show_ expanded := by
  cases h with
  | shown expanded => exact ⟨expanded, rfl⟩
  | omitted line =>
    rw [hl] at line
    cases line

theorem Verdict.Agrees.eq_skip {e : Event} {v : Verdict} (h : Agrees e false v) : v = .skip := by
  cases h
  rfl

namespace Tracer

def reaches (t : Tracer) : Nat → List Frame → Bool
  | 0, _ => false
  | _ + 1, [] => false
  | n + 1, above :: below =>
    if t.session.targetCodes.contains above.code then !t.isExhausted above
    else t.reaches n below

/-- Whether the calls and ends of a frame are shown when it runs on top of these frames. -/
def shows (t : Tracer) (f : Frame) (below : List Frame) : Bool :=
  t.session.targetCodes.contains f.code || t.reaches (levels t.config) below

theorem isExhausted_congr {t t' : Tracer} {f : Frame} (config : t'.config = t.config)
    (hits : t'.session.lineHits.get? f.id = t.session.lineHits.get? f.id) :
    t'.isExhausted f = t.isExhausted f := by
  unfold isExhausted Session.hits
  rw [config, hits]

theorem Keeps.reaches {t t' : Tracer} {id : FrameId} (h : Keeps t t' id) {below : List Frame}
    (hb : ∀ f ∈ below, f.id ≠ id) (n : Nat) : t'.reaches n below = t.reaches n below := by
  induction below generalizing n with
  | nil => cases n <;> rfl
  | cons above below ih =>
    cases n with
    | zero => rfl
    | succ n =>
      have ha := isExhausted_congr h.config (h.session.hits above.id (hb above (by simp)))
      simp only [Tracer.reaches, h.session.codes, ha,
        ih (fun f hf => hb f (List.mem_cons_of_mem _ hf))]

theorem Keeps.shows {t t' : Tracer} {id : FrameId} (h : Keeps t t' id) {below : List Frame}
    (hb : ∀ f ∈ below, f.id ≠ id) (f : Frame) : t'.shows f below = t.shows f below := by
  unfold Tracer.shows
  rw [h.session.codes, h.config, h.reaches hb]

theorem ByCode.isSource {t : Tracer} (h : t.ByCode) (w : Surroundings) (f : Frame) :
    t.isSource w f = t.session.targetCodes.contains f.code := by
  unfold Tracer.isSource
  simp [h.frames]

/-- The search for a target walks down the stack. -/
theorem ByCode.agrees_inheritFrom {t : Tracer} (ht : t.ByCode) {m : Machine} (h : m.Linked)
    (w : Surroundings) {ctx : Context} (frames : ctx.frames = m.frames) (n : Nat)
    {ids : List FrameId} (hs : ids <:+ m.stack) {f : Frame} (back : f.back = ids.head?) :
    Verdict.Agrees ctx.event (t.reaches n (m.framesAt ids)) (t.inheritFrom w ctx n f) := by
  induction n generalizing ids f with
  | zero =>
    simp only [Tracer.reaches, inheritFrom, unrelated, ht.observed, Option.any_none]
    exact .skipped
  | succ n ih =>
    cases ids with
    | nil =>
      rw [inheritFrom, back]
      exact .skipped
    | cons id ids =>
      obtain ⟨above, ha, hback⟩ := h.chained id ids hs
      obtain ⟨g, hg, rfl⟩ := Machine.get?_of_standing ha
      have hids : ids <:+ m.stack := (List.suffix_cons id ids).trans hs
      rw [inheritFrom, back, List.head?_cons, Option.bind_some, frames, hg,
        Machine.framesAt_cons ha, Tracer.reaches]
      dsimp only
      rw [ht.isSource]
      by_cases hc : t.session.targetCodes.contains g.code = true
      · have hp : t.session.targetCodes.contains g.place.code = true := hc
        have he : t.isExhausted g.place = t.isExhausted g := rfl
        rw [if_pos hc, if_pos hp, he]
        cases t.isExhausted g with
        | true => exact .skipped
        | false =>
          simp only [Bool.not_false, Bool.false_eq_true, if_false]
          split
          · split
            · exact .omitted ‹_›
            · exact .shown true
          · exact .shown false
      · have hp : ¬ t.session.targetCodes.contains g.place.code = true := hc
        rw [if_neg hc, if_neg hp]
        exact ih hids hback

/-- Where the levels can be counted, the search for a target decides on other frames. -/
theorem verdict_of_counted {t : Tracer} (counted : t.config.overflows = false) (w : Surroundings)
    (ctx : Context) : t.verdict w ctx =
      if t.session.isTarget ctx.frame.code ctx.frame.id then .show_ false
      else t.inheritFrom w ctx (levels t.config) ctx.frame := by
  unfold verdict
  simp [counted]

theorem inheritFrom_ne_overflow (t : Tracer) (w : Surroundings) (ctx : Context) (n : Nat)
    (f : Frame) : t.inheritFrom w ctx n f ≠ .overflow := by
  induction n generalizing f with
  | zero =>
    unfold inheritFrom unrelated
    split <;> simp
  | succ n ih =>
    unfold inheritFrom
    split
    · simp
    next above _ =>
      split
      · split
        · simp
        · split
          · split <;> simp
          · simp
      · exact ih above

theorem gated_ne_overflow (t : Tracer) (w : Surroundings) (ctx : Context) :
    (t.gated w ctx).1 ≠ some .overflow := by
  unfold gated
  split
  · unfold gate
    dsimp only
    split_ifs <;> simp
  · simp

/-- Events overflow only where the levels are too many to be counted. -/
theorem decide_ne_overflow {t : Tracer} (counted : t.config.overflows = false) (w : Surroundings)
    (ctx : Context) : (t.decide w ctx).1 ≠ .overflow := by
  unfold decide
  split
  next v s hg =>
    intro h
    refine t.gated_ne_overflow w ctx ?_
    rw [hg]
    exact congrArg some h
  next s hg =>
    have hv : Tracer.verdict { t with session := s } w ctx ≠ .overflow := by
      rw [verdict_of_counted (t := { t with session := s }) counted]
      split
      · simp
      · exact inheritFrom_ne_overflow _ _ _ _ _
    dsimp only
    split
    · dsimp only
      split <;> simp
    · exact hv

theorem ByCode.agrees_verdict {t : Tracer} (ht : t.ByCode)
    (counted : t.config.overflows = false) {m : Machine} (h : m.Linked) (w : Surroundings)
    (ctx : Context) (frames : ctx.frames = m.frames)
    {ids : List FrameId} (hs : ids <:+ m.stack) (back : ctx.frame.back = ids.head?) :
    Verdict.Agrees ctx.event (t.shows ctx.frame (m.framesAt ids)) (t.verdict w ctx) := by
  rw [verdict_of_counted counted]
  unfold Tracer.shows Session.isTarget
  rw [ht.frames]
  cases hc : t.session.targetCodes.contains ctx.frame.code with
  | true =>
    simp only [Bool.true_or, if_true]
    exact .shown false
  | false =>
    simp only [Bool.false_or, List.contains_nil, Bool.false_eq_true, if_false]
    exact ht.agrees_inheritFrom h w frames _ hs back

/-- Without a region the targets decide, and the limit on hits. -/
theorem decide_of_unobserved {t : Tracer} (observed : t.observed = none) (w : Surroundings)
    (ctx : Context) :
    t.decide w ctx =
      match t.verdict w ctx with
      | .show_ expanded =>
        (if (t.countHit ctx).1 then .ignore else .show_ expanded, (t.countHit ctx).2)
      | v => (v, t) := by
  have hg : t.gated w ctx = (none, t.session) := by
    unfold gated
    rw [observed]
  cases h : t.verdict w ctx <;> simp only [decide, hg, h]

theorem ByCode.decide_eq {t : Tracer} (ht : t.ByCode) (w : Surroundings) (ctx : Context) :
    t.decide w ctx =
      match t.verdict w ctx with
      | .show_ expanded =>
        (if (t.countHit ctx).1 then .ignore else .show_ expanded, (t.countHit ctx).2)
      | v => (v, t) :=
  decide_of_unobserved ht.observed w ctx

/-- The verdict on an event of the frame that runs on top of `ids`. -/
theorem ByCode.agrees_decide {t : Tracer} (ht : t.ByCode)
    (counted : t.config.overflows = false) {m : Machine} (h : m.Linked) (w : Surroundings)
    (ctx : Context) (frames : ctx.frames = m.frames)
    {ids : List FrameId} (hs : ids <:+ m.stack) (back : ctx.frame.back = ids.head?) :
    Verdict.Agrees ctx.event (t.shows ctx.frame (m.framesAt ids)) (t.decide w ctx).1 := by
  have hv := ht.agrees_verdict counted h w ctx frames hs back
  rw [ht.decide_eq]
  generalize t.verdict w ctx = v at hv ⊢
  generalize t.shows ctx.frame (m.framesAt ids) = b at hv ⊢
  cases hv with
  | omitted line => exact .omitted line
  | skipped => exact .skipped
  | shown expanded =>
    dsimp only
    split
    · exact .omitted (isLine_of_countHit ‹_›)
    · exact .shown expanded

/-- Deciding counts a hit of the frame at most. -/
theorem ByCode.keeps_decide {t : Tracer} (ht : t.ByCode) (w : Surroundings) (ctx : Context) :
    Keeps t (t.decide w ctx).2 ctx.frame.id ∧ ∃ hits,
      (t.decide w ctx).2 = t.onSession fun s => { s with lineHits := hits } := by
  rw [ht.decide_eq]
  split
  · exact ⟨keeps_countHit t ctx, _, countHit_eq t ctx⟩
  · exact ⟨Keeps.refl _ _, t.session.lineHits, rfl⟩

section
variable {t : Tracer} {w : Surroundings} {ctx : Context}

theorem onEvent_of_show {t' : Tracer} {w' : Surroundings} {expanded : Bool}
    (hd : ctx.event.isDiscard = false) (hv : (t.decide w ctx).1 = .show_ expanded)
    (hr : (t.decide w ctx).2.render w ctx expanded = (t', w', none)) :
    t.onEvent ctx w = (.proceed, t', w') := by
  have hp : t.decide w ctx = (.show_ expanded, (t.decide w ctx).2) := by rw [← hv]
  unfold onEvent
  rw [hd, hp]
  simp only [Bool.false_eq_true, if_false, hr]

theorem onEvent_of_skip (hd : ctx.event.isDiscard = false) (hv : (t.decide w ctx).1 = .skip) :
    t.onEvent ctx w = (.skipFrame, (t.decide w ctx).2, w) := by
  have hp : t.decide w ctx = (.skip, (t.decide w ctx).2) := by rw [← hv]
  unfold onEvent
  rw [hd, hp]
  rfl

theorem onEvent_of_ignore (hd : ctx.event.isDiscard = false)
    (hv : (t.decide w ctx).1 = .ignore) :
    t.onEvent ctx w = (.proceed, (t.decide w ctx).2, w) := by
  have hp : t.decide w ctx = (.ignore, (t.decide w ctx).2) := by rw [← hv]
  unfold onEvent
  rw [hd, hp]
  rfl

theorem onEvent_of_overflow (hd : ctx.event.isDiscard = false)
    (hv : (t.decide w ctx).1 = .overflow) :
    t.onEvent ctx w =
      (.proceed, (t.decide w ctx).2.fault (.handling ctx.event.name overflowText), w) := by
  have hp : t.decide w ctx = (.overflow, (t.decide w ctx).2) := by rw [← hv]
  unfold onEvent
  rw [hd, hp]
  rfl

end

end Tracer
end SelectiveTrace
