import SelectiveTrace.Proofs.Tracer.Display
import SelectiveTrace.Proofs.Tracer.Handling

/-! The courses that an event may take with a tracer that observes no region, whatever its targets are:
frames that were entered, codes, or frames close enough to one. Frames are attached and left by name
alone; the end of an attached frame releases nothing. -/
namespace SelectiveTrace
namespace Tracer
variable {t : Tracer} {w : Surroundings} {ctx : Context}

def releases (t : Tracer) (ctx : Context) : Bool :=
  ctx.event.isTerminal && !t.session.targetFrames.contains ctx.frame.id

inductive Course (t : Tracer) (w : Surroundings) (ctx : Context) : Answer → Session → Prop
  | dropped (discard : ctx.event.isDiscard = true) :
    Course t w ctx .proceed ((t.session.evict ctx.frame.id).detach ctx.frame.id)
  /-- The frame is no target, and none is close enough. -/
  | hidden {a : Answer} (running : ctx.event.isDiscard = false)
    (verdict : (t.verdict w ctx).isShow = false) : Course t w ctx a t.session
  /-- The line was hit often enough. -/
  | passed (line : ctx.event.isLine = true) (verdict : (t.verdict w ctx).isShow = true) :
    Course t w ctx .proceed (t.countHit ctx).2.session
  | shown {s : Session} (running : ctx.event.isDiscard = false)
    (verdict : (t.verdict w ctx).isShow = true)
    (frames : s.targetFrames = t.session.targetFrames)
    (hits : s.lineHits =
      if t.releases ctx then (t.countHit ctx).2.session.lineHits.erase ctx.frame.id
      else (t.countHit ctx).2.session.lineHits)
    (timers : s.timers = if t.releases ctx then t.session.timers.erase ctx.frame.id
      else t.session.timers) : Course t w ctx .proceed s

/-- Whatever is shown without a failure ends as it says. -/
theorem session_shown (observed : t.observed = none) (total : t.renderer.IsTotal) (w : Surroundings)
    (ctx : Context) (expanded : Bool) :
    let s := (t.render w ctx expanded).1.session
    s.targetFrames = t.session.targetFrames ∧
      s.lineHits = (if t.releases ctx then t.session.lineHits.erase ctx.frame.id
        else t.session.lineHits) ∧
      s.timers = if t.releases ctx then t.session.timers.erase ctx.frame.id
        else t.session.timers := by
  intro s
  have htold : (t.told w ctx expanded).observed = none := by
    rw [told_eq]
    exact observed
  have hs : s = ((t.told w ctx expanded).ended ctx).session := session_render total w ctx expanded
  have hsession := session_told t w ctx expanded
  rw [hs]
  unfold releases ended
  cases terminal : ctx.event.isTerminal with
  | false =>
    rw [if_neg Bool.false_ne_true, hsession]
    exact ⟨rfl, rfl, rfl⟩
  | true =>
    rw [if_pos rfl]
    dsimp only [onSession, Session.adjustDepth, Session.setDepth, release]
    rw [htold, hsession, Option.isSome_none, if_neg Bool.false_ne_true]
    cases t.session.targetFrames.contains ctx.frame.id <;> exact ⟨rfl, rfl, rfl⟩

/-- What is not to be shown leaves a fault at most. -/
theorem onEvent_of_unshown (observed : t.observed = none) (w : Surroundings)
    (running : ctx.event.isDiscard = false) (hidden : (t.verdict w ctx).isShow = false) :
    (t.onEvent ctx w).2 = (t.noteVerdict ctx (t.verdict w ctx), w) := by
  have hd := decide_of_unobserved observed w ctx
  cases hv : t.verdict w ctx with
  | show_ expanded =>
    rw [hv] at hidden
    cases hidden
  | skip =>
    rw [hv] at hd
    rw [onEvent_of_skip running (by rw [hd]), hd]
    rfl
  | ignore =>
    rw [hv] at hd
    rw [onEvent_of_ignore running (by rw [hd]), hd]
    rfl
  | overflow =>
    rw [hv] at hd
    rw [onEvent_of_overflow running (by rw [hd]), hd]
    rfl

theorem course_onEvent (observed : t.observed = none) (total : t.renderer.IsTotal) (w : Surroundings)
    (ctx : Context) : t.Course w ctx (t.onEvent ctx w).1 (t.onEvent ctx w).2.1.session := by
  cases live : ctx.event.isDiscard with
  | true =>
    have hdrop : (t.dropFrame ctx.frame.id).session =
        (t.session.evict ctx.frame.id).detach ctx.frame.id := by
      rcases t.dropFrame_cases ctx.frame.id with ⟨hdrop, -⟩ | ⟨g, hdrop, -⟩ <;>
      · rw [hdrop]
        rfl
    rw [onEvent_of_discard live]
    dsimp only
    rw [hdrop]
    exact .dropped live
  | false =>
    cases hshow : (t.verdict w ctx).isShow with
    | false =>
      obtain ⟨faults, hnoted⟩ := noteVerdict_eq t ctx (t.verdict w ctx)
      rw [onEvent_of_unshown observed w live hshow, hnoted]
      exact .hidden live hshow
    | true =>
      obtain ⟨expanded, hv⟩ := Verdict.isShow_iff.mp hshow
      have hd := decide_of_unobserved observed w ctx
      rw [hv] at hd
      have hcount := countHit_eq t ctx
      cases hc : (t.countHit ctx).1 with
      | true =>
        rw [hc] at hd
        rw [onEvent_of_ignore live (by rw [hd]; rfl), hd]
        exact .passed (isLine_of_countHit hc) hshow
      | false =>
        rw [hc] at hd
        generalize hu : (t.countHit ctx).2 = u at hcount hd
        have hobserved : u.observed = none := by rw [hcount]; exact observed
        have htotal : u.renderer.IsTotal := by rw [hcount]; exact total
        have hframes : u.session.targetFrames = t.session.targetFrames := by rw [hcount]; rfl
        have htimers : u.session.timers = t.session.timers := by rw [hcount]; rfl
        have hreleases : u.releases ctx = t.releases ctx := by rw [releases, hframes]; rfl
        obtain ⟨frames, hits, timers⟩ := session_shown hobserved htotal w ctx expanded
        rw [hreleases] at hits timers
        have hd : t.decide w ctx = (.show_ expanded, u) := hd
        have hr : u.render w ctx expanded =
            ((u.render w ctx expanded).1, (u.render w ctx expanded).2.1, none) := by
          refine Prod.ext rfl (Prod.ext rfl ?_)
          rw [render_told (mishap?_of_isTotal htotal ctx) w expanded]
        rw [onEvent_of_show live (by rw [hd]) (by rw [hd]; exact hr)]
        exact .shown live hshow (frames.trans hframes) (hu ▸ hits) (htimers ▸ timers)

def counts (t : Tracer) (w : Surroundings) (ctx : Context) : Bool :=
  t.config.hitLimit.isSome && !ctx.event.isTerminal && (t.verdict w ctx).isShow

def forgets (t : Tracer) (w : Surroundings) (ctx : Context) : Bool :=
  ctx.event.isDiscard || ((t.verdict w ctx).isShow && t.releases ctx)

theorem lineHits_countHit (t : Tracer) (ctx : Context) (f : FrameId) :
    (t.countHit ctx).2.session.lineHits.contains f =
      ((t.config.hitLimit.isSome && !ctx.event.isTerminal && Decidable.decide (ctx.frame.id = f)) ||
        t.session.lineHits.contains f) := by
  unfold countHit
  cases t.config.hitLimit with
  | none => simp
  | some limit =>
    cases ctx.event.isTerminal with
    | true => simp
    | false =>
      simp only [Bool.false_eq_true, if_false, onSession, Session.recordHit, Table.contains_insert]
      simp [eq_comm]

/-- The verdict on an event of a target. -/
theorem decide_of_target (observed : t.observed = none) (w : Surroundings)
    (target : t.session.isTarget ctx.frame.code ctx.frame.id = true) :
    t.decide w ctx =
      (if (t.countHit ctx).1 then .ignore else .show_ false, (t.countHit ctx).2) := by
  have hv : t.verdict w ctx = .show_ false := by
    unfold verdict
    rw [target]
    rfl
  rw [decide_of_unobserved observed, hv]

/-- What is shown of a target: the tracer that has counted the hit writes the lines of the event. -/
theorem onEvent_of_target (observed : t.observed = none) (total : t.renderer.IsTotal)
    (text : t.graph = none) (w : Surroundings)
    (target : t.session.isTarget ctx.frame.code ctx.frame.id = true)
    (running : ctx.event.isDiscard = false) :
    let u := (t.countHit ctx).2
    let out := u.feed w (u.eventText w ctx false ++
      u.resultLines ctx (indentation (u.level ctx)) (u.outcome ctx))
    t.onEvent ctx w = (.proceed,
      if (t.countHit ctx).1 then (u, w)
      else ({ (u.told w ctx false).ended ctx with sink := out.1 }, out.2)) := by
  intro u out
  have hd := decide_of_target observed w target
  cases hs : (t.countHit ctx).1 with
  | true =>
    rw [hs] at hd
    rw [onEvent_of_ignore running (by rw [hd]; rfl), hd]
    rfl
  | false =>
    rw [hs] at hd
    have hu : u = t.onSession fun s => { s with lineHits := u.session.lineHits } := countHit_eq t ctx
    have hutotal : u.renderer.IsTotal := by
      rw [hu]
      exact total
    have hutext : u.graph = none := by
      rw [hu]
      exact text
    have hr := render_written (mishap?_of_isTotal hutotal ctx) hutext w false
    rw [onEvent_of_show running (by rw [hd]; rfl) (by rw [hd]; exact hr)]
    rfl

/-- Where lines are written no graph comes up. -/
theorem graph_onEvent (total : t.renderer.IsTotal) (text : t.graph = none) (ctx : Context)
    (w : Surroundings) : (t.onEvent ctx w).2.1.graph = none := by
  cases live : ctx.event.isDiscard with
  | true =>
    rw [onEvent_of_discard live]
    unfold dropFrame onSession
    rw [text]
  | false =>
    obtain ⟨s, hs⟩ := t.decide_session w ctx
    cases hv : (t.decide w ctx).1.isShow with
    | true =>
      obtain ⟨expanded, hshow⟩ := Verdict.isShow_iff.mp hv
      have hcalm := mishap?_of_isTotal (t := { t with session := s }) total ctx
      have hr := render_written hcalm text w expanded
      have htold := ended_told_eq { t with session := s } w ctx expanded
      rw [onEvent_of_show live hshow (by rw [hs]; exact hr)]
      dsimp only at htold ⊢
      rw [htold]
      exact text
    | false =>
      obtain ⟨a, he, -⟩ := onEvent_of_hidden live hv
      obtain ⟨faults, hnoted⟩ := noteVerdict_eq (t.decide w ctx).2 ctx (t.decide w ctx).1
      rw [he, hnoted, hs]
      exact text

theorem isDiscard_of_isLine (line : ctx.event.isLine = true) :
    ctx.event.isDiscard = false ∧ ctx.event.isTerminal = false := by
  cases he : ctx.event <;> rw [he] at line <;> first | exact ⟨rfl, rfl⟩ | cases line

namespace Course
variable {a : Answer} {s : Session}

theorem mem_targetFrames (h : t.Course w ctx a s) (f : FrameId) :
    f ∈ s.targetFrames ↔
      f ∈ t.session.targetFrames ∧ ¬ (ctx.event.isDiscard = true ∧ ctx.frame.id = f) := by
  cases h with
  | dropped discard =>
    rw [Session.mem_detach]
    simp [discard, Session.evict, eq_comm]
  | hidden running verdict => simp [running]
  | passed line verdict =>
    rw [countHit_eq]
    simp [(isDiscard_of_isLine line).1, onSession]
  | shown running verdict frames hits timers => simp [running, frames]

/-- Hits are kept for a frame by its events alone. -/
theorem lineHits (h : t.Course w ctx a s) (f : FrameId) :
    s.lineHits.contains f =
      if ctx.frame.id = f then
        t.counts w ctx || (t.session.lineHits.contains f && !t.forgets w ctx)
      else t.session.lineHits.contains f := by
  unfold counts forgets
  cases h with
  | dropped discard =>
    have hended : ctx.event.isTerminal = true := by
      cases he : ctx.event <;> rw [he] at discard <;> first | rfl | cases discard
    have hs : ((t.session.evict ctx.frame.id).detach ctx.frame.id).lineHits =
        t.session.lineHits.erase ctx.frame.id := rfl
    rw [hs, Table.contains_erase, discard, hended]
    by_cases hf : ctx.frame.id = f
    · simp [hf]
    · simp [hf, Ne.symm hf]
  | hidden running verdict => simp [running, verdict]
  | passed line verdict =>
    obtain ⟨running, goes⟩ := isDiscard_of_isLine line
    rw [lineHits_countHit, running, goes, verdict]
    by_cases hf : ctx.frame.id = f <;> simp [hf, releases, goes]
  | shown running verdict frames hits timers =>
    rw [hits, running, verdict]
    cases hr : t.releases ctx with
    | true =>
      have hended : ctx.event.isTerminal = true := by
        unfold releases at hr
        rw [Bool.and_eq_true] at hr
        exact hr.1
      rw [if_pos rfl, Table.contains_erase, lineHits_countHit, hended]
      by_cases hf : ctx.frame.id = f
      · simp [hf]
      · simp [hf, Ne.symm hf]
    | false =>
      rw [if_neg Bool.false_ne_true, lineHits_countHit]
      by_cases hf : ctx.frame.id = f <;> simp [hf]

theorem timers (h : t.Course w ctx a s) (f : FrameId) :
    s.timers.get? f =
      if ctx.frame.id = f ∧ t.forgets w ctx = true then none else t.session.timers.get? f := by
  unfold forgets
  cases h with
  | dropped discard =>
    have hs : ((t.session.evict ctx.frame.id).detach ctx.frame.id).timers =
        t.session.timers.erase ctx.frame.id := rfl
    rw [hs, Table.get?_erase, discard]
    by_cases hf : ctx.frame.id = f
    · simp [hf]
    · simp [hf, Ne.symm hf]
  | hidden running verdict => simp [running, verdict]
  | passed line verdict =>
    obtain ⟨running, goes⟩ := isDiscard_of_isLine line
    rw [countHit_eq, running, verdict]
    simp [releases, goes, onSession]
  | shown running verdict frames hits timers =>
    rw [timers, running, verdict]
    cases t.releases ctx with
    | true =>
      rw [if_pos rfl, Table.get?_erase]
      by_cases hf : ctx.frame.id = f
      · simp [hf]
      · simp [hf, Ne.symm hf]
    | false => simp

end Course

end Tracer
end SelectiveTrace
