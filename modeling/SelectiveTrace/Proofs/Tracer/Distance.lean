import Mathlib.Data.ENat.Basic
import SelectiveTrace.Proofs.Tracer.Verdict

/-! The distance of a frame from its nearest target along the links back settles what is shown of the
frame, as long as hits are not limited. -/
namespace SelectiveTrace

/-- So many links lead from a frame to the nearest one, itself included, whose code is a target;
there may be none. -/
inductive Distance (codes : List CodeId) (frames : Table FrameId Frame) : Frame → ℕ∞ → Prop
  | here {f : Frame} (target : f.code ∈ codes) : Distance codes frames f 0
  | further {f above : Frame} {d : ℕ∞} (passed : f.code ∉ codes)
    (link : f.back.bind frames.get? = some above) (rest : Distance codes frames above d) :
    Distance codes frames f (d + 1)
  | none {f : Frame} (passed : f.code ∉ codes) (last : f.back.bind frames.get? = none) :
    Distance codes frames f ⊤

theorem Distance.unique {codes : List CodeId} {frames : Table FrameId Frame} {f : Frame}
    {d d' : ℕ∞} (h : Distance codes frames f d) (h' : Distance codes frames f d') : d = d' := by
  induction h generalizing d' with
  | here target =>
    cases h' with
    | here _ => rfl
    | further passed _ _ => exact absurd target passed
    | none passed _ => exact absurd target passed
  | further passed link _ ih =>
    cases h' with
    | here target => exact absurd target passed
    | further _ link' rest' =>
      rw [link] at link'
      cases link'
      rw [ih rest']
    | none _ last =>
      rw [link] at last
      cases last
  | none passed last =>
    cases h' with
    | here target => exact absurd target passed
    | further _ link _ =>
      rw [link] at last
      cases last
    | none _ _ => rfl

def nearest (codes : List CodeId) : List Frame → ℕ∞
  | [] => ⊤
  | f :: fs => if f.code ∈ codes then 0 else nearest codes fs + 1

def verdictAt (c : TracerConfig) (d : ℕ∞) (e : Event) : Verdict :=
  if d < c.depth then .show_ false
  else if c.depthExpanded ∧ d = c.depth then if e.isLine then .ignore else .show_ true
  else .skip

/-- What becomes of an event at a distance. Where the levels are too many to be counted, the distance
decides on targets alone. -/
def settledAt (c : TracerConfig) (d : ℕ∞) (e : Event) : Verdict :=
  if c.overflows ∧ 0 < d then .overflow else verdictAt c d e

theorem nearest_congr {codes : List CodeId} {f f' : Frame} (code : f'.code = f.code)
    (fs : List Frame) : nearest codes (f' :: fs) = nearest codes (f :: fs) := by
  simp only [nearest, code]

namespace Machine

/-- Down the stack the distance is the position of the nearest target. -/
theorem Linked.distance {m : Machine} (h : m.Linked) (codes : List CodeId) {ids : List FrameId}
    (hs : ids <:+ m.stack) {f : Frame} (back : f.back = ids.head?) :
    Distance codes m.frames f (nearest codes (f :: m.framesAt ids)) := by
  induction ids generalizing f with
  | nil =>
    rw [nearest]
    split
    next target => exact .here target
    next passed =>
      refine .none passed ?_
      rw [back]
      rfl
  | cons id ids ih =>
    obtain ⟨above, ha, hback⟩ := h.chained id ids hs
    obtain ⟨g, hg, rfl⟩ := get?_of_standing ha
    rw [nearest, framesAt_cons ha]
    split
    next target => exact .here target
    next passed =>
      have link : f.back.bind m.frames.get? = some g := by
        rw [back]
        exact hg
      exact .further passed link (ih ((List.suffix_cons id ids).trans hs) hback)

end Machine

namespace Tracer
variable {t : Tracer} {c : TracerConfig} {codes : List CodeId}

theorem isExhausted_of_none (h : t.config.hitLimit = none) (f : Frame) :
    t.isExhausted f = false := by
  unfold isExhausted
  rw [h]
  rfl

/-- The search among the frames above finds the nearest target. -/
theorem ByCode.inheritFrom_eq (ht : t.ByCode)
    (hc : ∀ code, code ∈ t.session.targetCodes ↔ code ∈ codes)
    (hl : t.config.hitLimit = none) {m : Machine} (h : m.Linked) (w : Surroundings) {ctx : Context}
    (frames : ctx.frames = m.frames) (n : Nat) {ids : List FrameId} (hs : ids <:+ m.stack)
    {f : Frame} (back : f.back = ids.head?) :
    t.inheritFrom w ctx n f =
      if nearest codes (m.framesAt ids) < n then
        if t.config.expands ∧ nearest codes (m.framesAt ids) + 1 = n then
          if ctx.event.isLine then .ignore else .show_ true
        else .show_ false
      else .skip := by
  induction n generalizing ids f with
  | zero => simp [inheritFrom, unrelated, ht.observed]
  | succ n ih =>
    cases ids with
    | nil =>
      rw [inheritFrom, back]
      simp [Machine.framesAt, nearest]
    | cons id ids =>
      obtain ⟨above, ha, hback⟩ := h.chained id ids hs
      obtain ⟨g, hg, rfl⟩ := Machine.get?_of_standing ha
      have hids : ids <:+ m.stack := (List.suffix_cons id ids).trans hs
      rw [inheritFrom, back, List.head?_cons, Option.bind_some, frames, hg,
        Machine.framesAt_cons ha, nearest]
      dsimp only
      have hcode : g.place.code ∈ codes ↔ t.session.targetCodes.contains g.code = true := by
        rw [List.contains_iff_mem, hc]
        exact Iff.rfl
      have hback' : g.back = ids.head? := hback
      rw [ht.isSource, isExhausted_of_none hl, ih hids hback']
      generalize nearest codes (m.framesAt ids) = d
      by_cases hp : g.place.code ∈ codes
      · have h₁ : (0 : ℕ∞) < ((n + 1 : ℕ) : ℕ∞) := by
          norm_cast
          omega
        have h₂ : (0 : ℕ∞) + 1 = ((n + 1 : ℕ) : ℕ∞) ↔ n = 0 := by
          norm_cast
          omega
        rw [if_pos (hcode.mp hp)]
        simp only [hp, h₁, h₂, if_true, Bool.and_eq_true, decide_eq_true_eq, Bool.false_eq_true,
          if_false]
      · have h₁ : d + 1 < ((n + 1 : ℕ) : ℕ∞) ↔ d < n := by
          cases d with
          | top => simp
          | coe d =>
            norm_cast
            omega
        have h₂ : d + 1 + 1 = ((n + 1 : ℕ) : ℕ∞) ↔ d + 1 = n := by
          cases d with
          | top => exact iff_of_false (ENat.top_ne_natCast (n + 1)) (ENat.top_ne_natCast n)
          | coe d =>
            norm_cast
            omega
        rw [if_neg fun hm => hp (hcode.mpr hm)]
        simp only [hp, h₁, h₂, if_false]

/-- One level more is looked at where the last one shows calls and returns only. -/
theorem levels_eq (hpos : 0 < c.depth) (d : ℕ∞) (e : Event) :
    (if d < ((if c.depthExpanded then c.depth else c.depth - 1 : ℕ) : ℕ∞) then
        if c.depthExpanded ∧ d + 1 = ((if c.depthExpanded then c.depth else c.depth - 1 : ℕ) : ℕ∞)
          then if e.isLine then .ignore else .show_ true
        else .show_ false
      else .skip) = verdictAt c (d + 1) e := by
  unfold verdictAt
  cases d with
  | top => simp
  | coe n =>
    have h₁ : ∀ k : ℕ, (n : ℕ∞) < k ↔ n < k := fun k => Nat.cast_lt
    have h₂ : ∀ k : ℕ, (n : ℕ∞) + 1 < k ↔ n + 1 < k := by
      intro k
      norm_cast
    have h₃ : ∀ k : ℕ, (n : ℕ∞) + 1 = k ↔ n + 1 = k := by
      intro k
      norm_cast
    simp only [h₁, h₂, h₃]
    cases c.depthExpanded with
    | true =>
      simp only [if_true, true_and]
      by_cases hn : n + 1 < c.depth
      · rw [if_pos hn, if_pos (by omega), if_neg (by omega)]
      · by_cases he : n + 1 = c.depth
        · rw [if_neg hn, if_pos (by omega), if_pos he, if_pos he]
        · rw [if_neg hn, if_neg (by omega), if_neg he]
    | false =>
      simp only [Bool.false_eq_true, if_false, false_and]
      by_cases hn : n + 1 < c.depth
      · rw [if_pos hn, if_pos (by omega)]
      · rw [if_neg hn, if_neg (by omega)]

structure Writes (t : Tracer) (c : TracerConfig) (codes : List CodeId) : Prop where
  byCode : t.ByCode
  config : t.config = c
  codes : ∀ code, code ∈ t.session.targetCodes ↔ code ∈ codes
  total : t.renderer.IsTotal
  graph : t.graph = none
  expands : c.expands = c.depthExpanded
  unlimited : c.hitLimit = none
  positive : 0 < c.depth

theorem Writes.decide_eq (h : t.Writes c codes) {m : Machine} (linked : m.Linked)
    (w : Surroundings) (ctx : Context) (frames : ctx.frames = m.frames) {ids : List FrameId}
    (hs : ids <:+ m.stack) (back : ctx.frame.back = ids.head?) :
    t.decide w ctx =
      (settledAt c (nearest codes (ctx.frame :: m.framesAt ids)) ctx.event, t) := by
  have hlimit : t.config.hitLimit = none := h.config ▸ h.unlimited
  have hcount : t.countHit ctx = (false, t) := by
    unfold countHit
    rw [hlimit]
  have hverdict : t.verdict w ctx =
      settledAt c (nearest codes (ctx.frame :: m.framesAt ids)) ctx.event := by
    unfold verdict Session.isTarget settledAt
    rw [h.byCode.frames, nearest,
      h.byCode.inheritFrom_eq h.codes hlimit linked w frames _ hs back, h.config, levels, h.expands]
    generalize nearest codes (m.framesAt ids) = d
    have hpos := h.positive
    by_cases hcode : ctx.frame.code ∈ codes
    · have hc : t.session.targetCodes.contains ctx.frame.code = true :=
        List.contains_iff_mem.mpr ((h.codes _).mpr hcode)
      have h₀ : (0 : ℕ∞) < c.depth := by
        norm_cast
      simp only [verdictAt, hcode, hc, h₀, Bool.true_or, if_true, lt_self_iff_false, and_false,
        if_false]
    · have hc : t.session.targetCodes.contains ctx.frame.code = false := by
        rw [Bool.eq_false_iff]
        exact fun hm => hcode ((h.codes _).mp (List.contains_iff_mem.mp hm))
      have hfar : 0 < d + 1 := pos_of_ne_zero (by simp)
      simp only [hcode, hc, hfar, List.contains_nil, Bool.or_self, Bool.false_eq_true, if_false,
        and_true]
      cases c.overflows with
      | true => rfl
      | false => exact levels_eq hpos d ctx.event
  rw [h.byCode.decide_eq, hverdict, hcount]
  cases hv : settledAt c (nearest codes (ctx.frame :: m.framesAt ids)) ctx.event <;> rfl

end Tracer
end SelectiveTrace
