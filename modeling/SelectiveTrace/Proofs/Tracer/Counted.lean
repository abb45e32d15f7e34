import SelectiveTrace.Proofs.Tracer.Courses
import SelectiveTrace.Proofs.Tracer.Upkeep
import SelectiveTrace.Proofs.Tracer.Written

/-! A limit on the hits of a line. In every activation of a target the first hits of a line are shown,
as many as the limit allows, and none after them; the end of the activation is shown as well. The hits
are counted without bound here; a run makes no count larger than its own length, so that counts of 32
bits do the same in all runs of fewer than `2 ^ 32` operations. -/
namespace SelectiveTrace

/-- Which of `k` hits of a line the limit lets through. -/
def TracerConfig.firstShown (c : TracerConfig) (k : Nat) : List Bool :=
  match c.loopLimit with
  | none | some 0 => List.replicate k true
  | some (t + 1) => List.replicate (min k (t + 1)) true ++ List.replicate (k - (t + 1)) false

theorem TracerConfig.firstShown_succ (c : TracerConfig) (k : Nat) :
    c.firstShown (k + 1) = c.firstShown k ++ [c.hitLimit.all (k < ·)] := by
  unfold firstShown hitLimit
  match c.loopLimit with
  | none => simp [List.replicate_succ']
  | some 0 => simp [List.replicate_succ', Option.filter]
  | some (t + 1) =>
    have hall : ((some (t + 1)).filter (0 < ·)).all (k < ·) = decide (k < t + 1) := by
      simp [Option.filter]
    rw [hall]
    dsimp only
    by_cases hk : k < t + 1
    · have h₁ : min (k + 1) (t + 1) = min k (t + 1) + 1 := by omega
      have h₂ : k + 1 - (t + 1) = 0 := by omega
      have h₃ : k - (t + 1) = 0 := by omega
      simp [h₁, h₂, h₃, hk, List.replicate_succ']
    · have h₁ : min (k + 1) (t + 1) = min k (t + 1) := by omega
      have h₂ : k + 1 - (t + 1) = k - (t + 1) + 1 := by omega
      simp [h₁, h₂, hk, List.replicate_succ']

structure Report where
  ctx : Context
  shown : Bool

namespace Report

def isHit (n : Nat) (r : Report) : Bool :=
  !r.ctx.event.isTerminal && r.ctx.frame.line = n

def shownHits (n : Nat) (rs : List Report) : List Bool :=
  (rs.filter (isHit n)).map shown

/-- A call begins an activation of its frame; what happens to other frames is no part of it. -/
def enrol (id : FrameId) (rs : List Report) (r : Report) : List Report :=
  if r.ctx.frame.id ≠ id then rs else (if r.ctx.event.isCall then [] else rs) ++ [r]

/-- The events of a frame since it was called or resumed the last time. -/
def activation (id : FrameId) (rs : List Report) : List Report :=
  rs.foldl (enrol id) []

def earlier (id : FrameId) (e : Event) (rs : List Report) : List Report :=
  if e.isCall then [] else activation id rs

structure AreLimited (c : TracerConfig) (rs : List Report) : Prop where
  hits : ∀ n, shownHits n rs = c.firstShown (shownHits n rs).length
  ends : ∀ r ∈ rs, r.ctx.event.isTerminal = true → r.shown = true

variable {c : TracerConfig} {rs : List Report} {r : Report}

theorem activation_concat (id : FrameId) (rs : List Report) (r : Report) :
    activation id (rs ++ [r]) = enrol id (activation id rs) r := by
  simp [activation]

theorem activation_of_other {id : FrameId} (h : r.ctx.frame.id ≠ id) :
    activation id (rs ++ [r]) = activation id rs := by
  rw [activation_concat, enrol, if_pos h]

theorem activation_of_own {id : FrameId} (h : r.ctx.frame.id = id) :
    activation id (rs ++ [r]) = earlier id r.ctx.event rs ++ [r] := by
  rw [activation_concat, enrol, if_neg (not_not_intro h), earlier]

theorem areLimited_nil (c : TracerConfig) : AreLimited c [] := by
  refine ⟨fun n => ?_, by simp⟩
  unfold TracerConfig.firstShown
  split <;> simp [shownHits]

theorem shownHits_concat (n : Nat) (rs : List Report) (r : Report) :
    shownHits n (rs ++ [r]) = shownHits n rs ++ if r.isHit n then [r.shown] else [] := by
  by_cases h : r.isHit n = true <;> simp [shownHits, h]

theorem AreLimited.concat (h : AreLimited c rs)
    (shown : r.shown = (r.ctx.event.isTerminal ||
      c.hitLimit.all ((shownHits r.ctx.frame.line rs).length < ·))) : AreLimited c (rs ++ [r]) := by
  refine ⟨fun n => ?_, fun r' hr terminal => ?_⟩
  · rw [shownHits_concat]
    by_cases hn : r.isHit n = true
    · rw [if_pos hn, List.length_append, List.length_singleton, c.firstShown_succ, ← h.hits n]
      simp only [isHit, Bool.and_eq_true, Bool.not_eq_true', decide_eq_true_eq] at hn
      rw [shown, hn.1, hn.2, Bool.false_or]
    · rw [if_neg hn, List.append_nil]
      exact h.hits n
  · rcases List.mem_append.mp hr with hr | hr
    · exact h.ends r' hr terminal
    · rw [List.mem_singleton] at hr
      rw [hr] at terminal ⊢
      rw [shown, terminal, Bool.true_or]

end Report

namespace Session

theorem hits_recordHit_of_ne (s : Session) (id : FrameId) {line n : Nat} (h : n ≠ line) :
    (s.recordHit id line).hits id n = s.hits id n := by
  cases ht : s.lineHits.get? id <;> simp [recordHit, hits, ht, Table.get?_insert_of_ne _ _ h]

theorem hits_recordHit_le (s : Session) (frame id : FrameId) (line n : Nat) :
    (s.recordHit frame line).hits id n ≤ s.hits id n + 1 := by
  by_cases hid : id = frame
  · subst hid
    by_cases hn : n = line
    · subst hn
      rw [hits_recordHit_self]
    · rw [hits_recordHit_of_ne s id hn]
      exact Nat.le_succ _
  · simp [recordHit, hits, Table.get?_insert_of_ne _ _ hid]

theorem hits_erase_le {s s' : Session} {frame : FrameId}
    (erased : s'.lineHits = s.lineHits.erase frame) (id : FrameId) (n : Nat) :
    s'.hits id n ≤ s.hits id n := by
  unfold hits
  rw [erased, Table.get?_erase]
  split
  · exact Nat.zero_le _
  · exact Nat.le_refl _

theorem hits_of_forgotten {s : Session} {id : FrameId} (h : ¬ s.Remembers id) (n : Nat) :
    s.hits id n = 0 := by
  simp only [Remembers, not_or, Bool.not_eq_true] at h
  have hnone : s.lineHits.get? id = none := by simpa [Table.contains] using h.2.2.1
  simp [hits, hnone]

end Session

namespace Tracer
variable {t : Tracer} {ctx : Context}

/-- After `k` hits of its line an event is shown as long as the limit is not reached. Calls come first
in their activation, and ends are no hits. -/
theorem not_countHit {k : Nat}
    (hits : t.config.hitLimit.isSome = true → t.session.hits ctx.frame.id ctx.frame.line = k)
    (first : ctx.event.isCall = true → k = 0) :
    (!(t.countHit ctx).1) = (ctx.event.isTerminal || t.config.hitLimit.all (k < ·)) := by
  unfold countHit
  cases hl : t.config.hitLimit with
  | none => simp
  | some limit =>
    rw [hl] at hits
    have hpositive : 0 < limit := by
      have hf := Option.filter_eq_some_iff.mp hl
      simpa using hf.2
    dsimp only
    rw [hits rfl]
    cases he : ctx.event with
    | call =>
      rw [he] at first
      simp [Event.isTerminal, Event.isLine, first rfl, hpositive]
    | line =>
      simp only [Event.isTerminal, Event.isLine, Bool.false_eq_true, if_false, Bool.true_and,
        Bool.false_or, Option.all_some, ← decide_not, Nat.not_le]
    | ret value | exception raised | discard => simp [Event.isTerminal]

theorem hits_countHit {limit : Nat} (limited : t.config.hitLimit = some limit)
    (running : ctx.event.isTerminal = false) (n : Nat) :
    (t.countHit ctx).2.session.hits ctx.frame.id n =
      t.session.hits ctx.frame.id n + if ctx.frame.line = n then 1 else 0 := by
  unfold countHit
  rw [limited, running]
  by_cases hn : ctx.frame.line = n
  · subst hn
    simp [onSession, Session.hits_recordHit_self]
  · simp [onSession, Session.hits_recordHit_of_ne _ _ (Ne.symm hn), hn]

theorem hits_countHit_le (t : Tracer) (ctx : Context) (id : FrameId) (n : Nat) :
    (t.countHit ctx).2.session.hits id n ≤ t.session.hits id n + 1 := by
  unfold countHit
  split
  · exact Nat.le_succ _
  · split
    · exact Nat.le_succ _
    · exact t.session.hits_recordHit_le ctx.frame.id id ctx.frame.line n

/-- An event adds one hit at most. -/
theorem Course.hits_le {w : Surroundings} {a : Answer} {s : Session} (h : t.Course w ctx a s)
    (id : FrameId) (n : Nat) : s.hits id n ≤ t.session.hits id n + 1 := by
  cases h with
  | dropped discard => exact (Session.hits_erase_le rfl id n).trans (Nat.le_succ _)
  | hidden running verdict => exact Nat.le_succ _
  | passed line verdict => exact hits_countHit_le t ctx id n
  | shown running verdict frames hits timers =>
    refine Nat.le_trans ?_ (hits_countHit_le t ctx id n)
    split at hits
    · exact Session.hits_erase_le hits id n
    · unfold Session.hits
      rw [hits]

theorem isTarget_of_code (target : ctx.frame.code ∈ t.session.targetCodes) :
    t.session.isTarget ctx.frame.code ctx.frame.id = true := by
  unfold Session.isTarget
  simp [target]

/-- Nothing but an end makes a target's hits be forgotten. -/
theorem ByCode.hits_onEvent (ht : t.ByCode) (total : t.renderer.IsTotal) (text : t.graph = none)
    (w : Surroundings) (target : ctx.frame.code ∈ t.session.targetCodes)
    (running : ctx.event.isTerminal = false) :
    (t.onEvent ctx w).2.1.session.hits = (t.countHit ctx).2.session.hits := by
  have live : ctx.event.isDiscard = false := by
    cases he : ctx.event <;> rw [he] at running <;> first | rfl | cases running
  rw [onEvent_of_target ht.observed total text w (isTarget_of_code target) live]
  dsimp only
  split
  · rfl
  · have hended : ∀ u : Tracer, u.ended ctx = u := by
      intro u
      unfold ended
      rw [running]
      rfl
    funext id n
    rw [hended]
    dsimp only [Session.hits]
    rw [session_told]

/-- Whatever happens to a frame, the targets stay and so do the hits of all others. -/
theorem ByCode.keeps_onEvent (ht : t.ByCode) (total : t.renderer.IsTotal) (text : t.graph = none)
    (ctx : Context) (w : Surroundings) :
    Keeps t (t.onEvent ctx w).2.1 ctx.frame.id ∧ (t.onEvent ctx w).2.1.graph = none := by
  cases live : ctx.event.isDiscard with
  | true =>
    have hdrop : t.dropFrame ctx.frame.id =
        t.onSession fun s => (s.evict ctx.frame.id).detach ctx.frame.id := by
      unfold dropFrame onSession
      rw [text]
    have hdetach : (t.session.evict ctx.frame.id).Keeps
        ((t.session.evict ctx.frame.id).detach ctx.frame.id) ctx.frame.id := by
      refine ⟨rfl, ?_, fun _ _ => rfl⟩
      simp [Session.detach, Session.evict, ht.frames]
    have hkeeps : Keeps t (t.onSession fun s => (s.evict ctx.frame.id).detach ctx.frame.id)
        ctx.frame.id := keeps_onSession t ((Session.keeps_evict _ _).trans hdetach)
    rw [onEvent_of_discard live, hdrop]
    exact ⟨hkeeps, text⟩
  | false =>
    obtain ⟨hkeeps, hits, hdecide⟩ := ht.keeps_decide w ctx
    have hgraph : (t.decide w ctx).2.graph = none := by
      rw [hdecide]
      exact text
    have htotal : (t.decide w ctx).2.renderer.IsTotal := hkeeps.renderer ▸ total
    cases hv : (t.decide w ctx).1 with
    | show_ expanded =>
      obtain ⟨x, t', w', -, hr, hk, hg, -⟩ :=
        render_of_text (hkeeps.byCode ht) htotal hgraph w ctx expanded
      rw [onEvent_of_show live hv hr]
      exact ⟨hkeeps.trans hk, hg⟩
    | skip =>
      rw [onEvent_of_skip live hv]
      exact ⟨hkeeps, hgraph⟩
    | ignore =>
      rw [onEvent_of_ignore live hv]
      exact ⟨hkeeps, hgraph⟩
    | overflow =>
      rw [onEvent_of_overflow live hv]
      exact ⟨hkeeps.trans ⟨rfl, rfl, rfl, Session.Keeps.refl _ _⟩, hgraph⟩

end Tracer

namespace Machine

/-- The event of an operation, if it is one of a running frame. What no hook hears is not shown. -/
def report? (m : Machine) (s : Tracer × Surroundings) (op : Op FrameId) : Option Report :=
  if op.applies m then
    (op.event? m).bind fun ev =>
      if ev.2.isDiscard then none
      else ((op.before m).frames.get? ev.1).map fun f =>
        let ctx := (op.before m).context f ev.2
        ⟨ctx, (m.heardBy? op).isSome && (s.1.decide s.2 ctx).1.isShow⟩
  else none

def reports : Machine → Tracer × Surroundings → List (Op FrameId) → List Report
  | _, _, [] => []
  | m, s, op :: ops =>
    let r := m.step Tracer.deliver s op
    (m.report? s op).toList ++ reports r.machine r.state ops

/-- A run keeps to the stack if its first operations do and so do the others after them. -/
theorem disciplined_append {σ : Type} {deliver : Deliver σ}
    (calm : ∀ hook ctx s text, (deliver hook ctx s).1 ≠ .panicked text) {m : Machine} {s : σ}
    {ops more : List (Op FrameId)} :
    m.Disciplined deliver s (ops ++ more) ↔ m.Disciplined deliver s ops ∧
      (m.run deliver s ops).machine.Disciplined deliver (m.run deliver s ops).state more := by
  induction ops generalizing m s with
  | nil => simp [Disciplined, run]
  | cons op ops ih =>
    rw [run_of_calm (panic_step calm m s op)]
    simp only [List.cons_append, Disciplined, ih, and_assoc]

theorem hook_run {σ : Type} {deliver : Deliver σ}
    (calm : ∀ hook ctx s text, (deliver hook ctx s).1 ≠ .panicked text) {m : Machine} {s : σ}
    {ops : List (Op FrameId)} (hd : m.Disciplined deliver s ops) :
    (m.run deliver s ops).machine.hook = m.hook := by
  induction ops generalizing m s with
  | nil => rfl
  | cons op ops ih =>
    rw [run_of_calm (panic_step calm m s op)]
    exact (ih hd.2.2).trans (hook_step hd.2.1)

variable {m : Machine} {s : Tracer × Surroundings} {op : Op FrameId} {f : Frame} {e : Event}
  {rest : List FrameId}

/-- An operation adds one hit at most. -/
theorem hits_step_le (observed : s.1.observed = none) (total : s.1.renderer.IsTotal) (m : Machine)
    (op : Op FrameId) (id : FrameId) (n : Nat) :
    (m.step Tracer.deliver s op).state.1.session.hits id n ≤ s.1.session.hits id n + 1 := by
  rw [state_step]
  cases m.heardBy? op with
  | none => exact Nat.le_succ _
  | some h => exact (Tracer.course_onEvent observed total s.2 h.2).hits_le id n

theorem hits_run_le (observed : s.1.observed = none) (total : s.1.renderer.IsTotal) (m : Machine)
    (ops : List (Op FrameId)) (id : FrameId) (n : Nat) :
    (m.run Tracer.deliver s ops).state.1.session.hits id n ≤
      s.1.session.hits id n + ops.length := by
  induction ops generalizing m s with
  | nil => exact Nat.le_refl _
  | cons op ops ih =>
    obtain ⟨hobserved, hrenderer, -⟩ := mishaps_step m s op
    have hfirst := hits_step_le observed total m op id n
    have hrest := ih (hobserved.trans observed) (hrenderer ▸ total)
      (m.step Tracer.deliver s op).machine
    rw [run_of_calm (panic_step calm_deliver m s op), List.length_cons]
    omega

theorem report?_of_reports (hd : op.IsDisciplined m) (reports : op.Reports m f e rest) :
    m.report? s op = some ⟨(op.before m).context f e, (m.heardBy? op).isSome &&
      (s.1.decide s.2 ((op.before m).context f e)).1.isShow⟩ := by
  unfold report?
  rw [applies_of_disciplined hd, reports.event]
  simp [reports.running, reports.live]

/-- The report of an operation is about the frame of its event. -/
theorem event?_of_report? (linked : m.Linked) (hd : op.IsDisciplined m) {r : Report}
    (reported : m.report? s op = some r) : op.event? m = some (r.ctx.frame.id, r.ctx.event) := by
  cases Op.Telling.of_disciplined linked hd with
  | nothing event =>
    unfold report? at reported
    simp [event] at reported
  | event f e rest reports =>
    rw [report?_of_reports hd reports] at reported
    cases reported
    exact reports.event
  | drop f drops =>
    unfold report? at reported
    simp [drops.event, Event.isDiscard] at reported

end Machine

open Machine

/-- The hits counted for the running targets are those of their activations, and the limit has been kept
in every activation of a target. -/
structure Counted (c : TracerConfig) (codes : List CodeId) (m : Machine) (s : Tracer × Surroundings)
    (past : List Report) : Prop where
  homed : Homed m s []
  observed : s.1.observed = none
  config : s.1.config = c
  targets : ∀ code, code ∈ s.1.session.targetCodes ↔ code ∈ codes
  total : s.1.renderer.IsTotal
  text : s.1.graph = none
  /-- The activation of a running frame is its own, and its hits are counted. -/
  running : ∀ id ∈ m.stack, ∀ f, m.standing id = some f →
    (∀ r ∈ Report.activation id past, r.ctx.frame.code = f.code) ∧
      (f.code ∈ codes → c.hitLimit.isSome = true → ∀ n,
        s.1.session.hits id n = (Report.shownHits n (Report.activation id past)).length)
  limited : ∀ id, (∃ r ∈ Report.activation id past, r.ctx.frame.code ∈ codes) →
    Report.AreLimited c (Report.activation id past)

namespace Counted
variable {c : TracerConfig} {codes : List CodeId} {m : Machine} {s : Tracer × Surroundings}
  {past : List Report} {op : Op FrameId} {hook : HookName} {f : Frame} {e : Event}
  {rest : List FrameId}

theorem byCode (h : Counted c codes m s past) : s.1.ByCode :=
  ⟨h.observed, h.homed.unentered.frames h.observed⟩

/-- Every event of a target is heard. -/
theorem hears_of_code (h : Counted c codes m s past) (reports : op.Reports m f e rest)
    (target : f.code ∈ codes) : (op.before m).hears f.id e = true := by
  cases hu : (op.before m).hears f.id e with
  | true => rfl
  | false =>
    obtain ⟨hcall, hmem⟩ := mem_untraced_of_unheard hu
    have dark := (h.homed.known reports hcall).2 hmem
    have hin : f.code ∈ s.1.session.targetCodes := (h.targets f.code).mpr target
    simp [Tracer.traces, Session.isTarget, hin] at dark

/-- The event of a target, and what the tracer makes of it. -/
theorem state_step (h : Counted c codes m s past) (hk : m.hook = some hook)
    (hd : op.IsDisciplined m) (keeps : op.KeepsHook m) (reports : op.Reports m f e rest)
    (target : f.code ∈ codes) :
    let ctx := (op.before m).context f e
    m.report? s op = some ⟨ctx, !(s.1.countHit ctx).1⟩ ∧
      (m.step Tracer.deliver s op).state = (s.1.onEvent ctx s.2).2 := by
  intro ctx
  have hin : ctx.frame.code ∈ s.1.session.targetCodes := (h.targets f.code).mpr target
  have heard := heardBy?_of_event hd (keeps.trans hk) reports.event reports.live
    (h.hears_of_code reports target)
  refine ⟨?_, ?_⟩
  · rw [report?_of_reports hd reports, heard,
      Tracer.decide_of_target h.observed s.2 (Tracer.isTarget_of_code hin)]
    cases (s.1.countHit ctx).1 <;> rfl
  · rw [Machine.state_step, heard]
    rfl

/-- A frame that runs without an event of its own. -/
theorem running_of_other (h : Counted c codes m s past) (hk : m.hook = some hook)
    (hd : op.IsDisciplined m) (keeps : op.KeepsHook m) {id : FrameId}
    (hne : ∀ e, op.event? m ≠ some (id, e))
    (hid : id ∈ (m.step Tracer.deliver s op).machine.stack) (g : Frame)
    (hg : (m.step Tracer.deliver s op).machine.standing id = some g) :
    (∀ r ∈ Report.activation id past, r.ctx.frame.code = g.code) ∧
      (g.code ∈ codes → c.hitLimit.isSome = true → ∀ n,
        (m.step Tracer.deliver s op).state.1.session.hits id n =
          (Report.shownHits n (Report.activation id past)).length) := by
  have hold : id ∈ m.stack :=
    h.homed.linked.mem_stack_step (panic_step calm_deliver m s op) hd hne hid
  have hhits : (m.step Tracer.deliver s op).state.1.session.lineHits.get? id =
      s.1.session.lineHits.get? id := by
    cases h.homed.deed hk hd keeps with
    | quiet same => rw [same]
    | told f e rest a reports off acts after stands handles =>
      have hid' : id ≠ f.id := fun he => hne e (he ▸ reports.event)
      exact handles.touches.hits id hid'
    | dropped id' acts off stack carries =>
      exact carries.touches.hits id fun he => off (he ▸ hold)
  rw [(spares_step hne).standing] at hg
  have hrun := h.running id hold g hg
  refine ⟨hrun.1, fun target limited n => ?_⟩
  rw [← hrun.2 target limited n]
  unfold Session.hits
  rw [hhits]

/-- The activation that an event belongs to, before it: a call begins a new one. -/
theorem before_event (h : Counted c codes m s past) (reports : op.Reports m f e rest)
    (off : f.id ∉ rest) :
    (∀ r ∈ Report.earlier f.id e past, r.ctx.frame.code = f.code) ∧
      (f.code ∈ codes → Report.AreLimited c (Report.earlier f.id e past) ∧
        (c.hitLimit.isSome = true → ∀ n,
          s.1.session.hits f.id n = (Report.shownHits n (Report.earlier f.id e past)).length)) := by
  unfold Report.earlier
  rcases reports.was with ⟨hs, hcall⟩ | ⟨hs, hcall, f₀, hf₀, code, -⟩
  · rw [hcall]
    refine ⟨by simp, fun _ => ⟨Report.areLimited_nil c, fun _ n => ?_⟩⟩
    -- nothing is kept for a frame that did not run before
    refine Session.hits_of_forgotten (fun hr => ?_) n
    obtain ⟨x, hx, -⟩ := h.homed.endOf_of_off (hs ▸ off) (Or.inl hr)
    cases hx
  · rw [hcall]
    have hrun := h.running f.id (hs ▸ List.mem_cons_self) f₀ hf₀
    rw [code] at hrun
    refine ⟨hrun.1, fun target => ⟨?_, hrun.2 target⟩⟩
    cases hold : Report.activation f.id past with
    | nil => exact Report.areLimited_nil c
    | cons r rs =>
      have hr : r ∈ Report.activation f.id past := hold ▸ List.mem_cons_self
      have hlimited := h.limited f.id ⟨r, hr, hrun.1 r hr ▸ target⟩
      rw [hold] at hlimited
      exact hlimited

/-- The event of a target keeps to the limit, and its hit is counted. -/
theorem limited_event (h : Counted c codes m s past) (hk : m.hook = some hook)
    (hd : op.IsDisciplined m) (keeps : op.KeepsHook m) (reports : op.Reports m f e rest)
    (target : f.code ∈ codes) :
    ∃ r : Report, m.report? s op = some r ∧ r.ctx = (op.before m).context f e ∧
      Report.AreLimited c (Report.earlier f.id e past ++ [r]) ∧
      (e.isTerminal = false → c.hitLimit.isSome = true → ∀ n,
        (m.step Tracer.deliver s op).state.1.session.hits f.id n =
          (Report.shownHits n (Report.earlier f.id e past ++ [r])).length) := by
  have off := reports.off h.homed.linked hd
  obtain ⟨hreport, hstate⟩ := h.state_step hk hd keeps reports target
  obtain ⟨hlimited, hcount⟩ := (h.before_event reports off).2 target
  refine ⟨_, hreport, rfl, hlimited.concat ?_, fun running some n => ?_⟩
  · rw [← h.config]
    refine Tracer.not_countHit (fun some => hcount (h.config ▸ some) f.line) fun hcall => ?_
    unfold Report.earlier
    rw [show e.isCall = true from hcall]
    rfl
  · obtain ⟨limit, hlimit⟩ := Option.isSome_iff_exists.mp some
    have hin : f.code ∈ s.1.session.targetCodes := (h.targets f.code).mpr target
    rw [hstate, h.byCode.hits_onEvent h.total h.text s.2 hin running]
    refine (Tracer.hits_countHit (h.config ▸ hlimit) running n).trans ?_
    rw [Report.shownHits_concat, List.length_append, ← hcount some n]
    unfold Report.isHit
    rw [show ((op.before m).context f e).event.isTerminal = false from running]
    simp only [Bool.not_false, Bool.true_and, decide_eq_true_eq]
    split <;> rfl

/-- The activation that an event belongs to, with that event. -/
theorem activation_of_event (h : Counted c codes m s past) (hk : m.hook = some hook)
    (hd : op.IsDisciplined m) (keeps : op.KeepsHook m) (reports : op.Reports m f e rest) :
    let new := Report.activation f.id (past ++ (m.report? s op).toList)
    (∀ r ∈ new, r.ctx.frame.code = f.code) ∧ (f.code ∈ codes → Report.AreLimited c new ∧
      (e.isTerminal = false → c.hitLimit.isSome = true → ∀ n,
        (m.step Tracer.deliver s op).state.1.session.hits f.id n =
          (Report.shownHits n new).length)) := by
  have hold := h.before_event reports (reports.off h.homed.linked hd)
  have hreport := report?_of_reports (s := s) hd reports
  have hnew : ∀ r : Report, m.report? s op = some r → r.ctx = (op.before m).context f e →
      Report.activation f.id (past ++ (m.report? s op).toList) =
        Report.earlier f.id e past ++ [r] := by
    intro r hr hctx
    have hid : r.ctx.frame.id = f.id := by rw [hctx]; rfl
    have he : r.ctx.event = e := by rw [hctx]; rfl
    rw [hr, Option.toList_some, Report.activation_of_own hid, he]
  refine ⟨?_, fun target => ?_⟩
  · rw [hnew _ hreport rfl]
    intro r hr
    rcases List.mem_append.mp hr with hr | hr
    · exact hold.1 r hr
    · rw [List.mem_singleton.mp hr]
      rfl
  · obtain ⟨r, hr, hctx, hlimited, hhits⟩ := h.limited_event hk hd keeps reports target
    rw [hnew r hr hctx]
    exact ⟨hlimited, hhits⟩

/-- What an operation leaves of the tracer. -/
theorem stays (h : Counted c codes m s past) (op : Op FrameId) :
    let t' := (m.step Tracer.deliver s op).state.1
    t'.config = c ∧ t'.observed = none ∧ t'.renderer.IsTotal ∧
      (∀ code, code ∈ t'.session.targetCodes ↔ code ∈ codes) ∧ t'.graph = none := by
  rw [Machine.state_step]
  cases m.heardBy? op with
  | none => exact ⟨h.config, h.observed, h.total, h.targets, h.text⟩
  | some heard =>
    obtain ⟨hkeeps, hgraph⟩ := h.byCode.keeps_onEvent h.total h.text heard.2 s.2
    exact ⟨hkeeps.config.trans h.config, hkeeps.observed.trans h.observed,
      hkeeps.renderer ▸ h.total, hkeeps.session.codes ▸ h.targets, hgraph⟩

/-- A frame without an event of its own keeps its activation. -/
theorem activation_of_quiet (h : Counted c codes m s past) (hd : op.IsDisciplined m) {id : FrameId}
    (quiet : (∀ e, op.event? m ≠ some (id, e)) ∨ m.report? s op = none) :
    Report.activation id (past ++ (m.report? s op).toList) = Report.activation id past := by
  cases hr : m.report? s op with
  | none => simp
  | some r =>
    rcases quiet with hne | hnone
    · have hev := event?_of_report? h.homed.linked hd hr
      exact Report.activation_of_other fun he => hne _ (he ▸ hev)
    · rw [hr] at hnone
      cases hnone

/-- After one operation the hits of the frames that run are those of their activations. -/
theorem running_step (h : Counted c codes m s past) (hk : m.hook = some hook)
    (hd : op.IsDisciplined m) (keeps : op.KeepsHook m) {id : FrameId}
    (hid : id ∈ (m.step Tracer.deliver s op).machine.stack) {g : Frame}
    (hg : (m.step Tracer.deliver s op).machine.standing id = some g) :
    let new := Report.activation id (past ++ (m.report? s op).toList)
    (∀ r ∈ new, r.ctx.frame.code = g.code) ∧ (g.code ∈ codes → c.hitLimit.isSome = true → ∀ n,
      (m.step Tracer.deliver s op).state.1.session.hits id n = (Report.shownHits n new).length) := by
  have linked := h.homed.linked
  by_cases hne : ∀ e, op.event? m ≠ some (id, e)
  · rw [h.activation_of_quiet hd (Or.inl hne)]
    exact h.running_of_other hk hd keeps hne hid g hg
  · simp only [ne_eq, not_forall, not_not] at hne
    obtain ⟨e', event⟩ := hne
    cases Op.Telling.of_disciplined linked hd with
    | nothing event' => simp [event] at event'
    | event f e rest reports =>
      obtain ⟨rfl, rfl⟩ := Prod.mk.inj (Option.some.inj (event.symm.trans reports.event))
      obtain ⟨a, ha⟩ :=
        machine_step_of_event (panic_step calm_deliver m s op) hd reports.event
      have hstack : ((op.before m).heed f.id e' a).stack = f.id :: rest :=
        (stack_heed _ _ _ _).trans reports.stack
      rw [ha] at hid hg
      cases terminal : e'.isTerminal with
      | true =>
        rw [reports.stack_after hstack, terminal] at hid
        exact absurd hid (reports.off linked hd)
      | false =>
        rw [reports.stays terminal, standing_heed reports.live] at hg
        cases hg
        obtain ⟨hcodes, hlimited⟩ := h.activation_of_event hk hd keeps reports
        exact ⟨hcodes, fun target => (hlimited target).2 terminal⟩
    | drop f drops =>
      obtain ⟨rfl, rfl⟩ := Prod.mk.inj (Option.some.inj (event.symm.trans drops.event))
      obtain ⟨a, ha⟩ := machine_step_of_event (panic_step calm_deliver m s op) hd drops.event
      rw [ha, drops.after, stack_heed, drops.stack] at hid
      exact absurd hid drops.off

/-- After one operation the activations of targets keep to the limit. -/
theorem limited_step (h : Counted c codes m s past) (hk : m.hook = some hook)
    (hd : op.IsDisciplined m) (keeps : op.KeepsHook m) {id : FrameId}
    (hid : ∃ r ∈ Report.activation id (past ++ (m.report? s op).toList),
      r.ctx.frame.code ∈ codes) :
    Report.AreLimited c (Report.activation id (past ++ (m.report? s op).toList)) := by
  by_cases hne : (∀ e, op.event? m ≠ some (id, e)) ∨ m.report? s op = none
  · rw [h.activation_of_quiet hd hne] at hid ⊢
    exact h.limited id hid
  · simp only [ne_eq, not_or, not_forall, not_not] at hne
    obtain ⟨⟨e', event⟩, hsome⟩ := hne
    cases Op.Telling.of_disciplined h.homed.linked hd with
    | nothing event' => simp [event] at event'
    | event f e rest reports =>
      obtain ⟨rfl, rfl⟩ := Prod.mk.inj (Option.some.inj (event.symm.trans reports.event))
      obtain ⟨hcodes, hlimited⟩ := h.activation_of_event hk hd keeps reports
      obtain ⟨r, hr, target⟩ := hid
      exact (hlimited (hcodes r hr ▸ target)).1
    | drop f drops =>
      refine absurd ?_ hsome
      unfold report?
      simp [drops.event, Event.isDiscard]

/-- One operation. -/
theorem step (h : Counted c codes m s past) (hk : m.hook = some hook) (hd : op.IsDisciplined m)
    (keeps : op.KeepsHook m) :
    Counted c codes (m.step Tracer.deliver s op).machine (m.step Tracer.deliver s op).state
      (past ++ (m.report? s op).toList) := by
  have hhomed :
      Homed (m.step Tracer.deliver s op).machine (m.step Tracer.deliver s op).state [] :=
    h.homed.step_of_isTotal h.total hk hd keeps
  obtain ⟨config, observed, total, targets, text⟩ := h.stays op
  exact ⟨hhomed, observed, config, targets, total, text,
    fun _ hid _ hg => h.running_step hk hd keeps hid hg, fun _ => h.limited_step hk hd keeps⟩

/-- A whole run. -/
theorem run (h : Counted c codes m s past) (hk : m.hook = some hook) {ops : List (Op FrameId)}
    (hd : m.Disciplined Tracer.deliver s ops) :
    Counted c codes (m.run Tracer.deliver s ops).machine (m.run Tracer.deliver s ops).state
      (past ++ m.reports s ops) := by
  induction ops generalizing m s past with
  | nil => simpa [Machine.run, Machine.reports] using h
  | cons op ops ih =>
    obtain ⟨hop, keeps, hrest⟩ := hd
    rw [run_of_calm (panic_step calm_deliver m s op), Machine.reports, ← List.append_assoc]
    exact ih (h.step hk hop keeps) ((hook_step keeps).trans hk) hrest

/-- What the report of a target says is what is written: the lines of the event, or nothing. -/
theorem written (h : Counted c codes m s past) (hk : m.hook = some hook) (hd : op.IsDisciplined m)
    (keeps : op.KeepsHook m) {r : Report} (reported : m.report? s op = some r)
    (target : r.ctx.frame.code ∈ codes) :
    let u := (s.1.decide s.2 r.ctx).2
    let s' := (m.step Tracer.deliver s op).state
    (s'.1.sink, s'.2) = if r.shown then u.feed s.2 (u.eventText s.2 r.ctx false ++
      u.resultLines r.ctx (Tracer.indentation (u.level r.ctx)) (u.outcome r.ctx))
      else (s.1.sink, s.2) := by
  intro u s'
  have hevent := event?_of_report? h.homed.linked hd reported
  cases Op.Telling.of_disciplined h.homed.linked hd with
  | nothing event => simp [event] at hevent
  | event f e rest reports =>
    have hctx : r.ctx = (op.before m).context f e := by
      rw [report?_of_reports hd reports] at reported
      cases reported
      rfl
    rw [hctx] at target
    obtain ⟨hreport, hstate⟩ := h.state_step hk hd keeps reports target
    have hin : ((op.before m).context f e).frame.code ∈ s.1.session.targetCodes :=
      (h.targets f.code).mpr target
    have hu : u = (s.1.countHit r.ctx).2 := by
      unfold u
      rw [hctx, Tracer.decide_of_target h.observed s.2 (Tracer.isTarget_of_code hin)]
    rw [hreport] at reported
    obtain rfl := Option.some.inj reported
    have hs' : s' = _ := hstate.trans (congrArg Prod.snd
      (Tracer.onEvent_of_target h.observed h.total h.text s.2
        (Tracer.isTarget_of_code hin) reports.running))
    rw [hs', hu]
    cases (s.1.countHit ((op.before m).context f e)).1 with
    | true =>
      have hsink : (s.1.countHit ((op.before m).context f e)).2.sink = s.1.sink := by
        rw [Tracer.countHit_eq]
        rfl
      exact Prod.ext hsink rfl
    | false => rfl
  | drop f drops =>
    unfold report? at reported
    simp [drops.event, Event.isDiscard] at reported

end Counted

/-- Before anything has run nothing has been counted. -/
theorem Tracer.IsOutfit.counted {t : Tracer} {c : TracerConfig} {codes : List CodeId}
    {custom : List CustomFormat} {sink : Sink} (h : t.IsOutfit c codes custom sink)
    (hnew : t.IsNew custom) (formats : ∀ f ∈ custom, ∀ v, ∃ text, f.format v = .ok text)
    (text : c.callGraph = none) {m : Machine} (fresh : m.IsFresh) (w : Surroundings) :
    Counted c codes m (t, w) [] := by
  refine ⟨hnew.homed fresh w, h.observed, h.config, h.codes, hnew.isTotal formats, ?_, ?_, ?_⟩
  · rw [h.graph, text]
    rfl
  · intro id hid
    rw [fresh.stack] at hid
    cases hid
  · rintro id ⟨r, hr, -⟩
    cases hr

/-- The lines have one that tells of the event: the word for it behind some lead, the number of a line
and its source. But for a call, which may show the definition behind a decorator, it is the line that
the frame is on. -/
def Context.IsToldIn (ctx : Context) (lines : List String) : Prop :=
  (ctx.event = .call → ∃ (lead : String) (number : Nat) (source : String),
    lead ++ "call      " ++ Text.padLeft 4 ' ' (toString number) ++ " " ++ source ∈ lines) ∧
  (ctx.event = .line → ∃ lead source : String,
    lead ++ "line      " ++ Text.padLeft 4 ' ' (toString ctx.frame.line) ++ " " ++ source ∈ lines)

theorem Tracer.exists_mem_eventText {ctx : Context} (whole : ctx.isBrokenOff = false) (t : Tracer)
    (w : Surroundings) (expanded : Bool) :
    ∃ lead source, lead ++ (Text.padRight 9 ctx.event.name ++ " ") ++
      Text.padLeft 4 ' ' (toString (t.sourceLine w ctx expanded).1.2) ++ " " ++ source ∈
        t.eventText w ctx expanded := by
  refine ⟨indentation (t.level ctx) ++ (t.threadInfo ctx.frame.thread).1,
    (t.sourceLine w ctx expanded).1.1, List.mem_append_right _ ?_⟩
  unfold eventLines
  rw [whole, ← String.append_assoc]
  exact List.mem_append_left _ List.mem_cons_self

theorem Tracer.isToldIn_eventText (t : Tracer) (w : Surroundings) (ctx : Context) (expanded : Bool) :
    ctx.IsToldIn (t.eventText w ctx expanded) := by
  refine ⟨fun he => ?_, fun he => ?_⟩
  · have whole : ctx.isBrokenOff = false := by rw [Context.isBrokenOff, he]
    obtain ⟨lead, source, hmem⟩ := exists_mem_eventText whole t w expanded
    rw [he] at hmem
    exact ⟨lead, _, source, hmem⟩
  · have whole : ctx.isBrokenOff = false := by rw [Context.isBrokenOff, he]
    obtain ⟨lead, source, hmem⟩ := exists_mem_eventText whole t w expanded
    have hnumber : (t.sourceLine w ctx expanded).1.2 = ctx.frame.line := by
      simp [sourceLine, SourceCache.shown, SourceCache.behind, he, Event.isCall]
    rw [he, hnumber] at hmem
    exact ⟨lead, source, hmem⟩

/-- A tracer of target codes that writes text, on a new machine, through a run that keeps to the stack.
In every activation of a target the hits of each line are shown up to the limit and not beyond, and its
end is shown; what is shown is what is written, and a call or a line that is shown has its line among
it. No count exceeds the number of operations, so counts of 32 bits never overflow in fewer than
`2 ^ 32` of them. -/
theorem first_hits_shown_in_every_activation {c : TracerConfig} {disk : Disk} {codes : List CodeId}
    {custom : List CustomFormat} {sources : SourceCache} {sink : Sink} {t : Tracer}
    {w : Surroundings} {m : Machine} {hook : HookName} {ops : List (Op FrameId)}
    (setup : Tracer.outfit c disk codes custom sources sink = .ok t) (region : c.observed = none)
    (text : c.callGraph = none) (formats : ∀ f ∈ custom, ∀ v, ∃ text, f.format v = .ok text)
    (fresh : m.IsFresh) (installed : m.hook = some hook)
    (disciplined : m.Disciplined Tracer.deliver (t, w) ops) :
    (∀ done, done <+: ops → ∀ id,
      let activation := Report.activation id (m.reports (t, w) done)
      (∃ r ∈ activation, r.ctx.frame.code ∈ codes) →
        (∀ n, Report.shownHits n activation =
          c.firstShown (Report.shownHits n activation).length) ∧
        ∀ r ∈ activation, r.ctx.event.isTerminal = true → r.shown = true) ∧
    (∀ done op, done ++ [op] <+: ops →
      let x := m.run Tracer.deliver (t, w) done
      ∀ r, x.machine.report? x.state op = some r → r.ctx.frame.code ∈ codes →
        let u := (x.state.1.decide x.state.2 r.ctx).2
        let s' := (x.machine.step Tracer.deliver x.state op).state
        r.ctx.IsToldIn (u.eventText x.state.2 r.ctx false) ∧
        (s'.1.sink, s'.2) = if r.shown then u.feed x.state.2 (u.eventText x.state.2 r.ctx false ++
            u.resultLines r.ctx (Tracer.indentation (u.level r.ctx)) (u.outcome r.ctx))
          else (x.state.1.sink, x.state.2)) ∧
    ∀ done, done <+: ops → ∀ id n,
      (m.run Tracer.deliver (t, w) done).state.1.session.hits id n ≤ done.length := by
  have hnew := Tracer.isNew_of_outfit setup
  have hstart := (Tracer.isOutfit_of_outfit setup region).counted hnew formats text fresh w
  refine ⟨?_, ?_, fun done _ id n => ?_⟩
  · rintro done ⟨later, rfl⟩ id activation target
    obtain ⟨hdone, -⟩ := (disciplined_append calm_deliver).mp disciplined
    have hlimited := (hstart.run installed hdone).limited id target
    exact ⟨hlimited.hits, hlimited.ends⟩
  · rintro done op ⟨later, rfl⟩ x r reported target
    obtain ⟨hdone, -⟩ := (disciplined_append calm_deliver).mp disciplined
    obtain ⟨hbefore, hop, keeps, -⟩ := (disciplined_append calm_deliver).mp hdone
    have hinstalled := (hook_run calm_deliver hbefore).trans installed
    exact ⟨Tracer.isToldIn_eventText _ _ _ _,
      (hstart.run installed hbefore).written hinstalled hop keeps reported target⟩
  · have hzero : t.session.hits id n = 0 := by
      rw [hnew.session]
      rfl
    have hle := Machine.hits_run_le (s := (t, w)) hstart.observed hstart.total m done id n
    rwa [hzero, Nat.zero_add] at hle

def recursiveGenerator : List (Op FrameId) :=
  let steps : Code := ⟨"steps", ⟨"/p.py"⟩, 1⟩
  [.call steps [], .line ⟨0, 0⟩ 2, .line ⟨0, 0⟩ 2, .call steps [], .line ⟨0, 1⟩ 2,
    .unwind ⟨0, 1⟩, .line ⟨0, 0⟩ 2, .yieldValue ⟨0, 0⟩ (.int 7), .resume ⟨0, 0⟩,
    .line ⟨0, 0⟩ 2, .line ⟨0, 0⟩ 3, .ret ⟨0, 0⟩ .none]

theorem first_hits_shown_in_every_activation_of_generator :
    let c : TracerConfig := { loopLimit := some 2 }
    let codes : List CodeId := [⟨"/p.py", "steps", 1⟩]
    let t : Tracer :=
      { config := c, session := { targetCodes := codes }, renderer := { maxLength := some 100 }
        sink := .lines [] }
    let m : Machine := { hook := some "trace" }
    Tracer.outfit c {} codes [] {} (.lines []) = .ok t ∧ m.IsFresh ∧
      m.Disciplined Tracer.deliver (t, {}) recursiveGenerator ∧
      ∀ id, let activation := Report.activation id (m.reports (t, {}) (recursiveGenerator.take 8))
        (∃ r ∈ activation, r.ctx.frame.code ∈ codes) →
          (∀ n, Report.shownHits n activation =
            c.firstShown (Report.shownHits n activation).length) ∧
          ∀ r ∈ activation, r.ctx.event.isTerminal = true → r.shown = true := by
  intro c codes t m
  have setup : Tracer.outfit c {} codes [] {} (.lines []) = .ok t := rfl
  have fresh : m.IsFresh := ⟨rfl, rfl, rfl, rfl⟩
  have disciplined : m.Disciplined Tracer.deliver (t, {}) recursiveGenerator := by decide +kernel
  refine ⟨setup, fresh, disciplined, ?_⟩
  refine (first_hits_shown_in_every_activation setup rfl rfl ?_ fresh rfl disciplined).1 _
    (List.take_prefix 8 recursiveGenerator)
  intro f hf
  cases hf

/-- Before it is suspended the last of three hits is passed over; afterwards the resumption itself is the
first of two. -/
example :
    let t : Tracer :=
      { config := { loopLimit := some 2 }, session := { targetCodes := [⟨"/p.py", "steps", 1⟩] }
        sink := .lines [] }
    let hits := fun k n => Report.shownHits n (Report.activation ⟨0, 0⟩
      (Machine.reports { hook := some "trace" } (t, {}) (recursiveGenerator.take k)))
    hits 8 2 = [true, true, false] ∧ hits 8 1 = [true] ∧ hits 12 2 = [true, true] := by
  decide +kernel

end SelectiveTrace
