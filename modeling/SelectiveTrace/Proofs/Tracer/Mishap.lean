import SelectiveTrace.Proofs.Tracer.Upkeep

/-! Renderers that fail. The failure of a call or of a line leaves nothing behind but a fault, and so
does an event whose levels cannot be counted. An end that fails while it is shown does: the thread stays
a level too deep for good, and what is kept for the frame may stay. -/
namespace SelectiveTrace

theorem Failure.not_endOf {failures : List Failure} (h : ends failures = 0) (id : FrameId) :
    ¬ EndOf failures id := by
  rintro ⟨x, hx, shown, -, hterm⟩
  exact List.countP_eq_zero.mp h x hx (by rw [shown, hterm]; rfl)

namespace Tracer
variable {t t' : Tracer} {w w' : Surroundings} {id : FrameId}

def tracedAmong (t : Tracer) (w : Surroundings) : List Frame → Nat
  | [] => 0
  | f :: below => (if t.traces w f below then 1 else 0) + t.tracedAmong w below

theorem Minds.tracedAmong (h : Minds t w t' w' id) {frames : List Frame}
    (off : ∀ f ∈ frames, f.id ≠ id) : t'.tracedAmong w' frames = t.tracedAmong w frames := by
  induction frames with
  | nil => rfl
  | cons f below ih =>
    have hbelow : ∀ g ∈ below, g.id ≠ id := fun g hg => off g (List.mem_cons_of_mem _ hg)
    rw [Tracer.tracedAmong, Tracer.tracedAmong, h.traces (off f List.mem_cons_self) hbelow,
      ih hbelow]

end Tracer

/-- The depth of the thread tells the frames that run and are traced, and beyond them the ends that
failed. -/
structure Leveled (m : Machine) (s : Tracer × Surroundings) (failures : List Failure) : Prop
    extends Homed m s failures where
  region : s.1.observed = none
  depth : s.1.session.depth m.thread.id =
    -1 + s.1.tracedAmong s.2 (m.framesAt m.stack) + Failure.ends failures

namespace Leveled
open Machine
variable {m m' : Machine} {s s' : Tracer × Surroundings} {fs : List Failure} {op : Op FrameId}
  {hook : HookName}

section reports
variable {f : Frame} {e : Event} {rest : List FrameId}

/-- The frames that are traced before an event. A frame that is called does not count yet. -/
theorem tracedAmong_before (h : Leveled m s fs) (reports : op.Reports m f e rest) :
    s.1.tracedAmong s.2 (m.framesAt m.stack) =
      (if e.isCall then 0 else if s.1.traces s.2 f (m.framesAt rest) then 1 else 0) +
        s.1.tracedAmong s.2 (m.framesAt rest) := by
  rcases reports.was with ⟨hs, hcall⟩ | ⟨hs, hcall, f₀, hf₀, code, -⟩
  · simp [hs, hcall]
  · have hid : f₀.id = f.id := (h.linked.known _ _ hf₀).1
    rw [hs, framesAt_cons hf₀, Tracer.tracedAmong, Tracer.traces_of_code code hid]
    simp [hcall]

/-- The frames that are traced after it. A frame that ends counts no more. -/
theorem tracedAmong_after (h : Leveled m s fs) (off : f.id ∉ rest) (acts : m.Acts m' f.id)
    (after : m'.stack = if e.isTerminal then rest else f.id :: rest)
    (stands : e.isTerminal = false → m'.standing f.id = some f.place)
    (carries : Tracer.Carries s.1 s.2 s'.1 s'.2 f.id) :
    s'.1.tracedAmong s'.2 (m'.framesAt m'.stack) =
      (if e.isTerminal then 0 else if s.1.traces s.2 f (m.framesAt rest) then 1 else 0) +
        s.1.tracedAmong s.2 (m.framesAt rest) := by
  have hoff := h.linked.framesAt_ne off
  have hframes := acts.framesAt_eq off
  have hrest := carries.minds.tracedAmong hoff
  have htraces := carries.traces (carries.frames h.region) f hoff
  cases terminal : e.isTerminal with
  | true => simp [after, terminal, hframes, hrest]
  | false =>
    have hplace : s'.1.traces s'.2 f.place (m.framesAt rest) =
        s'.1.traces s'.2 f (m.framesAt rest) := rfl
    simp only [after, terminal, Bool.false_eq_true, if_false, framesAt_cons (stands terminal),
      Tracer.tracedAmong, hframes, hplace, htraces, hrest]

/-- The depth after the event of the frame on top of `rest`. -/
theorem depth_told (h : Leveled m s fs) (hd : op.IsDisciplined m) {a : Answer}
    (reports : op.Reports m f e rest) (acts : m.Acts m' f.id)
    (after : m'.stack = if e.isTerminal then rest else f.id :: rest)
    (stands : e.isTerminal = false → m'.standing f.id = some f.place)
    (handles : s.1.Handles s.2 ((op.before m).context f e) (m.framesAt rest) a s'.1 s'.2)
    {more : List Failure}
    (failures : Failure.ends more =
      if e.isTerminal && (s.1.failure? s.2 ((op.before m).context f e)).isSome then 1 else 0) :
    s'.1.session.depth m.thread.id =
      -1 + s'.1.tracedAmong s'.2 (m'.framesAt m'.stack) + Failure.ends (fs ++ more) := by
  have off := reports.off h.linked hd
  have hshift : s'.1.session.depth m.thread.id = s.1.session.depth m.thread.id +
      if s.1.traces s.2 f (m.framesAt rest) then (if e.isCall then 1 else 0) -
        if e.isTerminal && (s.1.failure? s.2 ((op.before m).context f e)).isNone then 1 else 0
      else 0 := by
    rw [← reports.thread h.linked hd]
    exact handles.depth h.region
  have hblind : s.1.traces s.2 f (m.framesAt rest) = false →
      s.1.failure? s.2 ((op.before m).context f e) = none :=
    fun dark => (handles.blind h.region dark).2.2.1
  rw [hshift, h.depth, h.tracedAmong_before reports,
    h.tracedAmong_after off acts after stands handles.toCarries, Failure.ends_append, failures]
  generalize s.1.tracedAmong s.2 (m.framesAt rest) = n
  -- what is left is arithmetic: a call adds one on both sides, an end takes one away or has failed
  cases lit : s.1.traces s.2 f (m.framesAt rest) with
  | false => simp [hblind lit]
  | true =>
    cases hc : e.isCall with
    | true =>
      have hterm : e.isTerminal = false := by
        cases e <;> simp_all [Event.isCall, Event.isTerminal]
      simp [hterm]
      omega
    | false =>
      cases hterm : e.isTerminal <;> cases s.1.failure? s.2 ((op.before m).context f e) <;>
        simp <;> omega

end reports

/-- One operation. -/
theorem step (h : Leveled m s fs) (hk : m.hook = some hook) (hd : op.IsDisciplined m)
    (keeps : op.KeepsHook m) :
    Leveled (m.step Tracer.deliver s op).machine (m.step Tracer.deliver s op).state
      (fs ++ m.failuresBy s op) := by
  have hthread : (m.step Tracer.deliver s op).machine.thread = m.thread := thread_step
  refine ⟨h.toHomed.step hk hd keeps, (mishaps_step m s op).1.trans h.region, ?_⟩
  have hdeed := h.deed hk hd keeps
  rw [hthread]
  generalize (m.step Tracer.deliver s op).machine = m' at hdeed ⊢
  generalize (m.step Tracer.deliver s op).state = s' at hdeed ⊢
  cases hdeed with
  | quiet same silent stack linked spares =>
    have hframes : m'.framesAt m.stack = m.framesAt m.stack :=
      framesAt_congr fun j _ => (spares j).standing
    rw [same, silent, List.append_nil, stack, hframes]
    exact h.depth
  | dropped id acts off stack carries _ depths silent =>
    rw [silent, List.append_nil, stack, acts.framesAt_eq off,
      carries.minds.tracedAmong (h.linked.framesAt_ne off), ← h.depth]
    simp only [Session.depth, depths]
  | told f e rest a reports _ acts after stands handles failures _ _ =>
    exact h.depth_told hd reports acts after stands handles (failures h.region)

/-- A whole run. -/
theorem run (h : Leveled m s fs) (hk : m.hook = some hook) {ops : List (Op FrameId)}
    (hd : m.Disciplined Tracer.deliver s ops) :
    Leveled (m.run Tracer.deliver s ops).machine (m.run Tracer.deliver s ops).state
        (fs ++ m.failures s ops) ∧
      (m.run Tracer.deliver s ops).machine.thread = m.thread := by
  induction ops generalizing m s fs with
  | nil => exact ⟨by simpa [Machine.run, failures] using h, rfl⟩
  | cons op ops ih =>
    obtain ⟨hop, keeps, hrest⟩ := hd
    rw [run_of_calm (panic_step calm_deliver m s op), failures, ← List.append_assoc]
    obtain ⟨hl, ht⟩ := ih (h.step hk hop keeps) ((hook_step keeps).trans hk) hrest
    exact ⟨hl, ht.trans thread_step⟩

end Leveled

theorem Tracer.IsNew.leveled {t : Tracer} {custom : List CustomFormat} (h : t.IsNew custom)
    (region : t.observed = none) {m : Machine} (fresh : m.IsFresh) (w : Surroundings) :
    Leveled m (t, w) [] := by
  refine ⟨h.homed fresh w, region, ?_⟩
  have hd : t.session.depth m.thread.id = -1 := by
    rw [h.session]
    rfl
  simp [hd, fresh.stack, Machine.framesAt, tracedAmong, Failure.ends]

/-- Whatever its renderers fail on, a tracer of target codes goes on through every run that keeps to
the stack, and each event that fails becomes a fault. Whatever is kept is kept for running frames, or
for frames whose end has failed while it was shown. When no frame runs any more, the thread is as many
levels too deep as ends have failed so: it is where it was, and nothing is kept, exactly if there are
none. -/
theorem depth_after_failed_ends {c : TracerConfig} {disk : Disk} {codes : List CodeId}
    {custom : List CustomFormat} {sources : SourceCache} {sink : Sink} {t : Tracer}
    {w : Surroundings} {m : Machine} {hook : HookName} {ops : List (Op FrameId)}
    (setup : Tracer.outfit c disk codes custom sources sink = .ok t) (region : c.observed = none)
    (fresh : m.IsFresh) (installed : m.hook = some hook)
    (disciplined : m.Disciplined Tracer.deliver (t, w) ops) :
    let r := m.run Tracer.deliver (t, w) ops
    let s := r.state.1.session
    let failures := m.failures (t, w) ops
    r.panic = none ∧ r.state.1.mishaps = failures.map (fun x => (x.ctx.event.name, x.text)) ∧
      (∀ id, s.Remembers id → id ∈ r.machine.stack ∨ Failure.EndOf failures id) ∧
      (r.machine.stack = [] →
        s.depth m.thread.id = t.session.depth m.thread.id + Failure.ends failures ∧
          (s.depth m.thread.id = t.session.depth m.thread.id ∧ s.trackedFrames = 0 ↔
            Failure.ends failures = 0)) := by
  intro r s failures
  have hnew := Tracer.isNew_of_outfit setup
  have hlevel := hnew.leveled (Tracer.isOutfit_of_outfit setup region).observed fresh w
  obtain ⟨h, hthread⟩ := hlevel.run installed disciplined
  rw [List.nil_append] at h
  have hheld : ∀ id, s.Remembers id → id ∈ r.machine.stack ∨ Failure.EndOf failures id := by
    intro id hr
    rcases h.home id (Or.inl hr) with hend | ⟨rest, f, hs, -⟩
    · exact Or.inr hend
    · exact Or.inl (hs.mem (by simp))
  refine ⟨Machine.panic_run Machine.calm_deliver m (t, w) ops, ?_, hheld, fun hempty => ?_⟩
  · have hm := m.mishaps_run (t, w) ops
    have hnone : t.mishaps = [] := by simp [Tracer.mishaps, hnew.faults]
    rw [hnone, List.nil_append] at hm
    exact hm
  · have hdepth : s.depth m.thread.id = t.session.depth m.thread.id + Failure.ends failures := by
      have hd : t.session.depth m.thread.id = -1 := by
        rw [hnew.session]
        rfl
      have hstack : (m.run Tracer.deliver (t, w) ops).machine.stack = [] := hempty
      have hdepth := h.depth
      rw [hthread, hstack] at hdepth
      simpa [hd, Machine.framesAt, Tracer.tracedAmong] using hdepth
    refine ⟨hdepth, fun hback => by omega, fun hnone => ⟨by omega, ?_⟩⟩
    refine (Session.trackedFrames_of_forgotten fun id hr => ?_).1
    rcases hheld id hr with hm | hend
    · rw [hempty] at hm
      cases hm
    · exact Failure.not_endOf hnone id hend

def refusedSequences : CustomFormat :=
  ({ kind := some .sequence, text := .error "no text" } : Template).custom

def listReturn : List (Op FrameId) :=
  [.call ⟨"f", ⟨"/w/p.py"⟩, 1⟩ [("x", .int 1)], .line ⟨0, 0⟩ 2, .ret ⟨0, 0⟩ (.list [.int 1])]

theorem depth_after_failed_ends_of_list :
    let codes : List CodeId := [⟨"/w/p.py", "f", 1⟩]
    let t : Tracer :=
      { session := { targetCodes := codes }
        renderer := { custom := [refusedSequences], maxLength := some 100 }, sink := .lines [] }
    let m : Machine := { hook := some "trace" }
    Tracer.outfit {} {} codes [refusedSequences] {} (.lines []) = .ok t ∧ m.IsFresh ∧
      m.Disciplined Tracer.deliver (t, {}) listReturn ∧
      let r := m.run Tracer.deliver (t, {}) listReturn
      let s := r.state.1.session
      let failures := m.failures (t, {}) listReturn
      r.panic = none ∧ r.state.1.mishaps = failures.map (fun x => (x.ctx.event.name, x.text)) ∧
        (∀ id, s.Remembers id → id ∈ r.machine.stack ∨ Failure.EndOf failures id) ∧
        (r.machine.stack = [] →
          s.depth m.thread.id = t.session.depth m.thread.id + Failure.ends failures ∧
            (s.depth m.thread.id = t.session.depth m.thread.id ∧ s.trackedFrames = 0 ↔
              Failure.ends failures = 0)) := by
  intro codes t m
  have setup : Tracer.outfit {} {} codes [refusedSequences] {} (.lines []) = .ok t := rfl
  have fresh : m.IsFresh := ⟨rfl, rfl, rfl, rfl⟩
  have disciplined : m.Disciplined Tracer.deliver (t, {}) listReturn := by decide +kernel
  exact ⟨setup, fresh, disciplined, depth_after_failed_ends setup rfl fresh rfl disciplined⟩

/-- The return fails: every frame has ended, the thread is a level deeper than before, and one frame
is still kept. -/
theorem failed_return_is_left_behind :
    let t : Tracer :=
      { session := { targetCodes := [⟨"/w/p.py", "f", 1⟩] }
        renderer := { custom := [refusedSequences], maxLength := some 100 }, sink := .lines [] }
    let m : Machine := { hook := some "trace" }
    let r := m.run Tracer.deliver (t, {}) listReturn
    let s := r.state.1.session
    r.machine.stack = [] ∧ r.machine.suspended = [] ∧
      r.state.1.mishaps = [("return", "no text")] ∧ s.depth m.thread.id = 0 ∧
      ¬ (s.depth m.thread.id = t.session.depth m.thread.id ∧ s.trackedFrames = 0) := by
  decide +kernel

end SelectiveTrace
