import SelectiveTrace.Proofs.Tracer.Counted
import SelectiveTrace.Proofs.Tracer.Following

/-! The levels at which a tracer of a region shows the events of one activation. They fall by one with
each frame in between that a line attached and whose call was not counted; nothing else moves them. -/
namespace SelectiveTrace
namespace Machine

/-- The event of an operation and the level at which it is shown, if it is. -/
def shown? (m : Machine) (s : Tracer × Surroundings) (op : Op FrameId) : Option (Context × Int) :=
  (m.heardBy? op).bind fun h =>
    if !h.2.event.isDiscard && (s.1.decide s.2 h.2).1.isShow then
      some (h.2, (s.1.decide s.2 h.2).2.level h.2)
    else none

def picksUp (m : Machine) (s : Tracer × Surroundings) (op : Op FrameId) : Bool :=
  (m.heardBy? op).any fun h => s.1.picksUp s.2 m h.2

def pickedUp : Machine → Tracer × Surroundings → List (Op FrameId) → Nat
  | _, _, [] => 0
  | m, s, op :: ops =>
    let r := m.step Tracer.deliver s op
    (m.picksUp s op).toNat + pickedUp r.machine r.state ops

def RunsOn (id : FrameId) : Machine → Tracer × Surroundings → List (Op FrameId) → Prop
  | m, _, [] => id ∈ m.stack
  | m, s, op :: ops =>
    let r := m.step Tracer.deliver s op
    id ∈ m.stack ∧ RunsOn id r.machine r.state ops

instance decidableRunsOn (id : FrameId) : (m : Machine) → (s : Tracer × Surroundings) →
    (ops : List (Op FrameId)) → Decidable (m.RunsOn id s ops)
  | m, _, [] => inferInstanceAs (Decidable (id ∈ m.stack))
  | m, s, op :: ops =>
    have := decidableRunsOn id (m.step Tracer.deliver s op).machine
      (m.step Tracer.deliver s op).state ops
    inferInstanceAs (Decidable (id ∈ m.stack ∧ RunsOn id (m.step Tracer.deliver s op).machine
      (m.step Tracer.deliver s op).state ops))

theorem RunsOn.mem {id : FrameId} {m : Machine} {s : Tracer × Surroundings}
    {ops : List (Op FrameId)} (h : m.RunsOn id s ops) : id ∈ m.stack := by
  cases ops with
  | nil => exact h
  | cons op ops => exact h.1

/-- A run leaves the tracer the one that was set up. -/
theorem setup_run (m : Machine) (s : Tracer × Surroundings) (ops : List (Op FrameId)) :
    (m.run Tracer.deliver s ops).state.1.observed = s.1.observed ∧
      (m.run Tracer.deliver s ops).state.1.renderer = s.1.renderer := by
  induction ops generalizing m s with
  | nil => exact ⟨rfl, rfl⟩
  | cons op ops ih =>
    obtain ⟨hregion, hrenderer, -⟩ := mishaps_step m s op
    rw [run_of_calm (panic_step calm_deliver m s op)]
    exact ⟨(ih _ _).1.trans hregion, (ih _ _).2.trans hrenderer⟩

/-- A frame that stays on the stack stays on the same frames. -/
theorem Linked.suffix_step {m : Machine} {σ : Type} {deliver : Deliver σ} {s : σ} {op : Op FrameId}
    {id : FrameId} {rest : List FrameId} (linked : m.Linked) (hd : op.IsDisciplined m)
    (calm : (m.step deliver s op).panic = none) (hs : id :: rest <:+ m.stack)
    (stays : id ∈ (m.step deliver s op).machine.stack) :
    id :: rest <:+ (m.step deliver s op).machine.stack := by
  cases Op.Telling.of_disciplined linked hd with
  | nothing event stack =>
    rw [step_of_quiet hd event]
    exact stack ▸ hs
  | event f e under reports =>
    obtain ⟨a, ha⟩ := machine_step_of_event calm hd reports.event
    have hstack := reports.stack_after
      ((stack_heed (op.before m) f.id e a).trans reports.stack)
    rw [ha, hstack] at stays ⊢
    rcases reports.was with ⟨hm, hcall⟩ | ⟨hm, -⟩
    · rw [(Event.of_isCall hcall).2]
      exact (hm ▸ hs).trans (List.suffix_cons f.id under)
    · rw [hm] at hs
      cases hterm : e.isTerminal with
      | true =>
        rw [hterm] at stays
        have hne : id ≠ f.id := fun he => reports.off linked hd (he ▸ stays)
        exact Homed.suffix_of_ne hne (.inr rfl) hs
      | false => exact hs
  | drop f drops =>
    obtain ⟨a, ha⟩ := machine_step_of_event calm hd drops.event
    rw [ha, drops.after, stack_heed, drops.stack]
    exact hs

end Machine

open Machine

structure Keeps (id : FrameId) (rest : List FrameId) (m : Machine) (s : Tracer × Surroundings) :
    Prop where
  homed : Homed m s []
  region : s.1.observed.isSome = true
  total : s.1.renderer.IsTotal
  stack : id :: rest <:+ m.stack
  follows : s.1.follows s.2 m id rest = true

namespace Keeps
variable {id : FrameId} {rest : List FrameId} {m : Machine} {s : Tracer × Surroundings}
  {op : Op FrameId} {hook : HookName}

theorem settled (h : Keeps id rest m s) : s.1.Settled m where
  begun := by
    refine .inr fun hnil => ?_
    have hf := h.follows
    unfold Tracer.follows at hf
    rw [Bool.and_eq_true, Option.any_eq_true] at hf
    obtain ⟨-, f, -, traced⟩ := hf
    rw [Tracer.traces_of_unattached h.region h.homed.unentered hnil] at traced
    cases traced
  running _ j hj := by
    rcases h.homed.home j (.inl (.inl hj)) with ⟨x, hx, -⟩ | ⟨under, f, hs, -⟩
    · cases hx
    · exact hs.mem List.mem_cons_self

/-- The ground after an operation: it falls where a frame is picked up. -/
theorem ground_step (h : Keeps id rest m s) (hk : m.hook = some hook) (hd : op.IsDisciplined m)
    (keeps : op.KeepsHook m) :
    let r := m.step Tracer.deliver s op
    r.state.1.ground r.state.2 r.machine = s.1.ground s.2 m - (m.picksUp s op).toNat := by
  intro r
  have hstate : r.state = Machine.informed Tracer.deliver s (m.heardBy? op).toList :=
    Machine.state_step Tracer.deliver m s op
  unfold Machine.picksUp
  cases heard : m.heardBy? op with
  | some x =>
    rw [heard] at hstate
    rw [hstate]
    exact Tracer.ground_heard h.homed.linked hd h.total h.settled heard rfl
  | none =>
    have hground : s.1.ground s.2 r.machine = s.1.ground s.2 m :=
      Tracer.ground_unheard h.homed.linked hd (fun _ => keeps.trans hk)
        (fun j under f hs hf _ hu => h.homed.passed j under f hs hf hu) heard
    rw [heard] at hstate
    rw [hstate]
    simpa [Machine.informed] using hground

/-- An event of the frame itself that leaves it on the stack: it is followed still. -/
theorem follows_own (h : Keeps id rest m s) (hk : m.hook = some hook) (hd : op.IsDisciplined m)
    (keeps : op.KeepsHook m) {f : Frame} {e : Event} (reports : op.Reports m f e rest)
    (own : f.id = id) (call : e.isCall = false) (running : e.isTerminal = false) :
    (m.step Tracer.deliver s op).state.1.follows (m.step Tracer.deliver s op).state.2
      (m.step Tracer.deliver s op).machine id rest = true := by
  subst own
  have linked := h.homed.linked
  have hunmarked : f.id ∉ m.untraced := by
    intro hin
    have hf := h.follows
    simp [Tracer.follows, hin] at hf
  have hears : (op.before m).hears f.id e = true := by
    cases hu : (op.before m).hears f.id e with
    | true => rfl
    | false => exact absurd (mem_untraced_of_unheard hu).2 hunmarked
  have hbefore := (Tracer.follows_before (t := s.1) (w := s.2) linked reports call hears).2
  have hr := Tracer.reckons_reported linked hd h.total h.settled reports s.2
  have acts : m.Acts (m.step Tracer.deliver s op).machine f.id :=
    linked.acts_step hd reports.event
  have hframes := acts.framesAt_eq (reports.off linked hd)
  have hline := (hr.line (Event.isLine_of_not call running)).2
  rw [show s.1.traces s.2 ((op.before m).context f e).frame (m.framesAt rest) = true from
    hbefore ▸ h.follows, Bool.true_or] at hline
  have hstep : m.step Tracer.deliver s op = _ :=
    step_of_heard hd (keeps.trans hk) reports.event reports.live hears rfl hr.calm
  rw [hstep] at hframes ⊢
  refine (Tracer.follows_after reports running hears hr.calm (fun skip => ?_) hframes).trans hline
  exact hr.skipped skip running

/-- An event changes nothing that other frames look at. -/
theorem minds_step (h : Keeps id rest m s) (hd : op.IsDisciplined m) {ev : FrameId × Event}
    (event : op.event? m = some ev) :
    s.1.Minds s.2 (m.step Tracer.deliver s op).state.1 (m.step Tracer.deliver s op).state.2 ev.1 := by
  have linked := h.homed.linked
  rw [Machine.state_step]
  cases heard : m.heardBy? op with
  | none => exact (Tracer.Carries.refl s.1 s.2 ev.1).minds
  | some x =>
    have hevent := linked.isIssued.event?_of_heardBy heard
    have hid : x.2.frame.id = ev.1 :=
      congrArg Prod.fst (Option.some.inj (hevent.symm.trans event))
    show s.1.Minds s.2 (s.1.onEvent x.2 s.2).2.1 (s.1.onEvent x.2 s.2).2.2 ev.1
    rw [← hid]
    exact (Tracer.minds_heard linked hd h.total h.settled heard s.2).1

theorem step (h : Keeps id rest m s) (hk : m.hook = some hook) (hd : op.IsDisciplined m)
    (keeps : op.KeepsHook m) (stays : id ∈ (m.step Tracer.deliver s op).machine.stack) :
    let r := m.step Tracer.deliver s op
    Keeps id rest r.machine r.state ∧
      r.state.1.followed r.state.2 r.machine rest = s.1.followed s.2 m rest := by
  intro r
  have linked := h.homed.linked
  have calm := panic_step calm_deliver m s op
  obtain ⟨hregion, hrenderer, -⟩ := mishaps_step m s op
  have hkeeps : r.state.1.follows r.state.2 r.machine id rest = true →
      Keeps id rest r.machine r.state :=
    fun hf => ⟨h.homed.step_of_isTotal h.total hk hd keeps, hregion ▸ h.region, hrenderer ▸ h.total,
      linked.suffix_step hd calm h.stack stays, hf⟩
  -- what happens to a frame that is neither this one nor below it
  have helsewhere : ∀ ev, op.event? m = some ev → ev.1 ∉ id :: rest →
      Keeps id rest r.machine r.state ∧
        r.state.1.followed r.state.2 r.machine rest = s.1.followed s.2 m rest := by
    intro ev event off
    have acts : m.Acts r.machine ev.1 := linked.acts_step hd event
    have marks : ∀ k, k ≠ ev.1 → (k ∈ r.machine.untraced ↔ k ∈ m.untraced) :=
      fun _ hk => mem_untraced_step event hk
    have minds := h.minds_step hd event
    refine ⟨hkeeps ?_, Tracer.followed_off linked acts marks minds
      fun hj => off (List.mem_cons_of_mem id hj)⟩
    exact (Tracer.follows_off linked acts marks minds off).trans h.follows
  cases Op.Telling.of_disciplined linked hd with
  | nothing event stack =>
    have hr : r = ⟨op.before m, s, none⟩ := step_of_quiet hd event
    have hsame : ∀ j under, j :: under <:+ m.stack →
        s.1.follows s.2 (op.before m) j under = s.1.follows s.2 m j under :=
      fun j under hs => Tracer.follows_quiet event fun f hf _ hu => h.homed.passed j under f hs hf hu
    rw [hr] at hkeeps ⊢
    refine ⟨hkeeps ((hsame id rest h.stack).trans h.follows), Tracer.followed_congr fun j under hs => ?_⟩
    exact hsame j under (hs.trans ((List.suffix_cons id rest).trans h.stack))
  | event f e under reports =>
    by_cases hf : f.id ∈ id :: rest
    · have off := reports.off linked hd
      have hm : m.stack = f.id :: under ∧ e.isCall = false := by
        rcases reports.was with ⟨hm, -⟩ | ⟨hm, hcall, -⟩
        · exact absurd (h.stack.mem hf) (hm ▸ off)
        · exact ⟨hm, hcall⟩
      obtain ⟨hown, rfl⟩ : id = f.id ∧ rest = under := by
        rcases List.suffix_cons_iff.mp (hm.1 ▸ h.stack) with he | hin
        · exact List.cons.inj he
        · exact absurd (hin.mem hf) off
      have hrunning : e.isTerminal = false := by
        cases hterm : e.isTerminal with
        | false => rfl
        | true =>
          obtain ⟨a, ha⟩ := machine_step_of_event calm hd reports.event
          have hstack := reports.stack_after
            ((stack_heed (op.before m) f.id e a).trans reports.stack)
          rw [ha, hstack, hterm] at stays
          exact absurd (hown ▸ stays) off
      refine ⟨hkeeps (h.follows_own hk hd keeps reports hown.symm hm.2 hrunning), ?_⟩
      exact Tracer.followed_off linked (linked.acts_step hd reports.event)
        (fun k hk => mem_untraced_step reports.event hk) (h.minds_step hd reports.event) off
    · exact helsewhere (f.id, e) reports.event hf
  | drop f drops =>
    exact helsewhere (f.id, .discard) drops.event fun hf => drops.off (h.stack.mem hf)

/-- As long as the frame runs on, the ground falls by the frames that are picked up. -/
theorem run (h : Keeps id rest m s) (hk : m.hook = some hook) {ops : List (Op FrameId)}
    (hd : m.Disciplined Tracer.deliver s ops) (on : m.RunsOn id s ops) :
    let r := m.run Tracer.deliver s ops
    Keeps id rest r.machine r.state ∧
      r.state.1.followed r.state.2 r.machine rest = s.1.followed s.2 m rest ∧
      r.state.1.ground r.state.2 r.machine = s.1.ground s.2 m - m.pickedUp s ops := by
  induction ops generalizing m s with
  | nil => exact ⟨h, rfl, by simp [Machine.run, pickedUp]⟩
  | cons op ops ih =>
    obtain ⟨hop, keeps, hrest⟩ := hd
    obtain ⟨hstep, hfollowed⟩ := h.step hk hop keeps on.2.mem
    have hground := h.ground_step hk hop keeps
    obtain ⟨hend, hfollowed', hground'⟩ := ih hstep ((hook_step keeps).trans hk) hrest on.2
    rw [run_of_calm (panic_step calm_deliver m s op)]
    refine ⟨hend, hfollowed'.trans hfollowed, ?_⟩
    rw [hground', hground, pickedUp]
    omega

end Keeps

section
variable {m : Machine} {s : Tracer × Surroundings} {op : Op FrameId} {hook : HookName}
  {ctx : Context} {n : Int}

theorem shown_cases (shown : m.shown? s op = some (ctx, n)) :
    (∃ hook, m.heardBy? op = some (hook, ctx)) ∧ ctx.event.isDiscard = false ∧
      (s.1.decide s.2 ctx).1.isShow = true ∧ n = (s.1.decide s.2 ctx).2.level ctx := by
  obtain ⟨⟨hook, ctx'⟩, heard, hshown⟩ := Option.bind_eq_some_iff.mp shown
  dsimp only at hshown
  split at hshown
  next visible =>
    obtain ⟨rfl, rfl⟩ := Prod.mk.inj (Option.some.inj hshown)
    rw [Bool.and_eq_true, Bool.not_eq_true'] at visible
    exact ⟨⟨hook, heard⟩, visible.1, visible.2, rfl⟩
  · cases hshown

/-- The level of an event of a frame that was followed before it. -/
theorem Keeps.level {id : FrameId} {rest : List FrameId} (h : Keeps id rest m s)
    (hd : op.IsDisciplined m) (shown : m.shown? s op = some (ctx, n))
    (own : ctx.frame.id = id) :
    n = s.1.ground s.2 m + 1 + s.1.followed s.2 m rest := by
  subst own
  have linked := h.homed.linked
  have issued := linked.isIssued
  obtain ⟨⟨hook, heard⟩, running, visible, rfl⟩ := shown_cases shown
  obtain ⟨under, reports⟩ := Op.reports_of_event linked hd (issued.event?_of_heardBy heard)
    (issued.get?_of_heardBy heard) running
  have off := reports.off linked hd
  obtain ⟨hm, hcall⟩ : m.stack = ctx.frame.id :: under ∧ ctx.event.isCall = false := by
    rcases reports.was with ⟨hm, -⟩ | ⟨hm, hcall, -⟩
    · exact absurd (h.stack.mem List.mem_cons_self) (hm ▸ off)
    · exact ⟨hm, hcall⟩
  obtain rfl : rest = under := Homed.below_top off (hm ▸ h.stack)
  have hlevel : (s.1.decide s.2 ctx).2.level ctx = s.1.session.depth m.thread.id := by
    unfold Tracer.level
    rw [Tracer.depth_descend, hcall, reports.thread linked hd]
    rcases s.1.gated_cases s.2 running with ⟨u, hg, -⟩ | ⟨-, ⟨v, hg, hidden, -⟩ | ⟨hg, -⟩⟩
    · obtain ⟨u', hdecide, -, -, hdepths, -⟩ := Tracer.decide_of_passed (linked.before hd)
        (congrArg Context.frames (context_of_heardBy issued heard).1) reports.below reports.back hg
      rw [hdecide]
      unfold Session.depth
      rw [hdepths, Tracer.depths_of_passed h.settled.begun hg]
      simp
    · rw [Tracer.decide, hg] at visible
      exact absurd (visible.symm.trans hidden) (by simp)
    · rw [Tracer.decide, hg] at visible
      cases visible
  rw [hlevel, Tracer.ground, hm, Tracer.followed, h.follows]
  simp only [Bool.toNat_true]
  omega

/-- The level of an event that is shown, and that its frame outlasts: the frame is followed from then on. -/
theorem level_before_others (h : Homed m s []) (region : s.1.observed.isSome = true)
    (total : s.1.renderer.IsTotal) (hk : m.hook = some hook) (hd : op.IsDisciplined m)
    (keeps : op.KeepsHook m) (shown : m.shown? s op = some (ctx, n))
    (stays : ctx.frame.id ∈ (m.step Tracer.deliver s op).machine.stack) :
    let r := m.step Tracer.deliver s op
    ∃ rest, Keeps ctx.frame.id rest r.machine r.state ∧
      n = r.state.1.ground r.state.2 r.machine + 1 +
        r.state.1.followed r.state.2 r.machine rest := by
  have linked := h.linked
  have issued := linked.isIssued
  obtain ⟨⟨hook', heard⟩, running, visible, rfl⟩ := shown_cases shown
  have hevent := issued.event?_of_heardBy heard
  obtain ⟨hctx, hears⟩ := context_of_heardBy issued heard
  obtain ⟨rest, reports⟩ := Op.reports_of_event linked hd hevent (issued.get?_of_heardBy heard)
    running
  have off := reports.off linked hd
  have acts : m.Acts (m.step Tracer.deliver s op).machine ctx.frame.id :=
    linked.acts_step hd hevent
  have hframes := acts.framesAt_eq off
  have hoff := linked.framesAt_ne off
  obtain ⟨v, u, hdecide, ruling⟩ := h.unentered.ruling (w := s.2) (linked.before hd)
    (congrArg Context.frames hctx) running reports.below reports.back off
  rw [framesAt_before reports.event off] at ruling
  have out := Tracer.carriesOut total running (congrArg Prod.snd hdecide)
  rw [hdecide] at out visible ⊢
  have hstate : (m.step Tracer.deliver s op).state = (s.1.onEvent ctx s.2).2 := by
    rw [Machine.state_step, heard]
    rfl
  have hstep : (m.step Tracer.deliver s op).machine =
      op.after ((op.before m).heed ctx.frame.id ctx.event (s.1.onEvent ctx s.2).1) := by
    have hs : m.step Tracer.deliver s op = _ :=
      step_of_heard hd (keeps.trans hk) reports.event reports.live hears rfl (hctx ▸ out.calm)
    rw [hs, ← hctx]
    rfl
  have hstack := reports.stack_after
    ((stack_heed (op.before m) ctx.frame.id ctx.event (s.1.onEvent ctx s.2).1).trans reports.stack)
  rw [hstep, hstack] at stays
  have hgoes : ctx.event.isTerminal = false := by
    cases hterm : ctx.event.isTerminal with
    | false => rfl
    | true =>
      rw [hterm] at stays
      exact absurd stays off
  have htraced : Tracer.traces { s.1 with session := u } s.2 ctx.frame (m.framesAt rest) = true := by
    cases ruling with
    | traced _ _ _ traces => exact traces
    | ended terminal =>
      rw [hgoes] at terminal
      cases terminal
    | untraced hidden => exact absurd (visible.symm.trans hidden) (by simp)
    | released => cases visible
  have hafter := (out.toCarries.traces (out.attached hgoes) ctx.frame hoff).trans htraced
  have hfollows : (s.1.onEvent ctx s.2).2.1.follows (s.1.onEvent ctx s.2).2.2
      (m.step Tracer.deliver s op).machine ctx.frame.id rest = true := by
    rw [hstep] at hframes ⊢
    refine (Tracer.follows_after reports hgoes hears out.calm (fun skip => ?_) hframes).trans hafter
    rw [show v = .skip from out.skipped skip] at visible
    cases visible
  rw [hgoes] at hstack
  have hstack' : (m.step Tracer.deliver s op).machine.stack = ctx.frame.id :: rest :=
    hstep ▸ hstack
  refine ⟨rest, ⟨h.step_of_isTotal total hk hd keeps, ?_, ?_, ?_, ?_⟩, ?_⟩
  · exact (mishaps_step m s op).1 ▸ region
  · exact (mishaps_step m s op).2.1 ▸ total
  · exact hstack' ▸ List.suffix_rfl
  · rw [hstate]
    exact hfollows
  · have hdepth := out.depth
    rw [show v.isShow = true from visible, if_pos rfl, hgoes] at hdepth
    rw [hstate, Tracer.ground, hstack', Tracer.followed, hfollows, acts.thread,
      ← reports.thread linked hd, hdepth]
    unfold Tracer.level
    rw [Tracer.depth_descend]
    simp only [Bool.toNat_true, Bool.false_eq_true, if_false]
    omega

end

/-- A tracer that observes a region, with any limits and with renderers that do not fail, and a run that
keeps to the stack. Two events of an activation are shown, and the frame runs on in between. The second one
is shown at the level of the first, less the frames that were picked up in between: those that a line
attached, and whose calls were therefore not counted while their ends are. So the events of an activation
stand at one level up to the first frame that is picked up, whatever calls are made. -/
theorem level_falls_by_frames_picked_up {c : TracerConfig} {disk : Disk} {codes : List CodeId}
    {custom : List CustomFormat} {sources : SourceCache} {sink : Sink} {t : Tracer}
    {w : Surroundings} {m : Machine} {hook : HookName} {before between : List (Op FrameId)}
    {first next : Op FrameId}
    (setup : Tracer.outfit c disk codes custom sources sink = .ok t)
    (region : t.observed.isSome = true)
    (formats : ∀ f ∈ custom, ∀ v, ∃ text, f.format v = .ok text)
    (fresh : m.IsFresh) (installed : m.hook = some hook)
    (disciplined : m.Disciplined Tracer.deliver (t, w) (before ++ first :: (between ++ [next]))) :
    let r₀ := m.run Tracer.deliver (t, w) before
    let r₁ := r₀.machine.step Tracer.deliver r₀.state first
    let r₂ := r₁.machine.run Tracer.deliver r₁.state between
    ∀ ctx ctx' n n', r₀.machine.shown? r₀.state first = some (ctx, n) →
      r₂.machine.shown? r₂.state next = some (ctx', n') → ctx'.frame.id = ctx.frame.id →
      r₁.machine.RunsOn ctx.frame.id r₁.state between →
      n' = n - r₁.machine.pickedUp r₁.state between := by
  intro r₀ r₁ r₂ ctx ctx' n n' hfirst hnext own on
  have hnew := Tracer.isNew_of_outfit setup
  have total := hnew.isTotal formats
  obtain ⟨hbefore, hop, keeps, hrest⟩ := (disciplined_append calm_deliver).mp disciplined
  obtain ⟨hbetween, hop', -⟩ := (disciplined_append calm_deliver).mp hrest
  have h := ((hnew.homed fresh w).run installed hbefore).clear (unshown_of_isTotal total before)
  have hk₀ : r₀.machine.hook = some hook := (hook_run calm_deliver hbefore).trans installed
  obtain ⟨hregion, hrenderer⟩ : r₀.state.1.observed = t.observed ∧
      r₀.state.1.renderer = t.renderer := setup_run m (t, w) before
  obtain ⟨rest, hkeeps, hn⟩ := level_before_others h (hregion ▸ region) (hrenderer ▸ total)
    hk₀ hop keeps hfirst on.mem
  obtain ⟨hend, hfollowed, hground⟩ := hkeeps.run ((hook_step keeps).trans hk₀) hbetween on
  calc n' = r₂.state.1.ground r₂.state.2 r₂.machine + 1 +
        r₂.state.1.followed r₂.state.2 r₂.machine rest := hend.level hop' hnext own
    _ = r₁.state.1.ground r₁.state.2 r₁.machine - r₁.machine.pickedUp r₁.state between + 1 +
        r₁.state.1.followed r₁.state.2 r₁.machine rest :=
      congrArg₂ (fun (x : Int) (y : Nat) => x + 1 + y) hground hfollowed
    _ = r₁.state.1.ground r₁.state.2 r₁.machine + 1 +
        r₁.state.1.followed r₁.state.2 r₁.machine rest - r₁.machine.pickedUp r₁.state between := by
      omega
    _ = n - r₁.machine.pickedUp r₁.state between := congrArg (· - _) hn.symm

def callingIntoRegion : List (Op FrameId) :=
  [.call ⟨"f", ⟨"/p.py"⟩, 3⟩ [], .line ⟨0, 0⟩ 4, .call ⟨"h", ⟨"/q.py"⟩, 1⟩ [], .line ⟨0, 1⟩ 2,
    .call ⟨"g", ⟨"/p.py"⟩, 1⟩ [], .line ⟨0, 2⟩ 2, .ret ⟨0, 2⟩ (.int 1), .ret ⟨0, 1⟩ (.int 1),
    .line ⟨0, 0⟩ 5, .ret ⟨0, 0⟩ (.int 1)]

theorem level_falls_by_frames_picked_up_of_calls :
    let c : TracerConfig := { observed := some ⟨⟨"/p.py"⟩, 2, 5⟩ }
    let t : Tracer :=
      { config := c, observed := c.observed, renderer := { maxLength := some 100 }
        sink := .lines [] }
    let m : Machine := { hook := some "trace" }
    let first : Op FrameId := .call ⟨"f", ⟨"/p.py"⟩, 3⟩ []
    let between := (callingIntoRegion.drop 1).take 8
    let next : Op FrameId := .ret ⟨0, 0⟩ (.int 1)
    callingIntoRegion = [] ++ first :: (between ++ [next]) ∧
    Tracer.outfit c diskOfFile [] [] {} (.lines []) = .ok t ∧ m.IsFresh ∧
      m.Disciplined Tracer.deliver (t, {}) callingIntoRegion ∧
      let r₁ := m.step Tracer.deliver (t, {}) first
      let r₂ := r₁.machine.run Tracer.deliver r₁.state between
      r₁.machine.RunsOn ⟨0, 0⟩ r₁.state between ∧ r₁.machine.pickedUp r₁.state between = 1 ∧
        ∃ ctx n ctx' n', m.shown? (t, {}) first = some (ctx, n) ∧
          r₂.machine.shown? r₂.state next = some (ctx', n') ∧ n' = n - 1 := by
  intro c t m first between next
  have setup : Tracer.outfit c diskOfFile [] [] {} (.lines []) = .ok t :=
    outfit_diskOfFile _ (by decide) (by decide)
  have disciplined : m.Disciplined Tracer.deliver (t, {}) ([] ++ first :: (between ++ [next])) := by
    decide +kernel
  refine ⟨rfl, setup, ⟨rfl, rfl, rfl, rfl⟩, disciplined, ?_⟩
  intro r₁ r₂
  have on : r₁.machine.RunsOn ⟨0, 0⟩ r₁.state between := by decide +kernel
  have one : r₁.machine.pickedUp r₁.state between = 1 := by decide +kernel
  have hfirst : (m.shown? (t, {}) first).map (·.1.frame.id) = some ⟨0, 0⟩ := by decide +kernel
  have hnext : (r₂.machine.shown? r₂.state next).map (·.1.frame.id) = some ⟨0, 0⟩ := by
    decide +kernel
  obtain ⟨⟨ctx, n⟩, hshown, hid⟩ := Option.map_eq_some_iff.mp hfirst
  obtain ⟨⟨ctx', n'⟩, hshown', hid'⟩ := Option.map_eq_some_iff.mp hnext
  have hlevel := level_falls_by_frames_picked_up setup rfl (by simp) ⟨rfl, rfl, rfl, rfl⟩ rfl
    disciplined ctx ctx' n n' hshown hshown' (hid'.trans hid.symm) (hid ▸ on)
  have hone : (r₁.machine.pickedUp r₁.state between : Int) = 1 := by exact_mod_cast one
  exact ⟨on, one, ctx, n, ctx', n', hshown, hshown', hlevel.trans (congrArg (n - ·) hone)⟩

/-- The call of the function is shown at level one, and so is its next line; its last line is shown at level
zero. -/
theorem last_line_is_shown_above_call :
    let c : TracerConfig := { observed := some ⟨⟨"/p.py"⟩, 2, 5⟩ }
    let t : Tracer :=
      { config := c, observed := c.observed, renderer := { maxLength := some 100 }
        sink := .lines [] }
    let m : Machine := { hook := some "trace" }
    let shown := fun n =>
      let r := m.run Tracer.deliver (t, {}) (callingIntoRegion.take n)
      (callingIntoRegion[n]?.bind fun op => r.machine.shown? r.state op).map fun x =>
        (x.1.frame.id, x.1.event.name, x.2)
    Tracer.outfit c diskOfFile [] [] {} (.lines []) = .ok t ∧ m.IsFresh ∧
      m.Disciplined Tracer.deliver (t, {}) callingIntoRegion ∧
      shown 0 = some (⟨0, 0⟩, "call", 1) ∧ shown 1 = some (⟨0, 0⟩, "line", 1) ∧
      shown 8 = some (⟨0, 0⟩, "line", 0) := by
  intro c t m shown
  have setup : Tracer.outfit c diskOfFile [] [] {} (.lines []) = .ok t :=
    outfit_diskOfFile _ (by decide) (by decide)
  exact ⟨setup, ⟨rfl, rfl, rfl, rfl⟩, by decide +kernel, by decide +kernel, by decide +kernel,
    by decide +kernel⟩

end SelectiveTrace
