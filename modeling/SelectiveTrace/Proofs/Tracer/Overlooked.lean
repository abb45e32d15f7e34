import SelectiveTrace.Proofs.Tracer.Levels
import SelectiveTrace.Proofs.Tracer.Spelling

/-! A run under a tracer of a region, and the same run with the files of some frames spelled relative to the
current directory. Where the tracer turns on the spelling it gives such a frame up and hears no more of it.
As long as it would not have taken up what it misses, both runs are shown alike. -/
namespace SelectiveTrace

/-- An event as it is shown: of which frame, at which line and at which level. -/
structure Sight where
  frame : FrameId
  line : Nat
  event : Event
  level : Int

namespace Machine

def sight? (m : Machine) (s : Tracer × Surroundings) (op : Op FrameId) : Option Sight :=
  (m.shown? s op).map fun x => ⟨x.1.frame.id, x.1.frame.line, x.1.event, x.2⟩

def fails (m : Machine) (s : Tracer × Surroundings) (op : Op FrameId) : Bool :=
  (m.heardBy? op).any fun h => (s.1.failure? s.2 h.2).isSome

def along {α : Type} (read : Machine → Tracer × Surroundings → Op FrameId → α) :
    Machine → Tracer × Surroundings → List (Op FrameId) → List α
  | _, _, [] => []
  | m, s, op :: ops =>
    let r := m.step Tracer.deliver s op
    read m s op :: along read r.machine r.state ops

/-- The frames that are given up in the run with the files respelled and not in the other one. A frame goes
astray by an event that turns on its spelling; it is found again when it is called, or when the program
asks for its events. -/
def strays (relative : FrameId → Bool) (astray : List FrameId) (m : Machine)
    (s : Tracer × Surroundings) (op : Op FrameId) : List FrameId :=
  match m.heardBy? op with
  | none => astray.filter fun id => !op.retraces id
  | some h =>
    if relative h.2.frame.id && s.1.turnsOnSpelling s.2 h.2 then astray.insert h.2.frame.id
    else if h.2.event.isCall then without astray h.2.frame.id
    else astray

/-- The tracer takes an event up that it misses with the files respelled: the event turns on the spelling of
its file, or its frame has gone astray. -/
def overlooks (relative : FrameId → Bool) (astray : List FrameId) (m : Machine)
    (s : Tracer × Surroundings) (op : Op FrameId) : Bool :=
  (m.heardBy? op).any fun h => s.1.regards s.2 h.2 &&
    (relative h.2.frame.id && s.1.turnsOnSpelling s.2 h.2 ||
      astray.contains h.2.frame.id && !h.2.event.isCall)

def overlooked (relative : FrameId → Bool) :
    List FrameId → Machine → Tracer × Surroundings → List (Op FrameId) → List Bool
  | _, _, _, [] => []
  | astray, m, s, op :: ops =>
    let r := m.step Tracer.deliver s op
    m.overlooks relative astray s op ::
      overlooked relative (m.strays relative astray s op) r.machine r.state ops

variable {m : Machine} {s : Tracer × Surroundings} {op : Op FrameId} {hook : HookName}
  {ctx : Context} {relative : FrameId → Bool} {astray : List FrameId} {j : FrameId}

theorem sight?_of_heard (heard : m.heardBy? op = some (hook, ctx)) :
    m.sight? s op =
      if !ctx.event.isDiscard && (s.1.decide s.2 ctx).1.isShow then
        some ⟨ctx.frame.id, ctx.frame.line, ctx.event, (s.1.decide s.2 ctx).2.level ctx⟩
      else none := by
  unfold sight? shown?
  rw [heard, Option.bind_some]
  dsimp only
  split <;> rfl

theorem sight?_of_unheard (unheard : m.heardBy? op = none) : m.sight? s op = none := by
  unfold sight? shown?
  rw [unheard]
  rfl

/-- The event of an operation goes unheard just if its frame has been given up. -/
theorem hears_of_event {id : FrameId} {e : Event} (event : op.event? m = some (id, e)) :
    (op.before m).hears id e = false ↔ e.isCall = false ∧ id ∈ m.untraced := by
  refine ⟨mem_untraced_of_unheard, fun ⟨call, hin⟩ => ?_⟩
  have hbefore : id ∈ (op.before m).untraced :=
    Op.mem_untraced_before.mpr ⟨hin, Op.retraces_of_event event id⟩
  simp [hears, call, hbefore]

/-- The frames that an operation reports from have not gone before. -/
theorem IsIssued.not_isGone (issued : m.IsIssued) {f : Frame}
    (live : (op.before m).frames.get? j = some f) : ¬ m.IsGone f.id := by
  intro gone
  have hid := ((continues_before m op).isIssued issued j f live).2
  have hnone := ((continues_before m op).isGone gone).2
  rw [hid, live] at hnone
  cases hnone

theorem not_isGone_of_step (there : ¬ (m.step Tracer.deliver s op).machine.IsGone j) : ¬ m.IsGone j :=
  fun gone => there ((continues_step Tracer.deliver m s op).isGone gone)

/-- The frame that an event is about stands afterwards or has gone. -/
theorem Linked.hasIssued_step (h : m.Linked) (hd : op.IsDisciplined m) {e : Event}
    (event : op.event? m = some (j, e)) :
    (m.step Tracer.deliver s op).machine.hasIssued j = true := by
  obtain ⟨f, live, -⟩ := Op.live_of_event h hd event
  have hissued := ((continues_before m op).isIssued h.isIssued _ f live).1
  exact (continues_step_of_before Tracer.deliver m s (applies_of_disciplined hd)).hasIssued hissued

theorem Linked.stays_of_event (h : m.Linked) (hd : op.IsDisciplined m) {e : Event}
    (event : op.event? m = some (j, e)) (there : ¬ (m.step Tracer.deliver s op).machine.IsGone j) :
    (m.step Tracer.deliver s op).machine.frames.get? j ≠ none :=
  fun hnone => there ⟨h.hasIssued_step hd event, hnone⟩

theorem isGone_of_discard (h : m.Linked) (hd : op.IsDisciplined m) {e : Event}
    (event : op.event? m = some (j, e)) (discard : e.isDiscard = true) :
    (m.step Tracer.deliver s op).machine.IsGone j := by
  refine ⟨h.hasIssued_step hd event, ?_⟩
  obtain ⟨a, ha⟩ := machine_step_of_event (panic_step calm_deliver m s op) hd event
  rw [ha]
  cases op with
  | discard id =>
    cases event
    exact Table.get?_erase_self _ _
  | _ => cases event <;> cases discard

theorem state_of_heard (heard : m.heardBy? op = some (hook, ctx)) :
    (m.step Tracer.deliver s op).state = (s.1.onEvent ctx s.2).2 := by
  rw [state_step, heard]
  rfl

theorem state_of_unheard (unheard : m.heardBy? op = none) :
    (m.step Tracer.deliver s op).state = s := by
  rw [state_step, unheard]
  rfl

theorem mem_strays_of_unheard (unheard : m.heardBy? op = none) :
    j ∈ m.strays relative astray s op ↔ j ∈ astray ∧ op.retraces j = false := by
  unfold strays
  rw [unheard]
  simp

/-- An event leads no other frame astray and finds none again. -/
theorem mem_strays_of_ne (heard : m.heardBy? op = some (hook, ctx)) (hne : j ≠ ctx.frame.id) :
    j ∈ m.strays relative astray s op ↔ j ∈ astray := by
  unfold strays
  rw [heard]
  dsimp only
  split
  · simp [hne]
  · split
    · simp [mem_without, hne]
    · exact Iff.rfl

end Machine

namespace Tracer
variable {base : Path} {r : Region} {relative : FrameId → Bool} {live : FrameId → Prop}
  {t t' : Tracer} {w w' : Surroundings} {ctx ctx' : Context}

theorem Matches.level (h : Matches base r live t w t' w')
    (hctx : Context.Respells base relative ctx ctx') : t'.level ctx' = t.level ctx := by
  unfold Tracer.level
  rw [hctx.frame.thread]
  exact (h.descend hctx).session.depth _

/-- An event that is not taken up, of a frame that is not attached, leaves a fault at most. -/
theorem onEvent_of_disregarded (observed : t.observed = some r)
    (codes : t.session.targetCodes = []) (running : ctx.event.isDiscard = false)
    (off : ctx.frame.id ∉ t.session.targetFrames) (aside : t.regards w ctx = false) :
    ∃ faults, (t.onEvent ctx w).2 = ({ t with faults }, w) := by
  obtain ⟨hkept, hidden, -⟩ := decide_of_disregarded observed codes running off aside
  obtain ⟨a, he, -⟩ := onEvent_of_hidden running hidden
  obtain ⟨faults, hnoted⟩ := noteVerdict_eq (t.decide w ctx).2 ctx (t.decide w ctx).1
  exact ⟨faults, by rw [he, hnoted, hkept]⟩

theorem isShow_of_regards (unlimited : t.config.hitLimit = none) (regards : t.regards w ctx = true) :
    ctx.event.isDiscard = false ∧ (t.decide w ctx).1.isShow = true := by
  unfold Tracer.regards at regards
  rw [Bool.and_eq_true, Bool.and_eq_true, Bool.not_eq_true', Option.isNone_iff_eq_none] at regards
  obtain ⟨⟨running, passed⟩, shown⟩ := regards
  refine ⟨running, ?_⟩
  have hcounted : ∀ u : Tracer, u.config = t.config → (u.countHit ctx).1 = false := by
    intro u config
    unfold countHit
    rw [config, unlimited]
  unfold decide
  generalize t.gated w ctx = g at passed shown ⊢
  obtain ⟨v, session⟩ := g
  dsimp only at passed shown ⊢
  subst passed
  dsimp only
  cases hv : verdict { t with session } w ctx with
  | show_ expanded =>
    dsimp only
    rw [hcounted { t with session } rfl]
    rfl
  | skip | ignore | overflow =>
    rw [hv] at shown
    cases shown

/-- A frame whose event turns on the spelling is not attached. -/
theorem off_of_turnsOnSpelling (turns : t.turnsOnSpelling w ctx = true) :
    ctx.event.isDiscard = false ∧ ctx.frame.id ∉ t.session.targetFrames := by
  unfold turnsOnSpelling at turns
  rw [Bool.and_eq_true, Bool.not_eq_true'] at turns
  refine ⟨turns.1, fun hin => ?_⟩
  have hne : t.session.targetFrames.isEmpty = false :=
    List.isEmpty_eq_false_iff.mpr (List.ne_nil_of_mem hin)
  have hcontains : t.session.targetFrames.contains ctx.frame.id = true :=
    List.contains_iff_mem.mpr hin
  obtain ⟨-, hturns⟩ := turns
  rw [hne, hcontains] at hturns
  simp at hturns

end Tracer

/-- Two machines and their tracers, the second with the files of some frames respelled. The second has given
up the frames that are `astray` besides those of the first, and the tracers are of one mind. -/
structure Shadows (base : Path) (r : Region) (relative : FrameId → Bool) (astray : List FrameId)
    (m : Machine) (s : Tracer × Surroundings) (m' : Machine) (s' : Tracer × Surroundings) : Prop
    extends Machine.Respells base relative m m' where
  linked : m.Linked
  marks : ∀ j, ¬ m.IsGone j → (j ∈ m'.untraced ↔ j ∈ m.untraced ∨ j ∈ astray)
  unattached : ∀ j ∈ astray, j ∉ s.1.session.targetFrames
  minds : Tracer.Matches base r (fun j => ¬ m.IsGone j) s.1 s.2 s'.1 s'.2

open Machine

namespace Shadows
variable {base : Path} {r : Region} {relative : FrameId → Bool} {astray : List FrameId}
  {m m' : Machine} {s s' : Tracer × Surroundings} {op op' : Op FrameId} {hook : HookName}
  {ctx ctx' : Context}

structure KeepsUp (base : Path) (r : Region) (relative : FrameId → Bool) (astray : List FrameId)
    (m : Machine) (s : Tracer × Surroundings) (m' : Machine) (s' : Tracer × Surroundings)
    (op op' : Op FrameId) : Prop where
  sight : m'.sight? s' op' = m.sight? s op
  after : Shadows base r relative (m.strays relative astray s op)
    (m.step Tracer.deliver s op).machine (m.step Tracer.deliver s op).state
    (m'.step Tracer.deliver s' op').machine (m'.step Tracer.deliver s' op').state

inductive Hearing (base : Path) (relative : FrameId → Bool) (astray : List FrameId) (m : Machine)
    (s : Tracer × Surroundings) (m' : Machine) (op op' : Op FrameId) : Prop
  /-- Both hear of it, and its spelling decides nothing. -/
  | alike (hook : HookName) (ctx ctx' : Context) (heard : m.heardBy? op = some (hook, ctx))
    (heard' : m'.heardBy? op' = some (hook, ctx')) (respells : Context.Respells base relative ctx ctx')
    (settled : (relative ctx.frame.id && s.1.turnsOnSpelling s.2 ctx) = false)
    (found : ctx.event.isCall = false → ctx.frame.id ∉ astray)
  /-- Both hear of it, and it turns on the spelling. -/
  | turned (hook : HookName) (ctx ctx' : Context) (heard : m.heardBy? op = some (hook, ctx))
    (heard' : m'.heardBy? op' = some (hook, ctx')) (respells : Context.Respells base relative ctx ctx')
    (turns : (relative ctx.frame.id && s.1.turnsOnSpelling s.2 ctx) = true)
  /-- The frame has gone astray. -/
  | lost (hook : HookName) (ctx : Context) (heard : m.heardBy? op = some (hook, ctx))
    (unheard : m'.heardBy? op' = none) (astray : ctx.frame.id ∈ astray)
    (call : ctx.event.isCall = false)
  /-- None hears of it, if it has an event at all. -/
  | silent (unheard : m.heardBy? op = none) (unheard' : m'.heardBy? op' = none)

/-- The tracers are of one mind about the frames that are left after an operation. -/
theorem minds_onward (h : Shadows base r relative astray m s m' s') (op : Op FrameId) :
    Tracer.Matches base r (fun j => ¬ (m.step Tracer.deliver s op).machine.IsGone j) s.1 s.2 s'.1
      s'.2 :=
  h.minds.mono fun _ => not_isGone_of_step

theorem live_of_heard (h : Shadows base r relative astray m s m' s')
    (heard : m.heardBy? op = some (hook, ctx)) :
    (∀ j f, ctx.frames.get? j = some f → ¬ m.IsGone f.id) ∧ ¬ m.IsGone ctx.frame.id := by
  have issued := h.linked.isIssued
  have hctx : ctx.frames = (op.before m).frames :=
    congrArg Context.frames (context_of_heardBy issued heard).1
  rw [hctx]
  exact ⟨fun j f live => issued.not_isGone live, issued.not_isGone (issued.get?_of_heardBy heard)⟩

theorem hearing (h : Shadows base r relative astray m s m' s')
    (hop : op.Respells base (relative m.nextId) op') (hd : op.IsDisciplined m)
    (installed : (op.before m).hook = some hook) : Hearing base relative astray m s m' op op' := by
  have hd' := h.toRespells.disciplined hop hd
  have event := h.toRespells.same_event hop
  have before := h.toRespells.before hop
  have installed' : (op'.before m').hook = some hook :=
    (before.alike Machine.hook fun _ => rfl).trans installed
  cases hev : op.event? m with
  | none =>
    refine .silent ?_ ?_
    · simp [heardBy?, hev]
    · simp [heardBy?, event, hev]
  | some ev =>
    obtain ⟨f, live, hid⟩ := Op.live_of_event h.linked hd hev
    obtain ⟨id, e⟩ := ev
    obtain rfl : f.id = id := hid
    have hrel := before.get? f.id
    rw [live] at hrel
    generalize hx : (op'.before m').frames.get? f.id = x at hrel
    cases hrel with
    | @some _ f' hf =>
      have hev' : op'.event? m' = some (f'.id, e) := by rw [event, hev, hf.id]
      have live' : (op'.before m').frames.get? f'.id = some f' := by rw [hf.id, hx]
      have marked : f'.id ∈ m'.untraced ↔ f.id ∈ m.untraced ∨ f.id ∈ astray := by
        rw [hf.id]
        exact h.marks f.id (h.linked.isIssued.not_isGone live)
      cases hears : (op.before m).hears f.id e with
      | false =>
        obtain ⟨call, hin⟩ := (hears_of_event hev).mp hears
        have hears' := (hears_of_event hev').mpr ⟨call, marked.mpr (.inl hin)⟩
        exact .silent (heardBy?_of_unheard hev live hears) (heardBy?_of_unheard hev' live' hears')
      | true =>
        have heard := heardBy?_of_event hd installed hev live hears
        cases hears' : (op'.before m').hears f'.id e with
        | false =>
          obtain ⟨call, hin'⟩ := (hears_of_event hev').mp hears'
          have hastray : f.id ∈ astray := by
            refine (marked.mp hin').resolve_left fun hin => ?_
            rw [(hears_of_event hev).mpr ⟨call, hin⟩] at hears
            cases hears
          exact .lost hook _ heard (heardBy?_of_unheard hev' live' hears') hastray call
        | true =>
          have heard' := heardBy?_of_event hd' installed' hev' live' hears'
          have respells := before.context hf e
          cases turns : relative f.id && s.1.turnsOnSpelling s.2 ((op.before m).context f e) with
          | true => exact .turned hook _ _ heard heard' respells turns
          | false =>
            refine .alike hook _ _ heard heard' respells turns fun call hin => ?_
            rw [(hears_of_event hev').mpr ⟨call, marked.mpr (.inr hin)⟩] at hears'
            cases hears'

/-- An event that the first tracer hears: it is left to show what comes of its frame, and that the tracers
are of one mind afterwards. -/
theorem told (h : Shadows base r relative astray m s m' s')
    (hop : op.Respells base (relative m.nextId) op') (hd : op.IsDisciplined m)
    (heard : m.heardBy? op = some (hook, ctx))
    (mark : (m.step Tracer.deliver s op).machine.frames.get? ctx.frame.id ≠ none →
      (m'.step Tracer.deliver s' op').machine.frames.get? ctx.frame.id ≠ none →
        (ctx.frame.id ∈ (m'.step Tracer.deliver s' op').machine.untraced ↔
          ctx.frame.id ∈ (m.step Tracer.deliver s op).machine.untraced ∨
            ctx.frame.id ∈ m.strays relative astray s op))
    (off : ctx.frame.id ∈ m.strays relative astray s op →
      ctx.frame.id ∉ (s.1.onEvent ctx s.2).2.1.session.targetFrames)
    (minds : Tracer.Matches base r (fun j => ¬ (m.step Tracer.deliver s op).machine.IsGone j)
      (s.1.onEvent ctx s.2).2.1 (s.1.onEvent ctx s.2).2.2
      (m'.step Tracer.deliver s' op').state.1 (m'.step Tracer.deliver s' op').state.2) :
    Shadows base r relative (m.strays relative astray s op)
      (m.step Tracer.deliver s op).machine (m.step Tracer.deliver s op).state
      (m'.step Tracer.deliver s' op').machine (m'.step Tracer.deliver s' op').state := by
  let x := m.step Tracer.deliver s op
  let x' := m'.step Tracer.deliver s' op'
  have issued := h.linked.isIssued
  have respells : Machine.Respells base relative x.machine x'.machine :=
    h.toRespells.step hop hd (panic_step calm_deliver m s op) (panic_step calm_deliver m' s' op')
  have event := issued.event?_of_heardBy heard
  have event' := (h.toRespells.same_event hop).trans event
  have hstate : x.state = (s.1.onEvent ctx s.2).2 := state_of_heard heard
  refine ⟨respells, h.linked.step hd, fun j hj => ?_, fun j hj => ?_, hstate ▸ minds⟩
  · by_cases hid : j = ctx.frame.id
    · subst hid
      have stays := h.linked.stays_of_event hd event hj
      exact mark stays (respells.get?_ne_none stays)
    · have hkept := h.marks j (not_isGone_of_step hj)
      rw [mem_strays_of_ne heard hid, mem_untraced_step event hid, mem_untraced_step event' hid]
      exact hkept
  · by_cases hid : j = ctx.frame.id
    · subst hid
      exact hstate ▸ off hj
    · have hbesides := Tracer.besides_onEvent h.minds.observed ctx s.2
      rw [mem_strays_of_ne heard hid] at hj
      rw [hstate, hbesides.attached j hid]
      exact h.unattached j hj

section step
variable (h : Shadows base r relative astray m s m' s')
  (hop : op.Respells base (relative m.nextId) op') (hd : op.IsDisciplined m)
include h hop hd

/-- An event that both hear, and whose spelling decides nothing. -/
theorem step_alike (heard : m.heardBy? op = some (hook, ctx))
    (heard' : m'.heardBy? op' = some (hook, ctx')) (respells : Context.Respells base relative ctx ctx')
    (settled : (relative ctx.frame.id && s.1.turnsOnSpelling s.2 ctx) = false)
    (found : ctx.event.isCall = false → ctx.frame.id ∉ astray)
    (fails : m'.fails s' op' = m.fails s op) :
    KeepsUp base r relative astray m s m' s' op op' := by
  have issued := h.linked.isIssued
  have alive := h.live_of_heard heard
  have hsettled : relative ctx.frame.id = true → s.1.turnsOnSpelling s.2 ctx = false :=
    fun respelled => by simpa [respelled] using settled
  have hfails : (s'.1.failure? s'.2 ctx').isSome = (s.1.failure? s.2 ctx).isSome := by
    unfold Machine.fails at fails
    rwa [heard, heard'] at fails
  obtain ⟨hanswer, hminds⟩ := h.minds.onEvent respells alive.1 alive.2 hsettled hfails
  have hfound : ctx.frame.id ∉ m.strays relative astray s op := by
    unfold strays
    rw [heard]
    dsimp only
    rw [settled, if_neg Bool.false_ne_true]
    split
    next => simp [mem_without]
    next call => exact found (Bool.eq_false_iff.mpr call)
  refine ⟨?_, h.told hop hd heard (fun stays stays' => ?_) (fun hin => absurd hin hfound) ?_⟩
  · rw [sight?_of_heard heard, sight?_of_heard heard', respells.event]
    cases running : ctx.event.isDiscard with
    | true => rfl
    | false =>
      obtain ⟨hverdict, hdecided⟩ := h.minds.decide respells running alive.1 alive.2 hsettled
      rw [hverdict, hdecided.level respells, respells.frame.id, respells.frame.line]
  · have hmark := mem_untraced_of_told issued heard (calm_deliver hook ctx s) stays
    have hmark' := mem_untraced_of_told (h.toRespells.isIssued issued) heard'
      (calm_deliver hook ctx' s') (respells.frame.id ▸ stays')
    rw [or_iff_left hfound, hmark, ← respells.frame.id, hmark']
    exact iff_of_eq (congrArg (· = Answer.skipFrame) hanswer)
  · exact state_of_heard heard' ▸ hminds.mono fun _ => not_isGone_of_step

/-- An event that both hear, and that turns on the spelling. -/
theorem step_turned (heard : m.heardBy? op = some (hook, ctx))
    (heard' : m'.heardBy? op' = some (hook, ctx')) (respells : Context.Respells base relative ctx ctx')
    (turns : (relative ctx.frame.id && s.1.turnsOnSpelling s.2 ctx) = true)
    (aside : s.1.regards s.2 ctx = false) :
    KeepsUp base r relative astray m s m' s' op op' := by
  obtain ⟨respelled, turned⟩ : relative ctx.frame.id = true ∧ s.1.turnsOnSpelling s.2 ctx = true := by
    simpa using turns
  obtain ⟨running, off⟩ := Tracer.off_of_turnsOnSpelling turned
  have running' : ctx'.event.isDiscard = false := respells.event ▸ running
  obtain ⟨faults, hkept⟩ :=
    Tracer.onEvent_of_disregarded h.minds.observed h.minds.codes running off aside
  have hhidden := (Tracer.decide_of_disregarded h.minds.observed h.minds.codes running off aside).2.1
  have hskip := h.minds.decide_turned respells (h.live_of_heard heard).1 respelled turned
  have hanswer : s'.1.onEvent ctx' s'.2 = (.skipFrame, s') := by
    rw [Tracer.onEvent_of_skip running' (congrArg Prod.fst hskip), hskip]
  have hastray : ctx.frame.id ∈ m.strays relative astray s op := by
    unfold strays
    rw [heard]
    dsimp only
    rw [turns, if_pos rfl]
    exact List.mem_insert_self
  refine ⟨?_, h.told hop hd heard (fun _ stays' => ?_) (fun _ => hkept ▸ off) ?_⟩
  · rw [sight?_of_heard heard, sight?_of_heard heard', hhidden, congrArg Prod.fst hskip]
    simp [Verdict.isShow]
  · have hmark' := mem_untraced_of_told (h.toRespells.isIssued h.linked.isIssued) heard'
      (calm_deliver hook ctx' s') (respells.frame.id ▸ stays')
    rw [← respells.frame.id, hmark', respells.frame.id]
    exact iff_of_true (congrArg Prod.fst hanswer) (.inr hastray)
  · have hminds := h.minds_onward op
    rw [state_of_heard heard', hanswer, hkept]
    exact hminds.withFaults faults s'.1.faults

/-- An event of a frame that has gone astray: only the first tracer hears it. -/
theorem step_lost (heard : m.heardBy? op = some (hook, ctx)) (unheard : m'.heardBy? op' = none)
    (hastray : ctx.frame.id ∈ astray) (call : ctx.event.isCall = false)
    (aside : s.1.regards s.2 ctx = false) :
    KeepsUp base r relative astray m s m' s' op op' := by
  let x := m.step Tracer.deliver s op
  let x' := m'.step Tracer.deliver s' op'
  have hd' := h.toRespells.disciplined hop hd
  have event := h.linked.isIssued.event?_of_heardBy heard
  have event' := (h.toRespells.same_event hop).trans event
  have off := h.unattached ctx.frame.id hastray
  have hstray : ctx.frame.id ∈ m.strays relative astray s op := by
    unfold strays
    rw [heard]
    dsimp only
    split
    · exact List.mem_insert_self
    · rwa [call, if_neg Bool.false_ne_true]
  have hmarked : x'.machine.frames.get? ctx.frame.id ≠ none → ctx.frame.id ∈ x'.machine.untraced := by
    intro stays'
    refine (mem_untraced_of_silent (applies_of_disciplined hd') unheard fun _ _ => stays').mpr ?_
    exact ⟨(h.marks _ (h.live_of_heard heard).2).mpr (.inr hastray), Op.retraces_of_event event' _⟩
  have hstate' : x'.state = s' := state_of_unheard unheard
  have hminds := h.minds_onward op
  cases running : ctx.event.isDiscard with
  | true =>
    have hdropped : (s.1.onEvent ctx s.2).2 = (s.1.dropFrame ctx.frame.id, s.2) :=
      congrArg Prod.snd (Tracer.onEvent_of_discard running)
    have hgone : x.machine.IsGone ctx.frame.id := isGone_of_discard h.linked hd event running
    refine ⟨?_, h.told hop hd heard (fun _ stays' => ?_) (fun _ => ?_) ?_⟩
    · rw [sight?_of_heard heard, sight?_of_unheard unheard, running]
      rfl
    · exact iff_of_true (hmarked stays') (.inr hstray)
    · rw [hdropped, (s.1.dropFrame_keeps ctx.frame.id).1]
      simp [Session.detach]
    · rw [hdropped, hstate']
      exact hminds.dropFrame_left off (not_not_intro hgone)
  | false =>
    obtain ⟨faults, hkept⟩ :=
      Tracer.onEvent_of_disregarded h.minds.observed h.minds.codes running off aside
    have hhidden :=
      (Tracer.decide_of_disregarded h.minds.observed h.minds.codes running off aside).2.1
    refine ⟨?_, h.told hop hd heard (fun _ stays' => ?_) (fun _ => hkept ▸ off) ?_⟩
    · rw [sight?_of_heard heard, sight?_of_unheard unheard, hhidden]
      simp
    · exact iff_of_true (hmarked stays') (.inr hstray)
    · rw [hkept, hstate']
      exact hminds.withFaults faults s'.1.faults

/-- An operation of whose event none hears. -/
theorem step_silent (unheard : m.heardBy? op = none) (unheard' : m'.heardBy? op' = none) :
    KeepsUp base r relative astray m s m' s' op op' := by
  let x := m.step Tracer.deliver s op
  let x' := m'.step Tracer.deliver s' op'
  have hd' := h.toRespells.disciplined hop hd
  have respells : Machine.Respells base relative x.machine x'.machine :=
    h.toRespells.step hop hd (panic_step calm_deliver m s op) (panic_step calm_deliver m' s' op')
  have hstate : x.state = s := state_of_unheard unheard
  have hstate' : x'.state = s' := state_of_unheard unheard'
  refine ⟨?_, ⟨respells, h.linked.step hd, fun j hj => ?_, fun j hj => ?_, ?_⟩⟩
  · rw [sight?_of_unheard unheard, sight?_of_unheard unheard']
  · have stays : ∀ e, op.event? m = some (j, e) → x.machine.frames.get? j ≠ none :=
      fun e event => h.linked.stays_of_event hd event hj
    have stays' : ∀ e, op'.event? m' = some (j, e) → x'.machine.frames.get? j ≠ none := by
      intro e event'
      rw [h.toRespells.same_event hop] at event'
      exact respells.get?_ne_none (stays e event')
    have hmark := mem_untraced_of_silent (applies_of_disciplined hd) unheard stays
    have hmark' := mem_untraced_of_silent (applies_of_disciplined hd') unheard' stays'
    rw [hmark, hmark', mem_strays_of_unheard unheard, hop.retraces,
      h.marks j (not_isGone_of_step hj), or_and_right]
  · rw [hstate]
    exact h.unattached j ((mem_strays_of_unheard unheard).mp hj).1
  · rw [hstate, hstate']
    exact h.minds_onward op

end step

/-- An operation whose event is not overlooked. -/
theorem step (h : Shadows base r relative astray m s m' s')
    (hop : op.Respells base (relative m.nextId) op') (hd : op.IsDisciplined m)
    (installed : (op.before m).hook = some hook)
    (seen : m.overlooks relative astray s op = false) (fails : m'.fails s' op' = m.fails s op) :
    KeepsUp base r relative astray m s m' s' op op' := by
  cases h.hearing hop hd installed with
  | alike hook ctx ctx' heard heard' respells settled found =>
    exact h.step_alike hop hd heard heard' respells settled found fails
  | turned hook ctx ctx' heard heard' respells turns =>
    refine h.step_turned hop hd heard heard' respells turns ?_
    unfold overlooks at seen
    rw [heard, Option.any_some, turns] at seen
    simpa using seen
  | lost hook ctx heard unheard hastray call =>
    refine h.step_lost hop hd heard unheard hastray call ?_
    unfold overlooks at seen
    rw [heard, Option.any_some, List.contains_iff_mem.mpr hastray, call] at seen
    simpa using seen
  | silent unheard unheard' => exact h.step_silent hop hd unheard unheard'

/-- An event that is overlooked: nothing is shown of it where the files are respelled. -/
theorem missed (h : Shadows base r relative astray m s m' s')
    (hop : op.Respells base (relative m.nextId) op') (hd : op.IsDisciplined m)
    (installed : (op.before m).hook = some hook)
    (misses : m.overlooks relative astray s op = true) :
    m'.sight? s' op' = none ∧
      (s.1.config.hitLimit = none → (m.sight? s op).isSome = true) := by
  unfold overlooks at misses
  have shows : ∀ hook ctx, m.heardBy? op = some (hook, ctx) → s.1.config.hitLimit = none →
      (m.sight? s op).isSome = true := by
    intro hook ctx heard unlimited
    rw [heard, Option.any_some, Bool.and_eq_true] at misses
    obtain ⟨running, shown⟩ := Tracer.isShow_of_regards unlimited misses.1
    rw [sight?_of_heard heard, running, shown]
    rfl
  cases h.hearing hop hd installed with
  | alike hook ctx ctx' heard heard' respells settled found =>
    rw [heard, Option.any_some, settled] at misses
    cases call : ctx.event.isCall <;> simp [call, found] at misses
  | turned hook ctx ctx' heard heard' respells turns =>
    obtain ⟨respelled, turned⟩ : relative ctx.frame.id = true ∧
        s.1.turnsOnSpelling s.2 ctx = true := by simpa using turns
    have hskip := h.minds.decide_turned respells (h.live_of_heard heard).1 respelled turned
    refine ⟨?_, shows hook ctx heard⟩
    rw [sight?_of_heard heard', congrArg Prod.fst hskip]
    simp [Verdict.isShow]
  | lost hook ctx heard unheard hastray call =>
    exact ⟨sight?_of_unheard unheard, shows hook ctx heard⟩
  | silent unheard unheard' =>
    rw [unheard] at misses
    cases misses

/-- A run up to the first event that is overlooked. -/
theorem run (h : Shadows base r relative astray m s m' s') (installed : m.hook = some hook)
    {ops ops' : List (Op FrameId)} (hd : m.Disciplined Tracer.deliver s ops)
    (hops : Op.RespellAll base relative m.nextId ops ops') :
    let k := (m.overlooked relative astray s ops).idxOf true
    (m'.along fails s' ops').take k = (m.along fails s ops).take k →
      (m'.along sight? s' ops').take k = (m.along sight? s ops).take k ∧
        (k < ops.length → (m'.along sight? s' ops')[k]? = some none ∧
          (s.1.config.hitLimit = none → ∃ x, (m.along sight? s ops)[k]? = some (some x))) := by
  induction ops generalizing astray m s m' s' ops' with
  | nil =>
    cases ops' with
    | nil => exact fun _ => ⟨rfl, fun hlt => absurd hlt (Nat.not_lt_zero _)⟩
    | cons op' ops' => exact hops.elim
  | cons op ops ih =>
    cases ops' with
    | nil => exact hops.elim
    | cons op' ops' =>
      obtain ⟨hop, keeps, hrest⟩ := hd
      obtain ⟨hrespells, hrespell⟩ := hops
      simp only [overlooked, along]
      cases misses : m.overlooks relative astray s op with
      | true =>
        obtain ⟨hmissed, hshown⟩ := h.missed hrespells hop (keeps.trans installed) misses
        intro _
        rw [List.idxOf_cons_self]
        refine ⟨rfl, fun _ => ⟨congrArg some hmissed, fun unlimited => ?_⟩⟩
        obtain ⟨x, hx⟩ := Option.isSome_iff_exists.mp (hshown unlimited)
        exact ⟨x, congrArg some hx⟩
      | false =>
        rw [List.idxOf_cons_ne _ (by simp)]
        intro hfails
        rw [List.take_succ_cons, List.take_succ_cons] at hfails
        obtain ⟨hfail, hfails⟩ := List.cons.inj hfails
        obtain ⟨hsight, hnext⟩ := h.step hrespells hop (keeps.trans installed) misses hfail
        have hcalm := panic_step calm_deliver m s op
        rw [← nextId_step hop hcalm] at hrespell
        obtain ⟨hsame, hfirst⟩ := ih hnext ((hook_step keeps).trans installed) hrest hrespell hfails
        refine ⟨?_, fun hlt => ?_⟩
        · rw [List.take_succ_cons, List.take_succ_cons, hsight, hsame]
        · rw [config_step m s op] at hfirst
          exact hfirst (Nat.lt_of_succ_lt_succ hlt)

end Shadows

/-- A tracer that observes a region, with any limits, and two runs of the same program that keep to the
stack, the second with the files of any frames spelled relative to the current directory. If renderers fail,
they fail on the same events. The same events are shown in both runs, at the same levels, up to the first
that is overlooked in the second: one that the tracer takes up, of a frame that is respelled, while no
frame is attached; or one of a frame that was given up before, at an event that turned on its spelling.
Nothing is shown of that event in the second run, while the first one shows it, unless it is beyond the
limit on hits. If no event is overlooked, the runs are shown alike to their ends. -/
theorem same_events_shown_until_one_is_overlooked {c : TracerConfig} {disk : Disk}
    {codes : List CodeId} {custom : List CustomFormat} {sources : SourceCache} {sink : Sink}
    {t : Tracer} {w : Surroundings} {scope : Region} {m : Machine} {hook : HookName}
    {relative : FrameId → Bool} {ops ops' : List (Op FrameId)}
    (setup : Tracer.outfit c disk codes custom sources sink = .ok t)
    (region : c.observed = some scope) (here : w.disk.current = disk.current)
    (rooted : disk.current.isAbsolute = true) (fresh : m.IsFresh) (installed : m.hook = some hook)
    (disciplined : m.Disciplined Tracer.deliver (t, w) ops)
    (respelled : Op.RespellAll disk.current relative m.nextId ops ops') :
    let shown := m.along sight? (t, w)
    let k := (m.overlooked relative [] (t, w) ops).idxOf true
    (m.along fails (t, w) ops').take k = (m.along fails (t, w) ops).take k →
      (shown ops').take k = (shown ops).take k ∧ (k < ops.length →
        (shown ops')[k]? = some none ∧
          (c.hitLimit = none → ∃ sight, (shown ops)[k]? = some (some sight))) := by
  obtain ⟨hconfig, hobserved⟩ := Tracer.observed_of_outfit setup region
  have hnone : ∀ j, m.standing j = none := by
    intro j
    unfold standing
    rw [fresh.frames]
    rfl
  have h : Shadows disk.current { scope with file := disk.absolute scope.file } relative [] m (t, w) m
      (t, w) := by
    refine ⟨⟨rfl, fun j => ?_⟩, fresh.linked, fun j _ => by simp, by simp, ?_⟩
    · rw [hnone]
      exact .none
    · exact ⟨Path.isAbsolute_join rooted scope.file, hobserved, hobserved, rfl,
        (Tracer.isNew_of_outfit setup).codes _ hobserved, here, here, .refl _ _⟩
  rw [← hconfig]
  exact h.run installed disciplined respelled

def callsSpelled (file : Path) : List (Op FrameId) :=
  [.call ⟨"f", ⟨"/p.py"⟩, 1⟩ [], .line ⟨0, 0⟩ 2, .call ⟨"g", file, 3⟩ [], .line ⟨0, 1⟩ 4,
    .ret ⟨0, 1⟩ (.int 1), .ret ⟨0, 0⟩ (.int 1), .call ⟨"h", file, 5⟩ [], .line ⟨0, 2⟩ 6,
    .ret ⟨0, 2⟩ (.int 1)]

theorem respells_root : Path.Respells ⟨"/"⟩ ⟨"/p.py"⟩ ⟨"p.py"⟩ := by decide +kernel

theorem respellAll_callsSpelled :
    Op.RespellAll ⟨"/"⟩ (fun id => id.serial ≠ 0) ⟨0, 0⟩ (callsSpelled ⟨"/p.py"⟩)
      (callsSpelled ⟨"p.py"⟩) := by
  have kept : ∀ (b : Bool) (op : Op FrameId), op.isBirth = false → op.Respells ⟨"/"⟩ b op :=
    fun _ op life => .same op fun birth => absurd birth (Bool.eq_false_iff.mp life)
  exact ⟨.same _ fun _ => rfl, kept _ _ rfl, .call _ _ _ rfl respells_root, kept _ _ rfl, kept _ _ rfl,
    kept _ _ rfl, .call _ _ _ rfl respells_root, kept _ _ rfl, kept _ _ rfl, trivial⟩

theorem same_events_shown_until_one_is_overlooked_of_third_call :
    let scope : Region := ⟨⟨"/p.py"⟩, 1, 9⟩
    let c : TracerConfig := { observed := some scope }
    let t : Tracer :=
      { config := c, observed := c.observed, renderer := { maxLength := some 100 }
        sink := .lines [] }
    let m : Machine := { hook := some "trace" }
    let relative : FrameId → Bool := fun id => id.serial ≠ 0
    let shown := m.along sight? (t, {})
    let ops := callsSpelled ⟨"/p.py"⟩
    let ops' := callsSpelled ⟨"p.py"⟩
    Tracer.outfit c diskOfFile [] [] {} (.lines []) = .ok t ∧ diskOfFile.current.isAbsolute = true ∧
      m.IsFresh ∧ m.Disciplined Tracer.deliver (t, {}) ops ∧
      Op.RespellAll diskOfFile.current relative m.nextId ops ops' ∧
      (m.overlooked relative [] (t, {}) ops).idxOf true = 6 ∧
      (shown ops').take 6 = (shown ops).take 6 ∧ (shown ops')[6]? = some none ∧
      ∃ sight, (shown ops)[6]? = some (some sight) := by
  intro scope c t m relative shown ops ops'
  have setup : Tracer.outfit c diskOfFile [] [] {} (.lines []) = .ok t :=
    outfit_diskOfFile _ (by decide) (by decide)
  have rooted : diskOfFile.current.isAbsolute = true := by decide +kernel
  have disciplined : m.Disciplined Tracer.deliver (t, {}) ops := by decide +kernel
  have first : (m.overlooked relative [] (t, {}) ops).idxOf true = 6 := by decide +kernel
  have fails : (m.along fails (t, {}) ops').take 6 = (m.along fails (t, {}) ops).take 6 := by
    decide +kernel
  have h := same_events_shown_until_one_is_overlooked (w := {}) setup rfl rfl rooted
    ⟨rfl, rfl, rfl, rfl⟩ rfl disciplined respellAll_callsSpelled
  dsimp only at h
  rw [first] at h
  obtain ⟨hsame, hmissed⟩ := h fails
  exact ⟨setup, rooted, ⟨rfl, rfl, rfl, rfl⟩, disciplined, respellAll_callsSpelled, first, hsame,
    (hmissed (by decide)).1, (hmissed (by decide)).2 rfl⟩

/-- A call and all that follows of its frame is shown, or none of it, by how its file is spelled. -/
theorem respelled_call_is_overlooked :
    let c : TracerConfig := { observed := some ⟨⟨"/p.py"⟩, 1, 2⟩ }
    let t : Tracer :=
      { config := c, observed := c.observed, renderer := { maxLength := some 100 }
        sink := .lines [] }
    let m : Machine := { hook := some "trace" }
    let ops : Path → List (Op FrameId) := fun file =>
      [.call ⟨"f", file, 1⟩ [], .line ⟨0, 0⟩ 2, .ret ⟨0, 0⟩ (.int 1)]
    let shown := fun file => (m.along sight? (t, {}) (ops file)).map Option.isSome
    Tracer.outfit c diskOfFile [] [] {} (.lines []) = .ok t ∧ m.IsFresh ∧
      m.Disciplined Tracer.deliver (t, {}) (ops ⟨"/p.py"⟩) ∧
      Op.RespellAll diskOfFile.current (fun _ => true) m.nextId (ops ⟨"/p.py"⟩) (ops ⟨"p.py"⟩) ∧
      shown ⟨"/p.py"⟩ = [true, true, true] ∧ shown ⟨"p.py"⟩ = [false, false, false] := by
  intro c t m ops shown
  have setup : Tracer.outfit c diskOfFile [] [] {} (.lines []) = .ok t :=
    outfit_diskOfFile _ (by decide) (by decide)
  refine ⟨setup, ⟨rfl, rfl, rfl, rfl⟩, by decide +kernel, ?_, by decide +kernel, by decide +kernel⟩
  exact ⟨.call _ _ _ rfl respells_root, .same _ nofun, .same _ nofun, trivial⟩

end SelectiveTrace
