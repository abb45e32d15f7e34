import SelectiveTrace.Program
import SelectiveTrace.Proofs.History.Agreement
import SelectiveTrace.Proofs.Host.WellMade
import SelectiveTrace.Proofs.Tracer.Attention

/-! One program in three runs: under a recorder that goes along with everything, under a probe and under
a variable tracer. The hooks steer nothing but which events they are told, and the probe and the
tracer are told the same, so the runs go abreast whatever the program does. -/
namespace SelectiveTrace
open Machine

def Recorder.SawDrop (r : Recorder) : Prop :=
  ∃ x ∈ r.sightings, x.event = Event.discard.name

structure Trio (a b c : Audience) (r : Recorder) (p : Probe) (t : VariableTracer) : Prop where
  recorder : a.hooks = [(Program.hookName, .recorder r)]
  probe : b.hooks = [(Program.hookName, .probe p)]
  tracer : c.hooks = [(Program.hookName, .history t)]
  goesAlong : r.skipped = [] ∧ r.failing = []
  agree : Agree p t r.SawDrop

namespace Trio
variable {a b c : Audience} {r : Recorder} {p : Probe} {t : VariableTracer}

theorem sawDrop_of_discard (r : Recorder) {ctx : Context} (h : ctx.event.isDiscard = true) :
    (r.onEvent ctx).2.SawDrop := by
  refine ⟨.ofContext ctx, by simp [Recorder.onEvent], ?_⟩
  cases he : ctx.event <;> simp [he, Event.isDiscard, Sighting.ofContext] at h ⊢

theorem sawDrop_mono {r : Recorder} (ctx : Context) (h : r.SawDrop) : (r.onEvent ctx).2.SawDrop := by
  obtain ⟨x, hx, hd⟩ := h
  exact ⟨x, List.mem_append_left _ hx, hd⟩

theorem answer_goesAlong (h : r.skipped = [] ∧ r.failing = []) (ctx : Context) :
    (r.onEvent ctx).1 = .proceed := by
  simp [Recorder.onEvent, Recorder.answer, h]

end Trio

/-- A single hook hears what is meant for it. -/
theorem Audience.deliver_of_single {a : Audience} {name : HookName} {h : Hook}
    (hooks : a.hooks = [(name, h)]) (ctx : Context) :
    Audience.deliver name ctx a =
      let r := h.onEvent ctx a.around
      (r.1, ⟨[(name, r.2.1)], r.2.2⟩) := by
  unfold Audience.deliver
  rw [hooks]
  simp [Bindings.get?, Bindings.set]

theorem Audience.deliver_of_other {a : Audience} {name other : HookName} {h : Hook}
    (hooks : a.hooks = [(name, h)]) (ne : name ≠ other) (ctx : Context) :
    Audience.deliver other ctx a = (.proceed, a) := by
  unfold Audience.deliver
  rw [hooks]
  simp [Bindings.get?, ne]

def Attends (a b c : Audience) : Prop :=
  ∃ r p t, Trio a b c r p t

namespace Attends
variable {a b c : Audience}

/-- The recorder alone hears an event. -/
theorem sights (h : Attends a b c) (name : HookName) (ctx : Context) :
    ∃ a', Audience.deliver name ctx a = (.proceed, a') ∧ Attends a' b c := by
  obtain ⟨r, p, t, ht⟩ := h
  by_cases hn : Program.hookName = name
  · subst hn
    refine ⟨⟨[(Program.hookName, .recorder (r.onEvent ctx).2)], a.around⟩, ?_, (r.onEvent ctx).2, p, t,
      rfl, ht.probe, ht.tracer, ht.goesAlong, ht.agree.mono (Trio.sawDrop_mono ctx)⟩
    rw [Audience.deliver_of_single ht.recorder]
    simp only [Hook.onEvent, Trio.answer_goesAlong ht.goesAlong]
  · exact ⟨a, Audience.deliver_of_other ht.recorder hn ctx, r, p, t, ht⟩

/-- All three hear an event, and the probe and the tracer answer alike. -/
theorem hears (h : Attends a b c) (name : HookName) (ctx : Context) :
    ∃ answer a' b' c', (∀ text, answer ≠ .panicked text) ∧
      Audience.deliver name ctx a = (.proceed, a') ∧ Audience.deliver name ctx b = (answer, b') ∧
      Audience.deliver name ctx c = (answer, c') ∧ Attends a' b' c' := by
  obtain ⟨r, p, t, ht⟩ := h
  by_cases hn : Program.hookName = name
  · subst hn
    obtain ⟨hsame, hcalm, hagree⟩ := ht.agree.onEvent ctx c.around
    have hdropped : r.SawDrop ∨ ctx.event.isDiscard = true → (r.onEvent ctx).2.SawDrop :=
      fun hd => hd.elim (Trio.sawDrop_mono ctx) (Trio.sawDrop_of_discard r)
    refine ⟨(p.onEvent ctx).1, ⟨[(Program.hookName, .recorder (r.onEvent ctx).2)], a.around⟩,
      ⟨[(Program.hookName, .probe (p.onEvent ctx).2)], b.around⟩,
      ⟨[(Program.hookName, .history (t.onEvent ctx c.around).2.1)], (t.onEvent ctx c.around).2.2⟩,
      hcalm, ?_, ?_, ?_, _, _, _, rfl, rfl, rfl, ht.goesAlong, hagree.mono hdropped⟩
    · rw [Audience.deliver_of_single ht.recorder]
      simp only [Hook.onEvent, Trio.answer_goesAlong ht.goesAlong]
    · exact Audience.deliver_of_single ht.probe ctx
    · rw [Audience.deliver_of_single ht.tracer, ← hsame]
      rfl
  · exact ⟨.proceed, a, b, c, by simp, Audience.deliver_of_other ht.recorder hn ctx,
      Audience.deliver_of_other ht.probe hn ctx, Audience.deliver_of_other ht.tracer hn ctx,
      r, p, t, ht⟩

end Attends

namespace Machine

structure Level (a b c : Outcome Audience) : Prop where
  calm : a.panic = none ∧ b.panic = none ∧ c.panic = none
  recorder : a.machine = b.machine.attending
  tracer : c.machine = b.machine
  attends : Attends a.state b.state c.state

variable {a b c : Audience}

section dispatch
variable {σ : Type} {deliver : Deliver σ} {m : Machine} {s s' : σ} {id : FrameId} {e : Event}

theorem dispatch_of_none (h : m.heardOf? id e = none) : m.dispatch deliver s id e = ⟨m, s, none⟩ := by
  unfold heardOf? at h
  unfold dispatch
  cases hk : m.hook with
  | none => rfl
  | some hook =>
    cases hf : m.frames.get? id with
    | none => rfl
    | some f =>
      have hu : m.hears id e = false := by simpa [hk, hf] using h
      dsimp only
      rw [not_hears, hu]
      rfl

theorem dispatch_of_some {heard : HookName × Context} {a : Answer}
    (h : m.heardOf? id e = some heard) (answer : deliver heard.1 heard.2 s = (a, s'))
    (calm : ∀ text, a ≠ .panicked text) : m.dispatch deliver s id e = ⟨m.heed id e a, s', none⟩ := by
  have hm := machine_dispatch deliver m s id e
  have hs := state_dispatch deliver m s id e
  rw [h] at hm hs
  have hp : (m.dispatch deliver s id e).panic = none := by
    unfold heardOf? at h
    obtain ⟨hook, hk, h⟩ := Option.bind_eq_some_iff.mp h
    obtain ⟨f, hf, h⟩ := Option.bind_eq_some_iff.mp h
    split at h
    next hu =>
      cases h
      unfold dispatch
      rw [hk, hf]
      dsimp only
      rw [not_hears, hu, if_neg (by simp), answer]
      cases a with
      | panicked text => exact absurd rfl (calm text)
      | skipFrame => rfl
      | proceed => rfl
    next => cases h
  simp only [Option.elim_some, answer] at hm
  simp only [informed, Option.toList_some, List.foldl_cons, List.foldl_nil, answer] at hs
  rw [← hm, ← hs, ← hp]

/-- A machine that has given up no frame is told whatever another one is told. -/
theorem heardOf?_attending {heard : HookName × Context} (h : m.heardOf? id e = some heard) :
    m.attending.heardOf? id e = some heard := by
  unfold heardOf? at h ⊢
  rw [hears_attending]
  obtain ⟨hook, hk, h⟩ := Option.bind_eq_some_iff.mp h
  obtain ⟨f, hf, h⟩ := Option.bind_eq_some_iff.mp h
  refine Option.bind_eq_some_iff.mpr ⟨hook, hk, Option.bind_eq_some_iff.mpr ⟨f, hf, ?_⟩⟩
  split at h
  · exact h
  · cases h

theorem heed_attending (m : Machine) (id : FrameId) (e : Event) :
    m.attending.heed id e .proceed = m.attending := by
  unfold heed
  cases e.isCall <;> rfl

end dispatch

theorem Level.dispatch (h : Attends a b c) (m : Machine) (id : FrameId) (e : Event) :
    Level (m.attending.dispatch Audience.deliver a id e) (m.dispatch Audience.deliver b id e)
      (m.dispatch Audience.deliver c id e) := by
  have goesAlong : ∀ text, Answer.proceed ≠ .panicked text := by simp
  cases hheard : m.heardOf? id e with
  | some heard =>
    obtain ⟨answer, a', b', c', hcalm, ha, hb, hc, h'⟩ := h.hears heard.1 heard.2
    rw [dispatch_of_some (heardOf?_attending hheard) ha goesAlong,
      dispatch_of_some hheard hb hcalm, dispatch_of_some hheard hc hcalm]
    exact ⟨⟨rfl, rfl, rfl⟩, (heed_attending m id e).trans (attending_heed m id e answer).symm, rfl, h'⟩
  | none =>
    rw [dispatch_of_none (s := b) hheard, dispatch_of_none (s := c) hheard]
    cases hheard' : m.attending.heardOf? id e with
    | none =>
      rw [dispatch_of_none hheard']
      exact ⟨⟨rfl, rfl, rfl⟩, rfl, rfl, h⟩
    | some heard =>
      obtain ⟨a', ha, h'⟩ := h.sights heard.1 heard.2
      rw [dispatch_of_some hheard' ha goesAlong]
      exact ⟨⟨rfl, rfl, rfl⟩, heed_attending m id e, rfl, h'⟩

theorem applies_attending (m : Machine) (op : Op FrameId) : op.applies m.attending = op.applies m := by
  cases op <;> rfl

/-- One operation. -/
theorem Level.step (h : Attends a b c) (m : Machine) (op : Op FrameId) :
    Level (m.attending.step Audience.deliver a op) (m.step Audience.deliver b op)
      (m.step Audience.deliver c op) := by
  unfold Machine.step
  rw [applies_attending, event?_attending, ← attending_before]
  cases op.applies m with
  | false => exact ⟨⟨rfl, rfl, rfl⟩, rfl, rfl, h⟩
  | true =>
    cases op.event? m with
    | none => exact ⟨⟨rfl, rfl, rfl⟩, rfl, rfl, h⟩
    | some ev =>
      have hd := Level.dispatch h (op.before m) ev.1 ev.2
      simp only [Bool.not_true, Bool.false_eq_true, if_false]
      rw [if_neg (by simp [hd.calm]), if_neg (by simp [hd.calm]), if_neg (by simp [hd.calm])]
      refine ⟨hd.calm, ?_, congrArg op.after hd.tracer, hd.attends⟩
      dsimp only
      rw [hd.recorder, attending_after]

end Machine

namespace Table
variable {κ α β : Type} [DecidableEq κ]

def map (f : α → β) (t : Table κ α) : Table κ β :=
  ⟨t.entries.map fun e => (e.1, f e.2)⟩

theorem get?_map (f : α → β) (t : Table κ α) (k : κ) : (t.map f).get? k = (t.get? k).map f := by
  unfold map get?
  rw [List.find?_map, Option.map_map, Option.map_map]
  rfl

theorem map_insert (f : α → β) (t : Table κ α) (k : κ) (v : α) :
    (t.insert k v).map f = (t.map f).insert k (f v) := by
  unfold map insert erase
  rw [List.filter_map]
  rfl

end Table

namespace Scene

def stage (s : Scene) : Scene :=
  { s with audience := {}, told := {}, log := [] }

def attending (s : Scene) : Scene :=
  { s with machines := s.machines.map Machine.attending }

theorem machine_attending (s : Scene) : s.attending.machine = s.machine.attending := by
  unfold machine
  rw [attending, Table.get?_map]
  cases s.machines.get? s.running <;> rfl

theorem attending_setMachine (s : Scene) (m : Machine) :
    (s.setMachine m).attending = s.attending.setMachine m.attending := by
  unfold setMachine attending
  rw [Table.map_insert]

theorem attending_openThread (s : Scene) (key : String) (name : Option String) :
    (s.openThread key name).attending = s.attending.openThread key name := by
  have hc : s.attending.machines.contains (some key) = s.machines.contains (some key) := by
    rw [Table.contains, attending, Table.get?_map, Option.isSome_map]
    rfl
  unfold openThread
  rw [hc]
  split
  · rfl
  · unfold attending
    rw [Table.map_insert]
    rfl

structure Abreast (a b c : Scene) : Prop where
  recorder : a.stage = b.stage.attending
  tracer : c.stage = b.stage
  attends : Attends a.audience b.audience c.audience

namespace Abreast
variable {a b c : Scene}

/-- What is read off a scene besides its hooks and the frames given up is the same in all runs. -/
theorem same {α : Type} (h : Abreast a b c) (read : Scene → α) (stage : ∀ s, read s.stage = read s)
    (attending : ∀ s, read s.attending = read s) : read a = read b ∧ read c = read b := by
  rw [← stage a, h.recorder, attending, stage, ← stage c, h.tracer, stage]
  exact ⟨rfl, rfl⟩

/-- What changes nothing about the hooks, and does not look at them, keeps runs abreast. -/
theorem steer (h : Abreast a b c) (change : Scene → Scene)
    (stage : ∀ s, (change s).stage = (change s.stage).stage)
    (attending : ∀ s, (change s).attending = change s.attending)
    (audience : ∀ s, (change s).audience = s.audience) :
    Abreast (change a) (change b) (change c) := by
  refine ⟨?_, ?_, ?_⟩
  · rw [stage, h.recorder, ← attending, stage b]
    rfl
  · rw [stage, h.tracer, ← stage]
  · rw [audience, audience, audience]
    exact h.attends

theorem machine (h : Abreast a b c) :
    a.machine = b.machine.attending ∧ c.machine = b.machine := by
  have ha : a.machine = a.stage.machine := rfl
  have hc : c.machine = c.stage.machine := rfl
  rw [ha, hc, h.recorder, h.tracer, machine_attending]
  exact ⟨rfl, rfl⟩

theorem note (h : Abreast a b c) (word : String) (x y z : Result) :
    Abreast (a.note word x) (b.note word y) (c.note word z) :=
  ⟨h.recorder, h.tracer, h.attends⟩

theorem stage_setMachine (s : Scene) (m : Machine) (x : Audience) :
    Scene.stage { s.setMachine m with audience := x } = s.stage.setMachine m := rfl

theorem operate (h : Abreast a b c) (op : Op FrameId) :
    ∃ a' b' c', a.operate op = (.done, a') ∧ b.operate op = (.done, b') ∧
      c.operate op = (.done, c') ∧ Abreast a' b' c' := by
  obtain ⟨ha, hc⟩ := h.machine
  have hl := Level.step h.attends b.machine op
  rw [← ha] at hl
  have hl' : Level (a.machine.step Audience.deliver a.audience op)
      (b.machine.step Audience.deliver b.audience op)
      (c.machine.step Audience.deliver c.audience op) := by
    rw [hc]
    exact hl
  obtain ⟨hpa, hpb, hpc⟩ := hl'.calm
  unfold Scene.operate
  dsimp only
  rw [hpa, hpb, hpc]
  refine ⟨_, _, _, rfl, rfl, rfl, ?_, ?_, hl'.attends⟩
  · rw [stage_setMachine, stage_setMachine, hl'.recorder, h.recorder, attending_setMachine]
  · rw [stage_setMachine, stage_setMachine, hl'.tracer, h.tracer]

end Abreast

def InStep (f : Scene → Exit × Scene) : Prop :=
  ∀ ⦃a b c : Scene⦄, Abreast a b c → ∃ exit a' b' c', f a = (exit, a') ∧ f b = (exit, b') ∧
    f c = (exit, c') ∧ Abreast a' b' c'

def numbering (s : Scene) (op : Op String) : Scene :=
  { s with births := if op.isBirth then s.births ++ [s.machine.nextId] else s.births }

theorem host_of_known {s : Scene} {op : Op String}
    (known : (op.frame?.any fun l => !s.frames.contains l) = false) (label : Option String) :
    s.host label op =
      match (s.numbering op).operate (op.map fun l => (s.frames.get? l).getD s.machine.nextId) with
      | (.done, s') => (.done, label.elim s' fun l => s'.bind l s.machine.nextId)
      | r => r := by
  have hborn : (if op.isBirth then { s with births := s.births ++ [s.machine.nextId] } else s) =
      s.numbering op := by
    unfold numbering
    cases op.isBirth <;> rfl
  unfold Scene.host
  rw [known, if_neg Bool.false_ne_true]
  dsimp only
  rw [hborn]
  have hf : (s.numbering op).frames = s.frames := rfl
  rw [hf]
  cases (s.numbering op).operate (op.map fun l => (s.frames.get? l).getD s.machine.nextId) with
  | mk exit s' =>
    cases exit with
    | done => cases label <;> rfl
    | failed e => rfl
    | panicked text => rfl

theorem inStep_host (label : Option String) (op : Op String) : InStep fun s => s.host label op := by
  intro a b c h
  have hframes := h.same (·.frames) (fun _ => rfl) fun _ => rfl
  have hnext : a.machine.nextId = b.machine.nextId ∧ c.machine.nextId = b.machine.nextId := by
    rw [h.machine.1, h.machine.2]
    exact ⟨rfl, rfl⟩
  dsimp only
  cases hb : op.frame?.any fun l => !b.frames.contains l with
  | true =>
    have hidle : ∀ s : Scene, s.frames = b.frames → s.host label op = (.done, s) := by
      intro s hs
      unfold Scene.host
      rw [hs, hb]
      rfl
    exact ⟨.done, a, b, c, hidle a hframes.1, hidle b rfl, hidle c hframes.2, h⟩
  | false =>
    have hnumbered : Abreast (a.numbering op) (b.numbering op) (c.numbering op) := by
      have hsame := h.steer
        (fun s => { s with births := if op.isBirth then s.births ++ [b.machine.nextId] else s.births })
        (fun _ => rfl) (fun _ => rfl) fun _ => rfl
      unfold numbering
      rw [hnext.1, hnext.2]
      exact hsame
    obtain ⟨a', b', c', ha, hb', hc, h'⟩ := hnumbered.operate
      (op.map fun l => (b.frames.get? l).getD b.machine.nextId)
    rw [host_of_known (hframes.1 ▸ hb), host_of_known hb, host_of_known (hframes.2 ▸ hb),
      hframes.1, hframes.2, hnext.1, hnext.2, ha, hb', hc]
    refine ⟨.done, _, _, _, rfl, rfl, rfl, ?_⟩
    cases label with
    | none => exact h'
    | some l => exact h'.steer (·.bind l b.machine.nextId) (fun _ => rfl) (fun _ => rfl) fun _ => rfl

def HasNoTracer (s : Scene) : Prop :=
  ∀ name, s.tracer? name = none

theorem onTracer_of_none {s : Scene} (h : s.HasNoTracer) (name : String)
    (change : Tracer → Surroundings → Tracer × Surroundings) : s.onTracer name change = s := by
  unfold onTracer
  rw [h name]

theorem tracer?_of_single {s : Scene} {name : HookName} {hook : Hook}
    (hooks : s.audience.hooks = [(name, hook)]) (other : ∀ t, hook ≠ .tracer t) : s.HasNoTracer := by
  intro asked
  unfold tracer?
  rw [hooks]
  by_cases hn : name = asked
  · cases hook with
    | tracer t => exact absurd rfl (other t)
    | recorder r | history t | probe p => simp [Bindings.get?, hn]
  · simp [Bindings.get?, hn]

theorem Abreast.hasNoTracer {a b c : Scene} (h : Abreast a b c) :
    a.HasNoTracer ∧ b.HasNoTracer ∧ c.HasNoTracer := by
  obtain ⟨r, p, t, ht⟩ := h.attends
  exact ⟨tracer?_of_single ht.recorder (by simp), tracer?_of_single ht.probe (by simp),
    tracer?_of_single ht.tracer (by simp)⟩

end Scene

def Action.acts : Action → Bool
  | .host .. | .panic _ | .fail _ | .place .. => true
  | _ => false

/-- Any other action only looks, or it is about a tracer. -/
theorem Action.run_of_idle {x : Action} {s : Scene} (h : s.HasNoTracer) (idle : x.acts = false) :
    ∃ r, x.run s = (.done, r, s) := by
  cases x with
  | host label op | panic text | fail e | place file contents => cases idle
  | installed | read file | globals file => exact ⟨_, rfl⟩
  | target name code | finish name | register name file text =>
    refine ⟨.nothing, ?_⟩
    simp only [Action.run, Scene.onTracer_of_none h]
  | session name label line | frame label =>
    simp only [Action.run]
    cases s.frames.get? label with
    | none => exact ⟨.nothing, rfl⟩
    | some id => exact ⟨_, rfl⟩
  | enter name label | exit name label =>
    refine ⟨.nothing, ?_⟩
    simp only [Action.run, Scene.enter, Scene.exit, Scene.onTracer_of_none h]
    cases s.frames.get? label <;> rfl

namespace Scene

theorem Abreast.act {a b c : Scene} (h : Abreast a b c) (x : Action) :
    ∃ exit ra rb rc a' b' c', x.run a = (exit, ra, a') ∧ x.run b = (exit, rb, b') ∧
      x.run c = (exit, rc, c') ∧ Abreast a' b' c' := by
  cases hx : x.acts with
  | false =>
    obtain ⟨na, nb, nc⟩ := h.hasNoTracer
    obtain ⟨ra, ha⟩ := Action.run_of_idle na hx
    obtain ⟨rb, hb⟩ := Action.run_of_idle nb hx
    obtain ⟨rc, hc⟩ := Action.run_of_idle nc hx
    exact ⟨.done, ra, rb, rc, a, b, c, ha, hb, hc, h⟩
  | true =>
    cases x with
    | host label op =>
      obtain ⟨exit, a', b', c', ha, hb, hc, h'⟩ := inStep_host label op h
      dsimp only at ha hb hc
      refine ⟨exit, .nothing, .nothing, .nothing, a', b', c', ?_, ?_, ?_, h'⟩
      · simp only [Action.run, ha]
      · simp only [Action.run, hb]
      · simp only [Action.run, hc]
    | panic text => exact ⟨.panicked text, .nothing, .nothing, .nothing, a, b, c, rfl, rfl, rfl, h⟩
    | fail e => exact ⟨.failed e, .nothing, .nothing, .nothing, a, b, c, rfl, rfl, rfl, h⟩
    | place file contents =>
      have hplace : ∀ s : Scene, (s.place file contents).stage = s.stage ∧
          (s.place file contents).audience.hooks = s.audience.hooks := by
        intro s
        unfold Scene.place
        cases contents <;> exact ⟨rfl, rfl⟩
      refine ⟨.done, .nothing, .nothing, .nothing, _, _, _, rfl, rfl, rfl, ?_, ?_, ?_⟩
      · rw [(hplace a).1, (hplace b).1, h.recorder]
      · rw [(hplace c).1, (hplace b).1, h.tracer]
      · obtain ⟨r, p, t, ht⟩ := h.attends
        exact ⟨r, p, t, (hplace a).2.trans ht.recorder, (hplace b).2.trans ht.probe,
          (hplace c).2.trans ht.tracer, ht.goesAlong, ht.agree⟩
    | _ => cases hx

namespace InStep
variable {f g : Scene → Exit × Scene}

/-- One thing after the other, up to the first that ends in another way than done. -/
theorem andThen (hf : InStep f) (hg : InStep g) :
    InStep fun s => match f s with
      | (.done, s) => g s
      | r => r := by
  intro a b c h
  obtain ⟨exit, a', b', c', ha, hb, hc, h'⟩ := hf h
  dsimp only
  rw [ha, hb, hc]
  cases exit with
  | done => exact hg h'
  | failed e => exact ⟨.failed e, a', b', c', rfl, rfl, rfl, h'⟩
  | panicked text => exact ⟨.panicked text, a', b', c', rfl, rfl, rfl, h'⟩

theorem close (hf : InStep f) (word : String) : InStep fun s => Scene.close word (f s) := by
  intro a b c h
  obtain ⟨exit, a', b', c', ha, hb, hc, h'⟩ := hf h
  dsimp only
  rw [ha, hb, hc]
  cases exit with
  | done => exact ⟨.done, _, _, _, rfl, rfl, rfl, h'.note word .nothing .nothing .nothing⟩
  | failed e => exact ⟨.failed e, a', b', c', rfl, rfl, rfl, h'⟩
  | panicked text => exact ⟨.panicked text, a', b', c', rfl, rfl, rfl, h'⟩

theorem guard (hf : InStep f) :
    InStep fun s => match f s with
      | (.panicked text, s) => (.done, s.note "catch" (.panicked text))
      | r => Scene.close "catch" r := by
  intro a b c h
  obtain ⟨exit, a', b', c', ha, hb, hc, h'⟩ := hf h
  dsimp only
  rw [ha, hb, hc]
  cases exit with
  | done => exact ⟨.done, _, _, _, rfl, rfl, rfl, h'.note "catch" .nothing .nothing .nothing⟩
  | failed e => exact ⟨.failed e, a', b', c', rfl, rfl, rfl, h'⟩
  | panicked text => exact ⟨.done, _, _, _, rfl, rfl, rfl, h'.note _ _ _ _⟩

theorem attempt (hf : InStep f) :
    InStep fun s => match f s with
      | (.failed e, s) => (.done, s.note "try" (.raised e.text))
      | r => Scene.close "try" r := by
  intro a b c h
  obtain ⟨exit, a', b', c', ha, hb, hc, h'⟩ := hf h
  dsimp only
  rw [ha, hb, hc]
  cases exit with
  | done => exact ⟨.done, _, _, _, rfl, rfl, rfl, h'.note "try" .nothing .nothing .nothing⟩
  | failed e => exact ⟨.done, _, _, _, rfl, rfl, rfl, h'.note _ _ _ _⟩
  | panicked text => exact ⟨.panicked text, a', b', c', rfl, rfl, rfl, h'⟩

/-- Something under a hook of its own. -/
theorem under (hook : HookName) {body : Program} (hf : InStep (runAll body)) :
    InStep (runUnder hook body) := by
  intro a b c h
  obtain ⟨a₁, b₁, c₁, ha₁, hb₁, hc₁, h₁⟩ := h.operate (.pushTrace hook)
  obtain ⟨exit, a₂, b₂, c₂, ha₂, hb₂, hc₂, h₂⟩ := hf h₁
  obtain ⟨a₃, b₃, c₃, ha₃, hb₃, hc₃, h₃⟩ := h₂.operate .popTrace
  refine ⟨exit, a₃, b₃, c₃, ?_, ?_, ?_, h₃⟩
  · simp only [runUnder, ha₁, ha₂, ha₃]
  · simp only [runUnder, hb₁, hb₂, hb₃]
  · simp only [runUnder, hc₁, hc₂, hc₃]

end InStep

/-- Where the block of a tracer begins there is no tracer, but the current frame is reported again. -/
theorem Abreast.beginBlock {a b c : Scene} (h : Abreast a b c) (name : String) :
    Abreast (a.beginBlock name) (b.beginBlock name) (c.beginBlock name) := by
  obtain ⟨na, nb, nc⟩ := h.hasNoTracer
  have hcurrent : a.machine.current = b.machine.current ∧ c.machine.current = b.machine.current := by
    rw [h.machine.1, h.machine.2]
    exact ⟨rfl, rfl⟩
  unfold Scene.beginBlock Scene.enter
  rw [hcurrent.1, hcurrent.2]
  cases b.machine.current with
  | none => exact h
  | some frame =>
    obtain ⟨a', b', c', ha, hb, hc, h'⟩ := h.operate (.traceFrame frame)
    simp only [onTracer_of_none na, onTracer_of_none nb, onTracer_of_none nc, ha, hb, hc]
    exact h'

theorem endBlock_of_none {s : Scene} (h : s.HasNoTracer) (name : String) (frame : Option FrameId) :
    s.endBlock name frame = s := by
  cases frame with
  | none => rfl
  | some frame =>
    show s.exit name frame = s
    unfold Scene.exit
    exact onTracer_of_none h name _

theorem InStep.snoop (name : String) {body : Program} (hf : InStep (runAll body)) :
    InStep fun s =>
      if s.isDisabled then Scene.close "snoop" (runAll body s)
      else
        let frame := s.machine.current
        let (exit, s) := runUnder name body (s.beginBlock name)
        Scene.close "snoop" (exit, s.endBlock name frame) := by
  intro a b c h
  have hdis := h.same (·.isDisabled) (fun _ => rfl) fun _ => rfl
  dsimp only
  rw [hdis.1, hdis.2]
  cases b.isDisabled with
  | true => exact hf.close "snoop" h
  | false =>
    obtain ⟨exit, a', b', c', ha, hb, hc, h'⟩ := (InStep.under name hf) (h.beginBlock name)
    obtain ⟨na, nb, nc⟩ := h'.hasNoTracer
    simp only [ha, hb, hc, endBlock_of_none na, endBlock_of_none nb, endBlock_of_none nc,
      Bool.false_eq_true, if_false]
    cases exit with
    | done => exact ⟨.done, _, _, _, rfl, rfl, rfl, h'.note "snoop" .nothing .nothing .nothing⟩
    | failed e => exact ⟨.failed e, a', b', c', rfl, rfl, rfl, h'⟩
    | panicked text => exact ⟨.panicked text, a', b', c', rfl, rfl, rfl, h'⟩

theorem InStep.thread (key : String) (name : Option String) {f : Scene → Exit × Scene}
    (hf : InStep f) :
    InStep fun s =>
      let (exit, s') := f { s.openThread key name with running := some key }
      let s := { s' with running := s.running }
      match exit with
      | .panicked text => (.done, s.note "thread" (.panicked text))
      | exit => Scene.close "thread" (exit, s) := by
  intro a b c h
  have hrunning := h.same (·.running) (fun _ => rfl) fun _ => rfl
  have hopen : Abreast { a.openThread key name with running := some key }
      { b.openThread key name with running := some key }
      { c.openThread key name with running := some key } := by
    refine h.steer (fun s => { s.openThread key name with running := some key }) ?_ ?_ ?_
    · intro s
      unfold Scene.openThread
      have hm : s.stage.machines = s.machines := rfl
      rw [hm]
      split <;> rfl
    · intro s
      rw [← attending_openThread]
      rfl
    · intro s
      unfold Scene.openThread
      split <;> rfl
  obtain ⟨exit, a', b', c', ha, hb, hc, h'⟩ := hf hopen
  have hback : Abreast { a' with running := b.running } { b' with running := b.running }
      { c' with running := b.running } :=
    h'.steer (fun s => { s with running := b.running }) (fun _ => rfl) (fun _ => rfl) fun _ => rfl
  dsimp only
  rw [ha, hb, hc, hrunning.1, hrunning.2]
  cases exit with
  | done => exact ⟨.done, _, _, _, rfl, rfl, rfl, hback.note "thread" .nothing .nothing .nothing⟩
  | failed e => exact ⟨.failed e, _, _, _, rfl, rfl, rfl, hback⟩
  | panicked text => exact ⟨.done, _, _, _, rfl, rfl, rfl, hback.note _ _ _ _⟩

mutual

/-- A step keeps runs abreast, by the steps it encloses. -/
theorem inStep_run : (step : Step) → InStep step.run
  | .act x => by
    intro a b c h
    obtain ⟨exit, ra, rb, rc, a', b', c', ha, hb, hc, h'⟩ := h.act x
    simp only [Step.run, ha, hb, hc]
    cases exit with
    | done => exact ⟨.done, _, _, _, rfl, rfl, rfl, h'.note x.word ra rb rc⟩
    | failed e => exact ⟨.failed e, a', b', c', rfl, rfl, rfl, h'⟩
    | panicked text => exact ⟨.panicked text, a', b', c', rfl, rfl, rfl, h'⟩
  | .trace hook body => by
    have hbody := ((inStep_runAll body).under hook).close "with"
    intro a b c h
    simp only [Step.run]
    exact hbody h
  | .snoop tracer body => by
    have hbody := (inStep_runAll body).snoop tracer
    intro a b c h
    simp only [Step.run]
    exact hbody h
  | .guard body => by
    have hbody := (inStep_runAll body).guard
    intro a b c h
    simp only [Step.run]
    exact hbody h
  | .attempt body => by
    have hbody := (inStep_runAll body).attempt
    intro a b c h
    simp only [Step.run]
    exact hbody h
  | .thread key name body => by
    have hbody := (inStep_runAll body).thread key name
    intro a b c h
    simp only [Step.run]
    exact hbody h

theorem inStep_runAll : (steps : Program) → InStep (runAll steps)
  | [] => by
    intro a b c h
    exact ⟨.done, a, b, c, by rw [runAll], by rw [runAll], by rw [runAll], h⟩
  | step :: steps => by
    have hall := (inStep_run step).andThen (inStep_runAll steps)
    intro a b c h
    simp only [runAll]
    exact hall h

end

end Scene
end SelectiveTrace
