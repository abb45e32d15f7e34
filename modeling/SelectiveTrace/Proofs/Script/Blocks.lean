import Mathlib.Data.List.Induction
import SelectiveTrace.Proofs.Host.Continuing
import SelectiveTrace.Proofs.Script.Tended

/-! Blocks of one tracer on one frame. All of them share one mark of the frame and one clock: the first
block that ends takes both away, whatever blocks are around it, and the next one that begins brings
them back. -/
namespace SelectiveTrace

namespace Machine
variable {σ : Type} {deliver : Deliver σ} {m : Machine} {s : σ} {op : Op FrameId} {f : FrameId}

/-- A line is heard by the hook, unless the frame has been given up. -/
theorem heardBy?_line {hook : HookName} {g : Frame} (installed : m.hook = some hook)
    (live : m.frames.get? f = some g) (n : Nat) :
    m.heardBy? (.line f n) = if (m.moveTo f n).hears f .line then
      some (hook, (m.moveTo f n).context { g with line := n, lastOpcode := none } .line)
    else none := by
  have hmoved : (m.moveTo f n).frames.get? f =
      some { g with line := n, lastOpcode := none } := by
    rw [moveTo, get?_modifyFrame, if_pos rfl, live]
    rfl
  have hhooks : (m.moveTo f n).hooks = m.hooks := @hooks_before m (.line f n) rfl
  have hhook : (m.moveTo f n).hook = some hook := (congrArg Hooks.hook hhooks).trans installed
  unfold heardBy? heardOf?
  simp only [Op.applies, Op.event?, Op.before, if_true, Option.bind_some, hhook, hmoved]
  rfl

/-- Only the answer to an event of its own gives a frame up. -/
theorem not_mem_untraced_step (h : f ∉ m.untraced)
    (answer : ∀ x e, m.heardBy? op = some x → op.event? m = some (f, e) →
      (deliver x.1 x.2 s).1 = .proceed) : f ∉ (m.step deliver s op).machine.untraced := by
  have hbefore : f ∉ (op.before m).untraced := fun hf => h (Op.mem_untraced_before.mp hf).1
  unfold step
  cases applies : op.applies m with
  | false => exact h
  | true =>
    cases event : op.event? m with
    | none => exact hbefore
    | some ev =>
      have hheard : m.heardBy? op = (op.before m).heardOf? ev.1 ev.2 := by
        unfold heardBy?
        rw [applies, event]
        rfl
      have hd : f ∉ ((op.before m).dispatch deliver s ev.1 ev.2).machine.untraced := by
        rw [machine_dispatch]
        cases heard : (op.before m).heardOf? ev.1 ev.2 with
        | none => exact hbefore
        | some x =>
          by_cases hf : f = ev.1
          · have hproceed : (deliver x.1 x.2 s).1 = .proceed :=
              answer x ev.2 (hheard.trans heard) (hf ▸ event)
            rw [Option.elim_some, hproceed, hf]
            rw [mem_untraced_of_heard (hears_of_heardOf heard) (by simp)]
            simp
          · rw [Option.elim_some, mem_untraced_heed hf]
            exact hbefore
      rw [Bool.not_true, if_neg Bool.false_ne_true]
      dsimp only
      split
      · exact hd
      · exact fun hf => hd (untraced_after hf)

end Machine

namespace Scene

theorem machineOf_onTracer (s : Scene) (tracer : HookName)
    (change : Tracer → Surroundings → Tracer × Surroundings) (key : Option String) :
    (s.onTracer tracer change).machineOf key = s.machineOf key := by
  unfold onTracer
  split <;> rfl

end Scene

namespace Move
variable {s : Scene} {name : HookName} {t : Tracer} {c : TracerConfig} {f : FrameId}
  {key : Option String} {past moves : List Move} {move : Move}

inductive Passage (s : Scene) (key : Option String) : Move → Machine → Prop
  | same {move : Move} (idle : ∀ tracer g, move = .begin_ tracer g → s.running ≠ key) :
    Passage s key move (s.machineOf key)
  | stepped (op : Op FrameId) (running : s.running = key) :
    Passage s key (.operate op) (s.machine.step Audience.deliver s.audience op).machine
  | retraced (tracer : HookName) (g : FrameId) (running : s.running = key) :
    Passage s key (.begin_ tracer g)
      { s.machineOf key with untraced := Machine.without (s.machineOf key).untraced g }
  | opened (label : String) (thread : Option String) (id : Nat) (th : Thread) :
    Passage s key (.turn label thread) { id, thread := th }

theorem passage_apply (s : Scene) (key : Option String) (move : Move) :
    Passage s key move ((move.apply s).machineOf key) := by
  have tended : ∀ tracer change, ∀ move : Move, (∀ tracer g, move ≠ .begin_ tracer g) →
      Passage s key move ((s.onTracer tracer change).machineOf key) := by
    intro tracer change move hne
    rw [Scene.machineOf_onTracer]
    exact .same fun tracer g he => absurd he (hne tracer g)
  cases move with
  | operate op =>
    rw [apply, Scene.machineOf_operate]
    split
    next hkey => exact .stepped op hkey.symm
    next => exact .same (by simp)
  | begin_ tracer g =>
    have hrunning : (s.enter tracer g).running = s.running := (Scene.machine_onTracer s tracer _).2
    rw [apply, Scene.machineOf_operate, hrunning]
    split
    next hkey =>
      subst hkey
      have hmachine : (s.enter tracer g).machine = s.machineOf s.running :=
        (Scene.machine_onTracer s tracer _).1
      rw [hmachine]
      exact .retraced tracer g rfl
    next hne =>
      rw [Scene.enter, Scene.machineOf_onTracer]
      exact .same fun _ _ _ => Ne.symm hne
  | enter tracer g | exit tracer g | target tracer code | finish tracer
  | register tracer file text => exact tended _ _ _ (by simp)
  | place file contents => cases contents <;> exact .same (by simp)
  | turnBack label => exact .same (by simp)
  | turn label thread =>
    show Passage s key _ ((s.openThread label thread).machineOf key)
    unfold Scene.openThread
    split
    · exact .same (by simp)
    next =>
      unfold Scene.machineOf
      dsimp only
      by_cases hkey : key = some label
      · rw [hkey, Table.get?_insert_self]
        exact .opened label thread _ _
      · rw [Table.get?_insert_of_ne _ _ hkey]
        exact .same (by simp)

theorem Passage.isIssued {m : Machine} (h : Passage s key move m)
    (issued : ∀ key, (s.machineOf key).IsIssued) : m.IsIssued := by
  cases h with
  | same idle => exact issued key
  | stepped op running =>
    exact (Machine.continues_step _ _ _ op).isIssued (issued s.running)
  | retraced tracer g running =>
    exact fun j g hg => issued key j g hg
  | opened label thread id th =>
    intro j g hg
    cases hg

/-- Whether a block of the frame stands open after a move. It counts no blocks: the end of any of them
closes all. -/
def boundary (name : HookName) (f : FrameId) (isOpen : Bool) : Move → Bool
  | begin_ tracer g => (tracer = name && g = f) || isOpen
  | exit tracer g => !(tracer = name && g = f) && isOpen
  | _ => isOpen

/-- The frame has been attached by a block, and no block has ended since. -/
def inBlock (name : HookName) (f : FrameId) (past : List Move) : Bool :=
  past.foldl (boundary name f) false

theorem inBlock_concat :
    inBlock name f (past ++ [move]) = boundary name f (inBlock name f past) move := by
  simp [inBlock]

/-- Only a block that begins opens one. -/
theorem isOpen_of_boundary {isOpen : Bool} (h : boundary name f isOpen move = true) :
    isOpen = true ∨ move = .begin_ name f := by
  cases move with
  | begin_ tracer g =>
    simp only [boundary, Bool.or_eq_true, Bool.and_eq_true, decide_eq_true_eq] at h
    rcases h with ⟨rfl, rfl⟩ | h
    · exact .inr rfl
    · exact .inl h
  | exit tracer g => exact .inl ((Bool.and_eq_true _ _).mp h).2
  | _ => exact .inl h

theorem boundary_of_idle {isOpen : Bool} (idle : move.concerns s name = false) :
    boundary name f isOpen move = isOpen := by
  cases move with
  | begin_ tracer g | exit tracer g =>
    have hne : tracer ≠ name := by simpa [concerns] using idle
    simp [boundary, hne]
  | _ => rfl

/-- What happens to the frame happens on its thread, while the tracer is the hook; it is not discarded,
and it is attached by blocks alone. -/
def Heeds (name : HookName) (f : FrameId) (key : Option String) (s : Scene) : Move → Prop
  | operate op => op.applies s.machine = true → ∀ ev ∈ op.event? s.machine, ev.1 = f →
      s.running = key ∧ s.machine.hook = some name ∧ ev.2.isDiscard = false
  | begin_ tracer g => tracer = name ∧ g = f → s.running = key
  | enter tracer g => ¬ (tracer = name ∧ g = f)
  | _ => True

instance : (move : Move) → Decidable (move.Heeds name f key s)
  | operate _ | begin_ .. | enter .. => by
    unfold Heeds
    infer_instance
  | exit .. | target .. | finish _ | register .. | place .. | turn .. | turnBack _ =>
    inferInstanceAs (Decidable True)

def Heeded (name : HookName) (f : FrameId) (key : Option String) : Scene → List Move → Prop
  | _, [] => True
  | s, move :: moves => move.Heeds name f key s ∧ Heeded name f key (move.apply s) moves

instance : (s : Scene) → (moves : List Move) → Decidable (Heeded name f key s moves)
  | _, [] => inferInstanceAs (Decidable True)
  | s, move :: moves =>
    have : Decidable (Heeded name f key (move.apply s) moves) := instDecidableHeeded _ moves
    inferInstanceAs (Decidable (_ ∧ _))

theorem heeds_of_heeded (h : Heeded name f key s moves) {done : List Move}
    (hdone : done ++ [move] <+: moves) : move.Heeds name f key (after s done) := by
  induction done generalizing s moves with
  | nil =>
    obtain ⟨rest, rfl⟩ := hdone
    exact h.1
  | cons first done ih =>
    obtain ⟨rest, rfl⟩ := hdone
    exact ih h.2 (List.prefix_append _ rest)

structure Marks (name : HookName) (f : FrameId) (key : Option String) (c : TracerConfig)
    (past : List Move) (s : Scene) (t : Tracer) : Prop where
  known : s.tracer? name = some t
  writes : t.WritesLines c
  issued : ∀ key, (s.machineOf key).IsIssued
  attached : f ∈ t.session.targetFrames ↔ inBlock name f past = true
  clock : t.session.timers.contains f = inBlock name f past
  heard : inBlock name f past = true → f ∉ (s.machineOf key).untraced

/-- What the tracer hears of the frame is an event on its thread, and no discarding. -/
theorem Heeds.heard {op : Op FrameId} {x : HookName × Context}
    (h : Heeds name f key s (.operate op)) (issued : s.machine.IsIssued)
    (heard : s.machine.heardBy? op = some x) (own : x.2.frame.id = f) :
    op.event? s.machine = some (f, x.2.event) ∧ x.1 = name ∧ s.running = key ∧
      x.2.event.isDiscard = false := by
  have hevent := issued.event?_of_heardBy heard
  rw [own] at hevent
  obtain ⟨applies, -⟩ := Machine.get?_of_heardBy heard
  obtain ⟨running, installed, discard⟩ := h applies _ hevent rfl
  refine ⟨hevent, ?_, running, discard⟩
  have hhook : s.machine.hook = some x.1 :=
    (Machine.hook_of_event hevent).symm.trans (Machine.hook_of_heardBy heard)
  exact Option.some.inj (hhook.symm.trans installed)

namespace Marks

theorem isIssued (h : Marks name f key c past s t) : s.machine.IsIssued :=
  h.issued s.running

theorem isTarget {ctx : Context} (h : Marks name f key c past s t)
    (isOpen : inBlock name f past = true) (own : ctx.frame.id = f) :
    t.session.isTarget ctx.frame.code ctx.frame.id = true := by
  unfold Session.isTarget
  rw [own]
  simp [h.attached.mpr isOpen]

/-- A frame that is attached is not given up. -/
theorem proceeds {op : Op FrameId} (h : Marks name f key c past s t)
    (heeds : Heeds name f key s (.operate op)) (isOpen : inBlock name f past = true)
    {x : HookName × Context} (heard : s.machine.heardBy? op = some x) (own : x.2.frame.id = f) :
    (Audience.deliver x.1 x.2 s.audience).1 = .proceed := by
  obtain ⟨-, hname, -, discard⟩ := heeds.heard h.isIssued heard own
  have hevent := Tracer.onEvent_of_target h.writes.observed h.writes.total h.writes.text s.around
    (h.isTarget isOpen own) discard
  unfold Audience.deliver
  rw [hname, Scene.get?_of_tracer h.known]
  exact congrArg Prod.fst hevent

theorem passes (h : Marks name f key c past s t) (heeds : Heeds name f key s move)
    (isOpen : inBlock name f (past ++ [move]) = true) :
    f ∉ ((move.apply s).machineOf key).untraced := by
  rw [inBlock_concat] at isOpen
  have hpassage := passage_apply s key move
  generalize (move.apply s).machineOf key = m at hpassage ⊢
  have hwas := isOpen_of_boundary isOpen
  cases hpassage with
  | same idle =>
    rcases hwas with hwas | rfl
    · exact h.heard hwas
    · exact absurd (heeds ⟨rfl, rfl⟩) (idle name f rfl)
  | stepped op running =>
    subst running
    refine Machine.not_mem_untraced_step (h.heard isOpen) fun x e heard event => ?_
    have hevent := h.isIssued.event?_of_heardBy heard
    rw [event] at hevent
    exact h.proceeds heeds isOpen heard (congrArg Prod.fst (Option.some.inj hevent)).symm
  | retraced tracer g running =>
    intro hf
    obtain ⟨hold, hne⟩ := Machine.mem_without.mp hf
    rcases hwas with hwas | hbegin
    · exact h.heard hwas hold
    · cases hbegin
      exact hne rfl
  | opened label thread id th => simp

/-- What a move makes of the marks of the frame at the tracer. -/
theorem marked (h : Marks name f key c past s t) (heeds : Heeds name f key s move) {u : Session}
    (sequel : Sequel s name t move u) :
    (f ∈ u.targetFrames ↔ inBlock name f (past ++ [move]) = true) ∧
      u.timers.contains f = inBlock name f (past ++ [move]) := by
  rw [inBlock_concat]
  cases sequel with
  | @heard op ctx heard =>
    have hby := Scene.heardBy?_of_heard heard
    have hcourse := Tracer.course_onEvent h.writes.observed h.writes.total s.around ctx
    have running : ctx.frame.id = f → ctx.event.isDiscard = false :=
      fun own => (heeds.heard h.isIssued hby own).2.2.2
    refine ⟨?_, ?_⟩
    · refine Iff.trans ((hcourse.mem_targetFrames f).trans ?_) h.attached
      exact and_iff_left fun hd => by simp [running hd.2] at hd
    · unfold Table.contains
      rw [hcourse.timers f]
      split
      next gone =>
        -- an end releases no frame that is attached
        obtain ⟨own, forgets⟩ := gone
        have hfree : f ∉ t.session.targetFrames := by
          intro hf
          unfold Tracer.forgets Tracer.releases at forgets
          simp [running own, own, hf] at forgets
        rw [h.attached, Bool.not_eq_true] at hfree
        exact hfree.symm
      next => exact h.clock
  | begun g =>
    have hopen : boundary name f (inBlock name f past) (.begin_ name g) =
        (decide (f = g) || inBlock name f past) := by simp [boundary, eq_comm]
    rw [hopen]
    refine ⟨?_, ?_⟩
    · rw [Bool.or_eq_true, decide_eq_true_eq, ← h.attached]
      exact Session.mem_attach
    · rw [← h.clock]
      exact Table.contains_insertNew _ _ _ _
  | entered g =>
    have hne : f ≠ g := fun hf => heeds ⟨rfl, hf.symm⟩
    refine ⟨?_, ?_⟩
    · refine Iff.trans ?_ h.attached
      exact Session.mem_attach.trans (or_iff_right hne)
    · refine (Table.contains_insertNew _ _ _ _).trans ?_
      rw [decide_eq_false hne]
      exact h.clock
  | left g =>
    have hclosed : boundary name f (inBlock name f past) (.exit name g) =
        (!decide (f = g) && inBlock name f past) := by simp [boundary, eq_comm]
    rw [hclosed]
    refine ⟨?_, ?_⟩
    · rw [Bool.and_eq_true, Bool.not_eq_true', decide_eq_false_iff_not, ← h.attached, and_comm]
      exact Session.mem_detach
    · rw [← h.clock]
      exact Table.contains_erase _ _ _
  | kept idle frames hits timers =>
    rw [boundary_of_idle idle, frames, timers]
    exact ⟨h.attached, h.clock⟩

theorem after_move (h : Marks name f key c past s t) (heeds : Heeds name f key s move) :
    Marks name f key c (past ++ [move]) (move.apply s) (move.change s name t) := by
  obtain ⟨attached, clock⟩ := h.marked heeds (sequel_change h.writes.toIsFit s name move)
  exact ⟨tracer?_apply h.known move, lasts_change (Tracer.lasts_writesLines c) h.writes s name move,
    fun k => (passage_apply s k move).isIssued h.issued, attached, clock, h.passes heeds⟩

/-- The first block makes its marks, whatever was there before. -/
theorem begin_block (known : s.tracer? name = some t) (writes : t.WritesLines c)
    (issued : ∀ key, (s.machineOf key).IsIssued) (f : FrameId) :
    Marks name f s.running c [.begin_ name f] ((begin_ name f).apply s)
      ((begin_ name f).change s name t) := by
  have isOpen : inBlock name f [.begin_ name f] = true := by simp [inBlock, boundary]
  have hsession : ((begin_ name f).change s name t).session =
      (t.session.attach f).startTimer f s.around.now := by
    rw [change, if_pos rfl, Tracer.enter_eq writes.observed]
    rfl
  refine ⟨tracer?_apply known _, lasts_change (Tracer.lasts_writesLines c) writes s name _,
    fun k => (passage_apply s k _).isIssued issued, ?_, ?_, fun _ => ?_⟩
  · rw [hsession, isOpen]
    exact iff_of_true (Session.mem_attach.mpr (.inl rfl)) rfl
  · rw [hsession, isOpen]
    simp [Session.startTimer, Table.contains_insertNew]
  · have hpassage := passage_apply s s.running (begin_ name f)
    generalize ((begin_ name f).apply s).machineOf s.running = m at hpassage ⊢
    cases hpassage with
    | same idle => exact absurd rfl (idle name f rfl)
    | retraced tracer g running => exact fun hf => (Machine.mem_without.mp hf).2 rfl

theorem run (known : s.tracer? name = some t) (writes : t.WritesLines c)
    (issued : ∀ key, (s.machineOf key).IsIssued) {rest done : List Move}
    (heeded : Heeded name f s.running s (.begin_ name f :: rest))
    (hdone : done <+: .begin_ name f :: rest) (begun : done ≠ []) :
    ∃ u, Marks name f s.running c done (after s done) u := by
  induction done using List.reverseRecOn with
  | nil => exact absurd rfl begun
  | append_singleton done move ih =>
    cases done with
    | nil =>
      obtain ⟨rfl, -⟩ := List.cons_prefix_cons.mp hdone
      exact ⟨_, begin_block known writes issued f⟩
    | cons first done =>
      obtain ⟨u, hu⟩ := ih ((List.prefix_append _ _).trans hdone) (by simp)
      rw [after_append]
      exact ⟨_, hu.after_move (heeds_of_heeded heeded hdone)⟩

/-- The end of a block tells its time just if no block has ended since one began. -/
theorem exit (h : Marks name f key c past s t) :
    let v := (Move.exit name f).change s name t
    let out := (v.sink, ((Move.exit name f).apply s).around)
    if inBlock name f past then
      ∃ start, t.session.timers.get? f = some start ∧
        out = t.feed s.around
          [Tracer.elapsedLine (t.session.depth s.machine.thread.id) (s.around.now - start)]
    else out = (t.sink, s.around) := by
  intro v out
  have hexit := Tracer.exit_eq h.writes.observed s.around s.machine.thread f
  have hout : out = t.feed s.around ((t.session.timers.get? f).map fun start =>
      Tracer.elapsedLine (t.session.depth s.machine.thread.id) (s.around.now - start)).toList := by
    have haround := (Scene.tracer?_onTracer h.known fun t w => t.exit w s.machine.thread f).2
    rw [hexit] at haround
    have hsink : v.sink = (t.exit s.around s.machine.thread f).1.sink := by
      rw [show v = (t.exit s.around s.machine.thread f).1 from if_pos rfl]
    rw [hexit] at hsink
    exact Prod.ext hsink haround
  have hclock : (t.session.timers.get? f).isSome = inBlock name f past := h.clock
  rw [← hclock]
  cases hstart : t.session.timers.get? f with
  | none =>
    rw [hstart] at hout
    exact hout.trans (t.feed_nil s.around)
  | some start =>
    rw [hstart] at hout
    exact ⟨start, rfl, hout⟩

/-- A line of the frame that nobody hears, or that is not to be shown, writes nothing. -/
theorem line_hidden {op : Op FrameId} (h : Marks name f key c past s t)
    (hidden : ∀ x, s.machine.heardBy? op = some x →
      x.1 = name ∧ x.2.event.isDiscard = false ∧ (t.verdict s.around x.2).isShow = false) :
    (((Move.operate op).change s name t).sink, ((Move.operate op).apply s).around) =
      (t.sink, s.around) := by
  cases hby : s.machine.heardBy? op with
  | none =>
    have hnone : s.heard? name op = none := by
      unfold Scene.heard?
      rw [hby]
      rfl
    have haudience := Scene.audience_operate s op
    rw [hby] at haudience
    refine Prod.ext ?_ (congrArg Audience.around haudience)
    show (((s.heard? name op).map fun ctx => (t.onEvent ctx s.around).2.1).getD t).sink = t.sink
    rw [hnone]
    rfl
  | some x =>
    obtain ⟨hname, running, unshown⟩ := hidden x hby
    have heard : s.heard? name op = some x.2 := by
      unfold Scene.heard?
      rw [hby, Option.bind_some, if_pos hname]
    have hevent := Tracer.onEvent_of_unshown h.writes.observed s.around running unshown
    obtain ⟨faults, hnoted⟩ := Tracer.noteVerdict_eq t x.2 (t.verdict s.around x.2)
    rw [hnoted] at hevent
    refine Prod.ext ?_ ?_
    · show (((s.heard? name op).map fun ctx => (t.onEvent ctx s.around).2.1).getD t).sink = t.sink
      rw [heard]
      exact congrArg (fun y : Tracer × Surroundings => y.1.sink) hevent
    · exact (Scene.tracer?_operate_of_heard h.known heard).2.trans (congrArg Prod.snd hevent)

/-- In a block a line of the frame is heard and written. -/
theorem line_shown (h : Marks name f key c past s t) (unlimited : c.hitLimit = none)
    (isOpen : inBlock name f past = true) (running : s.running = key)
    (installed : s.machine.hook = some name) {g : Frame}
    (live : s.machine.frames.get? f = some g) (n : Nat) :
    (((Move.operate (.line f n)).change s name t).sink,
        ((Move.operate (.line f n)).apply s).around) =
      t.feed s.around (t.eventText s.around
        ((s.machine.moveTo f n).context { g with line := n, lastOpcode := none } .line) false) := by
  subst running
  set ctx := (s.machine.moveTo f n).context { g with line := n, lastOpcode := none } .line
  have hears : (s.machine.moveTo f n).hears f .line = true := by
    have hheard : f ∉ s.machine.untraced := h.heard isOpen
    unfold Machine.hears Machine.moveTo
    rw [Machine.untraced_modifyFrame]
    simp [Event.isCall, hheard]
  have heard : s.heard? name (.line f n) = some ctx := by
    unfold Scene.heard?
    rw [Machine.heardBy?_line installed live, hears, if_pos rfl, Option.bind_some, if_pos rfl]
  have hid : g.id = f := (h.isIssued f g live).2
  have hcount : t.countHit ctx = (false, t) := by
    unfold Tracer.countHit
    rw [h.writes.config, unlimited]
  have hevent := Tracer.onEvent_of_target h.writes.observed h.writes.total h.writes.text
    s.around (h.isTarget isOpen (show ctx.frame.id = f from hid)) rfl
  rw [hcount] at hevent
  have hv : (Move.operate (.line f n)).change s name t = (t.onEvent ctx s.around).2.1 := by
    show ((s.heard? name (.line f n)).map fun ctx => (t.onEvent ctx s.around).2.1).getD t = _
    rw [heard]
    rfl
  have haround := (Scene.tracer?_operate_of_heard h.known heard).2
  rw [hevent] at hv haround
  refine Prod.ext ((congrArg Tracer.sink hv).trans ?_) (haround.trans ?_)
  · simp [Tracer.resultLines, ctx, Machine.context]
  · simp [Tracer.resultLines, ctx, Machine.context]

/-- A line of the frame is shown if no block has ended since one began. Otherwise the frame is none of the
tracer's, and the line is shown only if other targets have it shown. -/
theorem line (h : Marks name f key c past s t) (unlimited : c.hitLimit = none) {n : Nat}
    (heeds : Heeds name f key s (.operate (.line f n))) {g : Frame}
    (live : s.machine.frames.get? f = some g) :
    let ctx := (s.machine.moveTo f n).context { g with line := n, lastOpcode := none } .line
    let v := (Move.operate (.line f n)).change s name t
    let out := (v.sink, ((Move.operate (.line f n)).apply s).around)
    if inBlock name f past then out = t.feed s.around (t.eventText s.around ctx false)
    else f ∉ t.session.targetFrames ∧
      ((t.verdict s.around ctx).isShow = false → out = (t.sink, s.around)) := by
  intro ctx v out
  obtain ⟨running, installed, -⟩ := heeds rfl (f, .line) rfl rfl
  split
  next isOpen => exact h.line_shown unlimited isOpen running installed live n
  next closed =>
    refine ⟨fun hf => closed (h.attached.mp hf), fun unshown => ?_⟩
    have hidden : ∀ x, s.machine.heardBy? (.line f n) = some x →
        x.1 = name ∧ x.2.event.isDiscard = false ∧ (t.verdict s.around x.2).isShow = false := by
      intro x hx
      rw [Machine.heardBy?_line installed live] at hx
      split at hx
      · cases hx
        exact ⟨rfl, rfl, unshown⟩
      · cases hx
    exact h.line_hidden hidden

end Marks

end Move

open Move

/-- A tracer that writes lines, without a region, without a limit on hits and with renderers that do not
fail, and a block on the frame that runs, which it heeds. A line of the frame is written, and the end of a
block tells its time, just if no block of the frame has ended since one began. -/
theorem blocks_of_frame_share_marks {s : Scene} {name : HookName} {t : Tracer} {f : FrameId}
    (enabled : s.isDisabled = false) (known : s.tracer? name = some t) (region : t.observed = none)
    (text : t.graph = none) (unlimited : t.config.hitLimit = none) (total : t.renderer.IsTotal)
    (current : s.machine.current = some f) (issued : ∀ key, (s.machineOf key).IsIssued)
    (body : Program)
    (heeded : Heeded name f s.running s.stand ((Step.snoop name body).moves s)) :
    let moves := (Step.snoop name body).moves s
    ((Step.snoop name body).run s).2.stand = after s.stand moves ∧
    ∀ done move, done ++ [move] <+: moves →
      let x := after s.stand done
      ∃ u v, x.tracer? name = some u ∧ (move.apply x).tracer? name = some v ∧
        let out := (v.sink, (move.apply x).around)
        (∀ n g, move = .operate (.line f n) → x.machine.frames.get? f = some g →
          let ctx := (x.machine.moveTo f n).context { g with line := n, lastOpcode := none } .line
          if inBlock name f done then out = u.feed x.around (u.eventText x.around ctx false)
          else f ∉ u.session.targetFrames ∧
            ((u.verdict x.around ctx).isShow = false → out = (u.sink, x.around))) ∧
        (move = .exit name f →
          if inBlock name f done then
            ∃ start, u.session.timers.get? f = some start ∧ out = u.feed x.around
              [Tracer.elapsedLine (u.session.depth x.machine.thread.id) (x.around.now - start)]
          else out = (u.sink, x.around)) := by
  intro moves
  refine ⟨Step.stand_run _ s, fun done move hmove => ?_⟩
  have writes : t.WritesLines t.config := ⟨⟨rfl, region, total⟩, text⟩
  have hmoves : moves =
      .begin_ name f :: (movesUnder name body (s.beginBlock name) ++ [.exit name f]) :=
    Step.moves_snoop name body enabled current
  change Heeded name f s.running s.stand moves at heeded
  have hheeds := heeds_of_heeded heeded hmove
  rw [hmoves] at heeded hmove
  cases done with
  | nil =>
    -- the first move is the beginning of the block
    obtain ⟨rfl, -⟩ := List.cons_prefix_cons.mp hmove
    have hfirst : (after s.stand []).tracer? name = some t := known
    exact ⟨t, _, hfirst, tracer?_apply hfirst _, by simp, by simp⟩
  | cons first done =>
    have hdone := (List.prefix_append _ _).trans hmove
    obtain ⟨u, hu⟩ := Marks.run (s := s.stand) known writes issued heeded hdone (by simp)
    refine ⟨u, _, hu.known, tracer?_apply hu.known move, ?_, ?_⟩
    · rintro n g rfl live
      exact hu.line unlimited hheeds live
    · rintro rfl
      exact hu.exit

def nestedBlock : Program :=
  [.act (.host none (.line "a" 2)), .snoop "T" [.act (.host none (.line "a" 3))],
    .act (.host none (.line "a" 4))]

theorem Scene.isIssued_ofRunning (c : TracerConfig) (key : Option String) :
    ((Scene.ofRunning c).machineOf key).IsIssued := by
  have hnew : Machine.IsIssued {} := Machine.IsFresh.isIssued ⟨rfl, rfl, rfl, rfl⟩
  cases key with
  | none => exact (Machine.continues_pushFrame {} ⟨"f", ⟨"/p.py"⟩, 1⟩ {}).isIssued hnew
  | some label => exact hnew

/-- The end of the outer block tells no time, for the inner one has ended. -/
theorem blocks_of_frame_share_marks_when_nested :
    let s := Scene.ofRunning {}
    let before : List Move :=
      [.begin_ "T" ⟨0, 0⟩, .operate (.pushTrace "T"), .operate (.line ⟨0, 0⟩ 2),
        .begin_ "T" ⟨0, 0⟩, .operate (.pushTrace "T"), .operate (.line ⟨0, 0⟩ 3),
        .operate .popTrace, .exit "T" ⟨0, 0⟩, .operate (.line ⟨0, 0⟩ 4), .operate .popTrace]
    let x := after s.stand before
    (Step.snoop "T" nestedBlock).moves s = before ++ [.exit "T" ⟨0, 0⟩] ∧
      Heeded "T" ⟨0, 0⟩ none s.stand (before ++ [.exit "T" ⟨0, 0⟩]) ∧
      ∃ u v, x.tracer? "T" = some u ∧ ((Move.exit "T" ⟨0, 0⟩).apply x).tracer? "T" = some v ∧
        (v.sink, ((Move.exit "T" ⟨0, 0⟩).apply x).around) = (u.sink, x.around) := by
  intro s before x
  have total : Renderer.IsTotal {} := Renderer.isTotal_of_custom (by simp)
  have hmoves : (Step.snoop "T" nestedBlock).moves s = before ++ [.exit "T" ⟨0, 0⟩] := by
    unfold s
    simp only [nestedBlock, Step.moves, movesAll, movesUnder, runAll, Step.run, runUnder]
    rfl
  have heeded : Heeded "T" ⟨0, 0⟩ none s.stand (before ++ [.exit "T" ⟨0, 0⟩]) := by
    decide +kernel
  refine ⟨hmoves, heeded, ?_⟩
  obtain ⟨-, hall⟩ := @blocks_of_frame_share_marks s "T" _ ⟨0, 0⟩ rfl rfl rfl rfl rfl total rfl
    (Scene.isIssued_ofRunning {}) nestedBlock (hmoves ▸ heeded)
  obtain ⟨u, v, hu, hv, -, hend⟩ := hall before (.exit "T" ⟨0, 0⟩) (hmoves ▸ List.prefix_rfl)
  exact ⟨u, v, hu, hv, hend rfl⟩

/-- A block on a frame, within it another one, and a line of the frame after that: the line is not written,
and the time is told once for two blocks. -/
theorem nested_block_ends_outer :
    let s := Scene.ofRunning {}
    let block := (Step.snoop "T" nestedBlock).run s
    s.isDisabled = false ∧ s.machine.current = some ⟨0, 0⟩ ∧
      (∃ t, s.tracer? "T" = some t ∧ t.observed = none ∧ t.graph = none ∧
        t.config.hitLimit = none ∧ t.renderer.IsTotal ∧ ¬ t.session.Remembers ⟨0, 0⟩) ∧
      block.1 = .done ∧ block.2.machine.current = some ⟨0, 0⟩ ∧
      (block.2.tracer? "T").map (·.sink.written) =
        some ["Source path:... /p.py", "line         2 SOURCE IS UNAVAILABLE",
          "line         3 SOURCE IS UNAVAILABLE", "Elapsed time: 00:00:00.000000"] := by
  intro s block
  have total : Renderer.IsTotal {} := Renderer.isTotal_of_custom (by simp)
  refine ⟨rfl, rfl, ⟨_, rfl, rfl, rfl, rfl, total, by decide +kernel⟩, ?_⟩
  unfold block nestedBlock
  simp only [runAll, Step.run, runUnder]
  decide +kernel

end SelectiveTrace
