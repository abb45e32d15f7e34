import SelectiveTrace.Proofs.Script.Moves
import SelectiveTrace.Proofs.Tracer.Courses

/-! What moves make of a tracer. It changes by the events that it hears and by what is done to it by its
name, and what is kept for a frame changes by few of them. -/
namespace SelectiveTrace

namespace Table
variable {κ α : Type} [DecidableEq κ]

theorem contains_insertNew (t : Table κ α) (k j : κ) (v : α) :
    (t.insertNew k v).contains j = (decide (j = k) || t.contains j) := by
  unfold insertNew
  split
  next known =>
    by_cases h : j = k
    · simp [h, known]
    · simp [h]
  · exact contains_insert t k j v

end Table

namespace Scene
variable {s : Scene} {name other : HookName} {t : Tracer}

def heard? (s : Scene) (name : HookName) (op : Op FrameId) : Option Context :=
  (s.machine.heardBy? op).bind fun h => if h.1 = name then some h.2 else none

theorem get?_of_tracer (known : s.tracer? name = some t) :
    Bindings.get? name s.audience.hooks = some (.tracer t) := by
  unfold tracer? at known
  split at known
  next t' found => rw [found, Option.some.inj known]
  · cases known

theorem tracer?_of_get? (found : Bindings.get? name s.audience.hooks = some (.tracer t)) :
    s.tracer? name = some t := by
  unfold tracer?
  rw [found]

theorem tracer?_onTracer (known : s.tracer? name = some t)
    (change : Tracer → Surroundings → Tracer × Surroundings) :
    (s.onTracer name change).tracer? name = some (change t s.around).1 ∧
      (s.onTracer name change).around = (change t s.around).2 := by
  unfold onTracer
  rw [known]
  exact ⟨tracer?_of_get? (Bindings.get?_set_self _ _ _), rfl⟩

theorem tracer?_onTracer_of_ne (known : s.tracer? name = some t) (ne : name ≠ other)
    (change : Tracer → Surroundings → Tracer × Surroundings) :
    (s.onTracer other change).tracer? name = some t := by
  unfold onTracer
  cases s.tracer? other with
  | none => exact known
  | some u => exact tracer?_of_get? ((Bindings.get?_set_of_ne _ _ ne).trans (get?_of_tracer known))

theorem audience_operate (s : Scene) (op : Op FrameId) :
    (s.operate op).2.audience =
      Machine.informed Audience.deliver s.audience (s.machine.heardBy? op).toList := by
  rw [← Machine.state_step]
  unfold operate
  dsimp only
  split <;> rfl

theorem heardBy?_of_heard {op : Op FrameId} {ctx : Context} (heard : s.heard? name op = some ctx) :
    s.machine.heardBy? op = some (name, ctx) := by
  obtain ⟨⟨hook, ctx'⟩, hby, hself⟩ := Option.bind_eq_some_iff.mp heard
  dsimp only at hself
  split at hself
  next hname => rw [hby, hname, Option.some.inj hself]
  next => cases hself

theorem tracer?_operate_of_heard (known : s.tracer? name = some t) {op : Op FrameId} {ctx : Context}
    (heard : s.heard? name op = some ctx) :
    (s.operate op).2.tracer? name = some (t.onEvent ctx s.around).2.1 ∧
      (s.operate op).2.around = (t.onEvent ctx s.around).2.2 := by
  have haudience := audience_operate s op
  have hdeliver : Machine.informed Audience.deliver s.audience (some (name, ctx)).toList =
      ⟨Bindings.set name (.tracer (t.onEvent ctx s.around).2.1) s.audience.hooks,
        (t.onEvent ctx s.around).2.2⟩ := by
    show (Audience.deliver name ctx s.audience).2 = _
    unfold Audience.deliver
    rw [get?_of_tracer known]
    rfl
  rw [heardBy?_of_heard heard, hdeliver] at haudience
  refine ⟨tracer?_of_get? ?_, congrArg Audience.around haudience⟩
  rw [haudience]
  exact Bindings.get?_set_self _ _ _

theorem tracer?_operate_of_unheard (known : s.tracer? name = some t) {op : Op FrameId}
    (unheard : s.heard? name op = none) : (s.operate op).2.tracer? name = some t := by
  refine tracer?_of_get? ?_
  rw [audience_operate]
  cases hby : s.machine.heardBy? op with
  | none => exact get?_of_tracer known
  | some h =>
    have hne : h.1 ≠ name := by
      intro hname
      unfold heard? at unheard
      simp [hby, hname] at unheard
    show Bindings.get? name (Audience.deliver h.1 h.2 s.audience).2.hooks = _
    unfold Audience.deliver
    split
    · exact get?_of_tracer known
    · exact (Bindings.get?_set_of_ne _ _ (Ne.symm hne)).trans (get?_of_tracer known)

end Scene

namespace Move
variable {s : Scene} {name : HookName} {t : Tracer} {f : FrameId}

def change (s : Scene) (name : HookName) (t : Tracer) : Move → Tracer
  | operate op => ((s.heard? name op).map fun ctx => (t.onEvent ctx s.around).2.1).getD t
  | begin_ tracer f | enter tracer f => if tracer = name then t.enter s.around f else t
  | exit tracer f => if tracer = name then (t.exit s.around s.machine.thread f).1 else t
  | target tracer code => if tracer = name then t.targetCode code else t
  | finish tracer => if tracer = name then (t.flush s.around).1 else t
  | register tracer file text =>
    if tracer = name then { t with sources := t.sources.register file text } else t
  | place .. | turn .. | turnBack _ => t

theorem tracer?_tended (known : s.tracer? name = some t) (tracer : HookName)
    (tend : Tracer → Surroundings → Tracer × Surroundings) :
    (s.onTracer tracer tend).tracer? name =
      some (if tracer = name then (tend t s.around).1 else t) := by
  split
  next hname =>
    subst hname
    exact (Scene.tracer?_onTracer known tend).1
  next hne => exact Scene.tracer?_onTracer_of_ne known (Ne.symm hne) tend

theorem tracer?_apply (known : s.tracer? name = some t) (move : Move) :
    (move.apply s).tracer? name = some (move.change s name t) := by
  cases move with
  | operate op =>
    rw [apply, change]
    cases hear : s.heard? name op with
    | none => exact Scene.tracer?_operate_of_unheard known hear
    | some ctx => exact (Scene.tracer?_operate_of_heard known hear).1
  | begin_ tracer f =>
    have hunheard : (s.enter tracer f).heard? name (.traceFrame f) = none := rfl
    exact Scene.tracer?_operate_of_unheard (tracer?_tended known tracer _) hunheard
  | enter tracer f => exact tracer?_tended known tracer _
  | exit tracer f => exact tracer?_tended known tracer _
  | target tracer code => exact tracer?_tended known tracer _
  | finish tracer => exact tracer?_tended known tracer _
  | register tracer file text => exact tracer?_tended known tracer _
  | place file contents => cases contents <;> exact known
  | turn key name =>
    rw [apply, Scene.turn, Scene.openThread]
    split <;> exact known
  | turnBack key => exact known

end Move

namespace Tracer
variable {t : Tracer} {c : TracerConfig}

structure Lasts (P : Tracer → Prop) : Prop where
  onEvent : ∀ {t}, P t → ∀ ctx w, P (t.onEvent ctx w).2.1
  enter : ∀ {t}, P t → ∀ w f, P (t.enter w f)
  exit : ∀ {t}, P t → ∀ w thread f, P (t.exit w thread f).1
  targetCode : ∀ {t}, P t → ∀ code, P (t.targetCode code)
  flush : ∀ {t}, P t → ∀ w, P (t.flush w).1
  sources : ∀ {t}, P t → ∀ sources, P { t with sources }

structure IsFit (t : Tracer) (c : TracerConfig) : Prop where
  config : t.config = c
  observed : t.observed = none
  total : t.renderer.IsTotal

structure WritesLines (t : Tracer) (c : TracerConfig) : Prop extends t.IsFit c where
  text : t.graph = none

theorem enter_eq (observed : t.observed = none) (w : Surroundings) (f : FrameId) :
    t.enter w f = t.onSession fun s => (s.attach f).startTimer f w.now := by
  rw [enter, observed]
  rfl

/-- What is written when a frame is left tells its time, if it has a clock. -/
theorem exit_eq (observed : t.observed = none) (w : Surroundings) (thread : Thread) (f : FrameId) :
    let lines := ((t.session.timers.get? f).map fun start =>
      elapsedLine (t.session.depth thread.id) (w.now - start)).toList
    t.exit w thread f =
      ({ t.onSession fun s => ((s.detach f).dropSnapshot f).dropTimer f with
        sink := (t.feed w lines).1 }, (t.feed w lines).2) := by
  intro lines
  unfold lines exit
  rw [observed, Option.isSome_none, if_neg Bool.false_ne_true]
  cases t.session.timers.get? f with
  | none =>
    rw [Option.map_none, Option.toList_none, feed_nil]
    rfl
  | some start =>
    dsimp only
    rw [write_eq]
    rfl

theorem lasts_isFit (c : TracerConfig) : Lasts fun t => t.IsFit c where
  onEvent := by
    intro t h ctx w
    obtain ⟨-, observed, renderer, -⟩ := t.onEvent_mishaps ctx w
    exact ⟨(t.config_onEvent ctx w).trans h.config, observed.trans h.observed, renderer ▸ h.total⟩
  enter h w f := enter_eq h.observed w f ▸ ⟨h.config, h.observed, h.total⟩
  exit h w thread f := exit_eq h.observed w thread f ▸ ⟨h.config, h.observed, h.total⟩
  targetCode h code := targetCode_of_none h.observed code ▸ ⟨h.config, h.observed, h.total⟩
  flush := by
    intro t h w
    unfold flush
    split
    · exact h
    · split
      · exact h
      · exact ⟨h.config, h.observed, h.total⟩
  sources h _ := ⟨h.config, h.observed, h.total⟩

theorem lasts_writesLines (c : TracerConfig) : Lasts fun t => t.WritesLines c where
  onEvent h ctx w := ⟨(lasts_isFit c).onEvent h.toIsFit ctx w, graph_onEvent h.total h.text ctx w⟩
  enter h w f := ⟨(lasts_isFit c).enter h.toIsFit w f, enter_eq h.observed w f ▸ h.text⟩
  exit h w thread f :=
    ⟨(lasts_isFit c).exit h.toIsFit w thread f, exit_eq h.observed w thread f ▸ h.text⟩
  targetCode h code :=
    ⟨(lasts_isFit c).targetCode h.toIsFit code, targetCode_of_none h.observed code ▸ h.text⟩
  flush h w := by
    refine ⟨(lasts_isFit c).flush h.toIsFit w, ?_⟩
    rw [flush, h.text]
    exact h.text
  sources h sources := ⟨(lasts_isFit c).sources h.toIsFit sources, h.text⟩

end Tracer

namespace Move
variable {s : Scene} {name : HookName} {t : Tracer} {c : TracerConfig} {f : FrameId}

theorem lasts_change {P : Tracer → Prop} (lasts : Tracer.Lasts P) (h : P t) (s : Scene)
    (name : HookName) (move : Move) : P (move.change s name t) := by
  cases move with
  | operate op =>
    rw [change]
    cases s.heard? name op with
    | none => exact h
    | some ctx => exact lasts.onEvent h ctx s.around
  | begin_ tracer f | enter tracer f =>
    rw [change]
    split
    · exact lasts.enter h _ f
    · exact h
  | exit tracer f =>
    rw [change]
    split
    · exact lasts.exit h _ _ f
    · exact h
  | target tracer code =>
    rw [change]
    split
    · exact lasts.targetCode h code
    · exact h
  | finish tracer =>
    rw [change]
    split
    · exact lasts.flush h _
    · exact h
  | register tracer file text =>
    rw [change]
    split
    · exact lasts.sources h _
    · exact h
  | place file contents | turn key label | turnBack key => exact h

theorem isFit_change (fit : t.IsFit c) (s : Scene) (name : HookName) (move : Move) :
    (move.change s name t).IsFit c :=
  lasts_change (Tracer.lasts_isFit c) fit s name move

/-- Among moves the tracer stays, and stays fit. -/
theorem isFit_after (known : s.tracer? name = some t) (fit : t.IsFit c) (moves : List Move) :
    ∃ t', (after s moves).tracer? name = some t' ∧ t'.IsFit c := by
  induction moves generalizing s t with
  | nil => exact ⟨t, known, fit⟩
  | cons move moves ih => exact ih (tracer?_apply known move) (isFit_change fit s name move)

def concerns (s : Scene) (name : HookName) : Move → Bool
  | operate op => (s.heard? name op).isSome
  | begin_ tracer _ | enter tracer _ | exit tracer _ => tracer = name
  | _ => false

inductive Sequel (s : Scene) (name : HookName) (t : Tracer) : Move → Session → Prop
  | heard {op : Op FrameId} {ctx : Context} (heard : s.heard? name op = some ctx) :
    Sequel s name t (.operate op) (t.onEvent ctx s.around).2.1.session
  | begun (g : FrameId) :
    Sequel s name t (.begin_ name g) ((t.session.attach g).startTimer g s.around.now)
  | entered (g : FrameId) :
    Sequel s name t (.enter name g) ((t.session.attach g).startTimer g s.around.now)
  | left (g : FrameId) :
    Sequel s name t (.exit name g) (((t.session.detach g).dropSnapshot g).dropTimer g)
  | kept {move : Move} {u : Session} (idle : move.concerns s name = false)
    (frames : u.targetFrames = t.session.targetFrames) (hits : u.lineHits = t.session.lineHits)
    (timers : u.timers = t.session.timers) : Sequel s name t move u

theorem sequel_change (fit : t.IsFit c) (s : Scene) (name : HookName) (move : Move) :
    Sequel s name t move (move.change s name t).session := by
  have enters : ∀ g, (t.enter s.around g).session =
      (t.session.attach g).startTimer g s.around.now :=
    fun g => congrArg Tracer.session (Tracer.enter_eq fit.observed s.around g)
  have exits : ∀ g, (t.exit s.around s.machine.thread g).1.session =
      ((t.session.detach g).dropSnapshot g).dropTimer g :=
    fun g => congrArg (·.1.session) (Tracer.exit_eq fit.observed s.around s.machine.thread g)
  cases move with
  | operate op =>
    rw [change]
    cases heard : s.heard? name op with
    | none => exact .kept (by simp [concerns, heard]) rfl rfl rfl
    | some ctx => exact .heard heard
  | begin_ tracer g =>
    rw [change]
    split
    next hname => exact hname ▸ enters g ▸ .begun g
    next hne => exact .kept (by simp [concerns, hne]) rfl rfl rfl
  | enter tracer g =>
    rw [change]
    split
    next hname => exact hname ▸ enters g ▸ .entered g
    next hne => exact .kept (by simp [concerns, hne]) rfl rfl rfl
  | exit tracer g =>
    rw [change]
    split
    next hname => exact hname ▸ exits g ▸ .left g
    next hne => exact .kept (by simp [concerns, hne]) rfl rfl rfl
  | target tracer code =>
    rw [change]
    split
    · rw [Tracer.targetCode_of_none fit.observed]
      exact .kept rfl rfl rfl rfl
    · exact .kept rfl rfl rfl rfl
  | finish tracer =>
    have hflush : (t.flush s.around).1.session = t.session := by
      unfold Tracer.flush
      split
      · rfl
      · split <;> rfl
    rw [change]
    split
    · exact .kept rfl (hflush ▸ rfl) (hflush ▸ rfl) (hflush ▸ rfl)
    · exact .kept rfl rfl rfl rfl
  | register tracer file text =>
    rw [change]
    split <;> exact .kept rfl rfl rfl rfl
  | place file contents | turn key label | turnBack key => exact .kept rfl rfl rfl rfl

def counts (name : HookName) (f : FrameId) (s : Scene) : Move → Bool
  | operate op => (s.tracer? name).any fun t => (s.heard? name op).any fun ctx =>
      ctx.frame.id = f && t.counts s.around ctx
  | _ => false

def forgets (name : HookName) (f : FrameId) (s : Scene) : Move → Bool
  | operate op => (s.tracer? name).any fun t => (s.heard? name op).any fun ctx =>
      ctx.frame.id = f && t.forgets s.around ctx
  | _ => false

/-- What is done to a tracer by its name leaves the hits alone. -/
theorem lineHits_change (known : s.tracer? name = some t) (fit : t.IsFit c) (move : Move) :
    (move.change s name t).session.lineHits.contains f =
      (move.counts name f s || (t.session.lineHits.contains f && !move.forgets name f s)) := by
  have same : ∀ b : Bool, b = (false || (b && !false)) := by simp
  have hsequel := sequel_change fit s name move
  generalize (move.change s name t).session = u at hsequel ⊢
  cases hsequel with
  | @heard op ctx heard =>
    have hcourse := (Tracer.course_onEvent fit.observed fit.total s.around ctx).lineHits f
    rw [hcourse, counts, forgets, known, heard]
    by_cases hf : ctx.frame.id = f <;> simp [hf]
  | begun g | entered g | left g => exact same _
  | kept idle frames hits timers =>
    rw [hits]
    cases move with
    | operate op =>
      have unheard : s.heard? name op = none := by simpa [concerns] using idle
      rw [counts, forgets, known, unheard]
      exact same _
    | _ => exact same _

end Move

def Scene.ofRunning (c : TracerConfig) : Scene where
  audience := ⟨[("T", .tracer { config := c, sink := .lines [] })], {}⟩
  machines := (⟨[]⟩ : Table _ _).insert none (({} : Machine).pushFrame ⟨"f", ⟨"/p.py"⟩, 1⟩ {})
  frames := (⟨[]⟩ : Table _ _).insert "a" ⟨0, 0⟩

end SelectiveTrace
