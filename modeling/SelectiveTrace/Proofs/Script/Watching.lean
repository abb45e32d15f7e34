import SelectiveTrace.Proofs.Script.Parallel

/-! The depth of a thread under a tracer without a region. Every event that the tracer hears moves it with the
frames that are followed, and so the depth changes by what these change while the tracer hears. -/
namespace SelectiveTrace

namespace Tracer
variable {t t' : Tracer} {w w' : Surroundings} {m : Machine} {ctx : Context}

/-- Without a region it does not matter where the tracer looks from. -/
theorem followed_around (observed : t.observed = none) (w w' : Surroundings) (m : Machine)
    (ids : List FrameId) : t.followed w' m ids = t.followed w m ids := by
  have hsource : t.isSource w' = t.isSource w := by
    funext f
    unfold isSource
    rw [observed]
    rfl
  have hdown : ∀ below n, t.handsDown w' n below = t.handsDown w n below := by
    intro below
    induction below with
    | nil => intro n; cases n <;> rfl
    | cons above below ih =>
      intro n
      cases n with
      | zero => rfl
      | succ n => simp only [handsDown, hsource, ih]
  refine followed_congr fun j under _ => ?_
  simp only [follows, traces, hdown]

/-- What is done to a frame that stands elsewhere. -/
theorem followed_of_besides (observed : t'.observed = none) (linked : m.Linked) {g : FrameId}
    (besides : Besides t t' g) {ids : List FrameId} (off : g ∉ ids) (w w' : Surroundings) :
    t'.followed w' m ids = t.followed w m ids :=
  (followed_around observed w w' m ids).trans (followed_off linked
    ⟨linked, rfl, fun j _ => Machine.Spares.refl m j⟩ (fun _ _ => Iff.rfl) ⟨besides, rfl⟩ off)

/-- Without a region no line attaches its frame. -/
theorem picksUp_of_unobserved (observed : t.observed = none) (total : t.renderer.IsTotal)
    (w : Surroundings) (m : Machine) (ctx : Context) : t.picksUp w m ctx = false := by
  have hmem := (course_onEvent observed total w ctx).mem_targetFrames ctx.frame.id
  unfold picksUp
  cases hin : (t.onEvent ctx w).2.1.session.targetFrames.contains ctx.frame.id with
  | false => simp
  | true =>
    have hwas := (hmem.mp (List.contains_iff_mem.mp hin)).1
    rw [traces_of_attached hwas]
    simp

theorem IsFit.settled {c : TracerConfig} (fit : t.IsFit c) (m : Machine) : t.Settled m where
  begun := .inl fit.observed
  running observed := by
    rw [fit.observed] at observed
    cases observed

end Tracer

namespace Scene

theorem answer_of_known {s : Scene} {name : HookName} {t : Tracer} (known : s.tracer? name = some t)
    (ctx : Context) :
    (Audience.deliver name ctx s.audience).1 = (t.onEvent ctx s.around).1 := by
  unfold Audience.deliver
  rw [get?_of_tracer known]
  rfl

def followed (s : Scene) (name : HookName) (key : Option String) : Int :=
  (s.tracer? name).elim 0 fun t => t.followed s.around (s.machineOf key) (s.machineOf key).stack

end Scene

namespace Move
variable {s : Scene} {name : HookName} {key : Option String} {t : Tracer} {c : TracerConfig}
  {f : FrameId} {rest : List FrameId} {moves : List Move} {move : Move}

def isHeard (name : HookName) (key : Option String) (s : Scene) : Move → Bool
  | operate op => decide (s.running = key) && (s.heard? name op).isSome
  | _ => false

/-- By how much the number of followed frames changes without the tracer hearing of it. -/
def swing (name : HookName) (key : Option String) (s : Scene) (move : Move) : Int :=
  if move.isHeard name key s then 0 else (move.apply s).followed name key - s.followed name key

def swings (name : HookName) (key : Option String) : Scene → List Move → Int
  | _, [] => 0
  | s, move :: moves => move.swing name key s + swings name key (move.apply s) moves

theorem machineOf_operated (s : Scene) (op : Op FrameId) :
    ((operate op).apply s).machineOf s.running =
      (s.machine.step Audience.deliver s.audience op).machine :=
  (Scene.machineOf_operate s op s.running).trans (if_pos rfl)

structure Watches (name : HookName) (key : Option String) (c : TracerConfig) (s : Scene)
    (t : Tracer) : Prop where
  known : s.tracer? name = some t
  fit : t.IsFit c
  apart : s.IsApart
  there : s.machines.contains key = true

namespace Watches

theorem apply (h : Watches name key c s t) (move : Move) (orderly : move.Orderly s) :
    Watches name key c (move.apply s) (move.change s name t) :=
  ⟨tracer?_apply h.known move, isFit_change h.fit s name move, isApart_apply h.apart orderly,
    (numbers_apply h.apart h.there move).1⟩

theorem followed_eq (h : Watches name key c s t) :
    s.followed name key = t.followed s.around (s.machineOf key) (s.machineOf key).stack := by
  unfold Scene.followed
  rw [h.known]
  rfl

/-- What is not heard on the thread leaves its depth alone. -/
theorem depth_unheard (h : Watches name key c s t) (move : Move) (orderly : move.Orderly s)
    (unheard : move.isHeard name key s = false) :
    (move.change s name t).session.depth (s.machineOf key).thread.id =
      t.session.depth (s.machineOf key).thread.id := by
  cases move with
  | operate op =>
    rw [change]
    cases heard : s.heard? name op with
    | none => rfl
    | some ctx =>
      have elsewhere : s.running ≠ key := by simpa [isHeard, heard] using unheard
      have hby := Scene.heardBy?_of_heard heard
      have hother := (heard_elsewhere h.apart h.there elsewhere orderly hby).2
      exact (Tracer.minds_heard (h.apart.linked s.running) orderly h.fit.total
        (h.fit.settled s.machine) hby s.around).2 _ hother.symm
  | begin_ tracer g | enter tracer g =>
    rw [change]
    split
    · rw [Tracer.enter_eq h.fit.observed]
      rfl
    · rfl
  | exit tracer g =>
    rw [change]
    split
    · rw [Tracer.exit_eq h.fit.observed]
      rfl
    · rfl
  | target tracer code =>
    rw [change]
    split
    · rw [Tracer.targetCode_of_none h.fit.observed]
      rfl
    · rfl
  | finish tracer =>
    rw [change]
    split
    · unfold Tracer.flush
      split
      · rfl
      · split <;> rfl
    · rfl
  | register tracer file text =>
    rw [change]
    split <;> rfl
  | place file contents | turn label thread | turnBack label => rfl

/-- What is heard there leaves what the followed frames stand on. -/
theorem ground_heard {op : Op FrameId} {ctx : Context} (h : Watches name s.running c s t)
    (hd : op.IsDisciplined s.machine) (heard : s.heard? name op = some ctx) :
    (t.onEvent ctx s.around).2.1.ground ((operate op).apply s).around
        (((operate op).apply s).machineOf s.running) = t.ground s.around s.machine := by
  have hby := Scene.heardBy?_of_heard heard
  have haround : ((operate op).apply s).around = (t.onEvent ctx s.around).2.2 :=
    (Scene.tracer?_operate_of_heard h.known heard).2
  have linked : s.machine.Linked := h.apart.linked s.running
  have hground := Tracer.ground_heard (w := s.around) linked hd h.fit.total
    (h.fit.settled s.machine) hby (Scene.answer_of_known h.known ctx)
  rw [haround, machineOf_operated, hground, Tracer.picksUp_of_unobserved h.fit.observed h.fit.total]
  simp

/-- The depth of the thread moves with the frames that are followed, as far as the tracer hears of them. -/
theorem depth_apply (h : Watches name key c s t) (orderly : move.Orderly s) :
    (move.change s name t).session.depth (s.machineOf key).thread.id =
      t.session.depth (s.machineOf key).thread.id + (move.apply s).followed name key -
        s.followed name key - move.swing name key s := by
  have h' := h.apply move orderly
  obtain ⟨-, -, hthread⟩ := numbers_apply h.apart h.there move
  cases hear : move.isHeard name key s with
  | false =>
    rw [h.depth_unheard move orderly hear, swing, hear, if_neg Bool.false_ne_true]
    omega
  | true =>
    rw [swing, hear, if_pos rfl]
    cases move with
    | operate op =>
      simp only [isHeard, Bool.and_eq_true, decide_eq_true_eq] at hear
      obtain ⟨rfl, hsome⟩ := hear
      obtain ⟨ctx, heard⟩ := Option.isSome_iff_exists.mp hsome
      have hchange : (operate op).change s name t = (t.onEvent ctx s.around).2.1 := by
        rw [change, heard]
        rfl
      have hground := h.ground_heard orderly heard
      unfold Tracer.ground at hground
      rw [hthread] at hground
      rw [h'.followed_eq, h.followed_eq, hchange]
      simp only [Scene.machineOf_running] at hground ⊢
      omega
    | _ => cases hear

/-- So it is over all moves. -/
theorem depth_after (h : Watches name key c s t) (orderly : Throughout Orderly s moves) :
    ∃ t', Watches name key c (after s moves) t' ∧
      ((after s moves).machineOf key).thread = (s.machineOf key).thread ∧
      t'.session.depth (s.machineOf key).thread.id =
        t.session.depth (s.machineOf key).thread.id + (after s moves).followed name key -
          s.followed name key - swings name key s moves := by
  induction moves generalizing s t with
  | nil => exact ⟨t, h, rfl, by simp [swings]⟩
  | cons move moves ih =>
    obtain ⟨-, -, hthread⟩ := numbers_apply h.apart h.there move
    have hstep := h.depth_apply orderly.1
    obtain ⟨t', h', hthread', hdepth⟩ := ih (h.apply _ orderly.1) orderly.2
    rw [hthread] at hdepth
    refine ⟨t', h', hthread'.trans hthread, ?_⟩
    rw [after_cons, swings, hdepth, hstep]
    omega

end Watches
end Move
end SelectiveTrace
