import SelectiveTrace.Proofs.Script.Restored

/-! Scripts told as moves. What a script does is a list of things done to the machines and to the hooks,
one after the other; a block is told by its beginning and its end, a thread by the turns to it and back. -/
namespace SelectiveTrace

inductive Move where
  | operate (op : Op FrameId)
  /-- A block of the tracer begins: the frame is attached, and is given up no more. -/
  | begin_ (tracer : HookName) (frame : FrameId)
  | enter (tracer : HookName) (frame : FrameId)
  /-- A block ends, or a frame that was entered is left. -/
  | exit (tracer : HookName) (frame : FrameId)
  | target (tracer : HookName) (code : CodeId)
  | finish (tracer : HookName)
  | register (tracer : HookName) (file : Path) (text : String)
  | place (file : Path) (contents : Option ByteArray)
  /-- What follows runs on a thread of its own. -/
  | turn (key : String) (name : Option String)
  | turnBack (key : Option String)

namespace Scene

def stand (s : Scene) : Scene where
  audience := s.audience
  machines := s.machines
  running := s.running
  made := s.made

def turn (s : Scene) (key : String) (name : Option String) : Scene :=
  { s.openThread key name with running := some key }

end Scene

namespace Move

def apply (s : Scene) : Move → Scene
  | operate op => (s.operate op).2
  | begin_ tracer f => ((s.enter tracer f).operate (.traceFrame f)).2
  | enter tracer f => s.enter tracer f
  | exit tracer f => s.exit tracer f
  | target tracer code => s.onTracer tracer fun t w => (t.targetCode code, w)
  | finish tracer => s.onTracer tracer Tracer.flush
  | register tracer file text =>
    s.onTracer tracer fun t w => ({ t with sources := t.sources.register file text }, w)
  | place file contents => s.place file contents
  | turn key name => s.turn key name
  | turnBack key => { s with running := key }

def after (s : Scene) (moves : List Move) : Scene :=
  moves.foldl apply s

@[simp] theorem after_nil (s : Scene) : after s [] = s := rfl

@[simp] theorem after_cons (s : Scene) (move : Move) (moves : List Move) :
    after s (move :: moves) = after (move.apply s) moves := rfl

theorem after_append (s : Scene) (moves more : List Move) :
    after s (moves ++ more) = after (after s moves) more :=
  List.foldl_append

end Move

def Action.moves (s : Scene) : Action → List Move
  | .host _ op =>
    if op.frame?.any fun l => !s.frames.contains l then []
    else [.operate (op.map fun l => (s.frames.get? l).getD s.machine.nextId)]
  | .enter tracer label => ((s.frames.get? label).map (Move.enter tracer)).toList
  | .exit tracer label => ((s.frames.get? label).map (Move.exit tracer)).toList
  | .target tracer code => [.target tracer code]
  | .finish tracer => [.finish tracer]
  | .register tracer file text => [.register tracer file text]
  | .place file contents => [.place file contents]
  | .installed | .panic _ | .fail _ | .session .. | .read _ | .frame _ | .globals _ => []

mutual

def Step.moves : Step → Scene → List Move
  | .act a, s => a.moves s
  | .trace hook body, s => movesUnder hook body s
  | .snoop tracer body, s =>
    if s.isDisabled then movesAll body s
    else
      match s.machine.current with
      | some f =>
        .begin_ tracer f :: movesUnder tracer body (s.beginBlock tracer) ++ [.exit tracer f]
      | none => movesUnder tracer body s
  | .guard body, s | .attempt body, s => movesAll body s
  | .thread key name body, s =>
    .turn key name :: movesAll body (s.turn key name) ++ [.turnBack s.running]

def movesAll : Program → Scene → List Move
  | [], _ => []
  | step :: steps, s =>
    step.moves s ++ if (step.run s).1 = .done then movesAll steps (step.run s).2 else []

def movesUnder (hook : HookName) (body : Program) (s : Scene) : List Move :=
  .operate (.pushTrace hook) :: movesAll body (s.operate (.pushTrace hook)).2 ++
    [.operate .popTrace]

end

namespace Scene
variable {s : Scene}

theorem stand_operate (s : Scene) (op : Op FrameId) :
    (s.operate op).2.stand = (s.stand.operate op).2 := by
  have hstep : s.stand.machine.step Audience.deliver s.stand.audience op =
      s.machine.step Audience.deliver s.audience op := rfl
  rw [operate, operate, hstep]
  dsimp only
  cases (s.machine.step Audience.deliver s.audience op).panic <;> rfl

theorem stand_onTracer (s : Scene) (tracer : HookName)
    (change : Tracer → Surroundings → Tracer × Surroundings) :
    (s.onTracer tracer change).stand = s.stand.onTracer tracer change := by
  have htracer : s.stand.tracer? tracer = s.tracer? tracer := rfl
  rw [onTracer, onTracer, htracer]
  cases s.tracer? tracer <;> rfl

theorem stand_place (s : Scene) (file : Path) (contents : Option ByteArray) :
    (s.place file contents).stand = s.stand.place file contents := by
  cases contents <;> rfl

theorem stand_turn (s : Scene) (key : String) (name : Option String) :
    (s.turn key name).stand = s.stand.turn key name := by
  have hknown : s.stand.machines.contains (some key) = s.machines.contains (some key) := rfl
  rw [turn, turn, openThread, openThread, hknown]
  split <;> rfl

theorem stand_close (word : String) (r : Exit × Scene) : (close word r).2.stand = r.2.stand := by
  obtain ⟨exit, s⟩ := r
  cases exit <;> rfl

theorem stand_host (s : Scene) (label : Option String) (op : Op String) :
    (s.host label op).2.stand = Move.after s.stand ((Action.host label op).moves s) := by
  have hmoves : (Action.host label op).moves s =
      if op.frame?.any fun l => !s.frames.contains l then []
      else [.operate (op.map fun l => (s.frames.get? l).getD s.machine.nextId)] := rfl
  rw [hmoves]
  cases known : op.frame?.any fun l => !s.frames.contains l with
  | true =>
    unfold host
    rw [known]
    rfl
  | false =>
    have hop := stand_operate (s.numbering op)
      (op.map fun l => (s.frames.get? l).getD s.machine.nextId)
    rw [host_of_known known]
    rw [if_neg Bool.false_ne_true, Move.after_cons, Move.after_nil]
    generalize (s.numbering op).operate (op.map fun l => (s.frames.get? l).getD s.machine.nextId) = r
      at hop ⊢
    obtain ⟨exit, s'⟩ := r
    cases exit with
    | done => cases label <;> exact hop
    | failed e | panicked text => exact hop

theorem stand_act (a : Action) (s : Scene) :
    (a.run s).2.2.stand = Move.after s.stand (a.moves s) := by
  cases a with
  | host label op => exact stand_host s label op
  | target tracer code => exact stand_onTracer s tracer _
  | finish tracer => exact stand_onTracer s tracer _
  | register tracer file text => exact stand_onTracer s tracer _
  | place file contents => exact stand_place s file contents
  | enter tracer label | exit tracer label =>
    simp only [Action.run, Action.moves]
    cases s.frames.get? label with
    | none => rfl
    | some f => exact stand_onTracer s tracer _
  | session tracer label line | frame label =>
    simp only [Action.run, Action.moves]
    split <;> rfl
  | installed | panic text | fail e | read file | globals file => rfl

theorem stand_beginBlock (tracer : HookName) {f : FrameId} (current : s.machine.current = some f) :
    (s.beginBlock tracer).stand = (Move.begin_ tracer f).apply s.stand := by
  unfold beginBlock
  rw [current]
  dsimp only
  rw [stand_operate, enter, stand_onTracer]
  rfl

end Scene

open Scene

theorem Step.moves_snoop (tracer : HookName) (body : Program) {s : Scene}
    (enabled : s.isDisabled = false) {f : FrameId} (current : s.machine.current = some f) :
    (Step.snoop tracer body).moves s =
      .begin_ tracer f :: movesUnder tracer body (s.beginBlock tracer) ++ [.exit tracer f] := by
  rw [Step.moves, enabled, if_neg Bool.false_ne_true, current]

theorem stand_runUnder (hook : HookName) {body : Program}
    (hbody : ∀ s, (runAll body s).2.stand = Move.after s.stand (movesAll body s)) (s : Scene) :
    (runUnder hook body s).2.stand = Move.after s.stand (movesUnder hook body s) := by
  rw [runUnder_eq, movesUnder]
  dsimp only
  rw [stand_operate, hbody, stand_operate, List.cons_append, Move.after_cons, Move.after_append]
  rfl

mutual

/-- A step comes to its moves. -/
theorem Step.stand_run : (step : Step) → ∀ s,
    (step.run s).2.stand = Move.after s.stand (step.moves s)
  | .act a => by
    intro s
    rw [Step.run, Step.moves, ← stand_act]
    generalize a.run s = r
    obtain ⟨exit, result, s'⟩ := r
    cases exit <;> rfl
  | .trace hook body => by
    intro s
    rw [Step.run_trace, stand_close, Step.moves]
    exact stand_runUnder hook (stand_runAll body) s
  | .snoop tracer body => by
    intro s
    cases hd : s.isDisabled with
    | true =>
      rw [Step.run_snoop_of_disabled tracer body hd, stand_close, Step.moves, hd, if_pos rfl]
      exact stand_runAll body s
    | false =>
      have hunder := stand_runUnder tracer (stand_runAll body)
      rw [Step.run_snoop tracer body hd, stand_close]
      cases current : s.machine.current with
      | none =>
        have hbegin : s.beginBlock tracer = s := by
          unfold beginBlock
          rw [current]
        rw [Step.moves, hd, if_neg Bool.false_ne_true, current, hbegin]
        exact hunder s
      | some f =>
        rw [Step.moves_snoop tracer body hd current, List.cons_append, Move.after_cons,
          Move.after_append, ← stand_beginBlock tracer current, ← hunder]
        exact stand_onTracer _ tracer _
  | .guard body => by
    intro s
    rw [Step.run, Step.moves, ← stand_runAll body s]
    generalize runAll body s = r
    obtain ⟨exit, s'⟩ := r
    cases exit <;> rfl
  | .attempt body => by
    intro s
    rw [Step.run, Step.moves, ← stand_runAll body s]
    generalize runAll body s = r
    obtain ⟨exit, s'⟩ := r
    cases exit <;> rfl
  | .thread key name body => by
    intro s
    have hbody := stand_runAll body (s.turn key name)
    rw [Step.run, Step.moves, List.cons_append, Move.after_cons, Move.after_append,
      Move.after_cons, Move.after_nil]
    rw [stand_turn] at hbody
    unfold Move.apply
    rw [← hbody]
    unfold turn
    generalize runAll body { s.openThread key name with running := some key } = r
    obtain ⟨exit, s'⟩ := r
    cases exit <;> rfl

theorem stand_runAll : (steps : Program) → ∀ s,
    (runAll steps s).2.stand = Move.after s.stand (movesAll steps s)
  | [] => by
    intro s
    rw [runAll, movesAll]
    rfl
  | step :: steps => by
    intro s
    have hstep := Step.stand_run step s
    rw [runAll, movesAll, Move.after_append, ← hstep]
    generalize step.run s = r
    obtain ⟨exit, s'⟩ := r
    cases exit with
    | done =>
      rw [if_pos rfl]
      exact stand_runAll steps s'
    | failed e | panicked text =>
      rw [if_neg (by simp)]
      rfl

end

end SelectiveTrace
