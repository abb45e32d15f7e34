import SelectiveTrace.Proofs.Host.Fleet
import SelectiveTrace.Proofs.Tracer.Threads
import SelectiveTrace.Proofs.Tracer.Upkeep

/-! Machines on threads of their own under one tracer. A run of all of them is laid beside the run of one
of them alone: as long as the tracer is plain, that one machine goes through the same, and so do the lines
that are written for it. -/
namespace SelectiveTrace

namespace Fleet
section
variable {ι : Type} {x y : Fleet ι × (Tracer × Surroundings)} {files : Path → Prop}
  {ids threads : ι → Nat} {k : ι} {o : ι × Op FrameId}

def filesOf (ops : List (ι × Op FrameId)) : List Path :=
  (ops.filterMap fun o => o.2.code?).map Code.file

/-- What an operation makes the tracer write: the line of a new source path, and the other lines. -/
def linesBy (x : Fleet ι × (Tracer × Surroundings)) (o : ι × Op FrameId) :
    List String × List String :=
  ((x.1 o.1).heardBy? o.2).elim ([], []) fun heard => x.2.1.output x.2.2 heard.2

def everything (lines : List (ι × List String × List String)) : List String :=
  lines.flatMap fun e => e.2.1 ++ e.2.2

def depthOf (x : Fleet ι × (Tracer × Surroundings)) (k : ι) : Int :=
  x.2.1.session.depth (x.1 k).thread.id

/-- Machines with these identities, on these threads, share a plain tracer. -/
structure Shares (x : Fleet ι × (Tracer × Surroundings)) (files : Path → Prop)
    (ids threads : ι → Nat) : Prop where
  plain : x.2.1.Plain x.2.2 files
  machines : ∀ k, (x.1 k).WellMade files
  ids : ∀ k, (x.1 k).id = ids k
  threads : ∀ k, (x.1 k).thread.id = threads k

structure Alongside (y x : Fleet ι × (Tracer × Surroundings)) (files : Path → Prop)
    (machine thread : Nat) (k : ι) : Prop where
  same : x.1 k = y.1 k
  peers : y.2.1.Peers y.2.2 files machine thread x.2.1 x.2.2

/-- The event that is heard of an operation is about the machine of the operation. -/
theorem Shares.isOf (h : Shares x files ids threads)
    (starts : ∀ code, o.2.code? = some code → files code.file) {hook : HookName} {ctx : Context}
    (heard : (x.1 o.1).heardBy? o.2 = some (hook, ctx)) :
    ctx.IsOf (ids o.1) (threads o.1) files := by
  rw [← h.ids, ← h.threads]
  exact (h.machines o.1).isOf_heardBy starts heard

theorem Alongside.depthOf (h : Alongside y x files (ids k) (threads k) k)
    (hx : Shares x files ids threads) : depthOf x k = depthOf y k := by
  unfold Fleet.depthOf
  rw [← h.same, hx.threads]
  exact h.peers.agrees.depth

end

variable {ι : Type} [DecidableEq ι] {x y : Fleet ι × (Tracer × Surroundings)} {files : Path → Prop}
  {ids threads : ι → Nat} {k : ι} {o : ι × Op FrameId}

def linesOf : Fleet ι × (Tracer × Surroundings) → List (ι × Op FrameId) →
    List (ι × List String × List String)
  | _, [] => []
  | x, o :: ops => (o.1, linesBy x o) :: linesOf (step Tracer.deliver x o) ops

/-- What is written for one of the machines, apart from source paths. -/
def writtenFor (k : ι) (lines : List (ι × List String × List String)) : List String :=
  (lines.filter fun e => e.1 = k).flatMap fun e => e.2.2

theorem state_step (x : Fleet ι × (Tracer × Surroundings)) (o : ι × Op FrameId) :
    (step Tracer.deliver x o).2 =
      ((x.1 o.1).heardBy? o.2).elim x.2 fun heard => (x.2.1.onEvent heard.2 x.2.2).2 := by
  have hs := Machine.state_step Tracer.deliver (x.1 o.1) x.2 o.2
  unfold step
  dsimp only
  rw [hs]
  cases (x.1 o.1).heardBy? o.2 <;> rfl

/-- One operation. -/
theorem Shares.step (h : Shares x files ids threads)
    (starts : ∀ code, o.2.code? = some code → files code.file) :
    Shares (step Tracer.deliver x o) files ids threads ∧
      x.2.1.Preserves x.2.2 files (step Tracer.deliver x o).2.1 (step Tracer.deliver x o).2.2 ∧
      ((step Tracer.deliver x o).2.1.sink, (step Tracer.deliver x o).2.2) =
        x.2.1.feed x.2.2 ((linesBy x o).1 ++ (linesBy x o).2) := by
  have htracer : (Fleet.step Tracer.deliver x o).2.1.Plain (Fleet.step Tracer.deliver x o).2.2 files ∧
      x.2.1.Preserves x.2.2 files (Fleet.step Tracer.deliver x o).2.1
        (Fleet.step Tracer.deliver x o).2.2 ∧
      ((Fleet.step Tracer.deliver x o).2.1.sink, (Fleet.step Tracer.deliver x o).2.2) =
        x.2.1.feed x.2.2 ((linesBy x o).1 ++ (linesBy x o).2) := by
    unfold linesBy
    rw [state_step]
    cases hh : (x.1 o.1).heardBy? o.2 with
    | none => exact ⟨h.plain, Tracer.Preserves.refl _ _ _, (Tracer.feed_nil _ _).symm⟩
    | some heard =>
      have hh' := h.plain.handled (h.isOf starts hh).file
      exact ⟨hh'.plain, hh'.preserves, hh'.output⟩
  refine ⟨⟨htracer.1, ?_, ?_, ?_⟩, htracer.2⟩
  · intro j
    by_cases hj : j = o.1
    · subst hj
      rw [step_self]
      exact (h.machines o.1).step Tracer.deliver x.2 starts
    · rw [step_of_ne x hj]
      exact h.machines j
  · intro j
    by_cases hj : j = o.1
    · subst hj
      rw [step_self, Machine.id_step]
      exact h.ids o.1
    · rw [step_of_ne x hj]
      exact h.ids j
  · intro j
    by_cases hj : j = o.1
    · subst hj
      rw [step_self, Machine.thread_step]
      exact h.threads o.1
    · rw [step_of_ne x hj]
      exact h.threads j

/-- An operation of another machine is nothing to this one. -/
theorem Alongside.foreign (h : Alongside y x files (ids k) (threads k) k)
    (hx : Shares x files ids threads) (starts : ∀ code, o.2.code? = some code → files code.file)
    (distinct : ∀ j, j ≠ k → ids j ≠ ids k ∧ threads j ≠ threads k) (other : o.1 ≠ k) :
    Alongside y (step Tracer.deliver x o) files (ids k) (threads k) k := by
  refine ⟨(step_of_ne x (Ne.symm other) o.2).trans h.same, ?_⟩
  obtain ⟨hid, hthread⟩ := distinct o.1 other
  rw [state_step]
  cases hh : (x.1 o.1).heardBy? o.2 with
  | none => exact h.peers
  | some heard =>
    have hof := hx.isOf starts hh
    refine h.peers.trans (hx.plain.peers_onEvent hof.file ?_ ?_)
    · rw [hof.id]
      exact hid
    · rw [hof.thread]
      exact Ne.symm hthread

/-- An operation of the machine itself does the same in both runs. -/
theorem Alongside.own (h : Alongside y x files (ids k) (threads k) k)
    (hx : Shares x files ids threads) (hy : Shares y files ids threads) {op : Op FrameId}
    (starts : ∀ code, op.code? = some code → files code.file) :
    (linesBy x (k, op)).2 = (linesBy y (k, op)).2 ∧
      Alongside (step Tracer.deliver y (k, op)) (step Tracer.deliver x (k, op)) files (ids k)
        (threads k) k := by
  have hmachine : ((x.1 k).step Tracer.deliver x.2 op).machine =
      ((y.1 k).step Tracer.deliver y.2 op).machine := by
    rw [h.same]
    refine Machine.machine_step_congr Machine.calm_deliver fun hook ctx heard => ?_
    have hof : ctx.IsOf (ids k) (threads k) files :=
      Shares.isOf (o := (k, op)) hy starts heard
    exact (h.peers.onEvent hy.plain hx.plain hof).1
  unfold linesBy
  dsimp only
  rw [h.same]
  cases hh : (y.1 k).heardBy? op with
  | none =>
    refine ⟨rfl, ?_, ?_⟩
    · rw [step_self, step_self, hmachine]
    · rw [state_step, state_step, h.same, hh]
      exact h.peers
  | some heard =>
    have hof : heard.2.IsOf (ids k) (threads k) files :=
      Shares.isOf (o := (k, op)) hy starts hh
    obtain ⟨-, hlines, hpeers⟩ := h.peers.onEvent hy.plain hx.plain hof
    refine ⟨hlines, ?_, ?_⟩
    · rw [step_self, step_self, hmachine]
    · rw [state_step, state_step, h.same, hh]
      exact hpeers

/-- The whole run beside that of one machine alone. -/
theorem Alongside.run (h : Alongside y x files (ids k) (threads k) k)
    (hx : Shares x files ids threads) (hy : Shares y files ids threads)
    (distinct : ∀ j, j ≠ k → ids j ≠ ids k ∧ threads j ≠ threads k)
    {ops : List (ι × Op FrameId)}
    (starts : ∀ o ∈ ops, ∀ code, o.2.code? = some code → files code.file) :
    let solo := ops.filter fun o => o.1 = k
    writtenFor k (linesOf x ops) = writtenFor k (linesOf y solo) ∧
      Alongside (run Tracer.deliver y solo) (run Tracer.deliver x ops) files (ids k) (threads k) k := by
  induction ops generalizing x y with
  | nil => exact ⟨rfl, h⟩
  | cons o ops ih =>
    have hstart := starts o (by simp)
    have hrest : ∀ o ∈ ops, ∀ code, o.2.code? = some code → files code.file :=
      fun o' ho' => starts o' (List.mem_cons_of_mem o ho')
    have hx' := (hx.step hstart).1
    by_cases hk : o.1 = k
    · obtain ⟨j, op⟩ := o
      dsimp only at hk
      subst hk
      obtain ⟨hlines, hbeside⟩ := h.own hx hy hstart
      obtain ⟨hwritten, hend⟩ := ih hbeside hx' (hy.step (o := (j, op)) hstart).1 hrest
      refine ⟨?_, ?_⟩
      · simp only [writtenFor, linesOf, List.filter_cons_of_pos, decide_true, List.flatMap_cons,
          hlines]
        exact congrArg _ hwritten
      · simpa [Fleet.run] using hend
    · obtain ⟨hwritten, hend⟩ := ih (h.foreign hx hstart distinct hk) hx' hy hrest
      refine ⟨?_, ?_⟩
      · simpa [writtenFor, linesOf, hk] using hwritten
      · simpa [Fleet.run, hk] using hend

/-- What is written in a run goes where the lines of the tracer go. -/
theorem Shares.run (h : Shares x files ids threads) {ops : List (ι × Op FrameId)}
    (starts : ∀ o ∈ ops, ∀ code, o.2.code? = some code → files code.file) :
    Shares (run Tracer.deliver x ops) files ids threads ∧
      ((run Tracer.deliver x ops).2.1.sink, (run Tracer.deliver x ops).2.2) =
        x.2.1.feed x.2.2 (everything (linesOf x ops)) := by
  induction ops generalizing x with
  | nil => exact ⟨h, (Tracer.feed_nil _ _).symm⟩
  | cons o ops ih =>
    obtain ⟨hshares, hpreserves, hout⟩ := h.step (starts o (by simp))
    have hgraph := hshares.plain.graph.trans h.plain.graph.symm
    obtain ⟨hend, hrest⟩ := ih hshares fun o' ho' => starts o' (List.mem_cons_of_mem o ho')
    rw [Tracer.feed_append hout hgraph hpreserves.config] at hrest
    exact ⟨hend, hrest⟩

end Fleet

/-- A tracer without a region as it is set up, ready to write the lines of target codes. -/
theorem Tracer.plain_of_outfit {c : TracerConfig} {disk : Disk} {codes : List CodeId}
    {custom : List CustomFormat} {sources : SourceCache} {sink : Sink} {t : Tracer}
    {w : Surroundings} {files : Path → Prop}
    (setup : Tracer.outfit c disk codes custom sources sink = .ok t)
    (region : c.observed = none) (lines : c.callGraph = none) (labels : c.threadInfo = false)
    (formats : ∀ f ∈ custom, ∀ v, ∃ text, f.format v = .ok text) (cold : sources.files = {})
    (alike : ∀ f g, files f → files g → f.components = g.components →
      SourceCache.readLines w f = SourceCache.readLines w g)
    (apart : ∀ f, files f → sink.Spares w f) : t.Plain w files := by
  have hmade := isOutfit_of_outfit setup region
  have hsources : t.sources = sources := by
    have hfoldl : ∀ (more : List CodeId) (u : Tracer), (more.foldl targetCode u).sources = u.sources := by
      intro more
      induction more with
      | nil => exact fun _ => rfl
      | cons code more ih =>
        intro u
        rw [List.foldl_cons, ih]
        unfold targetCode
        split <;> rfl
    unfold outfit at setup
    cases hc : ofConfig c disk with
    | error e =>
      rw [hc] at setup
      cases setup
    | ok u =>
      rw [hc] at setup
      cases setup
      exact hfoldl codes _
  refine ⟨⟨hmade.observed, ?_⟩, ?_, ?_, (isNew_of_outfit setup).isTotal formats, alike, ?_, ?_⟩
  · rw [hmade.session]
  · rw [hmade.graph, lines]
    rfl
  · rw [hmade.config]
    exact labels
  · rw [hsources]
    exact SourceCache.coherent_empty cold w files
  · rw [hmade.sink]
    exact apart

/-- Machines on threads of their own share a tracer of target codes that writes lines without the labels
of threads, and their operations come in any order. The lines of one machine, apart from source paths,
are those of its own operations alone, its thread comes to the same depth, and all of these lines go out.
No line is written over a source file, and two spellings of one source file read alike. -/
theorem threads_do_not_disturb {ι : Type} [DecidableEq ι] {c : TracerConfig} {disk : Disk}
    {codes : List CodeId} {custom : List CustomFormat} {sources : SourceCache} {sink : Sink}
    {t : Tracer} {w : Surroundings} {ms : Fleet ι} {ops : List (ι × Op FrameId)}
    (setup : Tracer.outfit c disk codes custom sources sink = .ok t)
    (region : c.observed = none) (lines : c.callGraph = none) (labels : c.threadInfo = false)
    (formats : ∀ f ∈ custom, ∀ v, ∃ text, f.format v = .ok text) (cold : sources.files = {})
    (new : ∀ k, (ms k).IsNew)
    (distinct : ∀ j k, j ≠ k → (ms j).id ≠ (ms k).id ∧ (ms j).thread.id ≠ (ms k).thread.id)
    (unchanged : ∀ f ∈ Fleet.filesOf ops, sink.Spares w f)
    (alike : ∀ f ∈ Fleet.filesOf ops, ∀ g ∈ Fleet.filesOf ops, f.components = g.components →
      SourceCache.readLines w f = SourceCache.readLines w g) (k : ι) :
    let x := (ms, (t, w))
    let solo := ops.filter fun o => o.1 = k
    Fleet.writtenFor k (Fleet.linesOf x ops) = Fleet.writtenFor k (Fleet.linesOf x solo) ∧
      Fleet.depthOf (Fleet.run Tracer.deliver x ops) k =
        Fleet.depthOf (Fleet.run Tracer.deliver x solo) k ∧
      ∀ run ∈ [ops, solo],
        ((Fleet.run Tracer.deliver x run).2.1.sink, (Fleet.run Tracer.deliver x run).2.2) =
          t.feed w (Fleet.everything (Fleet.linesOf x run)) := by
  intro x solo
  have hstarts : ∀ o ∈ ops, ∀ code, o.2.code? = some code → code.file ∈ Fleet.filesOf ops := by
    intro o ho code hc
    exact List.mem_map.mpr ⟨code, List.mem_filterMap.mpr ⟨o, ho, hc⟩, rfl⟩
  have hplain : t.Plain w (· ∈ Fleet.filesOf ops) :=
    Tracer.plain_of_outfit setup region lines labels formats cold
      (fun f g hf hg he => alike f hf g hg he) unchanged
  have hshares : Fleet.Shares x (· ∈ Fleet.filesOf ops) (fun j => (ms j).id)
      fun j => (ms j).thread.id :=
    ⟨hplain, fun j => (new j).wellMade _, fun _ => rfl, fun _ => rfl⟩
  have hbeside : Fleet.Alongside x x (· ∈ Fleet.filesOf ops) (ms k).id (ms k).thread.id k :=
    ⟨rfl, Tracer.Peers.refl _ _ _ _ _⟩
  obtain ⟨hwritten, hend⟩ := hbeside.run hshares hshares (fun j hj => distinct j k hj) hstarts
  refine ⟨hwritten, hend.depthOf (hshares.run hstarts).1, ?_⟩
  intro run hrun
  have hsub : run ⊆ ops := by
    rcases List.mem_pair.mp hrun with rfl | rfl
    · exact List.Subset.refl run
    · exact List.filter_subset_self _
  exact (hshares.run fun o ho => hstarts o (hsub ho)).2

def diskOfSource : Disk :=
  { entries := ((⟨[]⟩ : Table _ _).insert ["w"] .directory).insert ["w", "p.py"]
      (.file "def f():\n    g()\n".toUTF8) }

def twoMachines : Fleet Bool :=
  fun k => { id := k.toNat, thread := ⟨k.toNat, none⟩, hook := some "trace" }

theorem isNew_twoMachines (k : Bool) : (twoMachines k).IsNew :=
  ⟨⟨rfl, rfl, rfl, rfl⟩, rfl, rfl⟩

theorem distinct_twoMachines {j k : Bool} (h : j ≠ k) :
    (twoMachines j).id ≠ (twoMachines k).id ∧ (twoMachines j).thread.id ≠ (twoMachines k).thread.id := by
  revert h
  cases j <;> cases k <;> decide

def byTurns : List (Bool × Op FrameId) :=
  let code : Code := ⟨"f", ⟨"/w/p.py"⟩, 1⟩
  [(false, .call code [("x", .int 1)]), (true, .call code [("x", .int 2)]),
    (false, .line ⟨0, 0⟩ 2), (true, .setLocal ⟨1, 0⟩ "x" (.int 3)), (true, .line ⟨1, 0⟩ 2),
    (false, .ret ⟨0, 0⟩ .none), (true, .raise ⟨1, 0⟩ ⟨"KeyError", "k"⟩)]

theorem threads_do_not_disturb_by_turns :
    let codes : List CodeId := [⟨"/w/p.py", "f", 1⟩]
    let t : Tracer :=
      { session := { targetCodes := codes }, renderer := { maxLength := some 100 }
        sink := .file ⟨"/w/out"⟩ true }
    let w : Surroundings := { disk := diskOfSource }
    let x := (twoMachines, (t, w))
    let solo := byTurns.filter fun o => o.1 = true
    Tracer.outfit {} {} codes [] {} (.file ⟨"/w/out"⟩ true) = .ok t ∧
      (∀ f ∈ Fleet.filesOf byTurns, t.sink.Spares w f) ∧
      Fleet.writtenFor true (Fleet.linesOf x solo) = ["Starting var:.. x = 2", "call         1 def f():",
        "Modified var:.. x = 3", "line         2     g()", "exception    2     g()",
        "Exception:..... KeyError: k"] ∧
      Fleet.writtenFor true (Fleet.linesOf x byTurns) = Fleet.writtenFor true (Fleet.linesOf x solo) ∧
      Fleet.depthOf (Fleet.run Tracer.deliver x byTurns) true =
        Fleet.depthOf (Fleet.run Tracer.deliver x solo) true ∧
      ∀ run ∈ [byTurns, solo],
        ((Fleet.run Tracer.deliver x run).2.1.sink, (Fleet.run Tracer.deliver x run).2.2) =
          t.feed w (Fleet.everything (Fleet.linesOf x run)) := by
  intro codes t w x solo
  have hfiles : ∀ f ∈ Fleet.filesOf byTurns, f = ⟨"/w/p.py"⟩ := by decide
  have unchanged : ∀ f ∈ Fleet.filesOf byTurns, t.sink.Spares w f := by
    intro f hf path hp
    rw [hfiles f hf]
    cases hp
    decide +kernel
  have setup : Tracer.outfit {} {} codes [] {} (.file ⟨"/w/out"⟩ true) = .ok t := rfl
  refine ⟨setup, unchanged, by decide +kernel, ?_⟩
  have alike : ∀ f ∈ Fleet.filesOf byTurns, ∀ g ∈ Fleet.filesOf byTurns,
      f.components = g.components → SourceCache.readLines w f = SourceCache.readLines w g := by
    intro f hf g hg _
    rw [hfiles f hf, hfiles g hg]
  exact threads_do_not_disturb setup rfl rfl rfl (by simp) rfl isNew_twoMachines
    (fun _ _ => distinct_twoMachines) unchanged alike true

/-- One file is spelled in two ways, of which only the first can be read. A function that is seen under
the second on one thread shows its line if another thread has shown the file under the first. -/
theorem line_shown_for_another_thread :
    let codes : List CodeId := [⟨"/w/p.py/", "g", 1⟩, ⟨"/w/p.py", "f", 1⟩]
    let t : Tracer :=
      { session := { targetCodes := codes.reverse }, renderer := { maxLength := some 100 }
        sink := .lines [] }
    let w : Surroundings := { disk := diskOfSource }
    let x := (twoMachines, (t, w))
    let ops : List (Bool × Op FrameId) :=
      [(false, .call ⟨"f", ⟨"/w/p.py"⟩, 1⟩ []), (false, .ret ⟨0, 0⟩ .none),
        (true, .call ⟨"g", ⟨"/w/p.py/"⟩, 1⟩ [])]
    let solo := ops.filter fun o => o.1 = true
    Tracer.outfit {} {} codes [] {} (.lines []) = .ok t ∧
      (∀ k, (twoMachines k).IsNew) ∧
      (∀ j k, j ≠ k → (twoMachines j).id ≠ (twoMachines k).id ∧
        (twoMachines j).thread.id ≠ (twoMachines k).thread.id) ∧
      (∀ f ∈ Fleet.filesOf ops, t.sink.Spares w f) ∧
      Fleet.writtenFor true (Fleet.linesOf x ops) = ["call         1 def f():"] ∧
      Fleet.writtenFor true (Fleet.linesOf x solo) = ["call         1 SOURCE IS UNAVAILABLE"] ∧
      Fleet.writtenFor true (Fleet.linesOf x ops) ≠ Fleet.writtenFor true (Fleet.linesOf x solo) := by
  intro codes t w x ops solo
  have hshared : Fleet.writtenFor true (Fleet.linesOf x ops) = ["call         1 def f():"] := by
    decide +kernel
  have halone : Fleet.writtenFor true (Fleet.linesOf x solo) =
      ["call         1 SOURCE IS UNAVAILABLE"] := by
    decide +kernel
  refine ⟨rfl, isNew_twoMachines, fun _ _ => distinct_twoMachines, ?_, hshared, halone, ?_⟩
  · intro f _ path hp
    cases hp
  · rw [hshared, halone]
    decide

end SelectiveTrace
