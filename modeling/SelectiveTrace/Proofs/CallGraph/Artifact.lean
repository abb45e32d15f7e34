import SelectiveTrace.Proofs.CallGraph.Report
import SelectiveTrace.Proofs.Format.Json
import SelectiveTrace.Proofs.Script.Upheld
import SelectiveTrace.Proofs.Tracer.Modes

/-! The file of a call graph is the graph. What is written is read back as it was, and the file that a
tracer leaves behind at the end of a program holds the nodes of its graph, however the program ended. -/
namespace SelectiveTrace

/-! Nodes as text. -/

namespace CallNode

def IsSized (n : CallNode) : Prop :=
  -2 ^ 63 ≤ n.depth ∧ n.depth < 2 ^ 63

instance (n : CallNode) : Decidable n.IsSized :=
  inferInstanceAs (Decidable (_ ∧ _))

theorem isExact_toDocument {n : CallNode} (h : n.IsSized) : n.toDocument.IsExact := by
  refine .table fun e he => ?_
  rcases List.mem_pair.mp he with rfl | rfl
  · exact .int h.1 (lt_trans h.2 (by decide))
  · refine .list fun d hd => ?_
    obtain ⟨line, -, rfl⟩ := List.mem_map.mp hd
    exact .str line

/-- A list of documents is read item by item. -/
theorem mapM_map {α : Type} {write : α → Document} {read : Document → Option α} {as : List α}
    (h : ∀ a ∈ as, read (write a) = some a) : (as.map write).mapM read = some as := by
  induction as with
  | nil => rfl
  | cons a as ih =>
    have hrest := ih fun b hb => h b (List.mem_cons_of_mem a hb)
    rw [List.map_cons, List.mapM_cons, h a List.mem_cons_self, hrest]
    rfl

theorem ofDocument?_toDocument {n : CallNode} (h : n.IsSized) :
    ofDocument? n.toDocument = some n := by
  have hdepth : Document.asInt? (-Nat.pow 2 63) (Nat.pow 2 63) (.int n.depth) = some n.depth :=
    if_pos h
  have hcontent : Document.asList? Document.asString? (.list (n.content.map .str)) =
      some n.content := mapM_map fun _ _ => rfl
  have hfields : n.toDocument.fields? true ["depth", "content"] =
      some [some (.int n.depth), some (.list (n.content.map .str))] := rfl
  rw [ofDocument?, hfields]
  simp only [Option.bind_eq_bind, Option.bind_some, hdepth, hcontent]
  rfl

theorem listOfText?_listText {nodes : List CallNode} (h : ∀ n ∈ nodes, n.IsSized) :
    listOfText? (listText nodes) = some nodes := by
  have hexact : (Document.list (nodes.map toDocument)).IsExact := by
    refine .list fun d hd => ?_
    obtain ⟨n, hn, rfl⟩ := List.mem_map.mp hd
    exact isExact_toDocument (h n hn)
  rw [listOfText?, listText, Json.parse_pretty hexact]
  exact mapM_map fun n hn => ofDocument?_toDocument (h n hn)

end CallNode

/-! Files that were just written. -/

theorem Text.ofUtf8?_toUTF8 (s : String) : Text.ofUtf8? s.toUTF8 = some s := by
  unfold Text.ofUtf8? String.fromUTF8?
  rw [String.toUTF8_eq_toByteArray, dif_pos s.isValidUTF8]
  rfl

theorem Surroundings.readText_of_write {w w' : Surroundings} {path : Path} {text : String}
    (h : w.write path text = .ok w') : w'.readText path = .ok text := by
  unfold write at h
  cases hd : w.disk.write path text.toUTF8 with
  | error e =>
    rw [hd] at h
    cases h
  | ok d' =>
    rw [hd] at h
    cases h
    rw [readText, Disk.read_of_write hd]
    simp only [bind, Except.bind, Text.ofUtf8?_toUTF8]
    rfl

/-- A graph that was written is loaded. -/
theorem CallGraph.load_of_flush {g : CallGraph} {w w' : Surroundings} {path : Path}
    (output : g.output = some path) (sized : ∀ n ∈ g.nodes, n.IsSized) (h : g.flush w = .ok w') :
    CallNode.load w' path = .ok g.nodes := by
  unfold flush at h
  rw [output] at h
  dsimp only at h
  split at h
  next w'' hw =>
    cases h
    unfold CallNode.load
    rw [Surroundings.readText_of_write hw]
    dsimp only
    rw [text, CallNode.listOfText?_listText sized]
  · cases h

/-! A tracer that collects a graph for a file goes on doing so. -/

namespace Tracer
variable {t t' : Tracer} {w w' : Surroundings} {path : Path}

structure Draws (t : Tracer) (path : Path) : Prop where
  total : t.renderer.IsTotal
  graph : ∃ g, t.graph = some g ∧ g.output = some path

theorem Draws.onward (h : t.Draws path) (on : Onward t w t' w') : t'.Draws path := by
  obtain ⟨g, hg, ho⟩ := h.graph
  have hsome : t'.graph.isSome = true := by rw [on.mode, hg]; rfl
  obtain ⟨g', hg'⟩ := Option.isSome_iff_exists.mp hsome
  have hout := on.outlet
  rw [outlet?, outlet?, hg, hg'] at hout
  exact ⟨on.renderer ▸ h.total, g', hg', hout.trans ho⟩

theorem Draws.of_same (h : t.Draws path) (renderer : t'.renderer = t.renderer)
    (graph : t'.graph = t.graph) : t'.Draws path :=
  ⟨renderer ▸ h.total, graph ▸ h.graph⟩

theorem Draws.flush (h : t.Draws path) (w : Surroundings) : (t.flush w).1.Draws path := by
  refine h.of_same ?_ ?_ <;>
    unfold Tracer.flush <;> split <;> first | rfl | (split <;> rfl)

theorem Draws.onEvent (h : t.Draws path) (ctx : Context) (w : Surroundings) :
    (t.onEvent ctx w).2.1.Draws path := by
  unfold Tracer.onEvent
  split
  · exact h.onward (onward_dropFrame t w ctx.frame.id)
  · obtain ⟨s, hs⟩ := t.decide_session w ctx
    have hdecided : (t.decide w ctx).2.Draws path := h.of_same (by rw [hs]) (by rw [hs])
    generalize t.decide w ctx = decided at hdecided ⊢
    obtain ⟨verdict, t₁⟩ := decided
    cases verdict with
    | skip | ignore => exact hdecided
    | overflow => exact hdecided.of_same rfl rfl
    | show_ expanded =>
      have hrender := hdecided.onward (onward_render hdecided.total w ctx expanded).1
      dsimp only at hrender ⊢
      generalize t₁.render w ctx expanded = shown at hrender ⊢
      obtain ⟨t₂, w₂, e⟩ := shown
      cases e with
      | none => exact hrender
      | some e => exact hrender.of_same rfl rfl

theorem Draws.tends (h : t.Draws path) {change : Tracer → Surroundings → Tracer × Surroundings}
    (tends : Tends change) (w : Surroundings) : (change t w).1.Draws path := by
  cases tends with
  | target code => exact h.onward (onward_aside (t, w) (.target code))
  | enter frame => exact h.onward (onward_aside (t, w) (.enter frame))
  | exit thread frame => exact h.onward (onward_aside (t, w) (.exit thread frame))
  | finish => exact h.flush w
  | register file text => exact h.of_same rfl rfl

end Tracer

def Audience.Draws (a : Audience) (path : Path) : Prop :=
  ∃ t, Bindings.get? Program.hookName a.hooks = some (.tracer t) ∧ t.Draws path

namespace Audience
variable {a : Audience} {path : Path}

theorem Draws.set (h : a.Draws path) {name : HookName} {hook : Hook} {w : Surroundings}
    (hook_ : name = Program.hookName → ∃ t, hook = .tracer t ∧ t.Draws path) :
    Audience.Draws ⟨Bindings.set name hook a.hooks, w⟩ path := by
  unfold Draws
  dsimp only
  by_cases hn : name = Program.hookName
  · obtain ⟨t, rfl, ht⟩ := hook_ hn
    subst hn
    exact ⟨t, Bindings.get?_set_self _ _ _, ht⟩
  · rw [Bindings.get?_set_of_ne _ _ (Ne.symm hn)]
    exact h

theorem Draws.deliver (h : a.Draws path) (name : HookName) (ctx : Context) :
    (Audience.deliver name ctx a).2.Draws path := by
  unfold Audience.deliver
  cases hh : Bindings.get? name a.hooks with
  | none => exact h
  | some hook =>
    refine h.set ?_
    rintro rfl
    obtain ⟨t, ht, hdraws⟩ := h
    rw [ht] at hh
    cases hh
    exact ⟨_, rfl, hdraws.onEvent ctx a.around⟩

theorem Draws.step (h : a.Draws path) (m : Machine) (op : Op FrameId) :
    (m.step Audience.deliver a op).state.Draws path := by
  rw [Machine.state_step]
  cases m.heardBy? op with
  | none => exact h
  | some heard => exact h.deliver heard.1 heard.2

end Audience

mutual

theorem Step.all_true : (step : Step) → step.all (fun _ => true) = true
  | .act _ => by rw [Step.all]
  | .trace _ body | .snoop _ body | .guard body | .attempt body | .thread _ _ body => by
    rw [Step.all]
    exact Step.allOf_true body

theorem Step.allOf_true : (steps : Program) → Step.allOf (fun _ => true) steps = true
  | [] => by rw [Step.allOf]
  | step :: steps => by rw [Step.allOf, Step.all_true step, Step.allOf_true steps]; rfl

end

namespace Scene

theorem operate_audience (s : Scene) (op : Op FrameId) :
    (s.operate op).2.audience = (s.machine.step Audience.deliver s.audience op).state := by
  unfold operate
  dsimp only
  split <;> rfl

theorem draws_operate {s : Scene} {path : Path} (h : s.audience.Draws path) (op : Op FrameId) :
    (s.operate op).2.audience.Draws path := by
  rw [operate_audience]
  exact h.step s.machine op

theorem draws_onTracer {s : Scene} {path : Path} (h : s.audience.Draws path) (tracer : String)
    {change : Tracer → Surroundings → Tracer × Surroundings} (tends : Tends change) :
    (s.onTracer tracer change).audience.Draws path := by
  unfold onTracer tracer?
  cases hh : Bindings.get? tracer s.audience.hooks with
  | none => exact h
  | some hook => cases hook with
    | recorder r | history t | probe p => exact h
    | tracer t =>
      refine h.set ?_
      rintro rfl
      obtain ⟨t', ht', hdraws⟩ := h
      rw [hh] at ht'
      cases ht'
      exact ⟨_, rfl, hdraws.tends tends s.around⟩

/-- Whatever a script does, the tracer of the program goes on collecting its graph for the file. -/
theorem upheld_draws (path : Path) :
    Upheld (fun _ => true) fun s s' => s.audience.Draws path → s'.audience.Draws path where
  stays audience _ _ h := audience ▸ h
  trans first second h := second (first h)
  host s label op _ h := by
    have hop := draws_operate (s := s.numbering op) h
      (op.map fun l => (s.frames.get? l).getD s.machine.nextId)
    rcases host_cases s label op with hs | hs | ⟨l, hs⟩ <;> rw [hs]
    · exact h
    · exact hop
    · exact hop
  tend _ tracer _ tends h := draws_onTracer h tracer tends
  place s file contents h := by
    unfold Scene.place
    split <;> exact h
  retrace _ _ h := draws_operate h _
  under hook _ _ body h := draws_operate (body (draws_operate h (.pushTrace hook))) .popTrace
  thread key name s s' body h := by
    refine body ?_
    show (s.openThread key name).audience.Draws path
    unfold Scene.openThread
    split <;> exact h

end Scene

namespace Tracer
variable {t : Tracer} {w : Surroundings} {path : Path}

/-- The last write of a graph: unless it fails, the file holds the graph that the tracer has. -/
theorem Draws.flushed (h : t.Draws path) (written : ∀ e, .file e ∉ (t.flush w).1.faults)
    (sized : ∀ n ∈ (t.flush w).1.graph.elim [] CallGraph.nodes, n.IsSized) :
    CallNode.load (t.flush w).2 path = .ok ((t.flush w).1.graph.elim [] CallGraph.nodes) := by
  obtain ⟨g, hg, ho⟩ := h.graph
  unfold Tracer.flush at written sized ⊢
  rw [hg] at written sized ⊢
  dsimp only at written sized ⊢
  cases hf : g.flush w with
  | ok w' =>
    rw [hf] at sized
    dsimp only at sized ⊢
    rw [hg] at sized ⊢
    exact CallGraph.load_of_flush ho sized hf
  | error e =>
    have hfile : ∃ why, e = .file why := by
      unfold CallGraph.flush at hf
      rw [ho] at hf
      dsimp only at hf
      split at hf
      · cases hf
      next why _ =>
        cases hf
        exact ⟨why, rfl⟩
    obtain ⟨why, rfl⟩ := hfile
    rw [hf] at written
    exact absurd (List.mem_append_right _ List.mem_cons_self) (written why)

end Tracer

namespace Program
variable {program : Program} {t t' : Tracer} {s s' : Scene} {failure : Option Raised} {path : Path}

/-- A new run is under its hook alone. -/
theorem draws_restart (h : t.Draws path) (s : Scene) :
    (s.restart hookName (.tracer t)).audience.Draws path :=
  ⟨t, by simp [Scene.restart, Bindings.get?], h⟩

theorem runUnder_eq_ok {hook hook' : Hook}
    (h : program.runUnder hook s = .ok (failure, hook', s')) :
    s' = (SelectiveTrace.runUnder hookName program (s.restart hookName hook)).2 ∧
      hook' = (Bindings.get? hookName s'.audience.hooks).getD hook := by
  unfold runUnder at h
  generalize SelectiveTrace.runUnder hookName program (s.restart hookName hook) = r at h ⊢
  obtain ⟨exit, s₁⟩ := r
  cases exit with
  | done | failed e =>
    cases h
    exact ⟨rfl, rfl⟩
  | panicked text => cases h

/-- At the end of a program its tracer still collects the graph for the file, and writes it. -/
theorem runTracer_eq_ok (h : t.Draws path)
    (run : program.runTracer t s = .ok (failure, t', s')) :
    ∃ (t₁ : Tracer) (w : Surroundings), t₁.Draws path ∧ t' = (t₁.flush w).1 ∧
      s'.around = (t₁.flush w).2 := by
  unfold runTracer at run
  cases hu : program.runUnder (.tracer t) s with
  | error b =>
    rw [hu] at run
    cases run
  | ok r =>
    obtain ⟨failure₁, hook, s₁⟩ := r
    obtain ⟨hs, hhook⟩ := runUnder_eq_ok hu
    have hend := (Scene.upheld_draws path).runUnder hookName (Step.allOf_true program)
      (s.restart hookName (.tracer t)) (draws_restart h s)
    rw [← hs] at hend
    obtain ⟨t₁, ht₁, hdraws⟩ := hend
    rw [ht₁] at hhook
    rw [hu, hhook] at run
    cases run
    exact ⟨t₁, s₁.around, hdraws, rfl, rfl⟩

theorem draws_of_methodTracer {file : Path} {method : String} {c : Config} {resolver : Resolver}
    {s₁ : Scene} (collects : c.tracer.callGraph = some (some path))
    (setup : methodTracer file method c resolver s = .ok (t, s₁)) : t.Draws path := by
  obtain ⟨span, -, ht⟩ := methodTracer_eq_ok.mp setup
  unfold tracerOf Tracer.ofConfig at ht
  cases hv : (observing c (s.around.absolute file) span).tracer.validate s₁.around.disk with
  | error e =>
    rw [hv] at ht
    cases ht
  | ok u =>
    rw [hv] at ht
    cases ht
    have hgraph : (observing c (s.around.absolute file) span).tracer.callGraph = some (some path) :=
      collects
    refine ⟨Renderer.isTotal_of_custom (by simp [Tracer.keepFiles]), { output := some path }, ?_, rfl⟩
    simp [Tracer.keepFiles, hgraph]

end Program

/-- The artifact is the graph. The text of any nodes is read back as they were, and if the graph of a
method is to be written to a file, and no file error is reported, then the file holds the nodes that
the report tells, however the program ended. -/
theorem artifact_is_the_graph :
    (∀ nodes : List CallNode, (∀ n ∈ nodes, n.IsSized) →
      CallNode.listOfText? (CallNode.listText nodes) = some nodes) ∧
    ∀ (program : Program) (file : Path) (method : String) (c : Config) (resolver : Resolver)
      (path : Path) (s s' : Scene) (report : Traced GraphReport),
      program.callGraph file method c resolver (some path) s = .ok (report, s') →
      (∀ e, .file e ∉ report.faults) → (∀ n ∈ report.output.nodes, n.IsSized) →
      CallNode.load s'.around path = .ok report.output.nodes := by
  refine ⟨fun _ => CallNode.listOfText?_listText, ?_⟩
  intro program file method c resolver path s s' report run written sized
  unfold Program.callGraph at run
  dsimp only at run
  cases hm : Program.methodTracer file method
      { c with tracer := { c.tracer with callGraph := some (some path) } } resolver s with
  | error b =>
    rw [hm] at run
    cases run
  | ok r =>
    obtain ⟨t, s₁⟩ := r
    rw [hm] at run
    dsimp only [bind, Except.bind] at run
    cases ht : program.runTracer t s₁ with
    | error b =>
      rw [ht] at run
      cases run
    | ok r =>
      obtain ⟨failure, t', s₂⟩ := r
      rw [ht] at run
      cases run
      obtain ⟨t₁, w, hdraws, rfl, hw⟩ :=
        Program.runTracer_eq_ok (Program.draws_of_methodTracer rfl hm) ht
      rw [hw]
      exact hdraws.flushed written sized

/-! A method is called with a text full of quotes and escapes, and the program fails inside it. -/

def failingProgram : Program :=
  [.act (.register Program.hookName ⟨"/p.py"⟩
      "import x\n@x.wraps\ndef m(text):\n    raise KeyError('k')"),
    .act (.host (some "a") (.call ⟨"m", ⟨"/p.py"⟩, 3⟩ [("text", .str "say \"è\"\n\\")])),
    .act (.host none (.line "a" 4)),
    .act (.fail ⟨"KeyError", "k"⟩)]

def openCallNode : CallNode :=
  ⟨1, ["Call ... def m(text):", "Source path:... /p.py",
    "Starting var:.. text = 'say \"è\"\\n\\\\'"]⟩

theorem callGraph_failingProgram :
    (failingProgram.callGraph ⟨"/p.py"⟩ "m" {} decoratedResolver (some ⟨"/graph.json"⟩)
        decoratedScene).toOption.map (fun r => (r.1.failure, r.1.faults.isEmpty, r.1.output.nodes)) =
      some (some ⟨"KeyError", "k"⟩, true, [openCallNode]) := by
  unfold Program.callGraph
  dsimp only
  rw [methodTracer_decorated]
  unfold Program.runTracer Program.runUnder failingProgram
  simp only [SelectiveTrace.runUnder, runAll, Step.run]
  decide +kernel

theorem artifact_is_the_graph_of_failing_program :
    CallNode.listOfText? (CallNode.listText [⟨-7, ["\u0001\t\"é\" \\"]⟩]) =
        some [⟨-7, ["\u0001\t\"é\" \\"]⟩] ∧
      ∃ (report : Traced GraphReport) (s : Scene),
        failingProgram.callGraph ⟨"/p.py"⟩ "m" {} decoratedResolver (some ⟨"/graph.json"⟩)
          decoratedScene = .ok (report, s) ∧ report.failure = some ⟨"KeyError", "k"⟩ ∧
        CallNode.load s.around ⟨"/graph.json"⟩ = .ok [openCallNode] := by
  refine ⟨artifact_is_the_graph.1 _ (by decide), ?_⟩
  have hrun := callGraph_failingProgram
  cases hc : failingProgram.callGraph ⟨"/p.py"⟩ "m" {} decoratedResolver (some ⟨"/graph.json"⟩)
      decoratedScene with
  | error b =>
    rw [hc] at hrun
    cases hrun
  | ok r =>
    obtain ⟨report, s⟩ := r
    rw [hc] at hrun
    obtain ⟨hfailure, hrest⟩ := Prod.mk.inj (Option.some.inj hrun)
    obtain ⟨hfaults, hnodes⟩ := Prod.mk.inj hrest
    dsimp only at hfailure hfaults hnodes
    have written : ∀ e, Error.file e ∉ report.faults := by
      rw [List.isEmpty_iff.mp hfaults]
      exact fun _ => List.not_mem_nil
    have hload := artifact_is_the_graph.2 _ _ _ _ _ _ _ _ _ hc written
    rw [hnodes] at hload
    exact ⟨report, s, rfl, hfailure, hload (by decide)⟩

end SelectiveTrace
