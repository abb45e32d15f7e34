import SelectiveTrace.Proofs.CallGraph.Method
import SelectiveTrace.Proofs.Host.Playing

/-! The report on the call graph of a method. The visits of the method's lines tell whether it is
without holes: it is if each visit begins and ends inside the lines, and not, for example, if the call
of a decorated function is reported at its decorator. -/
namespace SelectiveTrace

namespace Visit
variable {t : Tracer} {V vs : List Visit} {g : CallGraph} {faults : List Error}

/-- All nodes are closed if no call was shown too early and none stands open at last. -/
theorem Records.closed_iff (h : Records t V g faults) :
    (∀ n ∈ g.nodes, n.isClosed = true) ↔
      ∀ id, IsKept (of id V) ∧ leavesOpen (of id V) = false := by
  constructor
  · intro hclosed
    have hkept := h.kept.mp fun i n hn => Or.inl (hclosed n (List.mem_of_getElem? hn))
    intro id
    refine ⟨hkept id, ?_⟩
    rw [← h.pending]
    cases hp : g.pending.get? id with
    | none => rfl
    | some i =>
      obtain ⟨n, hn, hopen⟩ := h.unclosed id i hp
      rw [hclosed n (List.mem_of_getElem? hn)] at hopen
      cases hopen
  · intro hall n hn
    obtain ⟨i, hi⟩ := List.mem_iff_getElem?.mp hn
    rcases h.kept.mpr (fun id => (hall id).1) i n hi with hc | ⟨id, hid⟩
    · exact hc
    · have hp := h.pending id
      rw [hid, (hall id).2] at hp
      cases hp

/-- Where each visit shows both its call and its end, or neither, nothing is amiss. -/
theorem whole_of_even (h : ∀ v ∈ vs, v.shut = v.opened) :
    IsMatched vs ∧ IsKept vs ∧ leavesOpen vs = false := by
  induction vs with
  | nil => exact ⟨trivial, trivial, rfl⟩
  | cons v vs ih =>
    obtain ⟨hv, hvs⟩ := List.forall_mem_cons.mp h
    obtain ⟨hm, hk, ho⟩ := ih hvs
    refine ⟨⟨hm, fun hs => Or.inl (hv ▸ hs)⟩, ⟨hk, fun _ => ho⟩, ?_⟩
    rw [leavesOpen, ho, hv]
    cases v.opened <;> rfl

end Visit

namespace InTouch
variable {t : Tracer} {r : Region} {m : Machine} {s : Tracer × Surroundings} {V : List Visit}
  {g : CallGraph}

/-- Visits that begin and end inside the region show their calls and their ends. -/
theorem even_of_whole (h : InTouch t r m s V g) (stack : m.stack = [])
    (whole : ∀ v ∈ V, v.entered = true ∨ v.ran = true → v.entered = true ∧ v.left? = some true)
    {v : Visit} (hv : v ∈ V) : v.shut = v.opened := by
  have hleft : v.left? ≠ none := by
    refine h.ended v.frame ?_ v ?_
    · rw [stack]
      exact List.not_mem_nil
    · unfold Visit.of
      simp [hv]
  obtain ⟨hmet, hran⟩ := h.sound v hv
  unfold Visit.shut Visit.opened
  cases hm : v.met with
  | true =>
    obtain ⟨he, hl⟩ := whole v hv (hran hm)
    rw [he, hl]
    rfl
  | false =>
    have he : v.entered = false := by
      rw [Bool.eq_false_iff]
      intro he
      rw [hmet he] at hm
      cases hm
    cases hl : v.left? with
    | none => exact absurd hl hleft
    | some inside => simp [he]

end InTouch

namespace Program

theorem methodTracer_eq_ok {file : Path} {method : String} {c : Config} {resolver : Resolver}
    {s s₁ : Scene} {t : Tracer} : methodTracer file method c resolver s = .ok (t, s₁) ↔
    ∃ span, ask resolver (.methodRange method) (s.around.absolute file) s = .ok (some span, s₁) ∧
      tracerOf (observing c (s.around.absolute file) span) s₁ = .ok t := by
  unfold methodTracer
  cases ha : ask resolver (.methodRange method) (s.around.absolute file) s with
  | error b => simp [ha, bind, Except.bind]
  | ok answer =>
    obtain ⟨span?, s'⟩ := answer
    cases span? with
    | none => simp [ha, bind, Except.bind, throw, throwThe, MonadExceptOf.throw]
    | some span =>
      simp only [ha, bind, Except.bind]
      constructor
      · intro setup
        cases ht : tracerOf (observing c (s.around.absolute file) span) s' with
        | error b =>
          rw [ht] at setup
          cases setup
        | ok t' =>
          rw [ht] at setup
          cases setup
          exact ⟨span, rfl, ht⟩
      · rintro ⟨span', hspan, ht⟩
        cases hspan
        rw [ht]
        rfl

/-- The tracer of a method before anything has run. -/
theorem inTouch_of_methodTracer {file : Path} {method : String} {c : Config} {resolver : Resolver}
    {s s₁ : Scene} {t : Tracer} {r : Region} {output : Option Path}
    (setup : methodTracer file method c resolver s = .ok (t, s₁)) (observed : t.observed = some r)
    (collects : c.tracer.callGraph = some output)
    (writable : ∀ path, output = some path → s₁.around.Accepts path) {m : Machine}
    (fresh : m.IsFresh) : InTouch t r m (t, s₁.around) [] { output } := by
  obtain ⟨span, -, ht⟩ := methodTracer_eq_ok.mp setup
  unfold tracerOf Tracer.ofConfig at ht
  cases hv : (observing c (s.around.absolute file) span).tracer.validate s₁.around.disk with
  | error e =>
    rw [hv] at ht
    cases ht
  | ok u =>
    rw [hv] at ht
    cases ht
    have hgraph : (observing c (s.around.absolute file) span).tracer.callGraph = some output :=
      collects
    refine ⟨fresh.linked, fresh.isSpelled, ⟨observed, rfl, ?_⟩, rfl, ?_, ?_, writable, ?_, ?_, ?_,
      ?_, Visit.Records.empty _ _⟩
    · unfold TracerConfig.expands Tracer.keepFiles
      simp [hgraph]
    · refine Renderer.isTotal_of_custom ?_
      intro f hf
      cases hf
    · unfold Tracer.keepFiles
      simp [hgraph]
    · intro id hid
      cases hid
    · intro id rest hs
      rw [fresh.stack] at hs
      simp at hs
    · intro id _ v hv
      cases hv
    · intro v hv
      cases hv

end Program

/-- A program under the tracer of a method whose lines are found, through a run that keeps to the
stack: there is a report. Its nodes are, in their order, those of the visits whose calls are shown;
nothing has failed just if no end is shown without a node; and all nodes are closed just if no call is
shown while a node of its frame stands open, and none stands open at the end. So nothing is amiss
where visits begin inside the lines and end there, and each visit that ran a line of the method has
its node. -/
theorem report_of_visits {steps : List (Option String × Op String)} {failure : Option Raised}
    {file : Path} {method : String} {c : Config} {resolver : Resolver} {output : Option Path}
    {s s₁ : Scene} {t : Tracer} {r : Region}
    (setup : Program.methodTracer file method
      { c with tracer := { c.tracer with callGraph := some output } } resolver s = .ok (t, s₁))
    (observed : t.observed = some r)
    (writable : ∀ path, output = some path → s₁.around.Accepts path)
    (disciplined : (Program.opening t s₁).machine.Disciplined Tracer.deliver (t, s₁.around)
      ((Program.opening t s₁).operations steps))
    (spelled : ∀ op ∈ (Program.opening t s₁).operations steps, op.IsSpelled) :
    let m := (Program.opening t s₁).machine
    let ops := (Program.opening t s₁).operations steps
    let V := Visit.during r m (t, s₁.around) ops []
    ∃ (nodes : List CallNode) (faults : List Error) (s₂ : Scene),
      (Program.ofHost steps failure).callGraph file method c resolver output s =
        .ok (⟨⟨nodes, CallNode.tree nodes⟩, faults, failure⟩, s₂) ∧
      List.Forall₂ (CallNode.Opens t) ((Visit.shown V).map Visit.file) nodes ∧
      (faults = [] ↔ ∀ id, Visit.IsMatched (Visit.of id V)) ∧
      ((∀ n ∈ nodes, n.isClosed = true) ↔
        ∀ id, Visit.IsKept (Visit.of id V) ∧ Visit.leavesOpen (Visit.of id V) = false) ∧
      ((m.run Tracer.deliver (t, s₁.around) ops).machine.stack = [] →
        (∀ v ∈ V, v.entered = true ∨ v.ran = true → v.entered = true ∧ v.left? = some true) →
        faults = [] ∧ (∀ n ∈ nodes, n.isClosed = true) ∧
          ∀ v ∈ V, v.ran = true → v.opened = true) := by
  intro m ops V
  have h₀ := Program.inTouch_of_methodTracer setup observed rfl writable
    (Program.isFresh_opening t s₁)
  obtain ⟨hp, g, h, ho⟩ := h₀.run (Program.hook_opening t s₁) disciplined spelled
  obtain ⟨s₂, hrun⟩ := Program.runTracer_ofHost disciplined hp failure
  obtain ⟨w', hflush, -⟩ := Tracer.flush_of_accepts h.accepts
  have hlast : (m.run Tracer.deliver (t, s₁.around) ops).state.1.flush
      (m.run Tracer.deliver (t, s₁.around) ops).state.2 =
        ((m.run Tracer.deliver (t, s₁.around) ops).state.1, w') := by
    unfold Tracer.flush
    rw [h.graph]
    dsimp only
    rw [hflush]
  have hmatched := h.records.matched
  have hclosed := h.records.closed_iff
  refine ⟨g.nodes, (m.run Tracer.deliver (t, s₁.around) ops).state.1.faults, s₂, ?_,
    h.records.nodes, hmatched, hclosed, ?_⟩
  · unfold Program.callGraph
    dsimp only
    rw [setup]
    dsimp only [bind, Except.bind]
    rw [hrun]
    dsimp only
    rw [hlast]
    dsimp only
    rw [h.graph]
    rfl
  · intro stack whole
    have heven : ∀ id, Visit.IsMatched (Visit.of id V) ∧ Visit.IsKept (Visit.of id V) ∧
        Visit.leavesOpen (Visit.of id V) = false := by
      intro id
      refine Visit.whole_of_even ?_
      intro v hv
      exact h.even_of_whole stack whole (List.mem_of_mem_filter hv)
    refine ⟨hmatched.mpr fun id => (heven id).1, hclosed.mpr fun id => (heven id).2, ?_⟩
    intro v hv hran
    unfold Visit.opened
    rw [(whole v hv (Or.inr hran)).1]
    rfl

/-! A decorated function, whose call is reported at the decorator, just above its lines. -/

def decoratedLines : Region :=
  ⟨⟨"/p.py"⟩, 3, 4⟩

def decoratedCall : List (Option String × Op String) :=
  let code : Code := ⟨"m", ⟨"/p.py"⟩, 2⟩
  [(some "a", .call code []), (none, .line "a" 4), (none, .ret "a" .none)]

def decoratedScene : Scene :=
  { audience := { around := { disk := {
      entries := (⟨[]⟩ : Table _ _).insert ["p.py"] (.file ByteArray.empty) } } } }

def decoratedResolver : Resolver :=
  .tabled [] [] [(⟨"/p.py"⟩, [("m", ⟨3, 4⟩)])] false

def decoratedTracer : Tracer :=
  { config := { callGraph := some none, observed := some decoratedLines }
    observed := some decoratedLines
    renderer := { maxLength := some 100 }
    graph := some {}
    sources := .ofCapacity 256 }

theorem methodTracer_decorated (output : Option Path) :
    Program.methodTracer ⟨"/p.py"⟩ "m" { tracer := { callGraph := some output } } decoratedResolver
      decoratedScene =
        .ok ({ decoratedTracer with
          config := { decoratedTracer.config with callGraph := some output }
          graph := some { output } }, decoratedScene) := by
  have file : decoratedScene.around.disk.absolute ⟨"/p.py"⟩ = ⟨"/p.py"⟩ := by decide +kernel
  have there : decoratedScene.around.disk.pathExists ⟨"/p.py"⟩ = true := by decide +kernel
  have found : Resolver.Ranges.find? [(⟨"/p.py"⟩, [("m", ⟨3, 4⟩)])] ⟨"/p.py"⟩ "m" =
      some ⟨3, 4⟩ := by decide +kernel
  refine Program.methodTracer_eq_ok.mpr ⟨⟨3, 4⟩, ?_, ?_⟩
  · rw [Surroundings.absolute, file]
    simp only [Program.ask, decoratedResolver, Resolver.tabled, ScopeQuery.param, found]
    rfl
  · rw [Surroundings.absolute, file]
    simp [Program.tracerOf, Program.observing, Tracer.ofConfig, TracerConfig.validate, there, file,
      pure, Except.pure]
    rfl

/-- The call is not shown and the end is: there is no node, and something has failed. -/
theorem report_of_decorated_call :
    ∃ faults s₂, (Program.ofHost decoratedCall none).callGraph ⟨"/p.py"⟩ "m" {} decoratedResolver
        none decoratedScene = .ok (⟨⟨[], CallNode.tree []⟩, faults, none⟩, s₂) ∧ faults ≠ [] := by
  have disciplined : (Program.opening decoratedTracer decoratedScene).machine.Disciplined
      Tracer.deliver (decoratedTracer, decoratedScene.around)
      ((Program.opening decoratedTracer decoratedScene).operations decoratedCall) := by
    decide +kernel
  have spelled : ∀ op ∈ (Program.opening decoratedTracer decoratedScene).operations decoratedCall,
      op.IsSpelled := by decide +kernel
  have writable : ∀ path, (none : Option Path) = some path →
      decoratedScene.around.Accepts path := by
    intro path h
    cases h
  obtain ⟨nodes, faults, s₂, hreport, hnodes, hfaults, -, -⟩ :=
    @report_of_visits decoratedCall none ⟨"/p.py"⟩ "m" {} decoratedResolver none decoratedScene
      decoratedScene decoratedTracer decoratedLines (methodTracer_decorated none) rfl writable
      disciplined spelled
  have hshown : (Visit.shown (Visit.during decoratedLines
      (Program.opening decoratedTracer decoratedScene).machine
      (decoratedTracer, decoratedScene.around)
      ((Program.opening decoratedTracer decoratedScene).operations decoratedCall)
      [])).map Visit.file = [] := by decide +kernel
  rw [hshown] at hnodes
  cases hnodes
  refine ⟨faults, s₂, hreport, ?_⟩
  intro hnone
  have hmatched := hfaults.mp hnone ⟨1, 0⟩
  revert hmatched
  decide +kernel

end SelectiveTrace
