import SelectiveTrace.Proofs.CallGraph.Telling
import SelectiveTrace.Proofs.Tracer.Region

/-! What the events of a frame make of a call graph when a region is observed. A shown end of a frame
without an open node is a fault. -/
namespace SelectiveTrace

namespace CallGraph

inductive Shuts (g : CallGraph) (id : FrameId) : CallGraph → List Error → Prop
  | closed {i : Nat} (pending : g.pending.get? id = some i) (lines : List String)
    (closing : ∀ n : CallNode, (n.add lines).isClosed = true) :
    Shuts g id { g with nodes := g.nodes.modify i (·.add lines), pending := g.pending.erase id } []
  | unmatched (pending : g.pending.get? id = none) (e : Error) : Shuts g id g [e]

end CallGraph

namespace Tracer
variable {t : Tracer} {r : Region} {w : Surroundings} {ctx : Context} {g : CallGraph}

theorem Moves.besides {t' : Tracer} {f : Frame} {n : Int} (h : Moves t t' f n) :
    t.Besides t' f.id :=
  h.keeps.besides

theorem ByRegion.besides_ended (ht : t.ByRegion r) (ctx : Context) :
    t.Besides (t.ended ctx) ctx.frame.id ∧
      (ctx.event.isTerminal = true → ¬ (t.ended ctx).Attaches ctx.frame.id) := by
  unfold ended
  split
  next hterm =>
    have hr : t.release t.session ctx.frame.id =
        (t.session.detach ctx.frame.id).evict ctx.frame.id := by
      unfold release
      rw [ht.observed]
      rfl
    have h₁ := Session.besides_detach t.session ctx.frame.id
    have h₂ := (Session.keeps_evict (t.session.detach ctx.frame.id) ctx.frame.id).besides
    have h₃ := (Session.keeps_adjustDepth ((t.session.detach ctx.frame.id).evict ctx.frame.id)
      ctx.frame.thread.id (-1) ctx.frame.id).besides
    unfold onSession
    dsimp only
    rw [hr]
    refine ⟨⟨rfl, rfl, rfl, (h₁.trans h₂).trans h₃⟩, ?_⟩
    intro _ ha
    have ha' : ctx.frame.id ∈ (t.session.detach ctx.frame.id).targetFrames := ha
    exact (Session.mem_detach.mp ha').2 rfl
  next hterm => exact ⟨Besides.refl _ _, fun h => absurd h hterm⟩

theorem updateGraph_of_unmatched {op : Op FrameId} {e : Event} (ends : op.Ends ctx.frame e)
    (he : ctx.event = e) (pending : g.pending.get? ctx.frame.id = none) (w : Surroundings)
    (depth : Int) (source path : String) (starting result : Option String) :
    updateGraph g w ctx depth source path starting result =
      (g, w, some (.unmatchedReturn ctx.frame.id)) := by
  unfold updateGraph
  rw [he]
  cases ends with
  | value v _ _ =>
    cases result <;>
      simp only [CallGraph.closeReturn, CallGraph.closeException, CallGraph.close, pending]
  | brokenOff _ _ =>
    cases result <;>
      simp only [CallGraph.closeReturn, CallGraph.closeException, CallGraph.close, pending]
  | raised e _ =>
    cases result <;>
      simp only [CallGraph.closeReturn, CallGraph.closeException, CallGraph.close, pending]

/-- A shown end. -/
theorem ByRegion.render_end (ht : t.ByRegion r) (h : t.renderer.IsTotal) (hg : t.graph = some g)
    {op : Op FrameId} {e : Event} (ends : op.Ends ctx.frame e) (he : ctx.event = e)
    (accepts : ∀ path, g.output = some path → w.Accepts path) (expanded : Bool) :
    ∃ t' w' g' es, t.render w ctx expanded = (t', w', none) ∧ t.Besides t' ctx.frame.id ∧
      ¬ t'.Attaches ctx.frame.id ∧ t'.graph = some g' ∧ t'.faults = t.faults ++ es ∧
      g.Shuts ctx.frame.id g' es ∧ g'.output = g.output ∧
      ∀ path, g.output = some path → w'.Accepts path := by
  obtain ⟨x, u, hres, ha, hr⟩ := render_of_graph h (by rw [hg]; rfl) w ctx expanded
  have hterm : ctx.event.isTerminal = true ∧ ctx.event.isCall = false := by
    rw [he]
    cases ends <;> exact ⟨rfl, rfl⟩
  have hdesc : t.descend ctx = t := by
    unfold descend
    rw [hterm.2]
    rfl
  rw [hdesc] at ha hr
  have hu : u.graph = some g := ha.graph.trans hg
  have hbu : t.Besides u ctx.frame.id := (ha.keeps _).besides
  have hclose : ∀ v : Tracer, u.Besides v ctx.frame.id →
      t.Besides (v.ended ctx) ctx.frame.id ∧ ¬ (v.ended ctx).Attaches ctx.frame.id := by
    intro v hv
    have hb := hbu.trans hv
    obtain ⟨hended, hno⟩ := (hb.byRegion ht).besides_ended ctx
    exact ⟨hb.trans hended, hno hterm.1⟩
  have hfaults : ∀ v : Tracer, (v.ended ctx).faults = v.faults := by
    intro v
    unfold ended
    split <;> rfl
  dsimp only at hr
  rw [noteGraph, hu] at hr
  cases hp : g.pending.get? ctx.frame.id with
  | some i =>
    obtain ⟨closing, told, hup⟩ := updateGraph_of_ends ends he hres hp w
      (t.session.depth ctx.frame.thread.id) x.source.1 (t.displayPath ctx.frame.file) x.starting
    obtain ⟨w', hf, hw⟩ := flush_of_accepts
      (g := { g with
        nodes := g.nodes.modify i (·.add closing), pending := g.pending.erase ctx.frame.id }) accepts
    simp only [hup w' hf] at hr
    obtain ⟨hb, hno⟩ := hclose { u with graph := some { g with
      nodes := g.nodes.modify i (·.add closing), pending := g.pending.erase ctx.frame.id } }
      ⟨rfl, rfl, rfl, Session.Besides.refl _ _⟩
    refine ⟨_, w', _, [], hr, hb, hno, graph_ended _ _, ?_, .closed hp closing told.isClosed, rfl,
      hw⟩
    rw [hfaults, List.append_nil]
    exact ha.faults
  | none =>
    simp only [updateGraph_of_unmatched ends he hp] at hr
    obtain ⟨hb, hno⟩ := hclose
      (fault { u with graph := some g } (.unmatchedReturn ctx.frame.id))
      ⟨rfl, rfl, rfl, Session.Besides.refl _ _⟩
    refine ⟨_, w, g, [.unmatchedReturn ctx.frame.id], hr, hb, hno, graph_ended _ _, ?_,
      .unmatched hp _, rfl, accepts⟩
    rw [hfaults]
    unfold fault
    rw [ha.faults]

/-! Whole events of the frame that runs on top of `below`, from the verdict on. -/

section
variable {below : List Frame}

/-- The tracer after the verdict. -/
theorem Judges.decided (hj : t.Judges r ctx below (t.decide w ctx).1 (t.decide w ctx).2)
    (hg : t.graph = some g) :
    t.Besides (t.decide w ctx).2 ctx.frame.id ∧ (t.decide w ctx).2.graph = some g ∧
      (t.decide w ctx).2.faults = t.faults := by
  obtain ⟨s, hs, hb⟩ := hj.session
  rw [hs]
  exact ⟨⟨rfl, rfl, rfl, hb⟩, hg, rfl⟩

/-- A call opens a node if it is made inside the region, or handed on. -/
theorem onEvent_enter (counted : t.config.overflows = false) (h : t.renderer.IsTotal)
    (hg : t.graph = some g) (he : ctx.event = .call)
    (hj : t.Judges r ctx below (t.decide w ctx).1 (t.decide w ctx).2) {shown : Bool}
    (hv : (t.decide w ctx).1.isShow = shown) :
    ∃ a t' g', t.onEvent ctx w = (a, t', w) ∧ (∀ text, a ≠ .panicked text) ∧
      (a = .skipFrame → (t.decide w ctx).1 = .skip) ∧ t.Besides t' ctx.frame.id ∧
      (t'.Attaches ctx.frame.id ↔ (t.decide w ctx).2.Attaches ctx.frame.id) ∧
      t'.faults = t.faults ∧ t'.graph = some g' ∧
      if shown then ∃ d line starting,
        g' = g.openCall ctx.frame.id d line (t.displayPath ctx.frame.file) starting
      else g' = g := by
  obtain ⟨hb, hg₁, hf₁⟩ := hj.decided hg
  have hd : ctx.event.isDiscard = false := by
    rw [he]
    rfl
  cases shown with
  | false =>
    obtain ⟨a, ha, hp, hs⟩ := onEvent_of_counted counted hd hv
    exact ⟨a, _, g, ha, hp, hs, hb, Iff.rfl, hf₁, hg₁, rfl⟩
  | true =>
    obtain ⟨expanded, hc⟩ := Verdict.isShow_iff.mp hv
    obtain ⟨t', line, starting, hr, hm, hg'⟩ := render_call (hb.renderer ▸ h) hg₁ w he expanded
    have hpath : (t.decide w ctx).2.displayPath ctx.frame.file = t.displayPath ctx.frame.file := by
      unfold displayPath
      rw [hb.config]
    rw [hpath] at hg'
    refine ⟨.proceed, t', _, onEvent_of_show hd hc hr, fun _ => by simp, ?_, hb.trans hm.besides,
      ?_, hm.faults.trans hf₁, hg', _, line, starting, rfl⟩
    · intro ha
      cases ha
    · unfold Attaches
      rw [hm.keeps.session.frames]

/-- Lines leave the graph alone. -/
theorem onEvent_pass (counted : t.config.overflows = false) (h : t.renderer.IsTotal)
    (hg : t.graph = some g) (he : ctx.event = .line)
    (hj : t.Judges r ctx below (t.decide w ctx).1 (t.decide w ctx).2) :
    ∃ a t', t.onEvent ctx w = (a, t', w) ∧ (∀ text, a ≠ .panicked text) ∧
      (a = .skipFrame → (t.decide w ctx).1 = .skip) ∧ t.Besides t' ctx.frame.id ∧
      (t'.Attaches ctx.frame.id ↔ (t.decide w ctx).2.Attaches ctx.frame.id) ∧
      t'.faults = t.faults ∧ t'.graph = some g := by
  obtain ⟨hb, hg₁, hf₁⟩ := hj.decided hg
  have hd : ctx.event.isDiscard = false := by
    rw [he]
    rfl
  cases hv : (t.decide w ctx).1.isShow with
  | false =>
    obtain ⟨a, ha, hp, hs⟩ := onEvent_of_counted counted hd hv
    exact ⟨a, _, ha, hp, hs, hb, Iff.rfl, hf₁, hg₁⟩
  | true =>
    obtain ⟨expanded, hc⟩ := Verdict.isShow_iff.mp hv
    obtain ⟨t', hr, hm, hg'⟩ := render_line (hb.renderer ▸ h) hg₁ w he expanded
    refine ⟨.proceed, t', onEvent_of_show hd hc hr, fun _ => by simp, ?_, hb.trans hm.besides, ?_,
      hm.faults.trans hf₁, hg'⟩
    · intro ha
      cases ha
    · unfold Attaches
      rw [hm.keeps.session.frames]

/-- An end detaches the frame, and shuts its node if it is shown. -/
theorem ByRegion.onEvent_leave (ht : t.ByRegion r) (h : t.renderer.IsTotal)
    (hg : t.graph = some g) {op : Op FrameId} {e : Event} (ends : op.Ends ctx.frame e)
    (he : ctx.event = e) (accepts : ∀ path, g.output = some path → w.Accepts path)
    (hj : t.Judges r ctx below (t.decide w ctx).1 (t.decide w ctx).2) {shown : Bool}
    (hv : (t.decide w ctx).1.isShow = shown) :
    ∃ a t' w' g' es, t.onEvent ctx w = (a, t', w') ∧ (∀ text, a ≠ .panicked text) ∧
      t.Besides t' ctx.frame.id ∧ ¬ t'.Attaches ctx.frame.id ∧ t'.graph = some g' ∧
      t'.faults = t.faults ++ es ∧ g'.output = g.output ∧
      (∀ path, g.output = some path → w'.Accepts path) ∧
      if shown then g.Shuts ctx.frame.id g' es else g' = g ∧ es = [] := by
  obtain ⟨hb, hg₁, hf₁⟩ := hj.decided hg
  have hterm : ctx.event.isTerminal = true ∧ ctx.event.isDiscard = false ∧
      ctx.event.isLine = false := by
    rw [he]
    cases ends <;> exact ⟨rfl, rfl, rfl⟩
  cases shown with
  | false =>
    obtain ⟨a, ha, hp, -⟩ := onEvent_of_counted
      (TracerConfig.overflows_of_compact ht.compact) hterm.2.1 hv
    refine ⟨a, _, w, g, [], ha, hp, hb, ?_, hg₁, by rw [hf₁, List.append_nil], rfl, accepts, rfl,
      rfl⟩
    intro hatt
    obtain ⟨hattends, hin⟩ := hj.attached.mp hatt
    have hins : r.surrounds ctx.frame = true := hin.resolve_right (by simp [hterm.1])
    rw [hj.attending hattends hterm.2.2, hins] at hv
    cases hv
  | true =>
    obtain ⟨expanded, hc⟩ := Verdict.isShow_iff.mp hv
    obtain ⟨t', w', g', es, hr, hb', hno, hg', hf, hshut, ho, hw⟩ :=
      (hb.byRegion ht).render_end (hb.renderer ▸ h) hg₁ ends he accepts expanded
    refine ⟨.proceed, t', w', g', es, onEvent_of_show hterm.2.1 hc hr, fun _ => by simp,
      hb.trans hb', hno, hg', ?_, ho, hw, hshut⟩
    rw [hf, hf₁]

/-- A dropped generator leaves no open node. -/
theorem onEvent_drop (hg : t.graph = some g) (he : ctx.event = .discard) (w : Surroundings) :
    ∃ t' g', t.onEvent ctx w = (.proceed, t', w) ∧ t.Besides t' ctx.frame.id ∧
      ¬ t'.Attaches ctx.frame.id ∧ t'.faults = t.faults ∧ t'.graph = some g' ∧
      g'.output = g.output ∧
      if (g.pending.get? ctx.frame.id).isSome then g.Shuts ctx.frame.id g' [] else g' = g := by
  have hb : t.Besides (t.onSession fun s => (s.evict ctx.frame.id).detach ctx.frame.id)
      ctx.frame.id := by
    have h₁ := (Session.keeps_evict t.session ctx.frame.id).besides
    have h₂ := Session.besides_detach (t.session.evict ctx.frame.id) ctx.frame.id
    exact ⟨rfl, rfl, rfl, h₁.trans h₂⟩
  have hno : ctx.frame.id ∉ ((t.session.evict ctx.frame.id).detach ctx.frame.id).targetFrames :=
    fun h => (Session.mem_detach.mp h).2 rfl
  have hevent : t.onEvent ctx w = (.proceed, t.dropFrame ctx.frame.id, w) := by
    unfold onEvent
    rw [he]
    rfl
  cases hp : g.pending.get? ctx.frame.id with
  | none =>
    have hc : g.closeException ctx.frame.id = .error (.unmatchedReturn ctx.frame.id) := by
      simp only [CallGraph.closeException, CallGraph.close, hp]
    refine ⟨_, g, ?_, hb, hno, rfl, hg, rfl, rfl⟩
    rw [hevent]
    simp only [dropFrame, onSession, hg, hc]
  | some i =>
    have hc : g.closeException ctx.frame.id = .ok { g with
        nodes := g.nodes.modify i (·.add [CallNode.brokenOff])
        pending := g.pending.erase ctx.frame.id } := by
      simp only [CallGraph.closeException, CallGraph.close, hp]
    have hclosing : ∀ n : CallNode, (n.add [CallNode.brokenOff]).isClosed = true :=
      (Ending.Told.brokenOff (r := t.renderer)).isClosed
    refine ⟨{ t.onSession fun s => (s.evict ctx.frame.id).detach ctx.frame.id with
      graph := some { g with
        nodes := g.nodes.modify i (·.add [CallNode.brokenOff])
        pending := g.pending.erase ctx.frame.id } }, _, ?_,
      ⟨rfl, rfl, rfl, hb.session⟩, hno, rfl, rfl, rfl, .closed hp _ hclosing⟩
    rw [hevent]
    simp only [dropFrame, onSession, hg, hc]

end

end Tracer
end SelectiveTrace
