import Mathlib.Data.List.Forall2
import SelectiveTrace.Proofs.CallGraph.Forest

/-! What the events of a frame make of a call graph: a shown call opens a node, a shown end closes the
node of its frame, and nothing else touches the graph. -/
namespace SelectiveTrace

theorem forall₂_modify {α β : Type} {r : α → β → Prop} {as : List α} {bs : List β}
    (h : List.Forall₂ r as bs) (i : Nat) {p : α → α} {q : β → β}
    (hi : ∀ a b, as[i]? = some a → r a b → r (p a) (q b)) :
    List.Forall₂ r (as.modify i p) (bs.modify i q) := by
  induction h generalizing i with
  | nil => simp
  | cons hab htail ih =>
    cases i with
    | zero => simpa using ⟨hi _ _ rfl hab, htail⟩
    | succ i => simpa using ⟨hab, ih i fun a b ha => hi a b (by simpa using ha)⟩

theorem forall₂_modify_right {α β : Type} {r : α → β → Prop} {as : List α} {bs : List β}
    (h : List.Forall₂ r as bs) (i : Nat) {q : β → β} (hq : ∀ a b, r a b → r a (q b)) :
    List.Forall₂ r as (bs.modify i q) := by
  have hm := forall₂_modify h i (p := id) fun a b _ hab => hq a b hab
  rwa [List.modify_id] at hm

/-- Any texts can be written to the file one after the other. -/
def Surroundings.Accepts (w : Surroundings) (path : Path) : Prop :=
  ∀ texts : List String, ∃ w', texts.foldlM (fun w text => w.write path text) w = .ok w'

theorem Surroundings.Accepts.write {w : Surroundings} {path : Path} (h : w.Accepts path)
    (text : String) : ∃ w', w.write path text = .ok w' ∧ w'.Accepts path := by
  obtain ⟨w₁, h₁⟩ := h [text]
  cases hw : w.write path text with
  | error e =>
    rw [List.foldlM_cons, hw] at h₁
    cases h₁
  | ok w' =>
    refine ⟨w', rfl, ?_⟩
    intro texts
    obtain ⟨w₂, h₂⟩ := h (text :: texts)
    rw [List.foldlM_cons, hw] at h₂
    exact ⟨w₂, h₂⟩

inductive Ending.Told (r : Renderer) : Option Ending → List String → Prop
  | running : Told r none []
  | value {v : Value} {text : String} (line : String) (render : r.render v = .ok text) :
    Told r (some (.value v)) [CallNode.returnMark ++ line, CallNode.valueMark ++ text]
  | brokenOff : Told r (some .brokenOff) [CallNode.brokenOff]

/-- A node tells a call: its depth counts the calls around it, its lines are those of an opened node
for the file of the call, then those of the end, and it is closed if the call has ended. -/
structure Tracer.Tells (t : Tracer) (c : Call) (n : CallNode) : Prop where
  depth : n.depth = c.enclosing.length
  content : ∃ line starting closing, Ending.Told t.renderer c.ending? closing ∧
    n.content = CallNode.opening line (t.displayPath c.file) starting ++ closing
  closed : n.isClosed = c.ending?.isSome

namespace CallNode

theorem isClosing_of_head {c : Char} {line : String} (h : line.toList.head? = some c)
    (hr : c ≠ 'R') (hc : c ≠ 'C') : isClosing line = false := by
  unfold isClosing Text.startsWith
  have hv : valueMark.toList.head? = some 'R' := by decide
  have hb : brokenOff.toList.head? = some 'C' := by decide
  have hne : line ≠ brokenOff := by
    rintro rfl
    rw [hb] at h
    exact hc (Option.some.inj h).symm
  simp only [hne, decide_false, Bool.or_false]
  cases hl : line.toList with
  | nil =>
    rw [hl] at h
    cases h
  | cons d ds =>
    rw [hl] at h
    cases hm : valueMark.toList with
    | nil =>
      rw [hm] at hv
      cases hv
    | cons e es =>
      rw [hm] at hv
      have hd : d = c := Option.some.inj h
      have he : e = 'R' := Option.some.inj hv
      have hed : (e == d) = false := by
        rw [he, hd]
        exact beq_eq_false_iff_ne.mpr hr.symm
      simp [List.isPrefixOf, hed]

theorem isClosing_value (text : String) : isClosing (valueMark ++ text) = true := by
  unfold isClosing Text.startsWith
  rw [String.toList_append]
  simp

/-- A node that was only opened is not closed. -/
theorem isClosed_opening (d : Int) (line path : String) (starting : Option String) :
    (CallNode.mk d (opening line path starting)).isClosed = false := by
  unfold isClosed opening
  cases starting with
  | none =>
    have h : (pathMark ++ path).toList.head? = some 'S' := by
      rw [String.toList_append]
      rfl
    simp [isClosing_of_head h (by decide) (by decide)]
  | some s =>
    have h : (startingMark ++ s).toList.head? = some 'S' := by
      rw [String.toList_append]
      rfl
    simp [isClosing_of_head h (by decide) (by decide)]

end CallNode

theorem Ending.Told.isClosed {r : Renderer} {e : Ending} {closing : List String}
    (h : Told r (some e) closing) (n : CallNode) : (n.add closing).isClosed = true := by
  unfold CallNode.isClosed CallNode.add
  cases h with
  | value line render => simp [CallNode.isClosing_value]
  | brokenOff => simp [CallNode.isClosing]

namespace Tracer
variable {t : Tracer} {w : Surroundings} {ctx : Context} {g : CallGraph}

/-- A call that begins has a node that tells it. -/
theorem tells_opening (t : Tracer) (file : Path) (outer : List Nat) (line : String)
    (starting : Option String) :
    t.Tells ⟨file, outer, none⟩
      ⟨outer.length, CallNode.opening line (t.displayPath file) starting⟩ :=
  ⟨rfl, ⟨line, starting, [], .running, by simp⟩, CallNode.isClosed_opening _ _ _ _⟩

/-- A call that ends is told by the node with the closing lines added. -/
theorem Tells.add {c : Call} {n : CallNode} (h : t.Tells c n) (running : c.ending? = none)
    {e : Ending} {closing : List String} (told : Ending.Told t.renderer (some e) closing) :
    t.Tells { c with ending? := some e } (n.add closing) := by
  obtain ⟨line, starting, before, hb, hc⟩ := h.content
  rw [running] at hb
  cases hb
  rw [List.append_nil] at hc
  refine ⟨h.depth, ⟨line, starting, closing, told, ?_⟩, told.isClosed n⟩
  rw [CallNode.add, hc]

/-- While a graph is collected no line goes out. -/
theorem write_of_graph (h : t.graph.isSome) (lines : List String) :
    t.write w lines = (t, w) := by
  cases lines with
  | nil => rfl
  | cons line lines =>
    rw [write, if_pos h]

theorem isSome_noteGraph (hg : t.graph.isSome) (w : Surroundings) (ctx : Context) (depth : Int)
    (source path : String) (starting result : Option String) :
    (t.noteGraph w ctx depth source path starting result).1.graph.isSome := by
  unfold noteGraph
  split
  next hn =>
    rw [hn] at hg
    cases hg
  next =>
    split <;> rfl

theorem graph_descend (t : Tracer) (ctx : Context) : (t.descend ctx).graph = t.graph := by
  unfold descend
  split <;> rfl

theorem graph_ended (t : Tracer) (ctx : Context) : (t.ended ctx).graph = t.graph := by
  unfold ended
  split <;> rfl

/-- Showing an event while a graph is collected. -/
theorem render_of_graph (h : t.renderer.IsTotal) (hg : t.graph.isSome) (w : Surroundings)
    (ctx : Context) (expanded : Bool) :
    ∃ (x : Showing) (u : Tracer),
      let depth := (t.descend ctx).session.depth ctx.frame.thread.id
      t.resultText ctx = .ok x.result ∧ Alike (t.descend ctx) u ∧
      t.render w ctx expanded =
        let n := u.noteGraph w ctx depth x.source.1 (t.displayPath ctx.frame.file) x.starting
          x.result
        (n.1.ended ctx, n.2, none) := by
  obtain ⟨x, u, w', hr, he, hp⟩ := render_eq h w ctx expanded
  have hd : (t.descend ctx).graph.isSome := by rwa [graph_descend]
  have hu : u.graph.isSome := by rwa [he.alike.graph]
  have hw : w' = w := by
    have ho := he.output
    unfold feed at ho
    rw [if_pos hd] at ho
    exact congrArg Prod.snd ho
  subst hw
  refine ⟨x, u, hr, he.alike, ?_⟩
  rw [hp]
  have hn := isSome_noteGraph hu w' ctx
    ((t.descend ctx).session.depth ctx.frame.thread.id) x.source.1
    (t.displayPath ctx.frame.file) x.starting x.result
  dsimp only
  rw [conclude_eq, write_of_graph]
  rwa [graph_ended]

structure Moves (t t' : Tracer) (f : Frame) (n : Int) : Prop where
  keeps : t.Keeps t' f.id
  faults : t'.faults = t.faults
  depth : t'.session.depth f.thread.id = t.session.depth f.thread.id + n

theorem Moves.trans {t t' t'' : Tracer} {f : Frame} {n n' : Int} (h : Moves t t' f n)
    (h' : Moves t' t'' f n') : Moves t t'' f (n + n') := by
  refine ⟨h.keeps.trans h'.keeps, h'.faults.trans h.faults, ?_⟩
  rw [h'.depth, h.depth, Int.add_assoc]

theorem Alike.moves {t t' : Tracer} (h : Alike t t') (f : Frame) : Moves t t' f 0 :=
  ⟨h.keeps f.id, h.faults, (h.depth _).trans (Int.add_zero _).symm⟩

theorem moves_graph (t : Tracer) (g : CallGraph) (f : Frame) :
    Moves t { t with graph := some g } f 0 :=
  ⟨⟨rfl, rfl, rfl, Session.Keeps.refl _ _⟩, rfl, (Int.add_zero _).symm⟩

theorem moves_descend (t : Tracer) (ctx : Context) :
    Moves t (t.descend ctx) ctx.frame (if ctx.event.isCall then 1 else 0) := by
  refine ⟨keeps_descend t ctx, ?_, ?_⟩
  · unfold descend
    split <;> rfl
  · unfold descend
    split
    · exact Session.depth_adjustDepth _ _ _
    · exact (Int.add_zero _).symm

theorem moves_ended (ht : t.ByCode) (ctx : Context) :
    Moves t (t.ended ctx) ctx.frame (if ctx.event.isTerminal then -1 else 0) := by
  refine ⟨ht.keeps_ended ctx, ?_, ?_⟩
  · unfold ended
    split <;> rfl
  · unfold ended
    split
    · unfold onSession
      dsimp only
      rw [ht.release _ ht.frames]
      exact Session.depth_adjustDepth _ _ _
    · exact (Int.add_zero _).symm

theorem render_call (h : t.renderer.IsTotal) (hg : t.graph = some g)
    (w : Surroundings) (he : ctx.event = .call) (expanded : Bool) :
    ∃ t' line starting, t.render w ctx expanded = (t', w, none) ∧ t.Moves t' ctx.frame 1 ∧
      t'.graph = some (g.openCall ctx.frame.id (t.session.depth ctx.frame.thread.id + 1) line
        (t.displayPath ctx.frame.file) starting) := by
  obtain ⟨x, u, -, ha, hr⟩ := render_of_graph h (by rw [hg]; rfl) w ctx expanded
  have hd := moves_descend t ctx
  have hu : u.graph = some g := by rw [ha.graph, graph_descend, hg]
  rw [he] at hd
  simp only [Event.isCall, if_true] at hd
  dsimp only at hr
  rw [hd.depth, noteGraph, hu] at hr
  simp only [updateGraph, he, ended, Event.isTerminal] at hr
  exact ⟨_, x.source.1, x.starting, hr, (hd.trans (ha.moves _)).trans (moves_graph u _ _), rfl⟩

theorem render_line (h : t.renderer.IsTotal) (hg : t.graph = some g)
    (w : Surroundings) (he : ctx.event = .line) (expanded : Bool) :
    ∃ t', t.render w ctx expanded = (t', w, none) ∧ t.Moves t' ctx.frame 0 ∧
      t'.graph = some g := by
  obtain ⟨x, u, -, ha, hr⟩ := render_of_graph h (by rw [hg]; rfl) w ctx expanded
  have hd := moves_descend t ctx
  have hu : u.graph = some g := by rw [ha.graph, graph_descend, hg]
  rw [he] at hd
  simp only [Event.isCall, Bool.false_eq_true, if_false] at hd
  dsimp only at hr
  rw [hd.depth, noteGraph, hu] at hr
  simp only [updateGraph, he, ended, Event.isTerminal] at hr
  exact ⟨_, hr, (hd.trans (ha.moves _)).trans (moves_graph u _ _), rfl⟩

theorem returned?_of_ends {op : Op FrameId} {e : Event} (ends : op.Ends ctx.frame e)
    (he : ctx.event = e) : ctx.returned? = op.result? := by
  unfold Context.returned? Context.isBrokenOff
  rw [he]
  cases ends with
  | value v opcode hr => cases v <;> simp [opcode, hr]
  | brokenOff opcode hr => simp [opcode, hr]
  | raised e hr => exact hr.symm

/-- The closing lines belong to the way the activation ends. -/
theorem updateGraph_of_ends {op : Op FrameId} {e : Event} (ends : op.Ends ctx.frame e)
    (he : ctx.event = e) {result : Option String} (hres : t.resultText ctx = .ok result) {i : Nat}
    (pending : g.pending.get? ctx.frame.id = some i) (w : Surroundings) (depth : Int)
    (source path : String) (starting : Option String) :
    ∃ closing, Ending.Told t.renderer (some op.ending) closing ∧
      let g' := { g with
        nodes := g.nodes.modify i (·.add closing), pending := g.pending.erase ctx.frame.id }
      ∀ w', g'.flush w = .ok w' →
        updateGraph g w ctx depth source path starting result = (g', w', none) := by
  have hend : ctx.event.isTerminal = true ∧ ctx.event.isDiscard = false := by
    rw [he]
    cases ends <;> exact ⟨rfl, rfl⟩
  unfold resultText at hres
  rw [returned?_of_ends ends he] at hres
  unfold Op.ending
  cases hr : op.result? with
  | some v =>
    rw [hr] at hres
    dsimp only at hres
    cases ht : t.renderer.render v with
    | error text =>
      rw [ht] at hres
      cases hres
    | ok text =>
      rw [ht] at hres
      cases hres
      refine ⟨_, .value source ht, ?_⟩
      intro g' w' hf
      unfold updateGraph
      cases hc : ctx.event with
      | ret v | exception e =>
        simp only [CallGraph.closeReturn, CallGraph.close, pending, g', hf] at hf ⊢
      | call | line => simp [hc, Event.isTerminal] at hend
      | discard => simp [hc, Event.isDiscard] at hend
  | none =>
    rw [hr] at hres
    cases hres
    refine ⟨_, .brokenOff, ?_⟩
    intro g' w' hf
    unfold updateGraph
    cases hc : ctx.event with
    | ret v | exception e =>
      simp only [CallGraph.closeException, CallGraph.close, pending, g', hf] at hf ⊢
    | call | line => simp [hc, Event.isTerminal] at hend
    | discard => simp [hc, Event.isDiscard] at hend

theorem flush_of_accepts (accepts : ∀ path, g.output = some path → w.Accepts path) :
    ∃ w', g.flush w = .ok w' ∧ ∀ path, g.output = some path → w'.Accepts path := by
  unfold CallGraph.flush
  cases ho : g.output with
  | none =>
    refine ⟨w, rfl, ?_⟩
    intro path hp
    cases hp
  | some path =>
    obtain ⟨w', hw, ha⟩ := (accepts path ho).write g.text
    refine ⟨w', by simp [hw], ?_⟩
    intro path' hp
    rwa [← Option.some.inj hp]

theorem render_end (ht : t.ByCode) (h : t.renderer.IsTotal) (hg : t.graph = some g)
    {op : Op FrameId} {e : Event} (ends : op.Ends ctx.frame e) (he : ctx.event = e) {i : Nat}
    (pending : g.pending.get? ctx.frame.id = some i)
    (accepts : ∀ path, g.output = some path → w.Accepts path) (expanded : Bool) :
    ∃ t' w' closing, t.render w ctx expanded = (t', w', none) ∧ t.Moves t' ctx.frame (-1) ∧
      Ending.Told t.renderer (some op.ending) closing ∧
      t'.graph = some { g with
        nodes := g.nodes.modify i (·.add closing), pending := g.pending.erase ctx.frame.id } ∧
      ∀ path, g.output = some path → w'.Accepts path := by
  obtain ⟨x, u, hres, ha, hr⟩ := render_of_graph h (by rw [hg]; rfl) w ctx expanded
  have hterm : ctx.event.isTerminal = true ∧ ctx.event.isCall = false := by
    rw [he]
    cases ends <;> exact ⟨rfl, rfl⟩
  have hd := moves_descend t ctx
  have hu : u.graph = some g := by rw [ha.graph, graph_descend, hg]
  rw [hterm.2] at hd
  simp only [Bool.false_eq_true, if_false] at hd
  obtain ⟨closing, told, hup⟩ := updateGraph_of_ends ends he hres pending w
    (t.session.depth ctx.frame.thread.id + 0) x.source.1 (t.displayPath ctx.frame.file) x.starting
  obtain ⟨w', hf, hw⟩ := flush_of_accepts
    (g := { g with
      nodes := g.nodes.modify i (·.add closing), pending := g.pending.erase ctx.frame.id }) accepts
  dsimp only at hr
  rw [hd.depth, noteGraph, hu] at hr
  simp only [hup w' hf] at hr
  have hn := (hd.trans (ha.moves _)).trans (moves_graph u { g with
    nodes := g.nodes.modify i (·.add closing), pending := g.pending.erase ctx.frame.id } _)
  have hm := hn.trans (moves_ended (hn.keeps.byCode ht) ctx)
  rw [hterm.1] at hm
  exact ⟨_, w', closing, hr, hm, told, graph_ended _ _, hw⟩

/-! Whole events, from the verdict on. -/

theorem moves_decide (ht : t.ByCode) (w : Surroundings) (ctx : Context) :
    t.Moves (t.decide w ctx).2 ctx.frame 0 ∧ (t.decide w ctx).2.graph = t.graph := by
  obtain ⟨hk, hits, he⟩ := ht.keeps_decide w ctx
  refine ⟨⟨hk, ?_, ?_⟩, ?_⟩
  · rw [he]
    rfl
  · rw [he]
    exact (Int.add_zero _).symm
  · rw [he]
    rfl

theorem onEvent_call (ht : t.ByCode) (h : t.renderer.IsTotal) (hg : t.graph = some g)
    (he : ctx.event = .call) {expanded : Bool} (hv : (t.decide w ctx).1 = .show_ expanded) :
    ∃ t' line starting, t.onEvent ctx w = (.proceed, t', w) ∧ t.Moves t' ctx.frame 1 ∧
      t'.graph = some (g.openCall ctx.frame.id (t.session.depth ctx.frame.thread.id + 1) line
        (t.displayPath ctx.frame.file) starting) := by
  obtain ⟨hm, hg₁⟩ := moves_decide ht w ctx
  obtain ⟨t', line, starting, hr, hm', hg'⟩ :=
    render_call (hm.keeps.renderer ▸ h) (hg₁.trans hg) w he expanded
  have hpath : (t.decide w ctx).2.displayPath ctx.frame.file = t.displayPath ctx.frame.file := by
    unfold displayPath
    rw [hm.keeps.config]
  rw [hm.depth, Int.add_zero, hpath] at hg'
  exact ⟨t', line, starting, onEvent_of_show (by rw [he]; rfl) hv hr, hm.trans hm', hg'⟩

/-- Lines leave the graph alone. The frame is given up by a verdict to skip it only. -/
theorem onEvent_line (ht : t.ByCode) (counted : t.config.overflows = false)
    (h : t.renderer.IsTotal) (hg : t.graph = some g) (he : ctx.event = .line) (w : Surroundings) :
    ∃ a t', t.onEvent ctx w = (a, t', w) ∧ (∀ text, a ≠ .panicked text) ∧
      (a = .skipFrame → (t.decide w ctx).1 = .skip) ∧ t.Moves t' ctx.frame 0 ∧
      t'.graph = some g := by
  have hd : ctx.event.isDiscard = false := by
    rw [he]
    rfl
  obtain ⟨hm, hg₁⟩ := moves_decide ht w ctx
  cases hv : (t.decide w ctx).1 with
  | show_ expanded =>
    obtain ⟨t', hr, hm', hg'⟩ :=
      render_line (hm.keeps.renderer ▸ h) (hg₁.trans hg) w he expanded
    refine ⟨.proceed, t', onEvent_of_show hd hv hr, fun _ => by simp, ?_, hm.trans hm', hg'⟩
    intro ha
    cases ha
  | skip =>
    exact ⟨.skipFrame, _, onEvent_of_skip hd hv, fun _ => by simp, fun _ => rfl, hm, hg₁.trans hg⟩
  | ignore =>
    refine ⟨.proceed, _, onEvent_of_ignore hd hv, fun _ => by simp, ?_, hm, hg₁.trans hg⟩
    intro ha
    cases ha
  | overflow => exact absurd hv (decide_ne_overflow counted w ctx)

theorem onEvent_end (ht : t.ByCode) (h : t.renderer.IsTotal) (hg : t.graph = some g)
    {op : Op FrameId} {e : Event} (ends : op.Ends ctx.frame e) (he : ctx.event = e) {i : Nat}
    (pending : g.pending.get? ctx.frame.id = some i)
    (accepts : ∀ path, g.output = some path → w.Accepts path) {expanded : Bool}
    (hv : (t.decide w ctx).1 = .show_ expanded) :
    ∃ t' w' closing, t.onEvent ctx w = (.proceed, t', w') ∧ t.Moves t' ctx.frame (-1) ∧
      Ending.Told t.renderer (some op.ending) closing ∧
      t'.graph = some { g with
        nodes := g.nodes.modify i (·.add closing), pending := g.pending.erase ctx.frame.id } ∧
      ∀ path, g.output = some path → w'.Accepts path := by
  obtain ⟨hm, hg₁⟩ := moves_decide ht w ctx
  obtain ⟨t', w', closing, hr, hm', told, hg', hw⟩ :=
    render_end (hm.keeps.byCode ht) (hm.keeps.renderer ▸ h) (hg₁.trans hg) ends he pending accepts
      expanded
  have hd : ctx.event.isDiscard = false := by
    rw [he]
    cases ends <;> rfl
  rw [hm.keeps.renderer] at told
  exact ⟨t', w', closing, onEvent_of_show hd hv hr, hm.trans hm', told, hg', hw⟩

/-- A dropped generator has no open node. -/
theorem onEvent_discard (ht : t.ByCode) (hg : t.graph = some g) (he : ctx.event = .discard)
    (pending : g.pending.get? ctx.frame.id = none) (w : Surroundings) :
    ∃ t', t.onEvent ctx w = (.proceed, t', w) ∧ t.Moves t' ctx.frame 0 ∧ t'.graph = some g := by
  have hc : g.closeException ctx.frame.id = .error (.unmatchedReturn ctx.frame.id) := by
    simp only [CallGraph.closeException, CallGraph.close, pending]
  refine ⟨t.onSession fun s => (s.evict ctx.frame.id).detach ctx.frame.id, ?_, ⟨?_, rfl, ?_⟩, hg⟩
  · unfold onEvent dropFrame
    rw [he]
    simp only [Event.isDiscard, if_true, onSession, hg, hc]
  · refine keeps_onSession t ⟨rfl, ?_, fun j hj => Table.get?_erase_of_ne _ hj⟩
    simp [Session.detach, Session.evict, ht.frames]
  · exact (Int.add_zero _).symm

end Tracer
end SelectiveTrace
