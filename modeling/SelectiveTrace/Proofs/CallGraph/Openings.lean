import SelectiveTrace.Proofs.Tracer.Modes
import SelectiveTrace.Proofs.Tracer.Upkeep

/-! What is written for calls, and the nodes that are opened for them. The nodes of a graph stand in the
order of the call lines that would have been written in its place, each with what its line tells. -/
namespace SelectiveTrace

structure CallNote where
  depth : Int
  /-- The line that stands for the call, and its number. -/
  source : String
  number : Nat
  path : String
  starting : Option String
deriving DecidableEq

namespace CallNote

def line (n : CallNote) : String :=
  Tracer.indentation n.depth ++ Text.padRight 9 "call" ++ " " ++
    Text.padLeft 4 ' ' (toString n.number) ++ " " ++ n.source

/-- The node was opened for the call; with the line that stands for it, if the files were `clear`. -/
structure Opened (clear : Prop) (n : CallNote) (node : CallNode) : Prop where
  depth : node.depth = n.depth
  content : ∃ source closing, node.content = CallNode.opening source n.path n.starting ++ closing ∧
    (clear → source = n.source)

theorem Opened.add {clear : Prop} {n : CallNote} {node : CallNode} (h : Opened clear n node)
    (lines : List String) : Opened clear n (node.add lines) := by
  obtain ⟨source, closing, hcontent, hclear⟩ := h.content
  refine ⟨h.depth, source, closing ++ lines, ?_, hclear⟩
  simp [CallNode.add, hcontent]

end CallNote

inductive Written where
  | call (note : CallNote)
  | other (line : String)

namespace Written

def line : Written → String
  | .call note => note.line
  | .other line => line

def call? : Written → Option CallNote
  | .call note => some note
  | .other _ => none

end Written

namespace Tracer

def callNote (t : Tracer) (w : Surroundings) (ctx : Context) (expanded : Bool) : CallNote where
  depth := t.level ctx
  source := (t.sourceLine w ctx expanded).1.1
  number := (t.sourceLine w ctx expanded).1.2
  path := t.displayPath ctx.frame.file
  starting := (t.showing w ctx expanded).starting

def writtenBy (t : Tracer) (w : Surroundings) (ctx : Context) (expanded : Bool) : List Written :=
  let x := t.showing w ctx expanded
  let indent := indentation (t.level ctx)
  (t.openingLines ctx expanded).map .other ++
    if ctx.event.isCall then [.call (t.callNote w ctx expanded)]
    else (eventLines indent x.thread ctx expanded x.source ++ t.resultLines ctx indent x.result).map .other

def writtenAt (s : Tracer × Surroundings) : Moment → List Written
  | .event ctx =>
    if ctx.event.isDiscard then []
    else
      match (s.1.decide s.2 ctx).1 with
      | .show_ expanded => (s.1.decide s.2 ctx).2.writtenBy s.2 ctx expanded
      | .skip | .ignore | .overflow => []
  | .aside (.exit thread frame) =>
    if s.1.observed.isSome then []
    else
      match s.1.session.timers.get? frame with
      | some start => [.other (elapsedLine (s.1.session.depth thread.id) (s.2.now - start))]
      | none => []
  | .aside _ => []

def writtenOver (s : Tracer × Surroundings) : List Moment → List Written
  | [] => []
  | m :: ms => writtenAt s m ++ writtenOver (pass s m) ms

def nodes (t : Tracer) : List CallNode :=
  (t.graph.map CallGraph.nodes).getD []

/-- The files are read alike for both, and neither writes over one of them. -/
structure Undisturbed (t : Tracer) (w : Surroundings) (g : Tracer) (w' : Surroundings)
    (files : Path → Prop) : Prop where
  sources : g.sources = t.sources
  same : ∀ f, files f → SourceCache.readLines w' f = SourceCache.readLines w f
  left : ∀ f, files f → t.Spares w f
  right : ∀ f, files f → g.Spares w' f

theorem Undisturbed.onward {t t' g g' : Tracer} {w u w' u' : Surroundings} {files : Path → Prop}
    (h : Undisturbed t w g w' files) (left : Onward t w t' u) (right : Onward g w' g' u')
    (sources : g'.sources = t'.sources) : Undisturbed t' u g' u' files := by
  refine ⟨sources, ?_, fun f hf => left.spares (h.left f hf), fun f hf => right.spares (h.right f hf)⟩
  intro f hf
  rw [right.same f (h.right f hf), left.same f (h.left f hf)]
  exact h.same f hf

end Tracer

namespace SourceCache
variable {w w' : Surroundings} {file : Path}

theorem lines_congr (c : SourceCache) (same : readLines w' file = readLines w file) :
    c.lines w' file = c.lines w file := by
  unfold lines
  rw [same]

/-- The line that is shown depends on the file alone. -/
theorem shown_congr (c : SourceCache) {w₁ w₁' : Surroundings} {ctx : Context}
    (same : readLines w' ctx.frame.file = readLines w ctx.frame.file)
    (same₁ : readLines w₁' ctx.frame.file = readLines w₁ ctx.frame.file) :
    c.shown w' w₁' ctx = c.shown w w₁ ctx := by
  unfold shown behind line
  simp only [lines_congr _ same, lines_congr _ same₁]

end SourceCache

namespace Tracer
variable {t g : Tracer} {w w' : Surroundings} {files : Path → Prop} {ctx : Context}

/-- Where nothing is written over the files, both show the same source line. -/
theorem Undisturbed.sourceLine (h : Undisturbed t w g w' files) (collects : g.graph.isSome = true)
    (hf : files ctx.frame.file) (expanded : Bool) :
    g.sourceLine w' ctx expanded = t.sourceLine w ctx expanded := by
  have hfeed : ∀ lines, (g.feed w' lines).2 = w' := by
    intro lines
    unfold feed
    rw [if_pos collects]
  have hsame : ∀ lines, SourceCache.readLines w' ctx.frame.file =
      SourceCache.readLines (t.feed w lines).2 ctx.frame.file := by
    intro lines
    have hw := (onward_write t w lines).1.same _ (h.left _ hf)
    rw [write_eq] at hw
    exact (h.same _ hf).trans hw.symm
  unfold Tracer.sourceLine
  rw [hfeed, hfeed, h.sources]
  exact SourceCache.shown_congr _ (hsame _) (hsame _)

/-! What a moment writes. -/

theorem lines_writtenBy (labels : t.config.threadInfo = false) (w : Surroundings) (ctx : Context) :
    (t.writtenBy w ctx false).map Written.line =
      t.eventText w ctx false ++ t.resultLines ctx (indentation (t.level ctx)) (t.outcome ctx) := by
  have hother : ∀ lines : List String, (lines.map Written.other).map Written.line = lines := by
    intro lines
    rw [List.map_map]
    exact List.map_id lines
  have hthread : (t.showing w ctx false).thread = "" := by
    unfold showing threadInfo
    simp [labels]
  have htext : t.eventText w ctx false = t.openingLines ctx false ++
      eventLines (indentation (t.level ctx)) "" ctx false (t.showing w ctx false).source := by
    rw [← hthread]
    rfl
  have hcall : ctx.event = .call →
      [(t.callNote w ctx false).line] =
        eventLines (indentation (t.level ctx)) "" ctx false (t.showing w ctx false).source ++
          t.resultLines ctx (indentation (t.level ctx)) (t.outcome ctx) := by
    intro he
    simp [CallNote.line, callNote, eventLines, resultLines, Context.isBrokenOff, he, Event.name,
      showing]
  unfold writtenBy
  dsimp only
  rw [List.map_append, hother, htext, List.append_assoc, hthread]
  cases he : ctx.event with
  | call => exact congrArg _ (hcall he)
  | line | ret v | exception e | discard => exact congrArg _ (hother _)

section
variable (s : Tracer × Surroundings)

theorem writtenAt_of_discard (discard : ctx.event.isDiscard = true) :
    writtenAt s (.event ctx) = [] := by
  simp only [writtenAt, discard, if_true]

theorem writtenAt_of_hidden (live : ctx.event.isDiscard = false)
    (quiet : (s.1.decide s.2 ctx).1.isShow = false) : writtenAt s (.event ctx) = [] := by
  unfold writtenAt
  cases hv : (s.1.decide s.2 ctx).1 <;> simp_all [Verdict.isShow]

theorem writtenAt_of_shown {session : Session} (live : ctx.event.isDiscard = false)
    (verdict : s.1.decide s.2 ctx = (.show_ false, { s.1 with session })) :
    writtenAt s (.event ctx) = writtenBy { s.1 with session } s.2 ctx false := by
  simp only [writtenAt, live, verdict, Bool.false_eq_true, if_false]

end

/-- The lines of a moment go where the lines of the tracer go. -/
theorem Paired.written {s s' : Tracer × Surroundings} (h : Paired s.1 s.2 s'.1 s'.2) (m : Moment) :
    let fed := s.1.feed s.2 ((writtenAt s m).map Written.line)
    (Tracer.pass s m).1.sink = fed.1 ∧ (Tracer.pass s m).2.disk = fed.2.disk := by
  intro fed
  have hquiet : (writtenAt s m).map Written.line = [] → fed = (s.1.sink, s.2) := by
    intro hm
    unfold fed
    rw [hm, feed_nil]
  cases m with
  | aside a =>
    cases a with
    | target code =>
      rw [hquiet rfl]
      simp only [Tracer.pass, Tracer.aside, targetCode]
      split <;> simp [Tracer.onSession]
    | enter frame =>
      rw [hquiet rfl]
      simp only [Tracer.pass, Tracer.aside, Tracer.enter]
      split <;> simp [Tracer.onSession]
    | wait time =>
      rw [hquiet rfl]
      exact ⟨rfl, rfl⟩
    | exit thread frame =>
      unfold fed
      simp only [writtenAt, Tracer.pass, Tracer.aside, Tracer.exit]
      cases ho : s.1.observed.isSome with
      | true => simp [feed_nil]
      | false =>
        cases s.1.session.timers.get? frame with
        | none => simp [feed_nil, Tracer.onSession]
        | some start =>
          simp only [Bool.false_eq_true, if_false, write_eq, List.map_cons, List.map_nil]
          exact ⟨rfl, rfl⟩
  | event ctx =>
    cases h.handling ctx with
    | dropped discard writes collects =>
      have hdrop : (s.1.dropFrame ctx.frame.id).sink = s.1.sink := by
        unfold dropFrame Tracer.onSession
        rw [h.text]
      rw [hquiet (by rw [writtenAt_of_discard s discard, List.map_nil])]
      simp only [Tracer.pass, writes, hdrop, and_self]
    | hidden a session live quiet writes collects =>
      rw [hquiet (by rw [writtenAt_of_hidden s live quiet, List.map_nil])]
      simp only [Tracer.pass, writes, and_self]
    | shown session live verdict writes collects =>
      have hs := h.onSession session
      have hlines := lines_writtenBy hs.labels s.2 ctx
      have hall := writtenAt_of_shown s live verdict
      have hrender := render_written (mishap?_of_isTotal hs.total ctx) hs.text s.2 false
      unfold fed
      simp only [Tracer.pass, writes, hall, hlines, hrender]
      exact ⟨rfl, rfl⟩

/-! What a moment makes of the graph. -/

section
variable {clear : Prop} {notes : List CallNote}

theorem opened_continues {graph graph' : CallGraph} (h : graph.Continues graph')
    (opened : List.Forall₂ (CallNote.Opened clear) notes graph.nodes) :
    List.Forall₂ (CallNote.Opened clear) notes graph'.nodes := by
  rcases h.nodes with hnodes | ⟨i, lines, hnodes⟩
  · rw [hnodes]
    exact opened
  · rw [hnodes]
    exact forall₂_modify_right opened i fun _ _ ho => ho.add lines

theorem opened_dropFrame (id : FrameId)
    (opened : List.Forall₂ (CallNote.Opened clear) notes g.nodes) :
    List.Forall₂ (CallNote.Opened clear) notes (g.dropFrame id).nodes := by
  unfold dropFrame
  have hgraph : (g.onSession fun s => (s.evict id).detach id).graph = g.graph := rfl
  cases hg : g.graph with
  | none =>
    simp only [hgraph, hg]
    exact opened
  | some graph =>
    cases hc : graph.closeException id with
    | error e =>
      simp only [hgraph, hg, hc]
      exact opened
    | ok graph' =>
      simp only [hgraph, hg, hc]
      refine opened_continues (CallGraph.continues_close hc) ?_
      simpa [Tracer.nodes, hg] using opened

/-- A shown call opens a node, and no other event does. -/
theorem Paired.opened_render (h : Paired t w g w') (ctx : Context)
    (line : clear → g.sourceLine w' ctx false = t.sourceLine w ctx false)
    (opened : List.Forall₂ (CallNote.Opened clear) notes g.nodes) :
    List.Forall₂ (CallNote.Opened clear) (notes ++ (t.writtenBy w ctx false).filterMap Written.call?)
      (g.render w' ctx false).1.nodes := by
  obtain ⟨graph, hgraph⟩ := Option.isSome_iff_exists.mp h.collects
  have hnodes : g.nodes = graph.nodes := by
    unfold Tracer.nodes
    rw [hgraph]
    rfl
  rw [hnodes] at opened
  have hother : ∀ lines : List String, (lines.map Written.other).filterMap Written.call? = [] := by
    intro lines
    simp [List.filterMap_map, Written.call?]
  rw [render_noted (mishap?_of_isTotal (t := g) (h.renderer ▸ h.total) ctx) hgraph]
  unfold Tracer.nodes
  simp only [Option.map_some, Option.getD_some]
  unfold writtenBy
  cases hc : ctx.event.isCall with
  | false =>
    obtain ⟨hcontinues, -⟩ := updateGraph_of_old hc graph w' (g.level ctx)
      (g.showing w' ctx false).source.1 (g.displayPath ctx.frame.file)
      (g.showing w' ctx false).starting (g.showing w' ctx false).result
    have hnone : ((t.openingLines ctx false).map Written.other ++
        (eventLines (indentation (t.level ctx)) (t.showing w ctx false).thread ctx false
            (t.showing w ctx false).source ++
          t.resultLines ctx (indentation (t.level ctx)) (t.showing w ctx false).result).map
            Written.other).filterMap Written.call? = [] := by
      rw [List.filterMap_append, hother, hother]
      rfl
    simp only [Bool.false_eq_true, if_false, hnone, List.append_nil]
    exact opened_continues hcontinues opened
  | true =>
    have hcall : ctx.event = .call := by
      cases he : ctx.event <;> simp_all [Event.isCall]
    have hone : ((t.openingLines ctx false).map Written.other ++
        [Written.call (t.callNote w ctx false)]).filterMap Written.call? = [t.callNote w ctx false] := by
      rw [List.filterMap_append, hother]
      rfl
    simp only [if_true, hone, updateGraph, hcall, CallGraph.openCall]
    refine List.rel_append opened (.cons ⟨h.level ctx, ?_⟩ .nil)
    refine ⟨(g.sourceLine w' ctx false).1.1, [], ?_, ?_⟩
    · have hstarting : (g.showing w' ctx false).starting = (t.callNote w ctx false).starting := by
        have hdiff : (g.showing w' ctx false).diff = (t.showing w ctx false).diff := h.changes ctx
        unfold callNote Showing.starting
        rw [hdiff]
      rw [h.displayPath, hstarting, List.append_nil]
      rfl
    · intro hclear
      rw [line hclear]
      rfl

/-- Between events no node is opened, and no file is looked at. -/
theorem aside_keeps (s : Tracer × Surroundings) (a : Aside) :
    (aside s a).1.nodes = s.1.nodes ∧ (aside s a).1.sources = s.1.sources ∧
      (writtenAt s (.aside a)).filterMap Written.call? = [] := by
  cases a with
  | target code =>
    simp only [aside, targetCode]
    split <;> exact ⟨rfl, rfl, rfl⟩
  | enter frame =>
    simp only [aside, Tracer.enter]
    split <;> exact ⟨rfl, rfl, rfl⟩
  | exit thread frame =>
    simp only [aside, Tracer.exit, writtenAt]
    split
    · exact ⟨rfl, rfl, rfl⟩
    · cases s.1.session.timers.get? frame with
      | none => exact ⟨rfl, rfl, rfl⟩
      | some start =>
        dsimp only
        rw [write_eq]
        exact ⟨rfl, rfl, rfl⟩
  | wait time => exact ⟨rfl, rfl, rfl⟩

theorem sources_dropFrame (t : Tracer) (id : FrameId) : (t.dropFrame id).sources = t.sources := by
  rcases t.dropFrame_cases id with ⟨hdrop, -⟩ | ⟨graph, hdrop, -⟩
  · rw [hdrop]
    rfl
  · rw [hdrop]
    rfl

theorem sources_render (total : t.renderer.IsTotal) (w : Surroundings) (ctx : Context)
    (expanded : Bool) :
    (t.render w ctx expanded).1.sources = (t.sourceLine w ctx expanded).2 := by
  rw [render_told (mishap?_of_isTotal total ctx)]
  dsimp only
  rw [conclude_eq, write_eq, noteGraph_eq, ended_eq, told_eq]

variable {s s' : Tracer × Surroundings} {m : Moment}

/-- One moment leaves both as undisturbed as they were. -/
theorem Undisturbed.pass (u : Undisturbed s.1 s.2 s'.1 s'.2 files) (h : Paired s.1 s.2 s'.1 s'.2)
    (hf : ∀ file, m.file? = some file → files file) :
    Undisturbed (Tracer.pass s m).1 (Tracer.pass s m).2 (Tracer.pass s' m).1 (Tracer.pass s' m).2
      files := by
  obtain ⟨hleft, hright, -⟩ := h.pass m
  refine u.onward hleft hright ?_
  cases m with
  | aside a => exact (aside_keeps s' a).2.1.trans (u.sources.trans (aside_keeps s a).2.1.symm)
  | event ctx =>
    simp only [pass_event]
    cases h.handling ctx with
    | dropped discard writes collects =>
      rw [writes, collects]
      exact (sources_dropFrame _ _).trans (u.sources.trans (sources_dropFrame _ _).symm)
    | hidden a session live quiet writes collects =>
      rw [writes, collects]
      exact u.sources
    | shown session live verdict writes collects =>
      have hs := h.onSession session
      have hu := u.onward (onward_session s.1 s.2 session) (onward_session s'.1 s'.2 session) u.sources
      rw [writes, collects]
      dsimp only
      rw [sources_render hs.total, sources_render (hs.renderer ▸ hs.total),
        hu.sourceLine hs.collects (hf _ rfl)]

/-- At one moment a node is opened for the call line that is written, if there is one. -/
theorem Paired.opened_pass (h : Paired s.1 s.2 s'.1 s'.2)
    (undisturbed : clear → Undisturbed s.1 s.2 s'.1 s'.2 files)
    (hf : ∀ file, m.file? = some file → files file)
    (opened : List.Forall₂ (CallNote.Opened clear) notes s'.1.nodes) :
    List.Forall₂ (CallNote.Opened clear) (notes ++ (writtenAt s m).filterMap Written.call?)
      (Tracer.pass s' m).1.nodes := by
  cases m with
  | aside a =>
    rw [(aside_keeps s a).2.2, List.append_nil]
    rw [pass_aside, (aside_keeps s' a).1]
    exact opened
  | event ctx =>
    simp only [pass_event]
    cases h.handling ctx with
    | dropped discard writes collects =>
      rw [collects, writtenAt_of_discard s discard, List.filterMap_nil, List.append_nil]
      exact opened_dropFrame ctx.frame.id opened
    | hidden a session live quiet writes collects =>
      rw [collects, writtenAt_of_hidden s live quiet, List.filterMap_nil, List.append_nil]
      exact opened
    | shown session live verdict writes collects =>
      have hs := h.onSession session
      rw [collects, writtenAt_of_shown s live verdict]
      refine hs.opened_render ctx (fun hclear => ?_) opened
      have hu := (undisturbed hclear).onward (onward_session s.1 s.2 session)
        (onward_session s'.1 s'.2 session) (undisturbed hclear).sources
      exact hu.sourceLine hs.collects (hf _ rfl) false

/-- The nodes of the one against the call lines of the other, from the first moment to the last. -/
theorem Paired.opened_passAll (h : Paired s.1 s.2 s'.1 s'.2)
    (undisturbed : clear → Undisturbed s.1 s.2 s'.1 s'.2 files) {ms : List Moment}
    (hf : ∀ m ∈ ms, ∀ file, m.file? = some file → files file)
    (opened : List.Forall₂ (CallNote.Opened clear) notes s'.1.nodes) :
    List.Forall₂ (CallNote.Opened clear) (notes ++ (writtenOver s ms).filterMap Written.call?)
      (Tracer.passAll s' ms).1.nodes := by
  induction ms generalizing s s' notes with
  | nil =>
    rw [writtenOver, List.filterMap_nil, List.append_nil]
    exact opened
  | cons m ms ih =>
    have hfirst := hf m (by simp)
    have hrest := ih (h.pass m).2.2 (fun hclear => (undisturbed hclear).pass h hfirst)
      (fun m' hm => hf m' (List.mem_cons_of_mem m hm)) (h.opened_pass undisturbed hfirst opened)
    rw [List.append_assoc, ← List.filterMap_append] at hrest
    exact hrest

end
end Tracer

def Moment.filesOf (ms : List Moment) : List Path :=
  ms.filterMap Moment.file?

/-- Two tracers as they are set up without expansion and without labels of threads, for lines and for a
graph. -/
theorem Tracer.paired_of_outfit {c : TracerConfig} {output : Option Path} {disk : Disk}
    {codes : List CodeId} {custom : List CustomFormat} {sources : SourceCache} {sink : Sink}
    {t g : Tracer}
    (writes : Tracer.outfit { c with callGraph := none } disk codes custom sources sink = .ok t)
    (collects : Tracer.outfit { c with callGraph := some output } disk codes custom sources sink = .ok g)
    (flat : c.depthExpanded = false) (labels : c.threadInfo = false)
    (formats : ∀ f ∈ custom, ∀ v, ∃ text, f.format v = .ok text) (w : Surroundings) :
    Paired t w g w ∧ g.sources = t.sources ∧ g.nodes = [] := by
  have hfoldl : ∀ (more : List CodeId) (u v : Tracer), Paired u w v w → v.sources = u.sources →
      v.nodes = [] → Paired (more.foldl targetCode u) w (more.foldl targetCode v) w ∧
        (more.foldl targetCode v).sources = (more.foldl targetCode u).sources ∧
        (more.foldl targetCode v).nodes = [] := by
    intro more
    induction more with
    | nil => exact fun _ _ h hs hn => ⟨h, hs, hn⟩
    | cons code more ih =>
      intro u v h hs hn
      obtain ⟨hnodes, hsources, -⟩ := aside_keeps (v, w) (.target code)
      have hsources' := (aside_keeps (u, w) (.target code)).2.1
      have hpair : Paired (u, w).1 (u, w).2 (v, w).1 (v, w).2 := h
      have hnext : Paired (u.targetCode code) w (v.targetCode code) w := hpair.aside (.target code)
      exact ih _ _ hnext (hsources.trans (hs.trans hsources'.symm)) (hnodes.trans hn)
  unfold outfit ofConfig at writes collects
  have hvalid : TracerConfig.validate { c with callGraph := none } disk = c.validate disk := rfl
  have hvalid' : TracerConfig.validate { c with callGraph := some output } disk = c.validate disk := rfl
  rw [hvalid] at writes
  rw [hvalid'] at collects
  cases hv : c.validate disk with
  | error e =>
    rw [hv] at writes
    cases writes
  | ok u =>
    rw [hv] at writes collects
    cases writes
    cases collects
    refine hfoldl codes _ _ ?_ rfl rfl
    exact ⟨rfl, flat, labels, rfl, rfl, rfl, rfl, Renderer.isTotal_of_custom formats, rfl, rfl, rfl, rfl⟩

/-- A tracer that writes lines and one that collects a graph, set up alike but for that, go through the same
moments: events of any kind, targets, entered frames. Nothing is expanded and no line is labelled. They give
every event the same answer and remember the same after each moment; what the one writes at a moment are
its lines as listed; and the nodes of the other stand for its call lines, one for one, with the same depth,
path and starting variables, and with the same source line if nobody writes over the source files. -/
theorem lines_and_graph_agree {c : TracerConfig} {output : Option Path} {disk : Disk}
    {codes : List CodeId} {custom : List CustomFormat} {sources : SourceCache} {sink : Sink}
    {t g : Tracer}
    (writes : Tracer.outfit { c with callGraph := none } disk codes custom sources sink = .ok t)
    (collects : Tracer.outfit { c with callGraph := some output } disk codes custom sources sink = .ok g)
    (flat : c.depthExpanded = false) (labels : c.threadInfo = false)
    (formats : ∀ f ∈ custom, ∀ v, ∃ text, f.format v = .ok text) (w : Surroundings)
    (past : List Moment) :
    let now := Tracer.passAll (t, w) past
    let now' := Tracer.passAll (g, w) past
    let clear := ∀ file ∈ Moment.filesOf past, t.Spares w file ∧ g.Spares w file
    now'.1.session = now.1.session ∧
      (∀ ctx, (now'.1.onEvent ctx now'.2).1 = (now.1.onEvent ctx now.2).1) ∧
      (∀ m, let fed := now.1.feed now.2 ((Tracer.writtenAt now m).map Written.line)
        (Tracer.pass now m).1.sink = fed.1 ∧ (Tracer.pass now m).2.disk = fed.2.disk) ∧
      List.Forall₂ (CallNote.Opened clear)
        ((Tracer.writtenOver (t, w) past).filterMap Written.call?) now'.1.nodes := by
  intro now now' clear
  obtain ⟨houtfit, hsources, hnodes⟩ :=
    Tracer.paired_of_outfit writes collects flat labels formats w
  have hpaired : Tracer.Paired (t, w).1 (t, w).2 (g, w).1 (g, w).2 := houtfit
  have hnow : Tracer.Paired now.1 now.2 now'.1 now'.2 := hpaired.passAll past
  refine ⟨hnow.session, fun ctx => (hnow.onEvent ctx).1, fun m => hnow.written m, ?_⟩
  have hundisturbed : clear → Tracer.Undisturbed t w g w (· ∈ Moment.filesOf past) :=
    fun hclear => ⟨hsources, fun _ _ => rfl, fun f hf => (hclear f hf).1, fun f hf => (hclear f hf).2⟩
  have hfiles : ∀ m ∈ past, ∀ file, m.file? = some file → file ∈ Moment.filesOf past :=
    fun m hm file hfile => List.mem_filterMap.mpr ⟨m, hm, hfile⟩
  have hempty : List.Forall₂ (CallNote.Opened clear) [] g.nodes := by
    rw [hnodes]
    exact .nil
  exact hpaired.opened_passAll hundisturbed hfiles hempty

def eventsOf (ops : List (Op FrameId)) : List Moment :=
  (Machine.heard (fun _ _ u => (.proceed, u)) { hook := some "trace" } () ops).map fun e => .event e.2

def diskOfTwo : Disk :=
  { entries := ((⟨[]⟩ : Table _ _).insert ["p.py"] (.file "def f(x):\n    return g()\n".toUTF8)).insert
      ["q.py"] (.file "@late\ndef g():\n    return 2\n".toUTF8) }

def callOfTarget : List Moment :=
  let events := eventsOf [.call ⟨"f", ⟨"/p.py"⟩, 1⟩ [("x", .int 1)], .line ⟨0, 0⟩ 2,
    .call ⟨"g", ⟨"/q.py"⟩, 1⟩ [], .ret ⟨0, 1⟩ (.int 2), .ret ⟨0, 0⟩ (.int 2)]
  events.take 2 ++ .aside (.target ⟨"/q.py", "g", 1⟩) :: events.drop 2

theorem lines_and_graph_agree_on_call_of_target :
    let c : TracerConfig := { depthExpanded := false }
    let codes : List CodeId := [⟨"/p.py", "f", 1⟩]
    let output : Path := ⟨"/graph.json"⟩
    let t : Tracer :=
      { config := c, session := { targetCodes := codes }, renderer := { maxLength := some 100 }
        sink := .lines [] }
    let g : Tracer :=
      { t with config := { c with callGraph := some (some output) }, graph := some { output := some output } }
    let w : Surroundings := { disk := diskOfTwo }
    Tracer.outfit { c with callGraph := none } {} codes [] {} (.lines []) = .ok t ∧
      Tracer.outfit { c with callGraph := some (some output) } {} codes [] {} (.lines []) = .ok g ∧
      (∀ file ∈ Moment.filesOf callOfTarget, t.Spares w file ∧ g.Spares w file) ∧
      (Tracer.writtenOver (t, w) callOfTarget).filterMap Written.call? =
        [⟨0, "def f(x):", 1, "/p.py", some "x = 1"⟩, ⟨1, "def g():", 2, "/q.py", none⟩] ∧
      let now := Tracer.passAll (t, w) callOfTarget
      let now' := Tracer.passAll (g, w) callOfTarget
      let clear := ∀ file ∈ Moment.filesOf callOfTarget, t.Spares w file ∧ g.Spares w file
      now'.1.session = now.1.session ∧
        (∀ ctx, (now'.1.onEvent ctx now'.2).1 = (now.1.onEvent ctx now.2).1) ∧
        (∀ m, let fed := now.1.feed now.2 ((Tracer.writtenAt now m).map Written.line)
          (Tracer.pass now m).1.sink = fed.1 ∧ (Tracer.pass now m).2.disk = fed.2.disk) ∧
        List.Forall₂ (CallNote.Opened clear)
          ((Tracer.writtenOver (t, w) callOfTarget).filterMap Written.call?) now'.1.nodes := by
  intro c codes output t g w
  have writes : Tracer.outfit { c with callGraph := none } {} codes [] {} (.lines []) = .ok t := rfl
  have collects : Tracer.outfit { c with callGraph := some (some output) } {} codes [] {} (.lines []) =
      .ok g := rfl
  have hfiles : ∀ file ∈ Moment.filesOf callOfTarget, file = ⟨"/p.py"⟩ ∨ file = ⟨"/q.py"⟩ := by
    decide +kernel
  refine ⟨writes, collects, ?_, by decide +kernel, ?_⟩
  · intro file hf
    refine ⟨nofun, ?_⟩
    intro path hp
    cases hp
    rcases hfiles file hf with rfl | rfl <;> decide +kernel
  · exact lines_and_graph_agree writes collects rfl rfl (by simp) w callOfTarget

/-- The graph goes to the second source file when the first call ends, and the next call shows its first
line. -/
theorem written_graph_is_shown_as_source :
    let c : TracerConfig := { depthExpanded := false }
    let codes : List CodeId := [⟨"/q.py", "g", 1⟩, ⟨"/p.py", "f", 1⟩]
    let output : Path := ⟨"/q.py"⟩
    let t : Tracer :=
      { config := c, session := { targetCodes := codes.reverse }, renderer := { maxLength := some 100 }
        sink := .lines [] }
    let g : Tracer :=
      { t with config := { c with callGraph := some (some output) }, graph := some { output := some output } }
    let w : Surroundings := { disk := diskOfTwo }
    let past := eventsOf [.call ⟨"f", ⟨"/p.py"⟩, 1⟩ [], .raise ⟨0, 0⟩ ⟨"E", ""⟩,
      .call ⟨"g", ⟨"/q.py"⟩, 1⟩ []]
    let calls := (Tracer.writtenOver (t, w) past).filterMap Written.call?
    let nodes := (Tracer.passAll (g, w) past).1.nodes
    Tracer.outfit { c with callGraph := none } {} codes [] {} (.lines []) = .ok t ∧
      Tracer.outfit { c with callGraph := some (some output) } {} codes [] {} (.lines []) = .ok g ∧
      calls.map CallNote.source = ["def f(x):", "def g():"] ∧
      nodes.map (·.content.head?) = [some "Call ... def f(x):", some "Call ... ["] ∧
      nodes.map (·.content.head?) ≠ calls.map fun n => some (CallNode.callMark ++ n.source) := by
  intro c codes output t g w past calls nodes
  have hcalls : calls.map CallNote.source = ["def f(x):", "def g():"] := by decide +kernel
  have hnodes : nodes.map (·.content.head?) = [some "Call ... def f(x):", some "Call ... ["] := by
    decide +kernel
  refine ⟨rfl, rfl, hcalls, hnodes, ?_⟩
  have hmarked : (calls.map fun n => some (CallNode.callMark ++ n.source)) =
      (calls.map CallNote.source).map fun source => some (CallNode.callMark ++ source) := by
    rw [List.map_map]
    rfl
  rw [hnodes, hmarked, hcalls]
  decide

end SelectiveTrace
