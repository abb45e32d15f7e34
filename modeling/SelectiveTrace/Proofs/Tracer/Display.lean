import SelectiveTrace.Proofs.Tracer.Progress

/-! All that a shown event tells, and the tracer that has told it: its lines have gone to the sink, its
variables are the snapshot of its frame, its file is the last path. -/
namespace SelectiveTrace

/-- The line that stands for the current one, `source`: for a call at a decorator the definition behind
it. -/
def SourceCache.behind (c : SourceCache) (w : Surroundings) (ctx : Context) (source : String) :
    (String × Nat) × SourceCache :=
  if ctx.event.isCall && Tracer.isDecorator source then
    let r := c.lines w ctx.frame.file
    ((r.1.bind fun ls => Tracer.definition? ls ctx.frame.line).getD (source, ctx.frame.line), r.2)
  else ((source, ctx.frame.line), c)

/-- The line that stands for an event, and the cache that has looked it up: first the current line, then
the one that stands for it. -/
def SourceCache.shown (c : SourceCache) (w w' : Surroundings) (ctx : Context) :
    (String × Nat) × SourceCache :=
  let r := c.line w ctx.frame.file ctx.frame.line
  r.2.behind w' ctx r.1

namespace Tracer

/-- The texts of the locals and of what is watched; none where one of them fails. -/
def texts (t : Tracer) (ctx : Context) : List (String × String) :=
  match t.localReprs ctx with
  | .ok vars => vars
  | .error _ => []

def outcome (t : Tracer) (ctx : Context) : Option String :=
  match t.resultText ctx with
  | .ok result => result
  | .error _ => none

def changes (t : Tracer) (ctx : Context) : VarDiff :=
  .between (t.session.snapshot ctx.frame.id) (t.texts ctx)

def level (t : Tracer) (ctx : Context) : Int :=
  (t.descend ctx).session.depth ctx.frame.thread.id

def openingLines (t : Tracer) (ctx : Context) (expanded : Bool) : List String :=
  (t.descend ctx).pathLines ctx ++
    variableLines (indentation (t.level ctx)) ctx.event.isCall expanded (t.changes ctx)

def sourceLine (t : Tracer) (w : Surroundings) (ctx : Context) (expanded : Bool) :
    (String × Nat) × SourceCache :=
  t.sources.shown (t.feed w ((t.descend ctx).pathLines ctx)).2
    (t.feed w (t.openingLines ctx expanded)).2 ctx

def showing (t : Tracer) (w : Surroundings) (ctx : Context) (expanded : Bool) : Showing where
  thread := (t.threadInfo ctx.frame.thread).1
  diff := t.changes ctx
  source := (t.sourceLine w ctx expanded).1
  result := t.outcome ctx

def eventText (t : Tracer) (w : Surroundings) (ctx : Context) (expanded : Bool) : List String :=
  (t.showing w ctx expanded).lines (t.descend ctx) ctx expanded

def told (t : Tracer) (w : Surroundings) (ctx : Context) (expanded : Bool) : Tracer :=
  let t' := ((t.descend ctx).threadInfo ctx.frame.thread).2
  { t' with
    session := (t'.session.diff ctx.frame.id (t.texts ctx)).2
    sources := (t.sourceLine w ctx expanded).2
    sink := (t.feed w (t.eventText w ctx expanded)).1
    lastPath := some (t.displayPath ctx.frame.file) }

theorem announce_told (t : Tracer) (w : Surroundings) (ctx : Context) :
    t.announce w ctx =
      ({ t.descend ctx with
          sink := (t.feed w ((t.descend ctx).pathLines ctx)).1
          lastPath := some (t.displayPath ctx.frame.file) },
        (t.feed w ((t.descend ctx).pathLines ctx)).2) := by
  have hfeed : (t.descend ctx).feed = t.feed := by
    unfold descend
    split <;> rfl
  have hpath : (t.descend ctx).displayPath = t.displayPath := by
    unfold descend
    split <;> rfl
  rw [announce_eq, write_eq, hfeed, hpath]
  unfold pathLines
  rw [hpath]
  split
  next h =>
    have hsink : (t.descend ctx).sink = t.sink := by
      unfold descend
      split <;> rfl
    simp [feed, Sink.writeLines, ← hsink, ← h]
  · rfl

theorem threadInfo_told (t : Tracer) (sources : SourceCache) (sink : Sink) (lastPath : Option String)
    (thread : Thread) :
    { t with sources, sink, lastPath }.threadInfo thread =
      ((t.threadInfo thread).1, { (t.threadInfo thread).2 with sources, sink, lastPath }) := by
  unfold threadInfo
  split <;> rfl

theorem threadInfo_descend (t : Tracer) (ctx : Context) (thread : Thread) :
    ((t.descend ctx).threadInfo thread).1 = (t.threadInfo thread).1 := by
  unfold descend
  split
  · unfold threadInfo onSession Session.adjustDepth Session.setDepth Session.seeThread
    dsimp only
    split
    · rfl
    · split <;> rfl
  · rfl

/-! Where no renderer fails on the event, all of its values have texts. -/

theorem texts_eq {t : Tracer} {ctx : Context} (calm : t.mishap? ctx = none) :
    t.localReprs ctx = .ok (t.texts ctx) := by
  unfold mishap? at calm
  unfold texts
  cases h : t.localReprs ctx with
  | ok vars => rfl
  | error e =>
    rw [h] at calm
    cases calm

theorem outcome_eq {t : Tracer} {ctx : Context} (calm : t.mishap? ctx = none) :
    t.resultText ctx = .ok (t.outcome ctx) := by
  have htexts := texts_eq calm
  unfold mishap? at calm
  unfold outcome
  rw [htexts] at calm
  cases h : t.resultText ctx with
  | ok result => rfl
  | error e =>
    rw [h] at calm
    cases calm

theorem outcome_congr {t t' : Tracer} (renderer : t'.renderer = t.renderer) (ctx : Context) :
    t'.outcome ctx = t.outcome ctx := by
  unfold outcome resultText
  rw [renderer]

theorem texts_congr {t t' : Tracer} (renderer : t'.renderer = t.renderer)
    (watches : t'.watches = t.watches) (ctx : Context) : t'.texts ctx = t.texts ctx := by
  unfold texts
  rw [localReprs_congr renderer watches]

theorem shownLine_eq (t : Tracer) (w : Surroundings) (ctx : Context) (source : String) :
    t.shownLine w ctx source =
      ((t.sources.behind w ctx source).1, { t with sources := (t.sources.behind w ctx source).2 }) := by
  unfold shownLine SourceCache.behind
  split <;> rfl

theorem present_told {t : Tracer} {ctx : Context} (calm : t.mishap? ctx = none) (w : Surroundings)
    (expanded : Bool) (source thread : String) (vars : List (String × String)) :
    let depth := t.session.depth ctx.frame.thread.id
    let indent := indentation depth
    let d := VarDiff.between (t.session.snapshot ctx.frame.id) vars
    let first := variableLines indent ctx.event.isCall expanded d
    let s := t.sources.behind (t.feed w first).2 ctx source
    let lines := first ++ eventLines indent thread ctx expanded s.1
    let u := { t with
      session := (t.session.diff ctx.frame.id vars).2
      sources := s.2
      sink := (t.feed w lines).1 }
    let n := u.noteGraph (t.feed w lines).2 ctx depth s.1.1 (t.displayPath ctx.frame.file)
      (if d.added.isEmpty then none else some (summarize d.added)) (t.outcome ctx)
    let c := n.1.conclude n.2 ctx indent (t.outcome ctx)
    t.present w ctx expanded source thread vars = (c.1, c.2, none) := by
  intro depth indent d first s lines u n c
  let u₂ : Tracer := { t with session := (t.session.diff ctx.frame.id vars).2, sink := (t.feed w first).1 }
  let u₃ : Tracer := { u₂ with sources := s.2 }
  have hd : t.session.diff ctx.frame.id vars = (d, u.session) := rfl
  have hw : Tracer.write { t with session := u.session } w first = (u₂, (t.feed w first).2) :=
    write_eq _ w first
  have hs : u₂.shownLine (t.feed w first).2 ctx source = (s.1, u₃) := shownLine_eq u₂ _ ctx source
  have hfeed : u₃.feed (t.feed w first).2 (eventLines indent thread ctx expanded s.1) =
      t.feed w lines := by
    have hout : (u₃.sink, (t.feed w first).2) = t.feed w first := rfl
    exact feed_append hout rfl rfl _
  have he : u₃.write (t.feed w first).2 (eventLines indent thread ctx expanded s.1) =
      (u, (t.feed w lines).2) := by
    rw [write_eq, hfeed]
  have hr : u.resultText ctx = .ok (t.outcome ctx) := outcome_eq (t := t) calm
  have hp : u.displayPath ctx.frame.file = t.displayPath ctx.frame.file := rfl
  unfold present
  dsimp only
  rw [hd]
  dsimp only
  rw [hw]
  dsimp only
  rw [hs]
  dsimp only
  rw [he]
  dsimp only
  rw [hr, hp]

theorem session_threadInfo (t : Tracer) (thread : Thread) :
    (t.threadInfo thread).2.session =
      { t.session with threads := (t.threadInfo thread).2.session.threads } := by
  unfold threadInfo
  split
  · rfl
  · unfold Session.seeThread
    dsimp only
    split <;> rfl

theorem depth_threadInfo (t : Tracer) (thread : Thread) (n : Nat) :
    (t.threadInfo thread).2.session.depth n = t.session.depth n := by
  rw [session_threadInfo]
  rfl

theorem snapshot_threadInfo (t : Tracer) (thread : Thread) (id : FrameId) :
    (t.threadInfo thread).2.session.snapshot id = t.session.snapshot id := by
  rw [session_threadInfo]
  rfl

/-- Apart from the session and the width of the labels, a tracer stays as it was. -/
theorem threadInfo_descend_eq (t : Tracer) (ctx : Context) (thread : Thread) :
    ((t.descend ctx).threadInfo thread).2 =
      { t with
        session := ((t.descend ctx).threadInfo thread).2.session
        threadWidth := ((t.descend ctx).threadInfo thread).2.threadWidth } := by
  unfold descend threadInfo
  split <;> split <;> rfl

/-- Showing an event whose values all have texts: the tracer has told it, the graph takes note, and the
event is concluded. -/
theorem render_told {t : Tracer} {ctx : Context} (calm : t.mishap? ctx = none) (w : Surroundings)
    (expanded : Bool) :
    let x := t.showing w ctx expanded
    let n := (t.told w ctx expanded).noteGraph (t.feed w (t.eventText w ctx expanded)).2 ctx
      (t.level ctx) x.source.1 (t.displayPath ctx.frame.file) x.starting x.result
    let c := n.1.conclude n.2 ctx (indentation (t.level ctx)) x.result
    t.render w ctx expanded = (c.1, c.2, none) := by
  intro x n c
  let t₁ : Tracer := { t.descend ctx with
    sink := (t.feed w ((t.descend ctx).pathLines ctx)).1
    lastPath := some (t.displayPath ctx.frame.file) }
  let w₁ := (t.feed w ((t.descend ctx).pathLines ctx)).2
  let source := t.sources.line w₁ ctx.frame.file ctx.frame.line
  let t₃ : Tracer := { ((t.descend ctx).threadInfo ctx.frame.thread).2 with
    sources := source.2
    sink := t₁.sink
    lastPath := t₁.lastPath }
  have ha : t.announce w ctx = (t₁, w₁) := announce_told t w ctx
  have hi : Tracer.threadInfo { t₁ with sources := source.2 } ctx.frame.thread = (x.thread, t₃) := by
    have ht := threadInfo_told (t.descend ctx) source.2 t₁.sink t₁.lastPath ctx.frame.thread
    rw [threadInfo_descend] at ht
    exact ht
  have hsources : t₁.sources = t.sources := by
    unfold t₁ descend
    dsimp only
    split <;> rfl
  have hkeep := threadInfo_descend_eq t ctx ctx.frame.thread
  have hrenderer : t₃.renderer = t.renderer := by
    unfold t₃
    rw [hkeep]
  have hwatches : t₃.watches = t.watches := by
    unfold t₃
    rw [hkeep]
  have hcalm : t₃.mishap? ctx = none := by
    rw [mishap?_congr hrenderer hwatches]
    exact calm
  have hvars : t₃.localReprs ctx = .ok (t.texts ctx) := by
    rw [texts_eq hcalm, texts_congr hrenderer hwatches]
  have hdepth : t₃.session.depth ctx.frame.thread.id = t.level ctx := depth_threadInfo _ _ _
  have hdiff : VarDiff.between (t₃.session.snapshot ctx.frame.id) (t.texts ctx) = x.diff := by
    have hsnap : t₃.session.snapshot ctx.frame.id = (t.descend ctx).session.snapshot ctx.frame.id :=
      snapshot_threadInfo _ _ _
    have hdesc : (t.descend ctx).session.snapshot = t.session.snapshot := by
      unfold descend
      split <;> rfl
    rw [hsnap, hdesc]
    rfl
  have hfeed : ∀ lines, t₃.feed w₁ lines = t.feed w ((t.descend ctx).pathLines ctx ++ lines) := by
    intro lines
    have hout : (t₃.sink, w₁) = t.feed w ((t.descend ctx).pathLines ctx) := rfl
    apply feed_append hout
    · unfold t₃
      rw [hkeep]
    · unfold t₃
      rw [hkeep]
  have hpath : t₃.displayPath ctx.frame.file = t.displayPath ctx.frame.file := by
    unfold t₃
    rw [hkeep]
    rfl
  have hp := present_told hcalm w₁ expanded source.1 x.thread (t.texts ctx)
  rw [hdepth, hdiff, hpath, outcome_congr hrenderer] at hp
  simp only [hfeed, ← List.append_assoc] at hp
  unfold render
  dsimp only
  rw [ha]
  dsimp only
  rw [hsources, hi]
  dsimp only
  rw [hvars]
  exact hp

theorem noteGraph_eq (t : Tracer) (w : Surroundings) (ctx : Context) (depth : Int)
    (source path : String) (starting result : Option String) :
    (t.noteGraph w ctx depth source path starting result).1 =
      { t with
        graph := (t.noteGraph w ctx depth source path starting result).1.graph
        faults := (t.noteGraph w ctx depth source path starting result).1.faults } := by
  unfold noteGraph
  split
  · rfl
  · split <;> rfl

/-- Neither the graph nor the result changes the session further. -/
theorem session_render {t : Tracer} (h : t.renderer.IsTotal) (w : Surroundings) (ctx : Context)
    (expanded : Bool) :
    (t.render w ctx expanded).1.session = ((t.told w ctx expanded).ended ctx).session := by
  rw [render_told (mishap?_of_isTotal h ctx)]
  dsimp only
  rw [conclude_eq, write_eq, noteGraph_eq]
  unfold ended
  split <;> rfl

/-- The session of a tracer that has told an event: the depth is counted, the variables are noted, and the
thread may have been seen. -/
theorem session_told (t : Tracer) (w : Surroundings) (ctx : Context) (expanded : Bool) :
    (t.told w ctx expanded).session =
      { t.session with
        depths := (t.descend ctx).session.depths
        snapshots := t.session.snapshots.insert ctx.frame.id (t.texts ctx)
        threads := (t.told w ctx expanded).session.threads } := by
  have hdesc : (t.descend ctx).session =
      { t.session with depths := (t.descend ctx).session.depths } := by
    unfold descend
    split <;> rfl
  have hthread := session_threadInfo (t.descend ctx) ctx.frame.thread
  unfold told Session.diff
  dsimp only
  rw [hthread, hdesc]

/-- Apart from that, what it has told shows in its sink, its sources, its last path and the width of the
labels. -/
theorem told_eq (t : Tracer) (w : Surroundings) (ctx : Context) (expanded : Bool) :
    t.told w ctx expanded =
      { t with
        session := (t.told w ctx expanded).session
        sources := (t.sourceLine w ctx expanded).2
        sink := (t.feed w (t.eventText w ctx expanded)).1
        lastPath := some (t.displayPath ctx.frame.file)
        threadWidth := (t.told w ctx expanded).threadWidth } := by
  have hthread := threadInfo_descend_eq t ctx ctx.frame.thread
  unfold told
  rw [hthread]

/-- Without labels no thread is noted as seen. -/
theorem session_told_of_unlabelled {t : Tracer} (labels : t.config.threadInfo = false)
    (w : Surroundings) (ctx : Context) (expanded : Bool) :
    (t.told w ctx expanded).session =
      ((t.descend ctx).session.diff ctx.frame.id (t.texts ctx)).2 := by
  have hlabels : ((t.descend ctx).threadInfo ctx.frame.thread).2 = t.descend ctx := by
    have hc : (t.descend ctx).config = t.config := by
      unfold descend
      split <;> rfl
    unfold threadInfo
    rw [hc, labels]
    rfl
  unfold told
  dsimp only
  rw [hlabels]

theorem ended_eq (t : Tracer) (ctx : Context) :
    t.ended ctx = { t with session := (t.ended ctx).session } := by
  unfold ended
  split <;> rfl

/-- What is left of a tracer once a shown event is over, but for its graph and the result. -/
theorem ended_told_eq (t : Tracer) (w : Surroundings) (ctx : Context) (expanded : Bool) :
    (t.told w ctx expanded).ended ctx =
      { t with
        session := ((t.told w ctx expanded).ended ctx).session
        sources := (t.sourceLine w ctx expanded).2
        sink := (t.feed w (t.eventText w ctx expanded)).1
        lastPath := some (t.displayPath ctx.frame.file)
        threadWidth := (t.told w ctx expanded).threadWidth } := by
  have htold : ∀ session, { t.told w ctx expanded with session } =
      { t with
        session
        sources := (t.sourceLine w ctx expanded).2
        sink := (t.feed w (t.eventText w ctx expanded)).1
        lastPath := some (t.displayPath ctx.frame.file)
        threadWidth := (t.told w ctx expanded).threadWidth } := by
    intro session
    rw [told_eq]
  exact (ended_eq _ ctx).trans (htold _)

/-- Showing an event where lines are written: all of them have gone out. -/
theorem render_written {t : Tracer} {ctx : Context} (calm : t.mishap? ctx = none)
    (text : t.graph = none) (w : Surroundings) (expanded : Bool) :
    let lines := t.eventText w ctx expanded ++
      t.resultLines ctx (indentation (t.level ctx)) (t.outcome ctx)
    t.render w ctx expanded =
      ({ (t.told w ctx expanded).ended ctx with sink := (t.feed w lines).1 }, (t.feed w lines).2,
        none) := by
  have htold := told_eq t w ctx expanded
  have hgraph : (t.told w ctx expanded).graph = none := by
    rw [htold]
    exact text
  have hresult : (t.told w ctx expanded).resultLines = t.resultLines := by
    rw [htold]
    rfl
  have hx : (t.showing w ctx expanded).result = t.outcome ctx := rfl
  have hout : (((t.told w ctx expanded).ended ctx).sink,
      (t.feed w (t.eventText w ctx expanded)).2) = t.feed w (t.eventText w ctx expanded) := by
    rw [ended_eq, htold]
  have hfeed : ((t.told w ctx expanded).ended ctx).feed (t.feed w (t.eventText w ctx expanded)).2 =
      fun lines => t.feed w (t.eventText w ctx expanded ++ lines) := by
    funext lines
    apply feed_append hout
    · rw [ended_eq, htold]
    · rw [ended_eq, htold]
  rw [render_told calm]
  dsimp only
  rw [noteGraph, hgraph]
  dsimp only
  rw [conclude_eq, write_eq, hresult, hx, hfeed]

/-- Its lines have gone out, and otherwise it is alike. -/
theorem emits_told (t : Tracer) (w : Surroundings) (ctx : Context) (expanded : Bool) :
    Emits (t.descend ctx) w (t.eventText w ctx expanded) (t.told w ctx expanded)
      (t.feed w (t.eventText w ctx expanded)).2 := by
  have hfeed : (t.descend ctx).feed = t.feed := by
    unfold descend
    split <;> rfl
  refine ⟨?_, ?_⟩
  · rw [told_eq, session_told]
    unfold descend
    split <;> exact ⟨rfl, rfl, rfl, rfl, rfl, rfl, rfl, rfl, rfl, rfl⟩
  · rw [told_eq, hfeed]

/-- The event is shown by what `x` tells: its lines go out, and the graph takes note of its parts. -/
def Displays (t : Tracer) (w : Surroundings) (ctx : Context) (expanded : Bool) (x : Showing) : Prop :=
  ∃ (u : Tracer) (w' : Surroundings),
    Emits (t.descend ctx) w (x.lines (t.descend ctx) ctx expanded) u w' ∧
    t.render w ctx expanded =
      let n := u.noteGraph w' ctx (t.level ctx) x.source.1 (t.displayPath ctx.frame.file) x.starting
        x.result
      let c := n.1.conclude n.2 ctx (indentation (t.level ctx)) x.result
      (c.1, c.2, none)

theorem displays_showing {t : Tracer} (h : t.renderer.IsTotal) (w : Surroundings) (ctx : Context)
    (expanded : Bool) : t.Displays w ctx expanded (t.showing w ctx expanded) :=
  ⟨t.told w ctx expanded, (t.feed w (t.eventText w ctx expanded)).2, t.emits_told w ctx expanded,
    render_told (mishap?_of_isTotal h ctx) w expanded⟩

end Tracer

inductive Aside where
  | target (code : CodeId)
  | enter (frame : FrameId)
  | exit (thread : Thread) (frame : FrameId)
  /-- Time passes. -/
  | wait (time : Nat)

namespace Tracer

def aside (s : Tracer × Surroundings) : Aside → Tracer × Surroundings
  | .target code => (s.1.targetCode code, s.2)
  | .enter frame => (s.1.enter s.2 frame, s.2)
  | .exit thread frame => s.1.exit s.2 thread frame
  | .wait time => (s.1, { s.2 with now := s.2.now + time })

theorem renderer_aside (s : Tracer × Surroundings) (a : Aside) :
    (aside s a).1.renderer = s.1.renderer := by
  cases a with
  | target code =>
    simp only [aside, targetCode]
    split <;> rfl
  | enter frame =>
    simp only [aside, enter]
    split <;> rfl
  | exit thread frame =>
    simp only [aside, exit]
    split
    · rfl
    · split
      · rw [write_eq]
        rfl
      · rfl
  | wait time => rfl

end Tracer
end SelectiveTrace
