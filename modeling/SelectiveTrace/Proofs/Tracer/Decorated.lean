import SelectiveTrace.Proofs.Sources.Recency
import SelectiveTrace.Proofs.Tracer.Modes
import SelectiveTrace.Text.Identifier

/-! The line that a call at a decorator is shown with. It is the first line from the decorator on that
begins like a definition; that is the definition itself as long as no line on the way there begins so without
being one. -/
namespace SelectiveTrace

namespace Text

def goesOn (cs : List Char) : Bool :=
  cs.head?.any isIdentifierPart

/-- What follows a word at the start of `cs`, unless a longer word stands there. -/
def afterWord? (word cs : List Char) : Option (List Char) :=
  if word.isPrefixOf cs && !goesOn (cs.drop word.length) then some (cs.drop word.length) else none

theorem afterWord?_of_not_isPrefixOf {word cs : List Char} (h : word.isPrefixOf cs = false) :
    afterWord? word cs = none := by
  unfold afterWord?
  rw [h]
  rfl

theorem afterWord?_append (word cs : List Char) :
    afterWord? word (word ++ cs) = if goesOn cs then none else some cs := by
  have hword : word.isPrefixOf (word ++ cs) = true :=
    List.isPrefixOf_iff_prefix.mpr (List.prefix_append _ _)
  unfold afterWord?
  rw [hword, List.drop_left]
  cases goesOn cs <;> rfl

end Text

namespace Tracer

def isHeading (line : String) : Bool :=
  let cs := Text.dropBlanks line.toList
  (Text.afterWord? "def".toList cs).isSome ||
    (Text.afterWord? "async".toList cs).any fun rest =>
      (Text.afterWord? "def".toList (Text.dropBlanks rest)).isSome

/-- A line that begins like a definition, but with a longer word. -/
def isLookalike (line : String) : Bool :=
  let cs := Text.dropBlanks line.toList
  ("def".toList.isPrefixOf cs && Text.goesOn (cs.drop 3)) ||
    ("async def".toList.isPrefixOf cs && Text.goesOn (cs.drop 9))

/-- A definition with more than a space, or with another blank, between its first words. -/
def isSpread (line : String) : Bool :=
  (Text.afterWord? "async".toList (Text.dropBlanks line.toList)).any fun rest =>
    (Text.afterWord? "def".toList (Text.dropBlanks rest)).isSome && !" def".toList.isPrefixOf rest

/-- The lines that begin like a definition are the definitions, apart from these. -/
theorem isDefinition_eq_isHeading_iff (line : String) :
    isDefinition line = isHeading line ↔ isLookalike line = false ∧ isSpread line = false := by
  simp only [isDefinition, isHeading, isLookalike, isSpread, Text.startsWith, Text.trimStart,
    String.toList_ofList]
  generalize Text.dropBlanks line.toList = cs
  cases hdef : "def".toList.isPrefixOf cs with
  | true =>
    obtain ⟨rest, rfl⟩ := List.isPrefixOf_iff_prefix.mp hdef
    have hasync : Text.afterWord? "async".toList ("def".toList ++ rest) = none :=
      Text.afterWord?_of_not_isPrefixOf rfl
    have hboth : "async def".toList.isPrefixOf ("def".toList ++ rest) = false := rfl
    have hrest : ("def".toList ++ rest).drop 3 = rest := rfl
    rw [Text.afterWord?_append, hasync, hboth, hrest]
    cases Text.goesOn rest <;> simp
  | false =>
    rw [Text.afterWord?_of_not_isPrefixOf hdef]
    cases hasync : "async".toList.isPrefixOf cs with
    | false =>
      have hboth : "async def".toList.isPrefixOf cs = false := by
        cases h : "async def".toList.isPrefixOf cs with
        | false => rfl
        | true =>
          obtain ⟨rest, rfl⟩ := List.isPrefixOf_iff_prefix.mp h
          cases hasync
      rw [Text.afterWord?_of_not_isPrefixOf hasync, hboth]
      simp
    | true =>
      obtain ⟨rest, rfl⟩ := List.isPrefixOf_iff_prefix.mp hasync
      have hboth : "async def".toList.isPrefixOf ("async".toList ++ rest) = " def".toList.isPrefixOf rest :=
        rfl
      have hdrop : ("async".toList ++ rest).drop 9 = rest.drop 4 := rfl
      rw [Text.afterWord?_append, hboth, hdrop]
      cases hspace : " def".toList.isPrefixOf rest with
      | true =>
        obtain ⟨rest, rfl⟩ := List.isPrefixOf_iff_prefix.mp hspace
        have hend : Text.goesOn (" def".toList ++ rest) = false := rfl
        have hblank : Text.dropBlanks (" def".toList ++ rest) = "def".toList ++ rest := rfl
        have hrest : (" def".toList ++ rest).drop 4 = rest := rfl
        rw [hend, hrest]
        simp only [Bool.false_eq_true, if_false, Option.any_some, hblank, Text.afterWord?_append]
        cases Text.goesOn rest <;> simp
      | false =>
        cases Text.goesOn rest with
        | true => simp
        | false =>
          simp only [Bool.false_eq_true, if_false, Option.any_some, hspace]
          cases (Text.afterWord? "def".toList (Text.dropBlanks rest)).isSome <;> simp

def numbered (lines : List String) (start : Nat) : List (String × Nat) :=
  (lines.zipIdx 1).drop (start - 1)

def firstLine? (p : String → Bool) (lines : List String) (start : Nat) : Option (String × Nat) :=
  (numbered lines start).find? fun l => p l.1

def linesTo (p : String → Bool) (lines : List String) (start : Nat) : List (String × Nat) :=
  (numbered lines start).take ((numbered lines start).findIdx (fun l => p l.1) + 1)

/-- The first line at `start` or after it that is a `p`, or else line `start` itself. -/
def standIn (p : String → Bool) (lines : List String) (start : Nat) : String × Nat :=
  (firstLine? p lines start).getD (SourceCache.lineAt (some lines) start, start)

theorem find?_eq_find?_iff {α : Type} (p q : α → Bool) (as : List α) :
    as.find? p = as.find? q ↔ ∀ a ∈ as.take (as.findIdx q + 1), p a = q a := by
  -- what one test finds passes it, so it is not what the other has found if that fails it
  have hother (r : α → Bool) {a : α} (h : r a = false) (as : List α) : as.find? r ≠ some a := by
    intro hfind
    rw [List.find?_some hfind] at h
    cases h
  induction as with
  | nil => simp
  | cons a as ih =>
    rw [List.find?_cons, List.find?_cons, List.findIdx_cons]
    cases hp : p a with
    | true =>
      cases hq : q a with
      | true => simp [hp, hq]
      | false => simpa [hp, hq] using (hother q hq as).symm
    | false =>
      cases hq : q a with
      | true => simpa [hp, hq] using hother p hp as
      | false => simp [hp, hq, ih]

theorem word_of_isDecorator {line : String} (h : isDecorator line = true) {c : Char} (hc : c ≠ '@')
    (cs : List Char) : (c :: cs).isPrefixOf (Text.dropBlanks line.toList) = false := by
  unfold isDecorator Text.startsWith Text.trimStart at h
  rw [String.toList_ofList] at h
  cases hline : Text.dropBlanks line.toList with
  | nil => rfl
  | cons d ds =>
    rw [hline] at h
    have hd : '@' = d := by simpa [List.isPrefixOf] using h
    simp [List.isPrefixOf, ← hd, hc]

theorem isDefinition_of_isDecorator {line : String} (h : isDecorator line = true) :
    isDefinition line = false := by
  have hdef := word_of_isDecorator h (c := 'd') (by decide) ['e', 'f']
  have hasync := word_of_isDecorator h (c := 'a') (by decide) "sync def".toList
  simp only [isDefinition, Text.startsWith, Text.trimStart, String.toList_ofList]
  exact Bool.or_eq_false_iff.mpr ⟨hdef, hasync⟩

theorem isHeading_of_isDecorator {line : String} (h : isDecorator line = true) :
    isHeading line = false := by
  have hdef := Text.afterWord?_of_not_isPrefixOf (word_of_isDecorator h (c := 'd') (by decide) ['e', 'f'])
  have hasync := Text.afterWord?_of_not_isPrefixOf
    (word_of_isDecorator h (c := 'a') (by decide) "sync".toList)
  exact Bool.or_eq_false_iff.mpr ⟨congrArg Option.isSome hdef, congrArg (Option.any _) hasync⟩

theorem standIn_eq_iff {p q : String → Bool} {lines : List String} {start : Nat}
    (hp : p (SourceCache.lineAt (some lines) start) = false)
    (hq : q (SourceCache.lineAt (some lines) start) = false) :
    standIn p lines start = standIn q lines start ↔
      ∀ l ∈ linesTo q lines start, p l.1 = q l.1 := by
  have hfound (r : String → Bool) (h : r (SourceCache.lineAt (some lines) start) = false) {l : String × Nat}
      (hl : firstLine? r lines start = some l) : l ≠ (SourceCache.lineAt (some lines) start, start) := by
    rintro rfl
    rw [List.find?_some hl] at h
    cases h
  have hsame : standIn p lines start = standIn q lines start ↔
      firstLine? p lines start = firstLine? q lines start := by
    unfold standIn
    cases hfp : firstLine? p lines start with
    | none =>
      cases hfq : firstLine? q lines start with
      | none => simp
      | some l => simpa using (hfound q hq hfq).symm
    | some l =>
      cases hfq : firstLine? q lines start with
      | none => simpa using hfound p hp hfp
      | some l' => simp
  rw [hsame]
  exact find?_eq_find?_iff _ _ _

variable {t : Tracer} {w : Surroundings} {ctx : Context} {expanded : Bool} {ls : List String}

def read? (t : Tracer) (w : Surroundings) (ctx : Context) : Option (List String) :=
  (t.sources.lines (t.announce w ctx).2 ctx.frame.file).1

theorem sourceLine_of_decorated (room : 0 < t.sources.capacity) (call : ctx.event = .call)
    (read : t.read? w ctx = some ls)
    (decorated : isDecorator (SourceCache.lineAt (some ls) ctx.frame.line) = true) (expanded : Bool) :
    (t.sourceLine w ctx expanded).1 = standIn isDefinition ls ctx.frame.line := by
  let w₁ := (t.feed w ((t.descend ctx).pathLines ctx)).2
  let w₂ := (t.feed w (t.openingLines ctx expanded)).2
  have hread : (t.sources.lines w₁ ctx.frame.file).1 = some ls := by
    rw [read?, announce_told] at read
    exact read
  have hagain : ((t.sources.lines w₁ ctx.frame.file).2.lines w₂ ctx.frame.file).1 = some ls := by
    rw [SourceCache.lines_again room hread]
  have hcall : ctx.event.isCall = true := by
    rw [call]
    rfl
  unfold sourceLine SourceCache.shown
  rw [SourceCache.line_eq]
  dsimp only
  rw [hread]
  unfold SourceCache.behind
  rw [hcall, decorated]
  dsimp only
  rw [hagain]
  rfl

/-- The call is told with `shown` as the line and the number that stand for it: in the line of the event
behind the path and the variables, or in a new node of the graph. -/
structure TellsCall (t : Tracer) (w : Surroundings) (ctx : Context) (expanded : Bool)
    (shown : String × Nat) : Prop where
  answer : (t.onEvent ctx w).1 = .proceed
  lines : t.graph = none →
    let u := (t.decide w ctx).2
    ((t.onEvent ctx w).2.1.sink, (t.onEvent ctx w).2.2) =
      u.feed w (u.openingLines ctx expanded ++ eventLines (indentation (u.level ctx))
        (u.threadInfo ctx.frame.thread).1 ctx expanded shown)
  node : ∀ g, t.graph = some g →
    let u := (t.decide w ctx).2
    (t.onEvent ctx w).2.1.graph =
      some (g.openCall ctx.frame.id (u.level ctx) shown.1 (u.displayPath ctx.frame.file)
        (u.showing w ctx expanded).starting)

theorem tellsCall_of_show (call : ctx.event = .call) (verdict : (t.decide w ctx).1 = .show_ expanded)
    (calm : t.mishap? ctx = none) :
    t.TellsCall w ctx expanded ((t.decide w ctx).2.sourceLine w ctx expanded).1 := by
  obtain ⟨s, hs⟩ := t.decide_session w ctx
  have hlive : ctx.event.isDiscard = false := by
    rw [call]
    rfl
  generalize hu : (t.decide w ctx).2 = u at hs ⊢
  have hrenderer : u.renderer = t.renderer := by rw [hs]
  have hwatches : u.watches = t.watches := by rw [hs]
  have hgraph : u.graph = t.graph := by rw [hs]
  have hcalm : u.mishap? ctx = none := (mishap?_congr hrenderer hwatches ctx).trans calm
  have hr : t.onEvent ctx w = (.proceed, (u.render w ctx expanded).1, (u.render w ctx expanded).2.1) := by
    refine onEvent_of_show hlive verdict ?_
    rw [hu, render_told hcalm]
  refine ⟨by rw [hr], ?_, ?_⟩
  · intro text
    have hw := render_written hcalm (hgraph.trans text) w expanded
    have hnone : u.resultLines ctx (indentation (u.level ctx)) (u.outcome ctx) = [] := by
      unfold resultLines
      rw [call]
    rw [hnone, List.append_nil] at hw
    rw [hr, hw, hu]
    rfl
  · intro g graph
    have hg := render_noted hcalm (hgraph.trans graph) w expanded
    have hopen : ∀ source path starting result,
        (updateGraph g w ctx (u.level ctx) source path starting result).1 =
          g.openCall ctx.frame.id (u.level ctx) source path starting := by
      intro source path starting result
      unfold updateGraph
      rw [call]
    rw [hr, hg, hu]
    dsimp only
    rw [hopen]
    rfl

/-- A call at a decorator is told with the first line from there on that begins like a definition, and with
the decorator itself if there is none. That is the definition behind the decorator, if there is one, exactly
if no line as far as there begins like a definition without being one, and the definition itself does. -/
theorem decorated_call_shows_definition (room : 0 < t.sources.capacity) (call : ctx.event = .call)
    (verdict : (t.decide w ctx).1 = .show_ expanded) (calm : t.mishap? ctx = none)
    (read : (t.decide w ctx).2.read? w ctx = some ls)
    (decorated : isDecorator (SourceCache.lineAt (some ls) ctx.frame.line) = true) :
    t.TellsCall w ctx expanded (standIn isDefinition ls ctx.frame.line) ∧
      (standIn isDefinition ls ctx.frame.line = standIn isHeading ls ctx.frame.line ↔
        ∀ l ∈ linesTo isHeading ls ctx.frame.line, isLookalike l.1 = false ∧ isSpread l.1 = false) := by
  obtain ⟨s, hs⟩ := t.decide_session w ctx
  have hroom : 0 < (t.decide w ctx).2.sources.capacity := by
    rw [hs]
    exact room
  have htells := tellsCall_of_show call verdict calm
  rw [sourceLine_of_decorated hroom call read decorated] at htells
  have hexact := standIn_eq_iff (isDefinition_of_isDecorator decorated) (isHeading_of_isDecorator decorated)
  simp only [isDefinition_eq_isHeading_iff] at hexact
  exact ⟨htells, hexact⟩

def aroundPage (text : String) : Surroundings :=
  { disk := { entries := ({} : Table _ _).insert ["p.py"] (.file text.toUTF8) } }

def callAtTop : Context where
  frame :=
    { id := ⟨0, 0⟩, code := ⟨"/p.py", "h", 1⟩, function := "h", file := ⟨"/p.py"⟩, line := 1
      back := none, locals := ⟨[("v", .int 1)]⟩, thread := ⟨0, some "main"⟩ }
  event := .call
  frames := {}
  globals := {}

def tracerOfTop : Tracer :=
  { session := { targetCodes := [⟨"/p.py", "h", 1⟩] }, renderer := { maxLength := some 100 }
    sink := .lines [] }

/-- Decorators may be stacked, and take lines of arguments. -/
theorem decorated_call_shows_definition_of_stacked :
    let text := "@cache\n@log(\n    1,\n)\nasync def h(v):\n    return v\n"
    let ls := ["@cache", "@log(", "    1,", ")", "async def h(v):", "    return v"]
    let w := aroundPage text
    Tracer.outfit {} {} [callAtTop.frame.code] [] {} (.lines []) = .ok tracerOfTop ∧
      0 < tracerOfTop.sources.capacity ∧ callAtTop.event = .call ∧
      (tracerOfTop.decide w callAtTop).1 = .show_ false ∧ tracerOfTop.mishap? callAtTop = none ∧
      (tracerOfTop.decide w callAtTop).2.read? w callAtTop = some ls ∧
      isDecorator (SourceCache.lineAt (some ls) 1) = true ∧
      (∀ l ∈ linesTo isHeading ls 1, isLookalike l.1 = false ∧ isSpread l.1 = false) ∧
      standIn isDefinition ls 1 = ("async def h(v):", 5) ∧
      tracerOfTop.TellsCall w callAtTop false (standIn isDefinition ls 1) ∧
      (standIn isDefinition ls 1 = standIn isHeading ls 1 ↔
        ∀ l ∈ linesTo isHeading ls 1, isLookalike l.1 = false ∧ isSpread l.1 = false) := by
  intro text ls w
  have room : 0 < tracerOfTop.sources.capacity := by decide
  have verdict : (tracerOfTop.decide w callAtTop).1 = .show_ false := by decide +kernel
  have calm : tracerOfTop.mishap? callAtTop = none := by decide +kernel
  have read : (tracerOfTop.decide w callAtTop).2.read? w callAtTop = some ls := by decide +kernel
  have decorated : isDecorator (SourceCache.lineAt (some ls) 1) = true := by decide +kernel
  exact ⟨rfl, room, rfl, verdict, calm, read, decorated, by decide +kernel, by decide +kernel,
    decorated_call_shows_definition room rfl verdict calm read decorated⟩

/-- The name of an argument begins like a definition, and its line is shown in place of the definition. -/
theorem argument_is_shown_as_definition :
    let text := "@deco(\n    default=1,\n)\ndef h(v):\n    return v\n"
    let ls := ["@deco(", "    default=1,", ")", "def h(v):", "    return v"]
    let w := aroundPage text
    let t := tracerOfTop
    let g := { t with graph := some {} }
    SourceCache.split text = ls ∧ isDecorator "@deco(" = true ∧
      firstLine? isHeading ls 1 = some ("def h(v):", 4) ∧
      (t.onEvent callAtTop w).2.1.sink.written =
        ["Source path:... /p.py", "Starting var:.. v = 1", "call         2     default=1,"] ∧
      (g.onEvent callAtTop w).2.1.graph.map (fun g => g.nodes.map (·.content)) =
        some [["Call ...     default=1,", "Source path:... /p.py", "Starting var:.. v = 1"]] := by
  decide +kernel

/-- A definition with more than one blank behind its first word is passed over. -/
example : firstLine? isHeading ["@deco", "async  def h(v):"] 1 = some ("async  def h(v):", 2) ∧
    standIn isDefinition ["@deco", "async  def h(v):"] 1 = ("@deco", 1) := by
  decide +kernel

end Tracer
end SelectiveTrace
