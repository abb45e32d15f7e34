import SelectiveTrace.Tracer.Decision

/-! How a tracer shows an event: the source path when it changes, the variables that are new or
changed, the line, and at the end of a call its result. A call graph takes the same texts instead. -/
namespace SelectiveTrace

def summarize (vars : List (String × String)) : String :=
  let joined := ", ".intercalate (vars.map fun v => v.1 ++ " = " ++ v.2)
  if summaryLength < joined.length then
    String.ofList (joined.toList.take (summaryLength - 6)) ++ " ......"
  else joined

namespace Context

/-- An end without a result that no return instruction made. -/
def isBrokenOff (ctx : Context) : Bool :=
  match ctx.event with
  | .ret .none => !ctx.frame.endedOnReturn
  | _ => false

def returned? (ctx : Context) : Option Value :=
  match ctx.event with
  | .ret v => if ctx.isBrokenOff then none else some v
  | _ => none

end Context

namespace Tracer

def displayPath (t : Tracer) (file : Path) : String :=
  if t.config.normalize then file.fileName?.getD file.text else file.text

def threadLabel (number : Nat) (name : Option String) : String :=
  toString number ++ "-" ++ name.getD "<unnamed>" ++ " "

/-- The label of a thread, as wide as the widest one so far; empty unless labels are asked for. -/
def threadInfo (t : Tracer) (thread : Thread) : String × Tracer :=
  if !t.config.threadInfo then ("", t)
  else
    let session := t.session.seeThread thread.id
    let label := threadLabel (session.threadNumber thread.id) thread.name
    let width := max t.threadWidth label.length
    (Text.padRight width label, { t with session, threadWidth := width })

def itemBefore (a b : String × String) : Bool :=
  a.1 < b.1 || (a.1 = b.1 && a.2 ≤ b.2)

/-- Adds watched items in the order of their labels; an item takes the place of one with its
label. -/
def addItems (vars items : List (String × String)) : List (String × String) :=
  (items.mergeSort itemBefore).foldl (fun vars item => Bindings.set item.1 item.2 vars) vars

def addWatches (t : Tracer) (ctx : Context) :
    List Watch → List (String × String) → Except String (List (String × String))
  | [], vars => .ok vars
  | watch :: watches, vars =>
    match watch.items ctx.frame.locals ctx.globals t.renderer with
    | .error e => .error e
    | .ok items => t.addWatches ctx watches (addItems vars items)

def localReprs (t : Tracer) (ctx : Context) : Except String (List (String × String)) :=
  match t.renderer.renderAll ctx.frame.locals.bindings with
  | .error e => .error e
  | .ok vars => t.addWatches ctx t.watches vars

def isDecorator (line : String) : Bool :=
  Text.startsWith (Text.trimStart line) "@"

def isDefinition (line : String) : Bool :=
  let s := Text.trimStart line
  Text.startsWith s "def" || Text.startsWith s "async def"

def definition? (lines : List String) (start : Nat) : Option (String × Nat) :=
  ((lines.zipIdx 1).drop (start - 1)).find? fun l => isDefinition l.1

/-- The line that stands for an event: the current one, but for a call at a decorator the definition
behind it. -/
def shownLine (t : Tracer) (w : Surroundings) (ctx : Context) (source : String) :
    (String × Nat) × Tracer :=
  let f := ctx.frame
  if ctx.event.isCall && isDecorator source then
    let (lines, sources) := t.sources.lines w f.file
    ((lines.bind fun ls => definition? ls f.line).getD (source, f.line), { t with sources })
  else ((source, f.line), t)

def variableLines (indent : String) (isCall expanded : Bool) (d : VarDiff) : List String :=
  if expanded && !isCall then []
  else
    let label := if isCall then "Starting var:.. " else "New var:....... "
    (if d.added.isEmpty then [] else [indent ++ label ++ summarize d.added]) ++
      (if d.modified.isEmpty then [] else [indent ++ "Modified var:.. " ++ summarize d.modified])

def eventLines (indent thread : String) (ctx : Context) (expanded : Bool)
    (shown : String × Nat) : List String :=
  (if ctx.isBrokenOff then [indent ++ CallNode.brokenOff]
    else [indent ++ thread ++ Text.padRight 9 ctx.event.name ++ " " ++
      Text.padLeft 4 ' ' (toString shown.2) ++ " " ++ shown.1]) ++
    (if expanded && ctx.event.isCall then
      [indent ++ thread ++ "    ... (function body omitted)"] else [])

def updateGraph (g : CallGraph) (w : Surroundings) (ctx : Context) (depth : Int)
    (source path : String) (starting result : Option String) :
    CallGraph × Surroundings × Option Error :=
  let frame := ctx.frame.id
  match ctx.event with
  | .call => (g.openCall frame depth source path starting, w, none)
  | .ret _ | .exception _ =>
    let closed := match result with
      | some text => g.closeReturn frame source text
      | none => g.closeException frame
    match closed with
    | .error e => (g, w, some e)
    | .ok g =>
      match g.flush w with
      | .ok w => (g, w, none)
      | .error e => (g, w, some e)
  | .line | .discard => (g, w, none)

def noteGraph (t : Tracer) (w : Surroundings) (ctx : Context) (depth : Int)
    (source path : String) (starting result : Option String) : Tracer × Surroundings :=
  match t.graph with
  | none => (t, w)
  | some g =>
    match updateGraph g w ctx depth source path starting result with
    | (g, w, none) => ({ t with graph := some g }, w)
    | (g, w, some e) => ({ t with graph := some g }.fault e, w)

/-- Drops what is kept for a frame that has ended, unless the frame was entered and is still to be
left. -/
def release (t : Tracer) (s : Session) (frame : FrameId) : Session :=
  if t.observed.isSome then (s.detach frame).evict frame
  else if s.targetFrames.contains frame then s
  else s.evict frame

def resultLines (t : Tracer) (ctx : Context) (indent : String) (result : Option String) :
    List String :=
  match ctx.event with
  | .ret _ => (result.map fun text => indent ++ CallNode.valueMark ++ text).toList
  | .exception e =>
    let text := match t.renderer.maxLength with
      | some max => Text.shorten max e.text
      | none => e.text
    [indent ++ "Exception:..... " ++ text]
  | _ => []

def conclude (t : Tracer) (w : Surroundings) (ctx : Context) (indent : String)
    (result : Option String) : Tracer × Surroundings :=
  if !ctx.event.isTerminal then (t, w)
  else
    let t := t.onSession fun s =>
      (t.release s ctx.frame.id).adjustDepth ctx.frame.thread.id (-1)
    t.write w (t.resultLines ctx indent result)

def resultText (t : Tracer) (ctx : Context) : Except String (Option String) :=
  match ctx.returned? with
  | some v => (t.renderer.render v).map some
  | none => .ok none

/-- The start of every shown event: a call goes down a level, and a new source path is written. -/
def announce (t : Tracer) (w : Surroundings) (ctx : Context) : Tracer × Surroundings :=
  let f := ctx.frame
  let t := if ctx.event.isCall then t.onSession (·.adjustDepth f.thread.id 1) else t
  let path := t.displayPath f.file
  if t.lastPath = some path then (t, w)
  else
    let (t, w) :=
      t.write w [indentation (t.session.depth f.thread.id) ++ CallNode.pathMark ++ path]
    ({ t with lastPath := some path }, w)

/-- Shows the variables and the line of an event, notes it in the graph, and ends the call if the
event does. A renderer that fails breaks this off where it fails. -/
def present (t : Tracer) (w : Surroundings) (ctx : Context) (expanded : Bool)
    (source thread : String) (vars : List (String × String)) :
    Tracer × Surroundings × Option String :=
  let f := ctx.frame
  let depth := t.session.depth f.thread.id
  let indent := indentation depth
  let (d, session) := t.session.diff f.id vars
  let t := { t with session }
  let (t, w) := t.write w (variableLines indent ctx.event.isCall expanded d)
  let (shown, t) := t.shownLine w ctx source
  let (t, w) := t.write w (eventLines indent thread ctx expanded shown)
  match t.resultText ctx with
  | .error e => (t, w, some e)
  | .ok result =>
    let starting := if d.added.isEmpty then none else some (summarize d.added)
    let (t, w) := t.noteGraph w ctx depth shown.1 (t.displayPath f.file) starting result
    let (t, w) := t.conclude w ctx indent result
    (t, w, none)

def render (t : Tracer) (w : Surroundings) (ctx : Context) (expanded : Bool) :
    Tracer × Surroundings × Option String :=
  let (t, w) := t.announce w ctx
  let (source, sources) := t.sources.line w ctx.frame.file ctx.frame.line
  let (thread, t) := { t with sources }.threadInfo ctx.frame.thread
  match t.localReprs ctx with
  | .error e => (t, w, some e)
  | .ok vars => t.present w ctx expanded source thread vars

/-- A generator that was dropped: nothing of its frame is kept, and its call ends in the graph. -/
def dropFrame (t : Tracer) (frame : FrameId) : Tracer :=
  let t := t.onSession fun s => (s.evict frame).detach frame
  match t.graph with
  | none => t
  | some g =>
    match g.closeException frame with
    | .ok g => { t with graph := some g }
    | .error _ => t

/-- Handles an event. What fails on the way becomes a fault and never reaches the program. -/
def onEvent (t : Tracer) (ctx : Context) (w : Surroundings) : Answer × Tracer × Surroundings :=
  if ctx.event.isDiscard then (.proceed, t.dropFrame ctx.frame.id, w)
  else
    match t.decide w ctx with
    | (.skip, t) => (.skipFrame, t, w)
    | (.ignore, t) => (.proceed, t, w)
    | (.overflow, t) => (.proceed, t.fault (.handling ctx.event.name overflowText), w)
    | (.show_ expanded, t) =>
      match t.render w ctx expanded with
      | (t, w, none) => (.proceed, t, w)
      | (t, w, some e) => (.proceed, t.fault (.handling ctx.event.name e), w)

end Tracer
end SelectiveTrace
