import SelectiveTrace.Scope.Tree
import SelectiveTrace.Text.Identifier

/-! Reading program text token by token. Which token stands next depends on what may stand there: a
line end, an indentation or a dedent is a token only where one is wanted, or where the indentation
falls below that of the block outside of brackets; elsewhere it is white space. -/
namespace SelectiveTrace.Grammar

structure StringStart where
  isFormat : Bool := false
  isRaw : Bool := false
  isBytes : Bool := false
  quote : Char := '\''
  isTriple : Bool := false

inductive Look where
  | newline
  | indent
  | dedent
  /-- A string literal; its opening ends at the given place and the given text follows. -/
  | string (opening : StringStart) (rest : List Char) (stop : Place)
  /-- Any other token, or the end of the text. -/
  | token

/-- Which of the tokens that depend on lines and brackets may stand next. -/
structure Want where
  newline : Bool := false
  indent : Bool := false
  dedent : Bool := false
  closer : Bool := false
  string : Bool := false

structure Reader where
  rest : List Char
  place : Place := ⟨0, 0⟩
  lastStop : Place := ⟨0, 0⟩
  /-- The indentations of the open blocks, the innermost first. -/
  indents : List Nat := [0]
  /-- The string opened last is a format string that has not ended. -/
  inFormat : Bool := false
  continuations : List SyntaxNode := []
  ahead : Option Look := none

abbrev Parse := StateT Reader Option

def Place.after (p : Place) (c : Char) : Place :=
  if c = '\n' then ⟨p.row + 1, 0⟩ else ⟨p.row, p.column + 1⟩

def Place.afterAll (p : Place) (cs : List Char) : Place :=
  cs.foldl Place.after p

structure Gap where
  rest : List Char
  place : Place
  hasLineEnd : Bool := false
  /-- The indentation after the last line end. -/
  indent : Nat := 0
  /-- The indentation of the first comment on a line of its own. -/
  comment : Option Nat := none

/-- Passes over a gap. There is none to pass over before a comment on the line of the last token, nor
at a stray backslash. -/
def gap? (comments : Bool) : Bool → Gap → List Char → Place → Option Gap
  | _, g, [], p => some { g with rest := [], place := p, hasLineEnd := true, indent := 0 }
  | true, g, c :: cs, p =>
    if c = '\n' then gap? comments false { g with indent := 0 } cs (Place.after p c)
    else gap? comments true g cs (Place.after p c)
  | false, g, c :: cs, p =>
    if c = '\n' then
      gap? comments false { g with hasLineEnd := true, indent := 0 } cs (Place.after p c)
    else if c = ' ' then
      gap? comments false { g with indent := g.indent + 1 } cs (Place.after p c)
    else if c = '\t' then
      gap? comments false { g with indent := g.indent + 8 } cs (Place.after p c)
    else if c = '\r' || c = '\x0c' then
      gap? comments false { g with indent := 0 } cs (Place.after p c)
    else if c = '#' && comments then
      if g.hasLineEnd then
        gap? comments true { g with comment := g.comment.or (some g.indent) } cs (Place.after p c)
      else none
    else if c = '\\' then
      match cs with
      | '\r' :: '\n' :: cs => gap? comments false g cs ⟨p.row + 1, 0⟩
      | '\n' :: cs => gap? comments false g cs ⟨p.row + 1, 0⟩
      | [] => some { g with rest := [], place := p, hasLineEnd := true, indent := 0 }
      | _ => none
    else some { g with rest := c :: cs, place := p }

def isQuote (c : Char) : Bool :=
  c = '"' || c = '\'' || c = '`'

def stringStart? (s : StringStart) : List Char → Option (StringStart × List Char)
  | [] => none
  | c :: cs =>
    if c = 'f' || c = 'F' then stringStart? { s with isFormat := true } cs
    else if c = 'r' || c = 'R' then stringStart? { s with isRaw := true } cs
    else if c = 'b' || c = 'B' then stringStart? { s with isBytes := true } cs
    else if c = 'u' || c = 'U' then stringStart? s cs
    else if c = '`' then some ({ s with quote := c }, cs)
    else if c = '"' || c = '\'' then
      match cs with
      | d :: e :: rest =>
        if d = c && e = c then some ({ s with quote := c, isTriple := true }, rest)
        else some ({ s with quote := c }, cs)
      | _ => some ({ s with quote := c }, cs)
    else none

def structural? (want : Want) (r : Reader) : Option (Look × Reader) := do
  let g ← gap? (want.indent || want.dedent || want.newline) false ⟨[], r.place, false, 0, none⟩
    r.rest r.place
  let current := r.indents.headD 0
  let quoteNext := g.rest.head?.any isQuote
  let mayDedent := want.dedent ||
    (!want.newline && !(want.string && quoteNext) && !want.closer)
  let commentBelow := match g.comment with
    | some n => n < current
    | none => true
  if g.hasLineEnd && want.indent && current < g.indent then
    return (.indent, { r with indents := g.indent :: r.indents })
  else if g.hasLineEnd && mayDedent && g.indent < current && !r.inFormat && commentBelow then
    return (.dedent, { r with indents := r.indents.tail })
  else if g.hasLineEnd && want.newline then
    return (.newline, r)
  else if g.comment.isNone && want.string then
    let (opening, rest) ← stringStart? {} g.rest
    let stop := Place.afterAll g.place (g.rest.take (g.rest.length - rest.length))
    return (.string opening rest stop, { r with rest := g.rest, place := g.place })
  else none

def isSeparator (c : Char) : Bool :=
  c = ' ' || ('\t' ≤ c && c ≤ '\r') || c = '\uFEFF' || c = '\u2060' || c = '\u200B'

def Reader.continue (r : Reader) (place : Place) (rest : List Char) : Reader :=
  let stop : Place := ⟨place.row + 1, 0⟩
  { r with
    rest, place := stop
    continuations := r.continuations ++ [.node .plain place stop none []] }

/-- Moves to the next token. Comments and line continuations are passed one at a time, as the line
structure is looked at again after each. -/
def advance (want : Want) : Nat → Reader → Look × Reader
  | 0, r => (.token, r)
  | n + 1, r =>
    match structural? want r with
    | some found => found
    | none =>
      let blanks := r.rest.takeWhile isSeparator
      let rest := r.rest.dropWhile isSeparator
      let place := Place.afterAll r.place blanks
      match rest with
      | '#' :: _ =>
        let comment := rest.takeWhile (· ≠ '\n')
        advance want n
          { r with rest := rest.dropWhile (· ≠ '\n'), place := Place.afterAll place comment }
      | '\\' :: '\n' :: rest => advance want n (r.continue place rest)
      | '\\' :: '\r' :: '\n' :: rest => advance want n (r.continue place rest)
      | _ => (.token, { r with rest, place })

def look (want : Want) : Parse Look := do
  let r ← get
  match r.ahead with
  | some l => return l
  | none =>
    let (l, r) := advance want (r.rest.length + 1) r
    set { r with ahead := some l }
    return l

def take (n : Nat) : Parse Unit :=
  modify fun r =>
    let stop := Place.afterAll r.place (r.rest.take n)
    { r with rest := r.rest.drop n, place := stop, lastStop := stop, ahead := none }

def takeEmpty : Parse Unit :=
  modify fun r => { r with lastStop := r.place, ahead := none }

def here : Parse Place := do
  return (← get).place

def lastStop : Parse Place := do
  return (← get).lastStop

def plain (start : Place) (children : List SyntaxNode) : Parse SyntaxNode := do
  return .node .plain start (← lastStop) none children

/-- Whether the text of `s` stands next. Only after `look`. -/
def isAt (s : String) : Parse Bool := do
  let r ← get
  match r.ahead with
  | some .token => return s.toList.isPrefixOf r.rest
  | _ => return false

def isAtNot (s t : String) : Parse Bool := do
  return (← isAt s) && !(← isAt (s ++ t))

def takeText (s : String) : Parse Unit := do
  if ← isAt s then take s.length else failure

def tryText (s : String) : Parse Bool := do
  if ← isAt s then
    take s.length
    return true
  else return false

def wordAhead : Parse String := do
  let r ← get
  match r.ahead, r.rest with
  | some .token, c :: _ =>
    return if Text.isIdentifierStart c then .ofList (r.rest.takeWhile Text.isIdentifierPart) else ""
  | _, _ => return ""

def isAtWord (w : String) : Parse Bool := do
  return (← wordAhead) = w

def takeWord (w : String) : Parse Unit := do
  if ← isAtWord w then take w.length else failure

def tryWord (w : String) : Parse Bool := do
  if ← isAtWord w then
    take w.length
    return true
  else return false

def takeName : Parse (String × SyntaxNode) := do
  let _ ← look {}
  let start ← here
  let w ← wordAhead
  if w.isEmpty then failure
  take w.length
  return (w, ← plain start [])

def attempt {α : Type} (p : Parse α) : Parse (Option α) := fun r =>
  match p r with
  | some (a, r) => some (some a, r)
  | none => some (none, r)

end SelectiveTrace.Grammar
