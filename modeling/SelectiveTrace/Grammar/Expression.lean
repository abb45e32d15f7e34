import SelectiveTrace.Grammar.Literal

/-! Reading expressions. Each reader takes the readers of what may be nested inside it; these read
with less fuel, so that nesting always ends. -/
namespace SelectiveTrace.Grammar

/-- What a term may serve as on the left of an assignment. -/
inductive Shape where
  | name
  /-- An attribute or a subscript. -/
  | place
  /-- A tuple or a list of targets. -/
  | group
  | splat
  | other
deriving DecidableEq

structure Term where
  node : SyntaxNode
  shape : Shape := .other

def Term.isTarget (t : Term) : Bool :=
  t.shape ≠ .other

/-- What may end an expression, besides what its construct asks for. -/
structure Mode where
  newline : Bool := false
  closer : Bool := false

def Mode.want (m : Mode) : Want :=
  { newline := m.newline, closer := m.closer, string := true }

def line : Mode := { newline := true }

def header : Mode := {}

def bracket : Mode := { closer := true }

def operand : Want := { string := true }

def opened : Want := { closer := true, string := true }

structure Nested where
  expression : Mode → Parse Term := fun _ => failure
  /-- An expression without a condition at its top. -/
  disjunction : Mode → Parse Term := fun _ => failure
  negation : Mode → Parse Term := fun _ => failure
  /-- Operators that bind at least as tightly as a level. -/
  binary : Mode → Nat → Parse Term := fun _ _ => failure
  interpolation : Parse SyntaxNode := failure

def iterateFor {α : Type} (step : α → Parse (Option α)) : Nat → α → Parse α
  | 0, a => return a
  | n + 1, a => do
    match ← step a with
    | some a => iterateFor step n a
    | none => return a

def iterate {α : Type} (step : α → Parse (Option α)) (a : α) : Parse α := do
  iterateFor step ((← get).rest.length + 1) a

/-- Terms after the first one, separated by commas, up to `close`; a comma may stand last. The flag
tells whether there is any. -/
def elements (item : Parse Term) (close : String) (first : Term) : Parse (List Term × Bool) := do
  let (ts, comma) ← iterate (fun (ts, _) => do
      let _ ← look bracket.want
      if ← tryText "," then
        let _ ← look opened
        if ← isAt close then return some (ts, true)
        return some ((← item) :: ts, true)
      else return none) ([first], false)
  return (ts.reverse, comma)

def groupShape (ts : List Term) : Shape :=
  if ts.all Term.isTarget then .group else .other

def expressionList (g : Nested) (m : Mode) : Parse Term := do
  let _ ← look operand
  let start ← here
  let first ← g.expression m
  let (ts, comma) ← iterate (fun (ts, _) => do
      let _ ← look m.want
      if ← tryText "," then
        let _ ← look m.want
        match ← attempt (g.expression m) with
        | some t => return some (t :: ts, true)
        | none => return some (ts, true)
      else return none) ([first], false)
  if comma then return ⟨← plain start (ts.reverse.map Term.node), groupShape ts⟩
  else return first

def yieldTerm (g : Nested) (m : Mode) : Parse Term := do
  let start ← here
  takeWord "yield"
  let _ ← look m.want
  if ← tryWord "from" then
    let _ ← look operand
    let t ← g.expression m
    return ⟨← plain start [t.node], .other⟩
  else
    match ← attempt (expressionList g m) with
    | some t => return ⟨← plain start [t.node], .other⟩
    | none => return ⟨← plain start [], .other⟩

def element (g : Nested) : Parse Term := do
  let start ← here
  if ← isAtWord "yield" then yieldTerm g bracket
  else if ← isAtNot "*" "*" then
    take 1
    let _ ← look operand
    let t ← g.expression bracket
    let shape : Shape := if t.shape = .name || t.shape = .place then .splat else .other
    return ⟨← plain start [t.node], shape⟩
  else g.expression bracket

def targetList (target : Parse Term) : Parse SyntaxNode := do
  let _ ← look operand
  let start ← here
  let t ← target
  let (ts, comma) ← iterate (fun (ts, _) => do
      let _ ← look header.want
      if ← tryText "," then
        let _ ← look header.want
        if ← isAtWord "in" then return some (ts, true)
        return some ((← target) :: ts, true)
      else return none) ([t], false)
  if !ts.all Term.isTarget then failure
  if comma then plain start (ts.reverse.map Term.node) else return t.node

def clauses (g : Nested) (target : Parse Term) : Parse (List SyntaxNode) := do
  let nodes ← iterate (fun (nodes : List SyntaxNode) => do
      let _ ← look bracket.want
      let start ← here
      if ← tryWord "if" then
        let _ ← look operand
        let t ← g.disjunction bracket
        return some ((← plain start [t.node]) :: nodes)
      else
        let isAsync ← tryWord "async"
        let _ ← look {}
        if ← tryWord "for" then
          let left ← targetList target
          let _ ← look header.want
          takeWord "in"
          let _ ← look operand
          let first ← g.disjunction bracket
          let rights ← iterate (fun (ts : List Term) => do
              let _ ← look bracket.want
              if ← isAt "," then
                match ← attempt (do take 1; let _ ← look opened; g.disjunction bracket) with
                | some t => return some (t :: ts)
                | none => return none
              else return none) [first]
          let _ ← tryText ","
          return some ((← plain start (left :: rights.reverse.map Term.node)) :: nodes)
        else if isAsync then failure
        else return none) []
  return nodes.reverse

def isAtClause : Parse Bool := do
  return (← isAtWord "for") || (← isAtWord "async")

def display (g : Nested) (target : Parse Term) (close : String) : Parse (List Term × Bool) := do
  let _ ← look opened
  if ← tryText close then return ([], true)
  let first ← element g
  let _ ← look bracket.want
  if ← isAtClause then
    let nodes ← clauses g target
    let _ ← look bracket.want
    takeText close
    return (first :: nodes.map fun n => ⟨n, .other⟩, false)
  else
    let (ts, comma) ← elements (element g) close first
    let _ ← look bracket.want
    takeText close
    return (ts, comma)

def parenthesized (g : Nested) (target : Parse Term) : Parse Term := do
  let start ← here
  take 1
  let (ts, _) ← display g target ")"
  return ⟨← plain start (ts.map Term.node), groupShape ts⟩

def listTerm (g : Nested) (target : Parse Term) : Parse Term := do
  let start ← here
  take 1
  let (ts, _) ← display g target "]"
  return ⟨← plain start (ts.map Term.node), groupShape ts⟩

/-- An entry of a dictionary: a key and its value, or entries spread by stars. A bare element belongs
to a set. The flag tells which. -/
def entry (g : Nested) : Parse (Term × Bool) := do
  let start ← here
  if ← tryText "**" then
    let _ ← look operand
    let t ← g.expression bracket
    return (⟨← plain start [t.node], .other⟩, true)
  else
    let t ← element g
    let _ ← look bracket.want
    if ← tryText ":" then
      let _ ← look operand
      let v ← g.expression bracket
      return (⟨← plain start [t.node, v.node], .other⟩, true)
    else return (t, false)

def braces (g : Nested) (target : Parse Term) : Parse Term := do
  let start ← here
  take 1
  let _ ← look opened
  if ← tryText "\x7d" then return ⟨← plain start [], .other⟩
  if ← tryText "," then
    let _ ← look opened
    takeText "\x7d"
    return ⟨← plain start [], .other⟩
  let (first, isPair) ← entry g
  let item : Parse Term := do
    let (t, p) ← entry g
    if p = isPair then return t else failure
  let _ ← look bracket.want
  let ts ← if ← isAtClause then
      pure (first :: (← clauses g target).map fun n => ⟨n, .other⟩)
    else pure (← elements item "\x7d" first).1
  let _ ← look bracket.want
  takeText "\x7d"
  return ⟨← plain start (ts.map Term.node), .other⟩

def argument (g : Nested) : Parse Term := do
  let start ← here
  if ← tryText "**" then
    let _ ← look operand
    let t ← g.expression bracket
    return ⟨← plain start [t.node], .other⟩
  else
    let t ← element g
    let _ ← look bracket.want
    if t.shape = .name && (← isAtNot "=" "=") then
      take 1
      let _ ← look operand
      let v ← g.expression bracket
      return ⟨← plain start [t.node, v.node], .other⟩
    else return t

def arguments (g : Nested) (target : Parse Term) : Parse SyntaxNode := do
  let start ← here
  takeText "("
  let _ ← look opened
  if ← tryText ")" then return ← plain start []
  if ← tryText "," then
    let _ ← look opened
    takeText ")"
    return ← plain start []
  let first ← argument g
  let _ ← look bracket.want
  let ts ← if ← isAtClause then
      pure (first :: (← clauses g target).map fun n => ⟨n, .other⟩)
    else pure (← elements (argument g) ")" first).1
  let _ ← look bracket.want
  takeText ")"
  plain start (ts.map Term.node)

def bound (g : Nested) : Parse (List SyntaxNode) := do
  let _ ← look opened
  if (← isAt ":") || (← isAt ",") || (← isAt "]") then return []
  return [(← g.expression bracket).node]

def subscriptItem (g : Nested) : Parse Term := do
  let start ← here
  let lower ← bound g
  let _ ← look bracket.want
  if ← tryText ":" then
    let upper ← bound g
    let _ ← look bracket.want
    let step ← if ← tryText ":" then bound g else pure []
    return ⟨← plain start (lower ++ upper ++ step), .other⟩
  else
    match lower with
    | [n] => return ⟨n, .other⟩
    | _ => failure

def subscripts (g : Nested) : Parse (List SyntaxNode) := do
  take 1
  let _ ← look operand
  let first ← subscriptItem g
  let (ts, _) ← elements (subscriptItem g) "]" first
  let _ ← look bracket.want
  takeText "]"
  return ts.map Term.node

def formatSpecification (g : Nested) : Parse SyntaxNode := do
  let start ← here
  take 1
  let nodes ← iterate (fun (nodes : List SyntaxNode) => do
      take ((← get).rest.takeWhile isSeparator).length
      match (← get).rest with
      | [] => failure
      | '\x7b' :: _ => return some ((← g.interpolation) :: nodes)
      | '\x7d' :: _ => return none
      | rest =>
        take (rest.takeWhile fun c => c ≠ '\x7b' && c ≠ '\x7d' && c ≠ '\n').length
        return some nodes) []
  plain start nodes.reverse

def interpolation (g : Nested) : Parse SyntaxNode := do
  let start ← here
  take 1
  let _ ← look operand
  let t ← if ← isAtWord "yield" then yieldTerm g bracket else expressionList g bracket
  let _ ← look bracket.want
  if ← isAtNot "=" "=" then
    take 1
    let _ ← look bracket.want
  let at' ← here
  let conversion ← if ← isAtNot "!" "=" then
      take 2
      pure [← plain at' []]
    else pure []
  let _ ← look bracket.want
  let specification ← if ← isAt ":" then pure [← formatSpecification g] else pure []
  let _ ← look bracket.want
  takeText "\x7d"
  plain start (t.node :: conversion ++ specification)

/-- The parts of a string that have been read; the contents that are being gathered begin at
`contentStart`. -/
structure StringParts where
  contentStart : Option Place := none
  contentParts : List SyntaxNode := []
  parts : List SyntaxNode := []
  done : Bool := false

def StringParts.flush (s : StringParts) (stop : Place) : StringParts :=
  match s.contentStart with
  | some start =>
    { s with
      contentStart := none, contentParts := []
      parts := .node .plain start stop none s.contentParts.reverse :: s.parts }
  | none => s

def StringParts.gather (s : StringParts) (n : Nat) (isPart : Bool) : Parse StringParts := do
  let start := (← get).place
  take n
  let parts ← if isPart then pure ((← plain start []) :: s.contentParts) else pure s.contentParts
  return { s with contentStart := s.contentStart.or (some start), contentParts := parts }

def stringPart (g : Nested) (opening : StringStart) (s : StringParts) :
    Parse (Option StringParts) := do
  if s.done then return none
  let r ← get
  match opening.isFormat, r.rest with
  | true, '\x7b' :: '\x7b' :: _ => s.gather 2 true
  | true, '\x7d' :: '\x7d' :: _ => s.gather 2 true
  | true, '\x7b' :: _ =>
    let s := s.flush r.place
    return some { s with parts := (← interpolation g) :: s.parts }
  | _, _ =>
    match piece opening 0 0 false r.rest with
    | .content n => s.gather n false
    | .close n =>
      let s := s.flush r.place
      take n
      let close ← plain r.place []
      modify fun r => { r with inFormat := false }
      return some { s with parts := close :: s.parts, done := true }
    | .other =>
      match r.rest with
      | '\\' :: _ =>
        match escapeLength? r.rest with
        | some n => s.gather n true
        | none => s.gather 1 false
      | _ => failure

def stringLiteral (g : Nested) : Parse SyntaxNode := do
  let r ← get
  match r.ahead with
  | some (.string opening rest stop) =>
    let start := r.place
    set { r with rest, place := stop, lastStop := stop, inFormat := opening.isFormat, ahead := none }
    let s ← iterate (stringPart g opening) { parts := [.node .plain start stop none []] }
    if s.done then plain start s.parts.reverse else failure
  | _ => failure

def strings (g : Nested) (m : Mode) : Parse Term := do
  let start ← here
  let first ← stringLiteral g
  let nodes ← iterate (fun (nodes : List SyntaxNode) => do
      match ← look m.want with
      | .string .. => return some ((← stringLiteral g) :: nodes)
      | _ => return none) [first]
  match nodes with
  | [n] => return ⟨n, .other⟩
  | _ => return ⟨← plain start nodes.reverse, .other⟩

def isWordNamed : String → Bool
  | "None" | "True" | "False" => false
  | _ => true

def atom (g : Nested) (target : Parse Term) (m : Mode) : Parse Term := do
  match ← look operand with
  | .string .. => strings g m
  | .token =>
    let start ← here
    let r ← get
    if ← isAt "(" then parenthesized g target
    else if ← isAt "[" then listTerm g target
    else if ← isAt "\x7b" then braces g target
    else if numberLength r.rest ≠ 0 then
      take (numberLength r.rest)
      return ⟨← plain start [], .other⟩
    else if ← tryText "..." then return ⟨← plain start [], .other⟩
    else
      let (w, n) ← takeName
      return ⟨n, if isWordNamed w then .name else .other⟩
  | _ => failure

def primary (g : Nested) (target : Parse Term) (m : Mode) : Parse Term := do
  let t ← atom g target m
  let start := t.node.start
  iterate (fun t => do
    let _ ← look m.want
    if ← tryText "." then
      let (_, name) ← takeName
      return some ⟨← plain start [t.node, name], .place⟩
    else if ← isAt "(" then
      let args ← arguments g target
      return some ⟨← plain start [t.node, args], .other⟩
    else if ← isAt "[" then
      let items ← subscripts g
      return some ⟨← plain start (t.node :: items), .place⟩
    else return none) t

def targetFor (g : Nested) : Nat → Parse Term
  | 0 => failure
  | n + 1 => do
    let _ ← look operand
    let start ← here
    if ← isAtNot "*" "*" then
      take 1
      let t ← primary g (targetFor g n) header
      if t.shape = .name || t.shape = .place then return ⟨← plain start [t.node], .splat⟩
      else failure
    else primary g (targetFor g n) header

def target (g : Nested) : Parse Term := do
  targetFor g ((← get).rest.length + 1)

def factor (g : Nested) (m : Mode) : Parse Term := do
  let _ ← look operand
  let start ← here
  if (← isAt "-") || (← isAt "+") || (← isAt "~") then
    take 1
    let _ ← look operand
    let t ← g.binary m 21
    return ⟨← plain start [t.node], .other⟩
  else if ← isAtNot "*" "*" then
    take 1
    let t ← primary g (target g) m
    if t.shape = .name || t.shape = .place then return ⟨← plain start [t.node], .splat⟩
    else failure
  else if ← isAtWord "await" then
    let awaited ← attempt do
      takeWord "await"
      let _ ← look m.want
      let t ← g.binary m 21
      return (⟨← plain start [t.node], .other⟩ : Term)
    match awaited with
    | some t => return t
    | none => primary g (target g) m
  else primary g (target g) m

def binaryOperators : List (String × Nat) :=
  [("**", 21), ("//", 19), (">>", 17), ("<<", 17), ("*", 19), ("@", 19), ("/", 19), ("%", 19),
   ("+", 18), ("-", 18), ("^", 16), ("&", 15), ("|", 14)]

def binaryAhead : Parse (Option (String × Nat)) := do
  for (op, level) in binaryOperators do
    if ← isAt op then
      if ← isAt (op ++ "=") then return none
      return some (op, level)
  return none

/-- Operators of level `level` and above; those of one level group to the left, but powers to the
right. -/
def binaryTerm (g : Nested) (m : Mode) (level : Nat) : Parse Term := do
  let left ← factor g m
  let start := left.node.start
  iterate (fun (left : Term) => do
    let _ ← look m.want
    match ← binaryAhead with
    | some (op, l) =>
      if l < level then return none
      take op.length
      let _ ← look operand
      let right ← g.binary m (if op = "**" then l else l + 1)
      return some ⟨← plain start [left.node, right.node], .other⟩
    | none => return none) left

def tryComparison : Parse Bool := do
  for op in ["==", "!=", "<=", ">=", "<>"] do
    if ← tryText op then return true
  for op in ["<", ">"] do
    if ← isAt op then
      if (← isAt (op ++ op)) then return false
      take 1
      return true
  if ← tryWord "in" then return true
  if ← tryWord "is" then
    let _ ← look operand
    let _ ← tryWord "not"
    return true
  if ← isAtWord "not" then
    let found ← attempt do
      takeWord "not"
      let _ ← look {}
      takeWord "in"
    return found.isSome
  return false

def comparison (g : Nested) (m : Mode) : Parse Term := do
  let first ← binaryTerm g m 14
  let nodes ← iterate (fun (nodes : List SyntaxNode) => do
      let _ ← look m.want
      if ← tryComparison then
        let _ ← look operand
        return some ((← binaryTerm g m 14).node :: nodes)
      else return none) [first.node]
  match nodes with
  | [_] => return first
  | _ => return ⟨← plain first.node.start nodes.reverse, .other⟩

def typeTerm (g : Nested) (m : Mode) : Parse SyntaxNode := do
  let _ ← look operand
  let start ← here
  if (← tryText "**") || (← tryText "*") then
    let (_, name) ← takeName
    plain start [name]
  else return (← g.expression m).node

def defaultValue (g : Nested) (m : Mode) (start : Place) (nodes : List SyntaxNode) :
    Parse Term := do
  let _ ← look m.want
  if ← isAtNot "=" "=" then
    take 1
    let _ ← look operand
    let v ← g.expression m
    return ⟨← plain start (nodes ++ [v.node]), .other⟩
  else
    match nodes with
    | [n] => return ⟨n, .other⟩
    | _ => return ⟨← plain start nodes, .other⟩

def annotation (g : Nested) (m : Mode) (typed : Bool) : Parse (List SyntaxNode) := do
  let _ ← look m.want
  if typed && (← isAt ":") then
    take 1
    return [← typeTerm g m]
  else return []

def parameter (g : Nested) (m : Mode) (typed : Bool) (close : String) : Parse Term := do
  let start ← here
  if (← isAt "*") then
    let isSingle := !(← isAt "**")
    take (if isSingle then 1 else 2)
    let _ ← look m.want
    if isSingle && ((← isAt ",") || (← isAt close)) then return ⟨← plain start [], .other⟩
    let t ← primary g (target g) m
    if t.shape ≠ .name && t.shape ≠ .place then failure
    let splat ← plain start [t.node]
    match ← annotation g m typed with
    | [] => return ⟨splat, .other⟩
    | types => return ⟨← plain start (splat :: types), .other⟩
  else if ← tryText "/" then return ⟨← plain start [], .other⟩
  else if ← isAt "(" then
    let t ← parenthesized g (target g)
    if t.shape ≠ .group then failure
    defaultValue g m start [t.node]
  else
    let (_, name) ← takeName
    let types ← annotation g m typed
    defaultValue g m start (name :: types)

def parameters (g : Nested) (m : Mode) (typed : Bool) (close : String) :
    Parse (List SyntaxNode) := do
  let _ ← look m.want
  if ← isAt close then return []
  let first ← parameter g m typed close
  let nodes ← iterate (fun (nodes : List SyntaxNode) => do
      let _ ← look m.want
      if ← tryText "," then
        let _ ← look m.want
        if ← isAt close then return some nodes
        return some ((← parameter g m typed close).node :: nodes)
      else return none) [first.node]
  return nodes.reverse

def lambda (g : Nested) (m : Mode) : Parse Term := do
  let start ← here
  takeWord "lambda"
  let _ ← look header.want
  let paramStart ← here
  let nodes ← parameters g header false ":"
  let params ← if nodes.isEmpty then pure [] else pure [← plain paramStart nodes]
  let _ ← look header.want
  takeText ":"
  let _ ← look operand
  let body ← g.expression m
  return ⟨← plain start (params ++ [body.node]), .other⟩

def negation (g : Nested) (m : Mode) : Parse Term := do
  let _ ← look operand
  let start ← here
  if ← tryWord "not" then
    let _ ← look operand
    let t ← g.negation m
    return ⟨← plain start [t.node], .other⟩
  else if ← isAtWord "lambda" then lambda g m
  else comparison g m

def joinedBy (word : String) (item : Parse Term) (m : Mode) : Parse Term := do
  let left ← item
  let start := left.node.start
  iterate (fun (left : Term) => do
    let _ ← look m.want
    if ← tryWord word then
      let _ ← look operand
      let right ← item
      return some ⟨← plain start [left.node, right.node], .other⟩
    else return none) left

def disjunction (g : Nested) (m : Mode) : Parse Term :=
  joinedBy "or" (joinedBy "and" (negation g m) m) m

def conditional (g : Nested) (m : Mode) : Parse Term := do
  let t ← disjunction g m
  let start := t.node.start
  let _ ← look m.want
  if t.shape = .name && (← tryText ":=") then
    let _ ← look operand
    let v ← g.expression m
    return ⟨← plain start [t.node, v.node], .other⟩
  else if ← tryWord "if" then
    let _ ← look operand
    let condition ← g.expression header
    let _ ← look header.want
    takeWord "else"
    let _ ← look operand
    let otherwise ← g.expression m
    return ⟨← plain start [t.node, condition.node, otherwise.node], .other⟩
  else return t

def expression (g : Nested) (m : Mode) : Parse Term := do
  let t ← conditional g m
  let start := t.node.start
  iterate (fun (t : Term) => do
    let _ ← look m.want
    if ← tryWord "as" then
      let _ ← look operand
      let name ← conditional g m
      return some ⟨← plain start [t.node, name.node], .other⟩
    else return none) t

def nested : Nat → Nested
  | 0 => {}
  | n + 1 =>
    let g := nested n
    { expression := expression g
      disjunction := disjunction g
      negation := negation g
      binary := binaryTerm g
      interpolation := interpolation g }

end SelectiveTrace.Grammar
