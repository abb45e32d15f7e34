import SelectiveTrace.Grammar.Expression

/-! Reading the patterns of `case` clauses. -/
namespace SelectiveTrace.Grammar

def namedPattern (pattern : Parse SyntaxNode) (between : Want) : Parse SyntaxNode := do
  let (_, first) ← takeName
  let nodes ← iterate (fun (nodes : List SyntaxNode) => do
      let _ ← look between
      if ← tryText "." then return some ((← takeName).2 :: nodes) else return none) [first]
  let name ← plain first.start nodes.reverse
  let _ ← look between
  if ← tryText "(" then
    let _ ← look opened
    if ← tryText ")" then return ← plain first.start [name]
    let (ts, _) ← elements (do return ⟨← pattern, .other⟩) ")" ⟨← pattern, .other⟩
    let _ ← look bracket.want
    takeText ")"
    plain first.start (name :: ts.map Term.node)
  else return name

def patternGroup (item : Parse SyntaxNode) (close : String) : Parse SyntaxNode := do
  let start ← here
  take 1
  let _ ← look opened
  if ← tryText close then return ← plain start []
  let (ts, _) ← elements (do return ⟨← item, .other⟩) close ⟨← item, .other⟩
  let _ ← look bracket.want
  takeText close
  plain start (ts.map Term.node)

def numberPattern (between : Want) : Parse SyntaxNode := do
  let start ← here
  let _ ← tryText "-"
  let _ ← look {}
  let first ← number
  let _ ← look between
  if (← tryText "+") || (← tryText "-") then
    let _ ← look {}
    plain start [first, ← number]
  else plain start [first]
where
  number : Parse SyntaxNode := do
    let at' ← here
    match numberLength (← get).rest with
    | 0 => failure
    | n =>
      take n
      plain at' []

/-- A pattern without alternatives; `whole` reads a whole pattern nested in it. -/
def closedPattern (g : Nested) (whole : Parse SyntaxNode) (between : Want) :
    Parse SyntaxNode := do
  match ← look operand with
  | .string .. => return (← strings g { closer := between.closer }).node
  | .token =>
    let start ← here
    if ← isAt "[" then patternGroup whole "]"
    else if ← isAt "(" then patternGroup whole ")"
    else if ← isAt "\x7b" then
      patternGroup (do
        let at' ← here
        let key ← whole
        let _ ← look bracket.want
        if ← tryText ":" then
          let _ ← look operand
          plain at' [key, ← whole]
        else return key) "\x7d"
    else if (← tryText "**") || (← tryText "*") then
      let (_, name) ← takeName
      plain start [name]
    else if (← isAt "-") || numberLength (← get).rest ≠ 0 then numberPattern between
    else namedPattern whole between
  | _ => failure

def patternWithin (g : Nested) : Nat → Want → Parse SyntaxNode
  | 0, _ => failure
  | n + 1, between => do
    let whole := patternWithin g n bracket.want
    let _ ← look operand
    let start ← here
    let first ← closedPattern g whole between
    let _ ← look between
    if ← isAtNot "=" "=" then
      take 1
      let _ ← look operand
      return ← plain start [first, ← closedPattern g whole between]
    let alternatives ← iterate (fun (nodes : List SyntaxNode) => do
        let _ ← look between
        if ← tryText "|" then
          let _ ← look operand
          return some ((← closedPattern g whole between) :: nodes)
        else return none) [first]
    let p ← match alternatives with
      | [p] => pure p
      | ps => plain start ps.reverse
    let _ ← look between
    if ← tryWord "as" then plain start [p, (← takeName).2] else return p

def casePattern (g : Nested) : Parse SyntaxNode := do
  patternWithin g ((← get).rest.length + 1) header.want

end SelectiveTrace.Grammar
