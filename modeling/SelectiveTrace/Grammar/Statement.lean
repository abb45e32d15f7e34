import SelectiveTrace.Grammar.Pattern

/-! Reading statements, blocks and whole modules. -/
namespace SelectiveTrace.Grammar

/-- The readers of what may stand inside a statement: expressions, and further statements. -/
structure Inner where
  expressions : Nested
  statement : Parse (List SyntaxNode) := failure

def Inner.target (i : Inner) : Parse Term :=
  Grammar.target i.expressions

def Inner.expression (i : Inner) (m : Mode) : Parse SyntaxNode := do
  let _ ← look operand
  return (← i.expressions.expression m).node

def statementStart : Want := { dedent := true, string := true }

def isAtLineEnd : Parse Bool := do
  match ← look line.want with
  | .newline => return true
  | _ => isAt ";"

def commaList (item : Parse SyntaxNode) : Parse (List SyntaxNode) := do
  let first ← item
  let nodes ← iterate (fun (nodes : List SyntaxNode) => do
      let _ ← look line.want
      if ← isAt "," then
        match ← attempt (do take 1; let _ ← look line.want; item) with
        | some n => return some (n :: nodes)
        | none => return none
      else return none) [first]
  return nodes.reverse

def commaListEnd (item : Parse SyntaxNode) : Parse (List SyntaxNode) := do
  let nodes ← commaList item
  let _ ← look line.want
  let _ ← tryText ","
  return nodes

def augmented : List String :=
  ["+=", "-=", "*=", "/=", "@=", "//=", "%=", "**=", ">>=", "<<=", "&=", "^=", "|="]

def tryAugmented : Parse Bool := do
  for op in augmented do
    if ← tryText op then return true
  return false

/-- What may be assigned: a yield, or expressions and perhaps a further assignment. The fuel bounds
the length of a chain. -/
def assignable (i : Inner) : Nat → Parse SyntaxNode
  | 0 => failure
  | n + 1 => do
    let _ ← look operand
    let start ← here
    if ← isAtWord "yield" then return (← yieldTerm i.expressions line).node
    let t ← expressionList i.expressions line
    let _ ← look line.want
    if t.isTarget && (← isAtNot "=" "=") then
      take 1
      plain start [t.node, ← assignable i n]
    else if t.isTarget && (← isAt ":") then
      take 1
      let type ← typeTerm i.expressions line
      let _ ← look line.want
      if ← isAtNot "=" "=" then
        take 1
        plain start [t.node, type, ← assignable i n]
      else plain start [t.node, type]
    else if t.isTarget && (← tryAugmented) then
      plain start [t.node, ← assignable i n]
    else return t.node

def expressionStatement (i : Inner) : Parse SyntaxNode := do
  let _ ← look operand
  let start ← here
  let n ← assignable i ((← get).rest.length + 1)
  plain start [n]

def wholeExpression (i : Inner) : Parse SyntaxNode := do
  let n ← expressionStatement i
  if ← isAtLineEnd then return n else failure

def dottedName (w : Want) : Parse SyntaxNode := do
  let (_, first) ← takeName
  let nodes ← iterate (fun (nodes : List SyntaxNode) => do
      let _ ← look w
      if ← tryText "." then return some ((← takeName).2 :: nodes) else return none) [first]
  plain first.start nodes.reverse

def importedName (w : Want) : Parse SyntaxNode := do
  let n ← dottedName w
  let _ ← look w
  if ← tryWord "as" then
    let (_, newName) ← takeName
    plain n.start [n, newName]
  else return n

def importedNames : Parse (List SyntaxNode) := do
  let _ ← look {}
  if ← tryText "(" then
    let item : Parse Term := do return ⟨← importedName bracket.want, .other⟩
    let (ts, _) ← elements item ")" (← item)
    let _ ← look bracket.want
    takeText ")"
    return ts.map Term.node
  else commaListEnd (importedName line.want)

def importSource : Parse SyntaxNode := do
  let _ ← look {}
  let start ← here
  let dots ← iterate (fun n => do
      let _ ← look {}
      if ← tryText "." then return some (n + 1) else return none) 0
  if dots = 0 then dottedName {}
  else
    let dotsNode ← plain start []
    let _ ← look {}
    if (← wordAhead) = "import" then plain start [dotsNode]
    else plain start [dotsNode, ← dottedName {}]

def importFrom : Parse SyntaxNode := do
  let start ← here
  takeWord "from"
  let source ← importSource
  let _ ← look {}
  takeWord "import"
  let _ ← look {}
  let at' ← here
  if ← tryText "*" then
    let all ← plain at' []
    plain start [source, all]
  else plain start (source :: (← importedNames))

def optionalExpressions (i : Inner) : Parse (List SyntaxNode) := do
  if (← isAtLineEnd) || (← isAtWord "from") then return []
  return [(← expressionList i.expressions line).node]

def raiseStatement (i : Inner) : Parse SyntaxNode := do
  let start ← here
  takeWord "raise"
  let what ← optionalExpressions i
  let _ ← look line.want
  let cause ← if ← tryWord "from" then pure [← i.expression line] else pure []
  plain start (what ++ cause)

def namesStatement (word : String) : Parse SyntaxNode := do
  let start ← here
  takeWord word
  plain start (← commaList (do return (← takeName).2))

def printStatement (i : Inner) : Parse SyntaxNode := do
  let start ← here
  takeWord "print"
  let _ ← look operand
  let at' ← here
  let stream ← if ← tryText ">>" then
      let e ← i.expression line
      pure [← plain at' [e]]
    else pure []
  if stream.isEmpty then plain start (← commaListEnd (i.expression line))
  else
    let _ ← look line.want
    if ← isAt "," then
      match ← attempt (do take 1; let _ ← look line.want; commaListEnd (i.expression line)) with
      | some nodes => plain start (stream ++ nodes)
      | none =>
        take 1
        plain start stream
    else plain start stream

def execStatement (i : Inner) : Parse SyntaxNode := do
  let start ← here
  takeWord "exec"
  let code ← match ← look operand with
    | .string .. => stringLiteral i.expressions
    | _ => pure (← takeName).2
  let _ ← look line.want
  if ← tryWord "in" then plain start (code :: (← commaList (i.expression line)))
  else plain start [code]

def typeStatement (i : Inner) : Parse SyntaxNode := do
  let start ← here
  takeWord "type"
  let left ← typeTerm i.expressions header
  let _ ← look header.want
  if !(← isAtNot "=" "=") then failure
  take 1
  plain start [left, ← typeTerm i.expressions line]

/-- A statement that is an expression where that fits, and else what its first word says. -/
def softStatement (i : Inner) (statement : Parse SyntaxNode) : Parse SyntaxNode := do
  match ← attempt (wholeExpression i) with
  | some n => return n
  | none => statement

def simpleStatement (i : Inner) : Parse SyntaxNode := do
  let _ ← look operand
  let start ← here
  match ← wordAhead with
  | "import" =>
    takeWord "import"
    plain start (← commaListEnd (importedName line.want))
  | "from" => importFrom
  | "assert" =>
    takeWord "assert"
    plain start (← commaList (i.expression line))
  | "del" =>
    takeWord "del"
    let _ ← look operand
    plain start [(← expressionList i.expressions line).node]
  | "return" =>
    takeWord "return"
    plain start (← optionalExpressions i)
  | "raise" => raiseStatement i
  | "pass" =>
    takeWord "pass"
    plain start []
  | "break" =>
    takeWord "break"
    plain start []
  | "continue" =>
    takeWord "continue"
    plain start []
  | "global" => namesStatement "global"
  | "nonlocal" => namesStatement "nonlocal"
  | "print" => softStatement i (printStatement i)
  | "exec" => softStatement i (execStatement i)
  | "type" => softStatement i (typeStatement i)
  | _ => expressionStatement i

def simpleStatements (i : Inner) : Parse (List SyntaxNode) := do
  let first ← simpleStatement i
  let nodes ← iterate (fun (nodes : List SyntaxNode) => do
      match ← look line.want with
      | .newline => return none
      | _ =>
        takeText ";"
        match ← look line.want with
        | .newline => return some nodes
        | _ => return some ((← simpleStatement i) :: nodes)) [first]
  match ← look line.want with
  | .newline =>
    takeEmpty
    return nodes.reverse
  | _ => failure

def block (i : Inner) : Parse SyntaxNode := do
  let _ ← look statementStart
  let start ← here
  let nodes ← iterate (fun (nodes : List SyntaxNode) => do
      match ← look statementStart with
      | .dedent => return none
      | _ => return some (nodes ++ (← i.statement))) []
  takeEmpty
  return .node .block start (← lastStop) none nodes

def suite (i : Inner) : Parse SyntaxNode := do
  takeText ":"
  match ← look { newline := true, indent := true, string := true } with
  | .indent =>
    takeEmpty
    block i
  | .newline =>
    takeEmpty
    let p ← lastStop
    return .node .block p p none []
  | _ =>
    let start ← here
    let nodes ← simpleStatements i
    return .node .block start (← lastStop) none nodes

def conditionSuite (i : Inner) : Parse (List SyntaxNode) := do
  let condition ← i.expression header
  let _ ← look header.want
  return [condition, ← suite i]

def wordClause (i : Inner) (word : String) (kind : NodeKind) : Parse (List SyntaxNode) := do
  let _ ← look statementStart
  let start ← here
  if ← tryWord word then
    let _ ← look header.want
    let body ← suite i
    return [.node kind start (← lastStop) none [body]]
  else return []

def ifStatement (i : Inner) : Parse SyntaxNode := do
  let start ← here
  takeWord "if"
  let first ← conditionSuite i
  let clauses ← iterate (fun (nodes : List SyntaxNode) => do
      let _ ← look statementStart
      let start ← here
      if ← tryWord "elif" then
        let parts ← conditionSuite i
        return some ((← plain start parts) :: nodes)
      else return none) []
  let otherwise ← wordClause i "else" .elseClause
  plain start (first ++ clauses.reverse ++ otherwise)

def whileStatement (i : Inner) : Parse SyntaxNode := do
  let start ← here
  takeWord "while"
  let first ← conditionSuite i
  plain start (first ++ (← wordClause i "else" .elseClause))

def forStatement (i : Inner) (start : Place) : Parse SyntaxNode := do
  takeWord "for"
  let left ← targetList i.target
  let _ ← look header.want
  takeWord "in"
  let _ ← look operand
  let right ← expressionList i.expressions header
  let _ ← look header.want
  let body ← suite i
  plain start ([left, right.node, body] ++ (← wordClause i "else" .elseClause))

def exceptClause (i : Inner) (word : String) : Parse SyntaxNode := do
  let start ← here
  takeText word
  let _ ← look operand
  let caught ← if word = "except" && (← isAt ":") then pure []
    else
      let e ← i.expression header
      let _ ← look header.want
      if ← tryText "," then pure [e, ← i.expression header] else pure [e]
  let _ ← look header.want
  let body ← suite i
  plain start (caught ++ [body])

def tryStatement (i : Inner) : Parse SyntaxNode := do
  let start ← here
  takeWord "try"
  let _ ← look header.want
  let body ← suite i
  let _ ← look statementStart
  let word := if ← isAt "except*" then "except*" else "except"
  let handlers ← iterate (fun (nodes : List SyntaxNode) => do
      let _ ← look statementStart
      if (← isAtWord "except") && (← isAt "except*") = (word = "except*") then
        return some ((← exceptClause i word) :: nodes)
      else return none) []
  let otherwise ← if handlers.isEmpty then pure [] else wordClause i "else" .elseClause
  let finally' ← wordClause i "finally" .finallyClause
  if handlers.isEmpty && finally'.isEmpty then failure
  plain start (body :: handlers.reverse ++ otherwise ++ finally')

def withStatement (i : Inner) (start : Place) : Parse SyntaxNode := do
  takeWord "with"
  let _ ← look operand
  let at' ← here
  let items ← commaListEnd (i.expression header)
  let clause ← plain at' items
  let _ ← look header.want
  plain start [clause, ← suite i]

def typeParameters (i : Inner) : Parse (List SyntaxNode) := do
  let _ ← look header.want
  let start ← here
  if ← tryText "[" then
    let item : Parse Term := do
      let type ← typeTerm i.expressions bracket
      let _ ← look bracket.want
      if ← tryText ":" then
        let bound ← typeTerm i.expressions bracket
        return ⟨← plain type.start [type, bound], .other⟩
      else return ⟨type, .other⟩
    let _ ← look operand
    let (ts, _) ← elements item "]" (← item)
    let _ ← look bracket.want
    takeText "]"
    return [← plain start (ts.map Term.node)]
  else return []

def functionDefinition (i : Inner) (start : Place) : Parse SyntaxNode := do
  takeWord "def"
  let (name, nameNode) ← takeName
  let generics ← typeParameters i
  let _ ← look header.want
  let paramStart ← here
  takeText "("
  let nodes ← parameters i.expressions bracket true ")"
  let _ ← look bracket.want
  takeText ")"
  let params ← plain paramStart nodes
  let _ ← look header.want
  let result ← if ← tryText "->" then pure [← typeTerm i.expressions header] else pure []
  let _ ← look header.want
  let body ← suite i
  return .node .functionDefinition start (← lastStop) (some name)
    ([nameNode] ++ generics ++ [params] ++ result ++ [body])

def classDefinition (i : Inner) (start : Place) : Parse SyntaxNode := do
  takeWord "class"
  let (name, nameNode) ← takeName
  let generics ← typeParameters i
  let _ ← look header.want
  let bases ← if ← isAt "(" then pure [← arguments i.expressions i.target] else pure []
  let _ ← look header.want
  let body ← suite i
  return .node .classDefinition start (← lastStop) (some name)
    ([nameNode] ++ generics ++ bases ++ [body])

def definition (i : Inner) : Parse SyntaxNode := do
  let _ ← look {}
  let start ← here
  if ← isAtWord "class" then classDefinition i start
  else if ← tryWord "async" then
    let _ ← look {}
    functionDefinition i start
  else functionDefinition i start

def decorated (i : Inner) : Parse SyntaxNode := do
  let _ ← look statementStart
  let start ← here
  let decorators ← iterate (fun (nodes : List SyntaxNode) => do
      let _ ← look {}
      let at' ← here
      if ← tryText "@" then
        let e ← i.expression line
        match ← look line.want with
        | .newline =>
          takeEmpty
          return some ((← plain at' [e]) :: nodes)
        | _ => failure
      else return none) []
  let d ← definition i
  return .node .decorated start (← lastStop) none (decorators.reverse ++ [d])

def caseClause (i : Inner) : Parse SyntaxNode := do
  let start ← here
  takeWord "case"
  let _ ← look operand
  let patterns ← commaListEnd (casePattern i.expressions)
  let _ ← look header.want
  let at' ← here
  let guard ← if ← tryWord "if" then
      let e ← i.expression header
      pure [← plain at' [e]]
    else pure []
  let _ ← look header.want
  let body ← suite i
  plain start (patterns ++ guard ++ [body])

def matchBlock (i : Inner) : Parse SyntaxNode := do
  takeText ":"
  match ← look { newline := true, indent := true } with
  | .indent =>
    takeEmpty
    let _ ← look statementStart
    let start ← here
    let nodes ← iterate (fun (nodes : List SyntaxNode) => do
        match ← look statementStart with
        | .dedent => return none
        | _ => return some ((← caseClause i) :: nodes)) []
    takeEmpty
    return .node .block start (← lastStop) none nodes.reverse
  | .newline =>
    takeEmpty
    let p ← lastStop
    return .node .block p p none []
  | _ => failure

def matchStatement (i : Inner) : Parse SyntaxNode := do
  let start ← here
  takeWord "match"
  let _ ← look operand
  let subjects ← commaListEnd (i.expression header)
  let _ ← look header.want
  plain start (subjects ++ [← matchBlock i])

def asyncStatement (i : Inner) : Parse (List SyntaxNode) := do
  let start ← here
  let found ← attempt do
    takeWord "async"
    let _ ← look {}
    match ← wordAhead with
    | "def" => functionDefinition i start
    | "for" => forStatement i start
    | "with" => withStatement i start
    | _ => failure
  match found with
  | some n => return [n]
  | none => simpleStatements i

def statement (i : Inner) : Parse (List SyntaxNode) := do
  let _ ← look statementStart
  let start ← here
  if ← isAt "@" then return [← decorated i]
  match ← wordAhead with
  | "if" => return [← ifStatement i]
  | "while" => return [← whileStatement i]
  | "for" => return [← forStatement i start]
  | "try" => return [← tryStatement i]
  | "with" => return [← withStatement i start]
  | "def" => return [← functionDefinition i start]
  | "class" => return [← classDefinition i start]
  | "async" => asyncStatement i
  | "match" =>
    match ← attempt (do let ns ← simpleStatements i; return ns) with
    | some ns => return ns
    | none => return [← matchStatement i]
  | _ => simpleStatements i

def inner (expressions : Nested) : Nat → Inner
  | 0 => { expressions }
  | n + 1 => { expressions, statement := statement (inner expressions n) }

def module : Parse SyntaxNode := do
  let fuel := (← get).rest.length + 2
  let i := inner (nested fuel) fuel
  let nodes ← iterate (fun (nodes : List SyntaxNode) => do
      match ← look operand with
      | .token => if (← get).rest.isEmpty then return none else return some (nodes ++ (← i.statement))
      | _ => return some (nodes ++ (← i.statement))) []
  let r ← get
  return .node .module ⟨0, 0⟩ r.place none (nodes ++ r.continuations)

def parse (source : String) : Option SyntaxNode :=
  (module.run { rest := source.toList }).map (·.1)

end SelectiveTrace.Grammar
