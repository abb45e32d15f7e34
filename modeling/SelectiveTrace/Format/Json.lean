import SelectiveTrace.Format.Document

/-! JSON: documents read from text and written to it. Text is written either on one line without
spaces or with two spaces of indentation a level; both forms read back. -/
namespace SelectiveTrace.Json

def isSpace (c : Char) : Bool :=
  c = ' ' || c = '\n' || c = '\t' || c = '\r'

def skip (cs : List Char) : List Char :=
  cs.dropWhile isSpace

def hexValue? (c : Char) : Option Nat :=
  if '0' ≤ c ∧ c ≤ '9' then some (c.toNat - 48)
  else if 'a' ≤ c ∧ c ≤ 'f' then some (c.toNat - 87)
  else if 'A' ≤ c ∧ c ≤ 'F' then some (c.toNat - 55)
  else none

def unit? : List Char → Option (Nat × List Char)
  | a :: b :: c :: d :: rest => do
    let a ← hexValue? a
    let b ← hexValue? b
    let c ← hexValue? c
    let d ← hexValue? d
    return (((a * 16 + b) * 16 + c) * 16 + d, rest)
  | _ => none

def trail? : List Char → Option (Nat × List Char)
  | '\\' :: 'u' :: cs =>
    match unit? cs with
    | some (n, rest) => if 0xDC00 ≤ n ∧ n < 0xE000 then some (n, rest) else none
    | none => none
  | _ => none

def coded? (cs : List Char) : Option (Char × List Char) := do
  let (n, rest) ← unit? cs
  if 0xD800 ≤ n ∧ n < 0xDC00 then
    let (t, rest) ← trail? rest
    return (Char.ofNat (0x10000 + (n - 0xD800) * 0x400 + (t - 0xDC00)), rest)
  else if 0xDC00 ≤ n ∧ n < 0xE000 then none
  else return (Char.ofNat n, rest)

def char? : List Char → Option (Char × List Char)
  | [] => none
  | [c] => if c.toNat < 0x20 ∨ c = '\\' then none else some (c, [])
  | c :: e :: cs =>
    if c = '\\' then
      if e = '"' then some ('"', cs)
      else if e = '\\' then some ('\\', cs)
      else if e = '/' then some ('/', cs)
      else if e = 'b' then some ('\x08', cs)
      else if e = 'f' then some ('\x0c', cs)
      else if e = 'n' then some ('\n', cs)
      else if e = 'r' then some ('\r', cs)
      else if e = 't' then some ('\t', cs)
      else if e = 'u' then coded? cs
      else none
    else if c.toNat < 0x20 then none
    else some (c, e :: cs)

def string? : Nat → List Char → Option (List Char × List Char)
  | 0, _ => none
  | _ + 1, [] => none
  | n + 1, c :: cs =>
    if c = '"' then some ([], cs)
    else
      match char? (c :: cs) with
      | none => none
      | some (x, rest) =>
        match string? n rest with
        | none => none
        | some (xs, rest) => some (x :: xs, rest)

def digitsValue (ds : List Char) : Nat :=
  ds.foldl (fun n d => 10 * n + (d.toNat - 48)) 0

def digits? (cs : List Char) : Option (List Char × List Char) :=
  let ds := cs.takeWhile Char.isDigit
  if ds.isEmpty then none else some (ds, cs.dropWhile Char.isDigit)

/-- What may follow the whole part of a number: a fraction, then an exponent. The flag tells whether
there is either. -/
def scale? (cs : List Char) : Option (Bool × List Char) := do
  let (hasPoint, cs) ← match cs with
    | '.' :: cs => (digits? cs).map fun r => (true, r.2)
    | cs => some (false, cs)
  match cs with
  | e :: cs' =>
    if e = 'e' ∨ e = 'E' then
      let cs' := match cs' with
        | s :: rest => if s = '+' ∨ s = '-' then rest else cs'
        | [] => cs'
      let (_, rest) ← digits? cs'
      return (true, rest)
    else return (hasPoint, cs)
  | [] => return (hasPoint, cs)

/-- A number. Minus zero and whole numbers beyond sixty-four bits count as not whole. -/
def number? (cs : List Char) : Option (Document × List Char) := do
  let (negative, cs) := match cs with
    | '-' :: cs => (true, cs)
    | cs => (false, cs)
  let (ds, rest) ← digits? cs
  if ds.head? = some '0' ∧ 1 < ds.length then none
  let (scaled, rest) ← scale? rest
  let n := digitsValue ds
  if scaled then return (.real, rest)
  else if negative then
    return (if n = 0 ∨ Nat.pow 2 63 < n then .real else .int (-n), rest)
  else return (if Nat.pow 2 64 ≤ n then .real else .int n, rest)

def word? (w : List Char) (cs : List Char) : Option (List Char) :=
  if w.isPrefixOf cs then some (cs.drop w.length) else none

mutual

def value? : Nat → List Char → Option (Document × List Char)
  | 0, _ => none
  | n + 1, cs =>
    match skip cs with
    | '"' :: cs => (string? (cs.length + 1) cs).map fun (s, rest) => (.str (.ofList s), rest)
    | '[' :: cs =>
      match skip cs with
      | ']' :: rest => some (.list [], rest)
      | cs => (items? n cs).map fun (vs, rest) => (.list vs, rest)
    | '\x7b' :: cs =>
      match skip cs with
      | '\x7d' :: rest => some (.table [], rest)
      | cs => (members? n cs).map fun (es, rest) => (.table es, rest)
    | 't' :: cs => (word? ['r', 'u', 'e'] cs).map fun rest => (.bool true, rest)
    | 'f' :: cs => (word? ['a', 'l', 's', 'e'] cs).map fun rest => (.bool false, rest)
    | 'n' :: cs => (word? ['u', 'l', 'l'] cs).map fun rest => (.null, rest)
    | cs => number? cs

def items? : Nat → List Char → Option (List Document × List Char)
  | 0, _ => none
  | n + 1, cs =>
    match value? n cs with
    | none => none
    | some (v, rest) =>
      match skip rest with
      | ',' :: rest => (items? n rest).map fun (vs, rest) => (v :: vs, rest)
      | ']' :: rest => some ([v], rest)
      | _ => none

def members? : Nat → List Char → Option (List (String × Document) × List Char)
  | 0, _ => none
  | n + 1, cs =>
    match skip cs with
    | '"' :: cs =>
      match string? (cs.length + 1) cs with
      | none => none
      | some (name, rest) =>
        match skip rest with
        | ':' :: rest =>
          match value? n rest with
          | none => none
          | some (v, rest) =>
            match skip rest with
            | ',' :: rest =>
              (members? n rest).map fun (es, rest) => ((.ofList name, v) :: es, rest)
            | '\x7d' :: rest => some ([(.ofList name, v)], rest)
            | _ => none
        | _ => none
    | _ => none

end

def parseChars (cs : List Char) : Option Document :=
  match value? (2 * cs.length + 2) cs with
  | some (d, rest) => if (skip rest).isEmpty then some d else none
  | none => none

def parse (s : String) : Option Document :=
  parseChars s.toList

def hexDigit (n : Nat) : Char :=
  if n < 10 then Char.ofNat (48 + n) else Char.ofNat (87 + n)

def escape (c : Char) : List Char :=
  if c = '"' then ['\\', '"']
  else if c = '\\' then ['\\', '\\']
  else if c = '\x08' then ['\\', 'b']
  else if c = '\x0c' then ['\\', 'f']
  else if c = '\n' then ['\\', 'n']
  else if c = '\r' then ['\\', 'r']
  else if c = '\t' then ['\\', 't']
  else if c.toNat < 0x20 then ['\\', 'u', '0', '0', hexDigit (c.toNat / 16), hexDigit (c.toNat % 16)]
  else [c]

def quoted (s : String) : List Char :=
  '"' :: s.toList.flatMap escape ++ ['"']

def joined (between : List Char) : List (List Char) → List Char
  | [] => []
  | [p] => p
  | p :: ps => p ++ between ++ joined between ps

def newline (level : Nat) : List Char :=
  '\n' :: List.replicate (2 * level) ' '

def block (opening closing : Char) (level : Nat) (parts : List (List Char)) : List Char :=
  if parts.isEmpty then [opening, closing]
  else opening :: newline (level + 1) ++ joined (',' :: newline (level + 1)) parts ++
    newline level ++ [closing]

mutual

def compactChars : Document → List Char
  | .null | .real => ['n', 'u', 'l', 'l']
  | .bool true => ['t', 'r', 'u', 'e']
  | .bool false => ['f', 'a', 'l', 's', 'e']
  | .int i => (toString i).toList
  | .str s => quoted s
  | .list items => '[' :: joined [','] (compactItems items) ++ [']']
  | .table entries => '\x7b' :: joined [','] (compactMembers entries) ++ ['\x7d']

def compactItems : List Document → List (List Char)
  | [] => []
  | d :: ds => compactChars d :: compactItems ds

def compactMembers : List (String × Document) → List (List Char)
  | [] => []
  | (k, d) :: es => (quoted k ++ ':' :: compactChars d) :: compactMembers es

end

mutual

def prettyChars (level : Nat) : Document → List Char
  | .null | .real => ['n', 'u', 'l', 'l']
  | .bool true => ['t', 'r', 'u', 'e']
  | .bool false => ['f', 'a', 'l', 's', 'e']
  | .int i => (toString i).toList
  | .str s => quoted s
  | .list items => block '[' ']' level (prettyItems (level + 1) items)
  | .table entries => block '\x7b' '\x7d' level (prettyMembers (level + 1) entries)

def prettyItems (level : Nat) : List Document → List (List Char)
  | [] => []
  | d :: ds => prettyChars level d :: prettyItems level ds

def prettyMembers (level : Nat) : List (String × Document) → List (List Char)
  | [] => []
  | (k, d) :: es => (quoted k ++ ':' :: ' ' :: prettyChars level d) :: prettyMembers level es

end

def compact (d : Document) : String :=
  String.ofList (compactChars d)

def pretty (d : Document) : String :=
  String.ofList (prettyChars 0 d)

end SelectiveTrace.Json
