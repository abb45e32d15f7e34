import SelectiveTrace.Grammar.Reader

/-! The inside of literals: numbers, and the contents of strings between their quotes. -/
namespace SelectiveTrace.Grammar

def groupedFrom (afterDigit : Bool) : List Char → Nat
  | [] => 0
  | c :: cs =>
    if c.isDigit then groupedFrom true cs + 1
    else if c = '_' && afterDigit then groupedFrom false cs + 1
    else 0

def groupedDigits (cs : List Char) : Nat :=
  groupedFrom false cs

def basedDigits (isBased : Char → Bool) : List Char → Nat
  | [] => 0
  | c :: cs =>
    if isBased c || (c = '_' && cs.head?.any isBased) then basedDigits isBased cs + 1 else 0

def isHexDigit (c : Char) : Bool :=
  c.isDigit || ('a' ≤ c && c ≤ 'f') || ('A' ≤ c && c ≤ 'F')

def suffixLength (letters : List Char) : List Char → Nat
  | c :: _ => if letters.contains c then 1 else 0
  | [] => 0

def exponentLength : List Char → Nat
  | e :: cs =>
    if e = 'e' || e = 'E' then
      let sign := suffixLength ['+', '-'] cs
      let digits := groupedDigits (cs.drop sign)
      if digits = 0 then 0 else 1 + sign + digits
    else 0
  | [] => 0

def numberLength (cs : List Char) : Nat :=
  match cs with
  | '0' :: b :: rest =>
    let based (n : Nat) : Nat :=
      if n = 0 then decimal else 2 + n + suffixLength ['l', 'L'] (rest.drop n)
    if b = 'x' || b = 'X' then based (basedDigits isHexDigit rest)
    else if b = 'o' || b = 'O' then based (basedDigits (fun c => '0' ≤ c && c ≤ '7') rest)
    else if b = 'b' || b = 'B' then based (basedDigits (fun c => c = '0' || c = '1') rest)
    else decimal
  | _ => decimal
where
  decimal : Nat :=
    let whole := groupedDigits cs
    match cs.drop whole with
    | '.' :: part =>
      let places := groupedDigits part
      if whole = 0 && places = 0 then 0
      else
        let mantissa := whole + 1 + places
        let scaled := mantissa + exponentLength (cs.drop mantissa)
        scaled + suffixLength ['j', 'J'] (cs.drop scaled)
    | rest =>
      if whole = 0 then 0
      else
        let exponent := exponentLength rest
        if exponent = 0 then whole + suffixLength ['l', 'L', 'j', 'J'] rest
        else whole + exponent + suffixLength ['j', 'J'] (cs.drop (whole + exponent))

/-- The length of an escape sequence in front of `cs`, which begins with a backslash; none if the
backslash stands for itself. -/
def escapeLength? : List Char → Option Nat
  | '\\' :: '\n' :: _ => some 2
  | '\\' :: '\r' :: '\n' :: _ => some 3
  | '\\' :: 'u' :: cs => hexes 4 cs
  | '\\' :: 'U' :: cs => hexes 8 cs
  | '\\' :: 'x' :: cs => hexes 2 cs
  | '\\' :: 'N' :: '\x7b' :: cs =>
    let name := cs.takeWhile (· ≠ '\x7d')
    if name.isEmpty || (cs.drop name.length).isEmpty then none else some (name.length + 4)
  | '\\' :: c :: cs =>
    if c.isDigit then some (1 + min 3 (1 + (cs.takeWhile Char.isDigit).length))
    else if ['\'', '"', 'a', 'b', 'f', 'r', 'n', 't', 'v', '\\'].contains c then some 2
    else none
  | _ => none
where
  hexes (n : Nat) (cs : List Char) : Option Nat :=
    if n ≤ cs.length && (cs.take n).all isHexDigit then some (n + 2) else none

inductive Piece where
  /-- Text that stands for itself. -/
  | content (length : Nat)
  /-- The end of the string. -/
  | close (length : Nat)
  /-- Something else: an escape, a brace, or a break that no string may have. -/
  | other

def lineEndLength : List Char → Nat
  | '\r' :: '\n' :: _ => 2
  | '\r' :: _ => 1
  | '\n' :: _ => 1
  | _ => 0

def rawEscapeLength (quote : Char) : List Char → Nat
  | [] => 0
  | d :: rest =>
    if d = quote || d = '\\' then 1 + lineEndLength rest else lineEndLength (d :: rest)

/-- The next piece, `n` characters of which have been passed and hold contents if `filled`; `skip`
more are passed unseen. -/
def piece (s : StringStart) : Nat → Nat → Bool → List Char → Piece
  | _, _, _, [] => .other
  | skip + 1, n, filled, _ :: cs => piece s skip (n + 1) filled cs
  | 0, n, filled, c :: cs =>
    let stopped : Piece := if filled then .content n else .other
    if s.isFormat && (c = '\x7b' || c = '\x7d') then stopped
    else if c = '\\' then
      if s.isRaw then piece s (rawEscapeLength s.quote cs) (n + 1) filled cs
      else if s.isBytes && cs.head?.any ['N', 'u', 'U'].contains then piece s 2 (n + 1) true cs
      else stopped
    else if c = s.quote then
      if s.isTriple then
        if cs.head? = some c then
          if cs.tail.head? = some c then if filled then .content n else .close (n + 3)
          else .content (n + 2)
        else .content (n + 1)
      else if filled then .content n
      else .close (n + 1)
    else if c = '\n' && filled && !s.isTriple then .other
    else piece s 0 (n + 1) true cs

end SelectiveTrace.Grammar
