import SelectiveTrace.Format.Document

/-! The small pieces of TOML: blanks and line ends, keys, strings, numbers and dates. Each reading
takes its piece off the front of a text. -/
namespace SelectiveTrace.Toml

def isBlank (c : Char) : Bool :=
  c = ' ' || c = '\t'

def blanks (cs : List Char) : List Char :=
  cs.dropWhile isBlank

def isPlain (c : Char) : Bool :=
  c = '\t' || (' ' ≤ c && c ≠ '\x7f')

def newline? : List Char → Option (List Char)
  | '\n' :: rest => some rest
  | '\r' :: '\n' :: rest => some rest
  | _ => none

def dropComment : List Char → List Char
  | '#' :: cs => cs.dropWhile isPlain
  | cs => cs

def lineEnd? (cs : List Char) : Option (List Char) :=
  match dropComment (blanks cs) with
  | [] => some []
  | rest => newline? rest

/-- What follows blanks, line ends and comments; the flag tells that `cs` starts in a comment. -/
def gap? : Bool → List Char → Option (List Char)
  | _, '\n' :: cs => gap? false cs
  | _, '\r' :: '\n' :: cs => gap? false cs
  | true, [] => none
  | true, c :: cs => if isPlain c then gap? true cs else none
  | false, [] => some []
  | false, c :: cs =>
    if c = '#' then gap? true cs
    else if isBlank c then gap? false cs
    else some (c :: cs)

def hexValue? (c : Char) : Option Nat :=
  if '0' ≤ c ∧ c ≤ '9' then some (c.toNat - 48)
  else if 'a' ≤ c ∧ c ≤ 'f' then some (c.toNat - 87)
  else if 'A' ≤ c ∧ c ≤ 'F' then some (c.toNat - 55)
  else none

def coded? (n : Nat) (cs : List Char) : Option (Char × List Char) := do
  let digits ← (cs.take n).mapM hexValue?
  let code := digits.foldl (fun m d => 16 * m + d) 0
  if digits.length = n ∧ code.isValidChar then some (Char.ofNat code, cs.drop n) else none

def escape? : List Char → Option (Char × List Char)
  | 'b' :: cs => some ('\x08', cs)
  | 't' :: cs => some ('\t', cs)
  | 'n' :: cs => some ('\n', cs)
  | 'f' :: cs => some ('\x0c', cs)
  | 'r' :: cs => some ('\r', cs)
  | '"' :: cs => some ('"', cs)
  | '\\' :: cs => some ('\\', cs)
  | 'u' :: cs => coded? 4 cs
  | 'U' :: cs => coded? 8 cs
  | _ => none

def line? (quote : Char) : Nat → List Char → Option (List Char × List Char)
  | 0, _ => none
  | _ + 1, [] => none
  | n + 1, c :: cs =>
    if c = quote then some ([], cs)
    else if quote = '"' ∧ c = '\\' then do
      let (x, rest) ← escape? cs
      let (xs, rest) ← line? quote n rest
      return (x :: xs, rest)
    else if isPlain c then (line? quote n cs).map fun (xs, rest) => (c :: xs, rest)
    else none

def skipLines : List Char → List Char
  | '\r' :: '\n' :: cs => skipLines cs
  | c :: cs => if c = '\n' || isBlank c then skipLines cs else c :: cs
  | [] => []

/-- The rest of a string over several lines, after its opening quotes. One or two quotes are part of
it, also right before the three that close it. A backslash at the end of a line swallows the white
space that follows. -/
def block? (quote : Char) : Nat → List Char → Option (List Char × List Char)
  | 0, _ => none
  | _ + 1, [] => none
  | n + 1, c :: cs =>
    let quotes := ((c :: cs).takeWhile (· = quote)).length
    if 6 ≤ quotes then none
    else if 3 ≤ quotes then some (List.replicate (quotes - 3) quote, (c :: cs).drop quotes)
    else if quote = '"' ∧ c = '\\' then
      match newline? (blanks cs) with
      | some rest => block? quote n (skipLines rest)
      | none => do
        let (x, rest) ← escape? cs
        let (xs, rest) ← block? quote n rest
        return (x :: xs, rest)
    else
      match newline? (c :: cs) with
      | some rest => (block? quote n rest).map fun (xs, rest) => ('\n' :: xs, rest)
      | none =>
        if isPlain c then (block? quote n cs).map fun (xs, rest) => (c :: xs, rest) else none

def string? (quote : Char) (cs : List Char) : Option (List Char × List Char) :=
  match cs with
  | a :: b :: rest =>
    if a = quote ∧ b = quote then
      let rest := (newline? rest).getD rest
      block? quote (rest.length + 1) rest
    else line? quote (cs.length + 1) cs
  | _ => line? quote (cs.length + 1) cs

def isBare (c : Char) : Bool :=
  c.isAlphanum || c = '-' || c = '_'

def key? : List Char → Option (String × List Char)
  | [] => none
  | c :: cs =>
    if c = '"' ∨ c = '\'' then
      (line? c (cs.length + 1) cs).map fun (k, rest) => (String.ofList k, rest)
    else if isBare c then
      some (String.ofList ((c :: cs).takeWhile isBare), (c :: cs).dropWhile isBare)
    else none

/-- How many keys a dotted key may have, and how deep lists and tables may be nested; both stay below
this. -/
def nestingLimit : Nat := 80

def path? : Nat → List Char → Option (List String × List Char)
  | 0, _ => none
  | n + 1, cs => do
    let (k, rest) ← key? (blanks cs)
    match blanks rest with
    | '.' :: rest =>
      let (ks, rest) ← path? n rest
      return (k :: ks, rest)
    | rest => return ([k], rest)

def dottedKey? (cs : List Char) : Option (List String × List Char) :=
  path? (nestingLimit - 1) cs

def moreDigits? (isDigit : Char → Bool) : List Char → Option (List Char × List Char)
  | [] => some ([], [])
  | [c] => if c = '_' then none else if isDigit c then some ([c], []) else some ([], [c])
  | c :: d :: cs =>
    if c = '_' then
      if isDigit d then (moreDigits? isDigit cs).map fun (ds, rest) => (d :: ds, rest) else none
    else if isDigit c then
      (moreDigits? isDigit (d :: cs)).map fun (ds, rest) => (c :: ds, rest)
    else some ([], c :: d :: cs)

def digits? (isDigit : Char → Bool) : List Char → Option (List Char × List Char)
  | c :: cs =>
    if isDigit c then (moreDigits? isDigit cs).map fun (ds, rest) => (c :: ds, rest) else none
  | [] => none

def digitsValue (base : Nat) (ds : List Char) : Nat :=
  ds.foldl (fun n d => base * n + (hexValue? d).getD 0) 0

def whole? (negative : Bool) (n : Nat) : Option Document :=
  if negative then if n ≤ Nat.pow 2 63 then some (.int (-n)) else none
  else if n < Nat.pow 2 63 then some (.int n) else none

def based? (base : Nat) (cs : List Char) : Option (Document × List Char) := do
  let (ds, rest) ← digits? (fun c => (hexValue? c).any (· < base)) cs
  return (← whole? false (digitsValue base ds), rest)

def sign : List Char → Bool × List Char
  | '-' :: cs => (true, cs)
  | '+' :: cs => (false, cs)
  | cs => (false, cs)

def integral? : List Char → Option (List Char × List Char)
  | '0' :: cs => some (['0'], cs)
  | cs => digits? Char.isDigit cs

def exponent? (cs : List Char) : Option (Int × List Char) := do
  let (negative, cs) := sign cs
  let (ds, rest) ← digits? Char.isDigit cs
  let n : Int := digitsValue 10 ds
  return (if negative then -n else n, rest)

/-- Whether `ds` times the power of ten is nearer to `2 ^ 1024` than to any smaller double. -/
def overflows (ds : List Char) (power : Int) : Bool :=
  let ds := ds.dropWhile (· = '0')
  let size := (ds.length : Int) + power
  let bound := Nat.pow 2 1024 - Nat.pow 2 970
  if ds.isEmpty then false
  else if size ≠ 309 then 309 < size
  else bound * Nat.pow 10 (-power).toNat ≤ digitsValue 10 ds * Nat.pow 10 power.toNat

/-- A number that is not whole. It may be too small for a double, or too large below zero. -/
def real? (negative : Bool) (ds : List Char) (power : Int) : Option Document :=
  if !negative && overflows ds power then none else some .real

def scaled? (negative : Bool) (ds : List Char) : List Char → Option (Document × List Char)
  | '.' :: cs => do
    let (fs, rest) ← digits? Char.isDigit cs
    match rest with
    | e :: cs =>
      if e = 'e' ∨ e = 'E' then
        let (power, rest) ← exponent? cs
        return (← real? negative (ds ++ fs) (power - fs.length), rest)
      else return (← real? negative (ds ++ fs) (-fs.length), rest)
    | [] => return (← real? negative (ds ++ fs) (-fs.length), [])
  | e :: cs =>
    if e = 'e' ∨ e = 'E' then do
      let (power, rest) ← exponent? cs
      return (← real? negative ds power, rest)
    else (whole? negative (digitsValue 10 ds)).map fun d => (d, e :: cs)
  | [] => (whole? negative (digitsValue 10 ds)).map fun d => (d, [])

def decimal? (cs : List Char) : Option (Document × List Char) :=
  match sign cs with
  | (_, 'i' :: 'n' :: 'f' :: rest) => some (.real, rest)
  | (_, 'n' :: 'a' :: 'n' :: rest) => some (.real, rest)
  | (negative, cs) => do
    let (ds, rest) ← integral? cs
    scaled? negative ds rest

def number? : List Char → Option (Document × List Char)
  | '0' :: 'x' :: cs => based? 16 cs
  | '0' :: 'o' :: cs => based? 8 cs
  | '0' :: 'b' :: cs => based? 2 cs
  | cs => decimal? cs

def field? (n low high : Nat) (cs : List Char) : Option (Nat × List Char) :=
  let ds := cs.take n
  let value := digitsValue 10 ds
  if ds.length = n ∧ ds.all Char.isDigit ∧ low ≤ value ∧ value ≤ high then
    some (value, cs.drop n)
  else none

def after? (c : Char) : List Char → Option (List Char)
  | d :: cs => if d = c then some cs else none
  | [] => none

def isLeapYear (year : Nat) : Bool :=
  year % 4 = 0 && (year % 100 ≠ 0 || year % 400 = 0)

def daysOf (year month : Nat) : Nat :=
  if month = 2 then if isLeapYear year then 29 else 28
  else if month = 4 ∨ month = 6 ∨ month = 9 ∨ month = 11 then 30
  else 31

def day? (cs : List Char) : Option (List Char) := do
  let (year, cs) ← field? 4 0 9999 cs
  let (month, cs) ← field? 2 1 12 (← after? '-' cs)
  let (_, cs) ← field? 2 1 (daysOf year month) (← after? '-' cs)
  return cs

def fraction (cs : List Char) : List Char :=
  match cs with
  | '.' :: d :: rest => if d.isDigit then rest.dropWhile Char.isDigit else cs
  | _ => cs

def time? (cs : List Char) : Option (List Char) := do
  let (_, cs) ← field? 2 0 23 cs
  let (_, cs) ← field? 2 0 59 (← after? ':' cs)
  let (_, cs) ← field? 2 0 60 (← after? ':' cs)
  return fraction cs

def offset? : List Char → Option (List Char)
  | [] => none
  | c :: cs =>
    if c = 'Z' ∨ c = 'z' then some cs
    else if c = '+' ∨ c = '-' then do
      let (_, cs) ← field? 2 0 23 cs
      let (_, cs) ← field? 2 0 59 (← after? ':' cs)
      return cs
    else none

def moment? (cs : List Char) : Option (List Char) :=
  match day? cs with
  | none => time? cs
  | some [] => some []
  | some (c :: rest) =>
    match if c = 'T' ∨ c = 't' ∨ c = ' ' then time? rest else none with
    | some rest => some ((offset? rest).getD rest)
    | none => some (c :: rest)

end SelectiveTrace.Toml
