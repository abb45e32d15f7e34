/-! White space and the operations on text that depend on it: trimming and splitting into lines. -/
namespace SelectiveTrace.Text

/-- The characters with the Unicode property `White_Space`. -/
def isBlank (c : Char) : Bool :=
  (9 ≤ c.toNat && c.toNat ≤ 13) || c.toNat = 0x20 || c.toNat = 0x85 || c.toNat = 0xA0 ||
  c.toNat = 0x1680 || (0x2000 ≤ c.toNat && c.toNat ≤ 0x200A) || c.toNat = 0x2028 ||
  c.toNat = 0x2029 || c.toNat = 0x202F || c.toNat = 0x205F || c.toNat = 0x3000

def dropBlanks (cs : List Char) : List Char :=
  cs.dropWhile isBlank

def dropBlanksEnd (cs : List Char) : List Char :=
  (cs.reverse.dropWhile isBlank).reverse

def trimStart (s : String) : String :=
  String.ofList (dropBlanks s.toList)

def trimEnd (s : String) : String :=
  String.ofList (dropBlanksEnd s.toList)

def trim (s : String) : String :=
  String.ofList (dropBlanksEnd (dropBlanks s.toList))

def pieces (sep : Char) : List Char → List (List Char)
  | [] => [[]]
  | c :: cs =>
    match pieces sep cs with
    | [] => [[c]]
    | p :: ps => if c = sep then [] :: p :: ps else (c :: p) :: ps

def split (sep : Char) (s : String) : List String :=
  (pieces sep s.toList).map String.ofList

def dropReturn (cs : List Char) : List Char :=
  match cs.reverse with
  | '\r' :: rest => rest.reverse
  | _ => cs

/-- The lines among the pieces of a text: each piece but the last was ended by a line feed and
loses the carriage return before it, and an empty last piece is no line. -/
def endedLines : List (List Char) → List (List Char)
  | [] => []
  | [p] => if p.isEmpty then [] else [p]
  | p :: ps => dropReturn p :: endedLines ps

def lines (s : String) : List String :=
  (endedLines (pieces '\n' s.toList)).map String.ofList

def occursIn (needle : List Char) : List Char → Bool
  | [] => needle.isEmpty
  | c :: cs => needle.isPrefixOf (c :: cs) || occursIn needle cs

def contains (s needle : String) : Bool :=
  occursIn needle.toList s.toList

def startsWith (s start : String) : Bool :=
  start.toList.isPrefixOf s.toList

def padRight (width : Nat) (s : String) : String :=
  String.ofList (s.toList ++ List.replicate (width - s.length) ' ')

def padLeft (width : Nat) (fill : Char) (s : String) : String :=
  String.ofList (List.replicate (width - s.length) fill ++ s.toList)

/-- `needle` replaced by `by'` wherever it stands, from left to right; `skip` counts the characters
of a match that are still to be passed over. -/
def replaceChars (needle by' : List Char) : Nat → List Char → List Char
  | _, [] => []
  | 0, c :: cs =>
    if needle.isPrefixOf (c :: cs) then by' ++ replaceChars needle by' (needle.length - 1) cs
    else c :: replaceChars needle by' 0 cs
  | skip + 1, _ :: cs => replaceChars needle by' skip cs

def replace (s needle by' : String) : String :=
  String.ofList (replaceChars needle.toList by'.toList 0 s.toList)

end SelectiveTrace.Text
