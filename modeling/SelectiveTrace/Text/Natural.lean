/-! Natural numbers in decimal digits, perhaps with a plus sign in front. -/
namespace SelectiveTrace.Text

def digitsNat (ds : List Char) : Nat :=
  ds.foldl (fun n d => 10 * n + (d.toNat - 48)) 0

def withoutPlus : List Char → List Char
  | '+' :: ds => ds
  | ds => ds

def natural? (bits : Nat) (s : String) : Option Nat :=
  let ds := withoutPlus s.toList
  if ds.isEmpty || !ds.all Char.isDigit then none
  else if digitsNat ds < Nat.pow 2 bits then some (digitsNat ds) else none

end SelectiveTrace.Text
