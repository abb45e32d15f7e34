import SelectiveTrace.Text.Blank

/-! Lengths of time as hours, minutes, seconds and microseconds. -/
namespace SelectiveTrace.Text

def twoDigits (n : Nat) : String :=
  padLeft 2 '0' (toString n)

/-- The longest time that is shown, in nanoseconds; a longer one is shown as none. -/
def longestTime : Nat :=
  (Nat.pow 2 63 - 1) * 1000000

/-- The microseconds of a time. Where all of it has more than `2 ^ 63 - 1` of them, those of that
number are shown. -/
def microseconds (nanoseconds : Nat) : Nat :=
  min (nanoseconds / 1000) (Nat.pow 2 63 - 1) % 1000000

def elapsed (nanoseconds : Nat) : String :=
  let time := if nanoseconds ≤ longestTime then nanoseconds else 0
  let seconds := time / 1000000000
  twoDigits (seconds / 3600) ++ ":" ++ twoDigits (seconds / 60 % 60) ++ ":" ++
    twoDigits (seconds % 60) ++ "." ++ padLeft 6 '0' (toString (microseconds time))

end SelectiveTrace.Text
