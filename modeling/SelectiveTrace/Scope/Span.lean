/-! Ranges of lines, both ends included, counted from one. -/
namespace SelectiveTrace

structure LineSpan where
  start : Nat
  stop : Nat
deriving DecidableEq, Inhabited

namespace LineSpan

def contains (s : LineSpan) (line : Nat) : Bool :=
  s.start ≤ line && line ≤ s.stop

def length (s : LineSpan) : Nat :=
  s.stop - s.start

def isSingle (s : LineSpan) : Bool :=
  s.start = s.stop

def single (line : Nat) : LineSpan :=
  ⟨line, line⟩

def text (s : LineSpan) : String :=
  if s.isSingle then toString s.start else toString s.start ++ "-" ++ toString s.stop

end LineSpan
end SelectiveTrace
