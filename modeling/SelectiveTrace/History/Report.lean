import SelectiveTrace.Path
import SelectiveTrace.Scope.Span

/-! Variable histories and their report: a block for each change, but one marker for each run of
changes that a loop repeats. -/
namespace SelectiveTrace

structure Change where
  file : Path
  location : LineSpan
  value : String
  code : String
  /-- The statement had run more often than is told in full. -/
  looped : Bool
deriving DecidableEq

namespace Change

def loopMark : String :=
  "...Skipping repeated variable modification details in loop......\n"

def block (c : Change) : String :=
  "Location: " ++ c.file.text ++ ": " ++ c.location.text ++ "\nCode:\n```\n" ++ c.code ++
    "\n```\nValue: " ++ c.value ++ "\n"

/-- The blocks of a history; `inLoop` tells that the marker for the current run stands already. -/
def blocks (inLoop : Bool) : List Change → List String
  | [] => []
  | c :: cs =>
    if c.looped then (if inLoop then [] else [loopMark]) ++ blocks true cs
    else c.block :: blocks false cs

def report (history : List Change) : String :=
  "\n".intercalate (blocks false history)

end Change
end SelectiveTrace
