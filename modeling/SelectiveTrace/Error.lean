import SelectiveTrace.Disk
import SelectiveTrace.Host.Frame

/-! Failures by their cause, and the text of each. -/
namespace SelectiveTrace

inductive TargetProblem where
  | unreadable (file : Path) (why : FileError)
  | lineBeyondEnd (line : Nat) (file : Path)
  | nameNotOnLine (name : String) (line : Nat) (file : Path)
  | unknownQuery (op param : String)

def TargetProblem.message : TargetProblem → String
  | .unreadable file why => "cannot read " ++ file.text ++ ": " ++ why.message
  | .lineBeyondEnd line file =>
    "line " ++ toString line ++ " exceeds the number of lines in " ++ file.text
  | .nameNotOnLine name line file =>
    "variable '" ++ name ++ "' not found in line " ++ toString line ++ " of " ++ file.text
  | .unknownQuery op param => "unknown scope query " ++ op ++ " " ++ param

inductive ConfigProblem where
  | depthZero
  | normalizedThreads
  | invertedRange (start stop : Nat)
  | missingFile (file : Path)

def ConfigProblem.message : ConfigProblem → String
  | .depthZero => "depth must be at least 1"
  | .normalizedThreads => "normalize cannot be combined with thread_info"
  | .invertedRange start stop =>
    "observed range " ++ toString start ++ "-" ++ toString stop ++ " is inverted"
  | .missingFile file => "observed file " ++ file.text ++ " does not exist"

inductive Error where
  | unparsable
  | methodNotFound (file : Path) (name : String)
  | invalidTarget (problem : TargetProblem)
  | program (e : Raised)
  | unmatchedReturn (frame : FrameId)
  /-- The handling of an event was broken off. -/
  | handling (event : String) (panic : String)
  | config (problem : ConfigProblem)
  | file (why : FileError)
  | json
  | toml

namespace Error

def isProgramFailure : Error → Bool
  | .program _ => true
  | _ => false

def message (number : FrameId → Nat) : Error → String
  | .unparsable => "Scope resolution failed: syntax error"
  | .methodNotFound path name => "Method " ++ name ++ " not found in " ++ path.text
  | .invalidTarget problem => "Invalid trace target: " ++ problem.message
  | .program e => "Target program raised " ++ e.text
  | .unmatchedReturn frame =>
    "Tracer state inconsistency: frame " ++ toString (number frame) ++
      " returned without a recorded call"
  | .handling event panic =>
    "Tracer state inconsistency: panic while handling " ++ event ++ " event: " ++ panic
  | .config problem => "Configuration error: " ++ problem.message
  | .file why => "IO error: " ++ why.message
  | .json => "JSON error"
  | .toml => "TOML parse error"

end Error
end SelectiveTrace
