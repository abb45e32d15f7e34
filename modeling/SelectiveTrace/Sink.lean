import SelectiveTrace.Surroundings

/-! Where lines go: standard error, a file, a stream of text, or a list. Lines that cannot be written
are lost. -/
namespace SelectiveTrace

inductive Sink where
  | standardError
  /-- With `overwrite` the first line truncates the file; otherwise lines are appended. -/
  | file (path : Path) (overwrite : Bool)
  /-- The pieces written so far; a broken stream takes none. -/
  | stream (written : List String) (broken : Bool)
  /-- The lines so far. -/
  | lines (written : List String)

namespace Sink

def writeFile (w : Surroundings) (path : Path) (overwrite : Bool) (text : String) : Surroundings :=
  match if overwrite then w.write path text else w.append path text with
  | .ok w => w
  | .error _ => w

def writeLine (s : Sink) (line : String) (w : Surroundings) : Sink × Surroundings :=
  match s with
  | .standardError =>
    match w.standardError with
    | some path => (s, writeFile w path false (line ++ "\n"))
    | none => (s, w)
  | .file path overwrite => (.file path false, writeFile w path overwrite (line ++ "\n"))
  | .stream written broken =>
    (if broken then s else .stream (written ++ [line ++ "\n"]) broken, w)
  | .lines written => (.lines (written ++ [line]), w)

def written : Sink → List String
  | .stream ls _ | .lines ls => ls
  | .standardError | .file .. => []

end Sink
end SelectiveTrace
