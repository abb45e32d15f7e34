import SelectiveTrace.Surroundings

/-! Which variable to follow, and the check that it stands where the request says. -/
namespace SelectiveTrace

structure VariableRequest where
  entry : Path
  name : String
  /-- The file and the line where the variable stands; both are absent for a global. -/
  file : Option Path := none
  line : Option Nat := none

namespace VariableRequest

def ofEntry (w : Surroundings) (entry : Path) (name : String) : VariableRequest :=
  { entry := w.absolute entry, name }

def at_ (r : VariableRequest) (w : Surroundings) (file : Path) (line : Nat) : VariableRequest :=
  { r with file := some (w.absolute file), line := some line }

def checkLine (file : Path) (line : Nat) (name source : String) : Except TargetProblem Unit :=
  match if line = 0 then none else (Text.lines source)[line - 1]? with
  | none => .error (.lineBeyondEnd line file)
  | some text =>
    if Text.contains text name then .ok () else .error (.nameNotOnLine name line file)

def location (r : VariableRequest) (w : Surroundings) : Except Error (Option (Path × Nat)) :=
  match r.file, r.line with
  | some file, some line =>
    match w.readText file with
    | .error e => .error (.invalidTarget (.unreadable file e))
    | .ok source =>
      match checkLine file line r.name source with
      | .error p => .error (.invalidTarget p)
      | .ok _ => .ok (some (file, line))
  | _, _ => .ok none

end VariableRequest
end SelectiveTrace
