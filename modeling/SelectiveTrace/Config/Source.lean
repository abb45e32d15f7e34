import SelectiveTrace.Config
import SelectiveTrace.Format.Toml
import SelectiveTrace.Surroundings

/-! Where a configuration comes from: a TOML file that the environment may name. -/
namespace SelectiveTrace

def isSwitchedOn (setting : Option String) : Bool :=
  setting.any (· ≠ "")

namespace Config

/-- The checked configuration that a text writes. A record written as a list may go on beyond its
fields. -/
def ofToml (text : String) (disk : Disk) : Except Error Config := do
  match (Toml.parse text).bind (Config.ofDocument? false) with
  | some c =>
    c.tracer.validate disk
    return c
  | none => throw .toml

def ofFile (w : Surroundings) (path : Path) : Except Error Config :=
  match w.readText path with
  | .ok text => ofToml text w.disk
  | .error e => .error (.file e)

def ofSetting (w : Surroundings) : Option String → Except Error Config
  | some path => ofFile w ⟨path⟩
  | none => .ok {}

end Config
end SelectiveTrace
