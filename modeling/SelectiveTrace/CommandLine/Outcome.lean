import SelectiveTrace.CommandLine.Run
import SelectiveTrace.Config.Source

/-! A run of the program from its arguments to what it prints and how it exits. -/
namespace SelectiveTrace.CommandLine

structure Outcome where
  exit : Nat := 0
  output : String := ""
  /-- What goes to standard error. -/
  errors : String := ""

def usage : String :=
  "Usage: scope OP FILE PARAM | outline [--json] FILE | render-graph [--json] FILE"

def usageText : UsageError → String
  | .help => "Selective execution tracing: scopes, outlines and call graphs"
  | .version => "0.1.0"
  | .noCommand => "a command is required"
  | .unknownCommand => "unknown command"
  | .unknownArgument => "unexpected argument"
  | .missingArgument => "a required argument is missing"
  | .needlessValue => "an option has a value it does not take"
  | .repeatedOption => "an option is given twice"
  | .emptyValue => "a path is empty"

namespace Outcome

def ofUsage : UsageError → Outcome
  | .help => { output := usageText .help ++ "\n" ++ usage ++ "\n" }
  | .version => { output := usageText .version ++ "\n" }
  | e => { exit := 2, errors := "error: " ++ usageText e ++ "\n" ++ usage ++ "\n" }

def ofError (e : Error) : Outcome :=
  { exit := 1, errors := "error: " ++ (e.message fun _ => 0) ++ "\n" }

def ofCommand (c : Command) (w : Surroundings) : Outcome :=
  match c.run w with
  | .ok (text, _) => { output := text }
  | .error e => ofError e

end Outcome

/-- A run with these arguments; `setting` is the configuration that the environment names. One that
cannot be loaded stops every command, though none needs it. -/
def run (setting : Option String) (args : List String) (w : Surroundings) : Outcome :=
  match Command.ofArguments args with
  | .error e => .ofUsage e
  | .ok c =>
    match Config.ofSetting w setting with
    | .ok _ => .ofCommand c w
    | .error e => .ofError e

def filesOf (setting : Option String) (args : List String) (w : Surroundings) : List Path :=
  let named := match Command.ofArguments args with
    | .ok (.scope _ file _) | .ok (.outline file _) | .ok (.renderGraph file _) => [file]
    | .error _ => []
  let observed : Option Path := do
    let text ← (w.readText ⟨← setting⟩).toOption
    let config ← (Toml.parse text).bind (Config.ofDocument? false)
    return (← config.tracer.observed).file
  named ++ observed.toList

end SelectiveTrace.CommandLine
