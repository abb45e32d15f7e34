import SelectiveTrace.Path
import SelectiveTrace.Text.Blank

/-! The arguments of the command line: options, values, and the commands they make up. Reading stops
at the first argument that asks for help or that does not fit. -/
namespace SelectiveTrace

inductive UsageError where
  | help
  | version
  | noCommand
  | unknownCommand
  | unknownArgument
  | missingArgument
  /-- An option that takes no value has one. -/
  | needlessValue
  | repeatedOption
  | emptyValue
deriving DecidableEq

inductive Command where
  | scope (op : String) (file : Path) (param : String)
  | outline (file : Path) (json : Bool)
  | renderGraph (file : Path) (json : Bool)

inductive Argument where
  /-- Two dashes: every later argument is a value. -/
  | separator
  | long (name : String) (hasValue : Bool)
  /-- One dash and letters. -/
  | short (first : Char)
  | value (text : String)

namespace Argument

def ofText (s : String) : Argument :=
  match s.toList with
  | ['-', '-'] => .separator
  | '-' :: '-' :: cs => .long (String.ofList (cs.takeWhile (· ≠ '='))) (cs.contains '=')
  | '-' :: c :: _ => .short c
  | _ => .value s

end Argument

inductive ValueKindOf where
  | text
  | path
deriving DecidableEq

structure Signature where
  values : List ValueKindOf
  takesJson : Bool

structure Given where
  values : List String := []
  json : Bool := false

namespace Signature

/-- A path may not be empty. This is found when the next value or option is taken, or at the end. -/
def check (sig : Signature) (g : Given) : Except UsageError Unit :=
  if (sig.values.zip g.values).any fun v => v.1 = .path && v.2.isEmpty then .error .emptyValue
  else .ok ()

def takeValue (sig : Signature) (g : Given) (s : String) : Except UsageError Given :=
  if g.values.length < sig.values.length then do
    sig.check g
    return { g with values := g.values ++ [s] }
  else .error .unknownArgument

def takeLong (sig : Signature) (g : Given) (name : String) (hasValue : Bool) :
    Except UsageError Given := do
  if !(name = "help" || name = "version" || (name = "json" && sig.takesJson)) then
    throw .unknownArgument
  if hasValue then throw .needlessValue
  sig.check g
  if name = "help" then throw .help
  if name = "version" then throw .version
  if g.json then throw .repeatedOption
  return { g with json := true }

def takeShort (sig : Signature) (g : Given) (c : Char) : Except UsageError Given := do
  if !(c = 'h' || c = 'V') then throw .unknownArgument
  sig.check g
  throw (if c = 'h' then .help else .version)

/-- Reads the arguments of a command; `rest` tells that only values follow. -/
def read (sig : Signature) : Bool → Given → List String → Except UsageError Given
  | _, g, [] => do
    sig.check g
    if g.values.length < sig.values.length then throw .missingArgument
    return g
  | true, g, s :: args => do read sig true (← sig.takeValue g s) args
  | false, g, s :: args =>
    match Argument.ofText s with
    | .separator => read sig true g args
    | .long name hasValue => do read sig false (← sig.takeLong g name hasValue) args
    | .short c => do read sig false (← sig.takeShort g c) args
    | .value s => do read sig false (← sig.takeValue g s) args

end Signature

namespace Command

def signatures : List (String × Signature × (Given → Option Command)) :=
  let scope : Given → Option Command
    | ⟨[op, file, param], _⟩ => some (.scope op ⟨file⟩ param)
    | _ => none
  let outline : Given → Option Command
    | ⟨[file], json⟩ => some (.outline ⟨file⟩ json)
    | _ => none
  let renderGraph : Given → Option Command
    | ⟨[file], json⟩ => some (.renderGraph ⟨file⟩ json)
    | _ => none
  [("scope", ⟨[.text, .path, .text], false⟩, scope),
    ("outline", ⟨[.path], true⟩, outline),
    ("render-graph", ⟨[.path], true⟩, renderGraph),
    ("rg", ⟨[.path], true⟩, renderGraph)]

def signature? (name : String) : Option (Signature × (Given → Option Command)) :=
  (signatures.find? fun c => c.1 = name).map (·.2)

def isCommand (name : String) : Bool :=
  name = "help" || (signature? name).isSome

def helpOn : List String → UsageError
  | [] => .help
  | [name] => if isCommand name then .help else .unknownCommand
  | _ => .unknownCommand

def optionError : Argument → UsageError
  | .long name hasValue =>
    if name = "help" || name = "version" then
      if hasValue then .needlessValue else if name = "help" then .help else .version
    else .unknownArgument
  | .short c => if c = 'h' then .help else if c = 'V' then .version else .unknownArgument
  | .separator | .value _ => .unknownCommand

def ofArguments : List String → Except UsageError Command
  | [] => .error .noCommand
  | name :: args =>
    if name = "help" then .error (helpOn args)
    else
      match signature? name with
      | some (sig, make) => do
        match make (← sig.read false {} args) with
        | some c => return c
        | none => throw .missingArgument
      | none =>
        match Argument.ofText name, args with
        | .separator, [] => .error .noCommand
        | .separator, word :: _ =>
          .error (if isCommand word then .unknownArgument else .unknownCommand)
        | a, _ => .error (optionError a)

end Command
end SelectiveTrace
