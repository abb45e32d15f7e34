import SelectiveTrace.Host.Machine

/-! Scripts: programs written down as steps. A step drives the machine, looks at something, or
encloses other steps. Scripts name frames by labels. -/
namespace SelectiveTrace

inductive Action where
  /-- An operation of the machine; a new frame gets the label. -/
  | host (label : Option String) (op : Op String)
  /-- Asks which hook is installed. -/
  | installed
  | panic (text : String)
  /-- The program ends with an exception. -/
  | fail (e : Raised)
  | target (tracer : String) (code : CodeId)
  | enter (tracer label : String)
  | exit (tracer label : String)
  | finish (tracer : String)
  | register (tracer : String) (file : Path) (text : String)
  /-- Asks what a tracer keeps for a frame. -/
  | session (tracer label : String) (line : Nat)
  /-- Puts a file on the disk, or takes it away. -/
  | place (file : Path) (contents : Option ByteArray)
  | read (file : Path)
  | frame (label : String)
  | globals (file : Path)

inductive Step where
  | act (a : Action)
  /-- Runs steps under a hook. -/
  | trace (hook : String) (body : List Step)
  /-- Runs steps while a tracer traces the current frame. -/
  | snoop (tracer : String) (body : List Step)
  /-- Takes up a panic of the steps. -/
  | guard (body : List Step)
  /-- Takes up an exception that ends the program. -/
  | attempt (body : List Step)
  /-- Runs steps on a thread of their own; a key is one lasting thread. -/
  | thread (key : String) (name : Option String) (body : List Step)

instance : Inhabited Step := ⟨.act .installed⟩

abbrev Program := List Step

def Op.word {φ : Type} : Op φ → String
  | .enterModule _ => "module"
  | .call .. => "call"
  | .line .. => "line"
  | .setLocal .. => "set"
  | .setGlobal .. => "global"
  | .ret .. => "ret"
  | .unwind _ => "unwind"
  | .raise .. => "raise"
  | .yieldValue .. => "yield"
  | .resume _ => "resume"
  | .discard _ => "discard"
  | .traceFrame _ => "trace_frame"
  | .setTrace _ => "settrace"
  | .pushTrace _ => "pushtrace"
  | .popTrace => "poptrace"

def Action.word : Action → String
  | .host _ op => op.word
  | .installed => "gettrace"
  | .panic _ => "panic"
  | .fail _ => "fail"
  | .target .. => "target"
  | .enter .. => "enter"
  | .exit .. => "exit"
  | .finish _ => "finish"
  | .register .. => "register"
  | .session .. => "session"
  | .place .. => "write"
  | .read _ => "read"
  | .frame _ => "frame"
  | .globals _ => "globals"

def Step.word : Step → String
  | .act a => a.word
  | .trace .. => "with"
  | .snoop .. => "snoop"
  | .guard _ => "catch"
  | .attempt _ => "try"
  | .thread .. => "thread"

end SelectiveTrace
