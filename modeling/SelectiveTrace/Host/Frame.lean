import SelectiveTrace.Namespace
import SelectiveTrace.Table

/-! Threads, code and frames of the traced program, and the events it reports about them. -/
namespace SelectiveTrace

structure Thread where
  id : Nat
  name : Option String := none
deriving DecidableEq, Inhabited

/-- The handle of one activation: the machine that made it and its serial number there. -/
structure FrameId where
  machine : Nat
  serial : Nat
deriving DecidableEq, Inhabited

/-- What tells one function body from another: its file as written, its name and its first line. -/
structure CodeId where
  file : String
  name : String
  firstLine : Nat
deriving DecidableEq, Inhabited

structure Code where
  name : String
  file : Path
  firstLine : Nat
deriving Inhabited

def Code.id (c : Code) : CodeId :=
  ⟨c.file.text, c.name, c.firstLine⟩

inductive Opcode where
  | returnValue
  | yieldValue
  | call
deriving DecidableEq

def Opcode.name : Opcode → String
  | .returnValue => "RETURN_VALUE"
  | .yieldValue => "YIELD_VALUE"
  | .call => "CALL"

def Opcode.isReturn : Opcode → Bool
  | .returnValue | .yieldValue => true
  | .call => false

structure Frame where
  id : FrameId
  code : CodeId
  function : String
  file : Path
  line : Nat
  /-- The frame that called or resumed this one. -/
  back : Option FrameId
  locals : Namespace
  lastOpcode : Option Opcode := none
  thread : Thread
deriving Inhabited

def Frame.endedOnReturn (f : Frame) : Bool :=
  f.lastOpcode.any Opcode.isReturn

structure Raised where
  typeName : String
  message : String
deriving DecidableEq, Inhabited

def Raised.text (e : Raised) : String :=
  if e.message.isEmpty then e.typeName else e.typeName ++ ": " ++ e.message

/-- What a host reports about a frame. A generator that is dropped before its end is discarded. -/
inductive Event where
  | call
  | line
  | ret (value : Value)
  | exception (e : Raised)
  | discard

namespace Event

def name : Event → String
  | .call => "call"
  | .line => "line"
  | .ret _ => "return"
  | .exception _ => "exception"
  | .discard => "discard"

def isCall : Event → Bool
  | .call => true
  | _ => false

def isLine : Event → Bool
  | .line => true
  | _ => false

def isDiscard : Event → Bool
  | .discard => true
  | _ => false

def isTerminal : Event → Bool
  | .call | .line => false
  | .ret _ | .exception _ | .discard => true

end Event

structure Context where
  frame : Frame
  event : Event
  frames : Table FrameId Frame
  globals : Namespace

/-- A hook goes on, wants no more events of the frame but calls, or fails. -/
inductive Answer where
  | proceed
  | skipFrame
  | panicked (text : String)
deriving DecidableEq

abbrev HookName := String

abbrev Deliver (σ : Type) := HookName → Context → σ → Answer × σ

end SelectiveTrace
