import SelectiveTrace.Host.Frame

/-! The machine that runs the traced program on one thread. It keeps the live frames, the stack of
running ones, the suspended generators and the globals of each module, and reports every event to
the hook that is installed. A hook may ask for no more events of a frame; it gets calls even so. -/
namespace SelectiveTrace

structure Machine where
  id : Nat := 0
  thread : Thread := ⟨0, some "main"⟩
  next : Nat := 0
  frames : Table FrameId Frame := {}
  /-- The running frames, the innermost first. -/
  stack : List FrameId := []
  globals : Table (List Path.Component) Namespace := {}
  /-- Frames whose locals are the globals of their file. -/
  moduleFrames : List FrameId := []
  suspended : List FrameId := []
  /-- Frames of which the hook wants no more events but calls. -/
  untraced : List FrameId := []
  hook : Option HookName := none
  saved : List (Option HookName) := []

instance : Inhabited Machine := ⟨{}⟩

/-- One thing a host does on a machine, with frames named by `φ`. `pushTrace` and `popTrace` enclose
the body that runs under a hook of its own. -/
inductive Op (φ : Type) where
  | enterModule (code : Code)
  | call (code : Code) (args : List (String × Value))
  | line (frame : φ) (n : Nat)
  | setLocal (frame : φ) (name : String) (value : Value)
  | setGlobal (file : Path) (name : String) (value : Value)
  | ret (frame : φ) (value : Value)
  | unwind (frame : φ)
  | raise (frame : φ) (e : Raised)
  | yieldValue (frame : φ) (value : Value)
  | resume (frame : φ)
  | discard (frame : φ)
  | traceFrame (frame : φ)
  | setTrace (hook : Option HookName)
  | pushTrace (hook : HookName)
  | popTrace

namespace Op
variable {φ ψ : Type}

def frame? : Op φ → Option φ
  | .line f _ | .setLocal f _ _ | .ret f _ | .unwind f | .raise f _ | .yieldValue f _ | .resume f
  | .discard f | .traceFrame f => some f
  | .enterModule _ | .call .. | .setGlobal .. | .setTrace _ | .pushTrace _ | .popTrace => none

def isBirth : Op φ → Bool
  | .enterModule _ | .call .. => true
  | _ => false

def map (g : φ → ψ) : Op φ → Op ψ
  | .enterModule code => .enterModule code
  | .call code args => .call code args
  | .line f n => .line (g f) n
  | .setLocal f name value => .setLocal (g f) name value
  | .setGlobal file name value => .setGlobal file name value
  | .ret f value => .ret (g f) value
  | .unwind f => .unwind (g f)
  | .raise f e => .raise (g f) e
  | .yieldValue f value => .yieldValue (g f) value
  | .resume f => .resume (g f)
  | .discard f => .discard (g f)
  | .traceFrame f => .traceFrame (g f)
  | .setTrace hook => .setTrace hook
  | .pushTrace hook => .pushTrace hook
  | .popTrace => .popTrace

end Op

/-- A machine and the hooks' state after an operation, and the failure that broke it off, if any. -/
structure Outcome (σ : Type) where
  machine : Machine
  state : σ
  panic : Option String := none

namespace Machine

def without (ids : List FrameId) (id : FrameId) : List FrameId :=
  ids.filter (· ≠ id)

def current (m : Machine) : Option FrameId :=
  m.stack.head?

def frame? (m : Machine) (id : FrameId) : Option Frame :=
  m.frames.get? id

def globalsOf? (m : Machine) (file : Path) : Option Namespace :=
  m.globals.get? file.components

def globalsOf (m : Machine) (file : Path) : Namespace :=
  (m.globalsOf? file).getD {}

def nextId (m : Machine) : FrameId :=
  ⟨m.id, m.next⟩

def modifyFrame (m : Machine) (id : FrameId) (change : Frame → Frame) : Machine :=
  match m.frames.get? id with
  | some f => { m with frames := m.frames.insert id (change f) }
  | none => m

def pushFrame (m : Machine) (code : Code) (locals : Namespace) : Machine :=
  let frame : Frame :=
    { id := m.nextId, code := code.id, function := code.name, file := code.file,
      line := code.firstLine, back := m.current, locals, thread := m.thread }
  { m with
    next := m.next + 1
    frames := m.frames.insert m.nextId frame
    stack := m.nextId :: m.stack }

def pushModule (m : Machine) (code : Code) : Machine :=
  let globals := m.globalsOf code.file
  { m.pushFrame code globals with
    globals := m.globals.insert code.file.components globals
    moduleFrames := m.nextId :: m.moduleFrames }

def bindGlobal (m : Machine) (file : Path) (name : String) (value : Value) : Machine :=
  { m with globals := m.globals.insert file.components ((m.globalsOf file).set name value) }

def bindLocal (m : Machine) (id : FrameId) (name : String) (value : Value) : Machine :=
  m.modifyFrame id fun f => { f with locals := f.locals.set name value }

def setLocal (m : Machine) (id : FrameId) (name : String) (value : Value) : Machine :=
  match m.frames.get? id with
  | some f =>
    let m' := m.bindLocal id name value
    if m.moduleFrames.contains id then m'.bindGlobal f.file name value else m'
  | none => m

def modulesOf (m : Machine) (file : Path) : List FrameId :=
  m.moduleFrames.filter fun id => (m.frames.get? id).any fun f => f.file.same file

def setGlobal (m : Machine) (file : Path) (name : String) (value : Value) : Machine :=
  (m.modulesOf file).foldl (fun m id => m.bindLocal id name value) (m.bindGlobal file name value)

def setOpcode (m : Machine) (id : FrameId) (opcode : Option Opcode) : Machine :=
  m.modifyFrame id fun f => { f with lastOpcode := opcode }

def moveTo (m : Machine) (id : FrameId) (line : Nat) : Machine :=
  m.modifyFrame id fun f => { f with line, lastOpcode := none }

def forget (m : Machine) (id : FrameId) : Machine :=
  { m with
    frames := m.frames.erase id
    untraced := without m.untraced id
    moduleFrames := without m.moduleFrames id }

/-- Takes a frame off the stack: the innermost one, or one that is left out of order. -/
def leave (stack : List FrameId) (id : FrameId) : List FrameId :=
  match stack with
  | [] => []
  | top :: rest => if top = id then rest else without (top :: rest) id

def popFrame (m : Machine) (id : FrameId) : Machine :=
  { m with stack := leave m.stack id, suspended := without m.suspended id }.forget id

def suspend (m : Machine) (id : FrameId) : Machine :=
  { m with stack := without m.stack id, suspended := m.suspended.insert id }

def wake (m : Machine) (id : FrameId) : Machine :=
  let m' := { m with suspended := without m.suspended id }
  { m'.modifyFrame id fun f => { f with back := m.current, lastOpcode := none } with
    stack := id :: m.stack }

def context (m : Machine) (frame : Frame) (event : Event) : Context :=
  { frame, event, frames := m.frames, globals := m.globalsOf frame.file }

def dispatch {σ : Type} (deliver : Deliver σ) (m : Machine) (s : σ) (id : FrameId)
    (event : Event) : Outcome σ :=
  match m.hook, m.frames.get? id with
  | some hook, some frame =>
    if !event.isCall && m.untraced.contains id then ⟨m, s, none⟩
    else
      match deliver hook (m.context frame event) s with
      | (.panicked text, s) => ⟨m, s, some text⟩
      | (.skipFrame, s) => ⟨{ m with untraced := m.untraced.insert id }, s, none⟩
      | (.proceed, s) =>
        ⟨if event.isCall then { m with untraced := without m.untraced id } else m, s, none⟩
  | _, _ => ⟨m, s, none⟩

def pushTrace (m : Machine) (hook : HookName) : Machine :=
  { m with saved := m.hook :: m.saved, hook := some hook }

def popTrace (m : Machine) : Machine :=
  { m with hook := m.saved.head?.join, saved := m.saved.tail }

end Machine

namespace Op

def applies (m : Machine) : Op FrameId → Bool
  | .resume f | .discard f => m.suspended.contains f
  | _ => true

/-- What the operation changes before it reports its event. -/
def before (m : Machine) : Op FrameId → Machine
  | .enterModule code => m.pushModule code
  | .call code args => m.pushFrame code (.ofList args)
  | .line f n => m.moveTo f n
  | .setLocal f name value => m.setLocal f name value
  | .setGlobal file name value => m.setGlobal file name value
  | .ret f _ => m.setOpcode f (some .returnValue)
  | .unwind f => m.setOpcode f (some .call)
  | .raise _ _ => m
  | .yieldValue f _ => m.setOpcode f (some .yieldValue)
  | .resume f => m.wake f
  | .discard f => { m with suspended := Machine.without m.suspended f }
  | .traceFrame f => { m with untraced := Machine.without m.untraced f }
  | .setTrace hook => { m with hook }
  | .pushTrace hook => m.pushTrace hook
  | .popTrace => m.popTrace

def event? (m : Machine) : Op FrameId → Option (FrameId × Event)
  | .enterModule _ | .call _ _ => some (m.nextId, .call)
  | .line f _ => some (f, .line)
  | .ret f value | .yieldValue f value => some (f, .ret value)
  | .unwind f => some (f, .ret .none)
  | .raise f e => some (f, .exception e)
  | .resume f => some (f, .call)
  | .discard f => some (f, .discard)
  | .setLocal .. | .setGlobal .. | .traceFrame _ | .setTrace _ | .pushTrace _ | .popTrace => none

/-- What the operation changes once the event has been handled. -/
def after (m : Machine) : Op FrameId → Machine
  | .ret f _ | .unwind f | .raise f _ => m.popFrame f
  | .yieldValue f _ => m.suspend f
  | .discard f => m.forget f
  | _ => m

end Op

namespace Machine
variable {σ : Type}

/-- One operation: a change, the event, and the change that a handled event allows. -/
def step (deliver : Deliver σ) (m : Machine) (s : σ) (op : Op FrameId) : Outcome σ :=
  if !op.applies m then ⟨m, s, none⟩
  else
    match op.event? m with
    | none => ⟨op.before m, s, none⟩
    | some (f, event) =>
      let r := (op.before m).dispatch deliver s f event
      if r.panic.isSome then r else { r with machine := op.after r.machine }

def run (deliver : Deliver σ) : Machine → σ → List (Op FrameId) → Outcome σ
  | m, s, [] => ⟨m, s, none⟩
  | m, s, op :: ops =>
    let r := m.step deliver s op
    if r.panic.isSome then r else run deliver r.machine r.state ops

@[simp] theorem current_pushFrame (m : Machine) (code : Code) (locals : Namespace) :
    (m.pushFrame code locals).current = some m.nextId := rfl

@[simp] theorem popTrace_pushTrace (m : Machine) (hook : HookName) :
    (m.pushTrace hook).popTrace = m := rfl

end Machine
end SelectiveTrace
