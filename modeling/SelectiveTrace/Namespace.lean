import SelectiveTrace.Bindings
import SelectiveTrace.Value.Repr

/-! Names bound to values: the locals of a frame or the globals of a module. A name keeps the place
it was first bound at. -/
namespace SelectiveTrace

structure Namespace where
  bindings : List (String × Value) := []

instance : Inhabited Namespace := ⟨{}⟩

namespace Namespace

def get? (ns : Namespace) (name : String) : Option Value :=
  Bindings.get? name ns.bindings

def contains (ns : Namespace) (name : String) : Bool :=
  (ns.get? name).isSome

def set (ns : Namespace) (name : String) (value : Value) : Namespace :=
  ⟨Bindings.set name value ns.bindings⟩

def remove (ns : Namespace) (name : String) : Namespace :=
  ⟨Bindings.remove name ns.bindings⟩

def ofList (bindings : List (String × Value)) : Namespace :=
  bindings.foldl (fun ns b => ns.set b.1 b.2) {}

def size (ns : Namespace) : Nat :=
  ns.bindings.length

def isEmpty (ns : Namespace) : Bool :=
  ns.bindings.isEmpty

def reprs (ns : Namespace) : List (String × String) :=
  ns.bindings.map fun b => (b.1, b.2.repr)

@[simp] theorem get?_set_self (ns : Namespace) (name : String) (v : Value) :
    (ns.set name v).get? name = some v :=
  Bindings.get?_set_self name v ns.bindings

theorem get?_set_of_ne (ns : Namespace) {name other : String} (v : Value) (h : other ≠ name) :
    (ns.set name v).get? other = ns.get? other :=
  Bindings.get?_set_of_ne v ns.bindings h

end Namespace
end SelectiveTrace
