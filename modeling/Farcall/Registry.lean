import Std.Data.TreeMap
import Farcall.Naming.Module

set_option autoImplicit false

/-!
# Registry

Which modules each receiver accepts. A receiver has a module set only while it is tracked; taking
it out withdraws all its modules. Sets have members and no order. A `Directory` gives out receiver
ids, keeps the receivers that joined, and picks the earliest one that accepts a module.
-/

namespace Farcall

structure ReceiverId where
  number : Nat
deriving DecidableEq, Repr

def ReceiverId.text (id : ReceiverId) : String := s!"receiver-{id.number}"

structure Registry where
  sets : Std.TreeMap Nat (List ModuleId)

namespace Registry

def empty : Registry := ⟨∅⟩

instance : Inhabited Registry := ⟨empty⟩

def tracks (registry : Registry) (receiver : ReceiverId) : Bool :=
  registry.sets.contains receiver.number

/-- The modules that a receiver accepts, each once; none if it is not tracked. -/
def modules (registry : Registry) (receiver : ReceiverId) : List ModuleId :=
  (registry.sets[receiver.number]?).getD []

def accepts (registry : Registry) (receiver : ReceiverId) (module : ModuleId) : Bool :=
  registry.modules receiver |>.contains module

def add (registry : Registry) (receiver : ReceiverId) : Bool × Registry :=
  if registry.tracks receiver then (false, registry)
  else (true, ⟨registry.sets.insert receiver.number []⟩)

def remove (registry : Registry) (receiver : ReceiverId) : Option Nat × Registry :=
  match registry.sets[receiver.number]? with
  | none => (none, registry)
  | some modules => (some modules.length, ⟨registry.sets.erase receiver.number⟩)

/-- Adds a module; says whether it was new. A receiver that is not tracked takes none. -/
def register (registry : Registry) (receiver : ReceiverId) (module : ModuleId) :
    Bool × Registry :=
  match registry.sets[receiver.number]? with
  | none => (false, registry)
  | some modules =>
    if modules.contains module then (false, registry)
    else (true, ⟨registry.sets.insert receiver.number (modules ++ [module])⟩)

def deregister (registry : Registry) (receiver : ReceiverId) (module : ModuleId) :
    Bool × Registry :=
  match registry.sets[receiver.number]? with
  | none => (false, registry)
  | some modules =>
    if modules.contains module then
      (true, ⟨registry.sets.insert receiver.number (modules.filter (· ≠ module))⟩)
    else (false, registry)

def accepting (registry : Registry) (module : ModuleId) : List ReceiverId :=
  (registry.sets.toList.filter (·.2.contains module)).map fun entry => ⟨entry.1⟩

end Registry

/-- Receivers of the kind `ρ` that joined one client, and the modules they accept. -/
structure Directory (ρ : Type) where
  registry : Registry
  members : Std.TreeMap Nat ρ
  nextNumber : Nat

namespace Directory

variable {ρ : Type}

def empty : Directory ρ := ⟨.empty, ∅, 1⟩

instance : Inhabited (Directory ρ) := ⟨empty⟩

def size (directory : Directory ρ) : Nat := directory.members.size

def join (directory : Directory ρ) (receiver : ρ) : ReceiverId × Directory ρ :=
  let id : ReceiverId := ⟨directory.nextNumber⟩
  (id, {
    registry := (directory.registry.add id).2
    members := directory.members.insert id.number receiver
    nextNumber := directory.nextNumber + 1 })

def leave (directory : Directory ρ) (id : ReceiverId) : Bool × Directory ρ :=
  (directory.members.contains id.number, {
    directory with
    registry := (directory.registry.remove id).2
    members := directory.members.erase id.number })

def member? (directory : Directory ρ) (id : ReceiverId) : Option ρ :=
  directory.members[id.number]?

def resolve? (directory : Directory ρ) (module : ModuleId) : Option (ReceiverId × ρ) :=
  (directory.registry.accepting module).findSome? fun id =>
    (directory.member? id).map fun receiver => (id, receiver)

end Directory

end Farcall
