import Farcall.Frame.Message

set_option autoImplicit false

/-!
# Module names

A deployable unit is named by its application, its own name and a distinct name. An absent
application means the module name and an absent distinct name the empty one; a module without a
name of its own does not exist, which is part of the type. Names are ordered part by part.
-/

namespace Farcall

inductive IdentityError where
  | missingModuleName
deriving DecidableEq, Repr

def IdentityError.kind : IdentityError → String
  | missingModuleName => "MissingModuleName"

def IdentityError.message : IdentityError → String
  | missingModuleName => "module name is required"

structure ModuleId where
  app : String
  name : String
  distinct : String
  name_ne : name ≠ ""
deriving DecidableEq

namespace ModuleId

/-- The module named by these parts, absent ones taking their defaults. -/
def of (app : Option String) (name : String) (distinct : Option String) :
    Except IdentityError ModuleId :=
  if h : name = "" then .error .missingModuleName
  else .ok ⟨app.getD name, name, distinct.getD "", h⟩

def toTriple (id : ModuleId) : Triple := ⟨id.app, id.name, id.distinct⟩

/-- The module that a sent name stands for; an empty application counts as absent. -/
def ofTriple (triple : Triple) : Except IdentityError ModuleId :=
  of (if triple.app = "" then none else some triple.app) triple.module (some triple.distinct)

def text (id : ModuleId) : String :=
  id.app ++ "/" ++ id.name ++ if id.distinct = "" then "" else "/" ++ id.distinct

def compare (a b : ModuleId) : Ordering :=
  (Ord.compare a.app b.app).then ((Ord.compare a.name b.name).then
    (Ord.compare a.distinct b.distinct))

instance : Ord ModuleId := ⟨compare⟩

def sorted (ids : List ModuleId) : List ModuleId :=
  ids.mergeSort fun a b => (compare a b).isLE

end ModuleId

end Farcall
