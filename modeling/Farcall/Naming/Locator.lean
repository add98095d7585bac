import Farcall.Naming.Module

set_option autoImplicit false

/-!
# Locators

A locator names exactly one remote target: a module, a bean in it, the view that is called, and
the key that the kind of target needs. Its reduced form is the byte string that stands for it
elsewhere: five texts, a kind byte and, for kinds that have one, the key as a blob.
-/

namespace Farcall

structure PrimaryKey where
  bytes : Bytes
deriving DecidableEq

def PrimaryKey.text (key : PrimaryKey) : String :=
  "PrimaryKey(" ++ Text.hexList key.bytes ++ ")"

inductive TargetKind where
  | stateless
  /-- Every invocation carries the session. -/
  | stateful (session : SessionId)
  | entity (key : PrimaryKey)
  | home
deriving DecidableEq

structure Locator where
  module : ModuleId
  bean : String
  view : String
  kind : TargetKind
deriving DecidableEq

inductive SerializationError where
  | notSerializable
  | unknownLocatorKind (kind : UInt8)
  | trailingBytes (count : Nat)
  | wire (fault : WireError)
  | identity (fault : IdentityError)
deriving DecidableEq, Repr

namespace SerializationError

instance : FromWire SerializationError := ⟨.wire⟩

def kind : SerializationError → String
  | notSerializable => "NotSerializable"
  | unknownLocatorKind _ => "UnknownLocatorKind"
  | trailingBytes _ => "TrailingBytes"
  | wire fault => "Pack." ++ fault.kind
  | identity fault => "Identity." ++ fault.kind

def message : SerializationError → String
  | notSerializable => "asynchronous proxies are not serializable"
  | unknownLocatorKind kind => s!"unknown locator kind {kind}"
  | trailingBytes count => s!"{count} trailing bytes after serialized handler"
  | wire fault => "malformed serialized form: " ++ fault.message
  | identity fault => fault.message

end SerializationError

namespace TargetKind

def code : TargetKind → UInt8
  | stateless => 0
  | stateful _ => 1
  | entity _ => 2
  | home => 3

def key? : TargetKind → Option Bytes
  | stateful session => some session.bytes
  | entity key => some key.bytes
  | stateless | home => none

def encode (kind : TargetKind) : Except WireError Bytes :=
  match kind.key? with
  | some key => do return Wire.u8 kind.code ++ (← Wire.blob key)
  | none => .ok (Wire.u8 kind.code)

def decoder : Decoder SerializationError TargetKind := do
  let code ← Decoder.u8
  if code = 0 then return stateless
  else if code = 1 then return stateful ⟨← Decoder.blob⟩
  else if code = 2 then return entity ⟨← Decoder.blob⟩
  else if code = 3 then return home
  else Decoder.fail (.unknownLocatorKind code)

def text : TargetKind → String
  | stateless => ""
  | stateful session => " (" ++ session.text ++ ")"
  | entity key => " (" ++ key.text ++ ")"
  | home => " (home)"

end TargetKind

namespace Locator

def session (locator : Locator) : Option SessionId :=
  match locator.kind with
  | .stateful session => some session
  | _ => none

def primaryKey (locator : Locator) : Option PrimaryKey :=
  match locator.kind with
  | .entity key => some key
  | _ => none

def isHome (locator : Locator) : Bool :=
  match locator.kind with
  | .home => true
  | _ => false

def text (locator : Locator) : String :=
  locator.module.text ++ "/" ++ locator.bean ++ "!" ++ locator.view ++ locator.kind.text

def encode (locator : Locator) : Except WireError Bytes := do
  let app ← Wire.text locator.module.app
  let name ← Wire.text locator.module.name
  let distinct ← Wire.text locator.module.distinct
  let bean ← Wire.text locator.bean
  let view ← Wire.text locator.view
  return app ++ name ++ distinct ++ bean ++ view ++ (← locator.kind.encode)

/-- Reads a reduced form; the module has to have a name before anything behind it is read. -/
def decoder : Decoder SerializationError Locator := do
  let app ← Decoder.text
  let name ← Decoder.text
  let distinct ← Decoder.text
  match ModuleId.of (some app) name (some distinct) with
  | .error fault => Decoder.fail (.identity fault)
  | .ok module =>
    let bean ← Decoder.text
    let view ← Decoder.text
    return ⟨module, bean, view, ← TargetKind.decoder⟩

def digestOnto (digest : UInt64) (bytes : Bytes) : UInt64 :=
  bytes.foldl (fun h b => (h ^^^ b.toUInt64) * 0x100000001b3) digest

/-- A digest that covers every field, so that equal locators agree. No text holds the byte `0xff`
that ends one. -/
def hashCode (locator : Locator) : UInt64 :=
  let texts := [locator.module.app, locator.module.name, locator.module.distinct, locator.bean,
    locator.view].flatMap fun s => Bytes.ofText s ++ [0xff]
  digestOnto 0xcbf29ce484222325 (texts ++ locator.kind.code :: locator.kind.key?.getD [])

end Locator

end Farcall
