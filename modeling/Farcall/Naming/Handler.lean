import Farcall.Naming.Locator

set_option autoImplicit false

/-!
# Handlers

What stands behind a proxy: a locator and the mode of its calls. Two handlers are the same when
their locators are equal, whatever their modes. A synchronous handler can be reduced to bytes; an
asynchronous one cannot, because the mode belongs to the place of the call.
-/

namespace Farcall

inductive Mode where
  | sync
  | async
deriving DecidableEq, Repr

def Mode.name : Mode → String
  | sync => "Sync"
  | async => "Async"

structure Handler where
  locator : Locator
  mode : Mode
deriving DecidableEq

namespace Handler

def ofLocator (locator : Locator) : Handler := ⟨locator, .sync⟩

def asAsync (handler : Handler) : Handler := { handler with mode := .async }

def same (a b : Handler) : Bool := a.locator = b.locator

def serialize (handler : Handler) : Except SerializationError Bytes :=
  match handler.mode with
  | .async => .error .notSerializable
  | .sync => handler.locator.encode.mapError .wire

/-- The synchronous handler that fills the bytes exactly. -/
def deserialize (bytes : Bytes) : Except SerializationError Handler :=
  match Locator.decoder.run bytes with
  | (.ok locator, []) => .ok (ofLocator locator)
  | (.ok _, rest) => .error (.trailingBytes rest.length)
  | (.error e, _) => .error e

end Handler

/-- What an interface offers beyond its business methods. -/
inductive ViewKind where
  | business
  | remoteObject
  | home
deriving DecidableEq, Repr

structure Proxy where
  handler : Handler
  view : ViewKind
deriving DecidableEq

namespace Proxy

def locator (proxy : Proxy) : Locator := proxy.handler.locator

def same (a b : Proxy) : Bool := a.handler.same b.handler && a.view = b.view

def text (proxy : Proxy) : String :=
  "Proxy for remote component " ++ proxy.locator.text

end Proxy

end Farcall
