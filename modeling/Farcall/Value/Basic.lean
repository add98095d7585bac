import Farcall.Naming.Handler

set_option autoImplicit false

/-!
# Values

What flows through a client as arguments and results.
-/

namespace Farcall

inductive Value where
  | unit
  | bool (b : Bool)
  | int (v : Int32)
  | long (v : Int64)
  | text (s : String)
  | bytes (data : Bytes)
  | primaryKey (key : PrimaryKey)
  | session (id : SessionId)
  | handle (target : Locator)
  | homeHandle (target : Locator)
  /-- Another proxy; only locally answered methods can do something with it. -/
  | proxy (p : Proxy)
deriving DecidableEq

namespace Value

def typeName : Value → String
  | unit => "unit"
  | bool _ => "bool"
  | int _ => "int"
  | long _ => "long"
  | text _ => "string"
  | bytes _ => "bytes"
  | primaryKey _ => "primary-key"
  | session _ => "session"
  | handle _ => "handle"
  | homeHandle _ => "home-handle"
  | proxy _ => "proxy"

def asProxy? : Value → Option Proxy
  | proxy p => some p
  | _ => none

/-- Equality of values; proxies are compared by target and view. -/
def same : Value → Value → Bool
  | proxy a, proxy b => a.same b
  | a, b => a = b

end Value

end Farcall
