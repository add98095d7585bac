import Farcall.Text.Duration
import Farcall.Text.Record

set_option autoImplicit false

/-!
# Configuration

The limits of a client: how long it waits, in milliseconds, and how many calls one channel may
have under way.
-/

namespace Farcall

def idCount : Nat := 65536

/-- A limit on outstanding calls, brought between one and the number of ids. -/
def clampLimit (limit : Nat) : Nat := max 1 (min limit idCount)

structure Config where
  invocationTimeout : Nat
  sessionOpenTimeout : Nat
  transactionTimeout : Nat
  maxOutstanding : Nat
deriving DecidableEq, Repr

namespace Config

/-- Thirty seconds for every wait and 4096 calls on a channel. -/
def default : Config := ⟨30000, 30000, 30000, 4096⟩

instance : Inhabited Config := ⟨default⟩

def withMaxOutstanding (config : Config) (limit : Nat) : Config :=
  { config with maxOutstanding := clampLimit limit }

def text (config : Config) : String :=
  Text.recordText "ClientConfig" [
    ("invocation_timeout", Text.durationText config.invocationTimeout),
    ("session_open_timeout", Text.durationText config.sessionOpenTimeout),
    ("transaction_timeout", Text.durationText config.transactionTimeout),
    ("max_outstanding", toString config.maxOutstanding)]

end Config

end Farcall
