import Farcall.Config
import Farcall.Registry
import Farcall.Transaction
import Farcall.Value.Payload

set_option autoImplicit false

/-!
# Invocation errors

What a caller sees when a call fails: it could not be sent, it was not answered, the host answered
with a failure, or the answer could not be used. `message` gives the text of each.
-/

namespace Farcall

inductive CorrelationError where
  | exhausted (limit : Nat)
  | alreadyClaimed (id : UInt16)
deriving DecidableEq, Repr

def CorrelationError.kind : CorrelationError → String
  | exhausted _ => "Exhausted"
  | alreadyClaimed _ => "AlreadyClaimed"

def CorrelationError.message : CorrelationError → String
  | exhausted limit => s!"{limit} invocations already outstanding on this channel"
  | alreadyClaimed id => s!"result of invocation {id} was already claimed"

inductive InvocationError where
  | noClientContext
  | noSuchReceiver (module : ModuleId)
  | unknownReceiver (id : ReceiverId)
  | remoteInvocation (text : String)
  | remote (kind : FailureKind) (text : String)
  | timeout (id : UInt16)
  | cancelled (id : UInt16)
  | channelClosed (reason : String)
  | correlation (fault : CorrelationError)
  | protocol (fault : FrameError)
  | codec (fault : CodecError)
  | transaction (fault : XaError)
  | identity (fault : IdentityError)
  | serialization (fault : SerializationError)
  /-- The result was read, but its input could not be closed. -/
  | close (fault : IoFault)
  | unexpectedResult (expected : String) (found : Value)
deriving DecidableEq

namespace InvocationError

/-- The name of an error for programs; it starts with the stage that failed. -/
def kind : InvocationError → String
  | noClientContext => "NoClientContext"
  | noSuchReceiver _ => "NoSuchReceiver"
  | unknownReceiver _ => "UnknownReceiver"
  | remoteInvocation _ => "RemoteInvocation"
  | remote kind _ => "Remote." ++ kind.name
  | timeout _ => "Timeout"
  | cancelled _ => "Cancelled"
  | channelClosed _ => "ChannelClosed"
  | correlation fault => "Correlation." ++ fault.kind
  | protocol fault => "Protocol." ++ fault.kind
  | codec fault => "Codec." ++ fault.kind
  | transaction fault => "Transaction." ++ fault.kind
  | identity fault => "Identity." ++ fault.kind
  | serialization fault => "Serialization." ++ fault.kind
  | close _ => "Close"
  | unexpectedResult _ _ => "UnexpectedResult"

def message : InvocationError → String
  | noClientContext => "no client context is active on this task"
  | noSuchReceiver module => "no receiver accepts module " ++ module.text
  | unknownReceiver id => s!"receiver {id.text} is not registered with this client context"
  | remoteInvocation text => text
  | remote kind text => s!"remote {kind.name}: {text}"
  | timeout id => s!"invocation {id} timed out"
  | cancelled id => s!"invocation {id} was cancelled"
  | channelClosed reason => "channel closed: " ++ reason
  | correlation fault => fault.message
  | protocol fault => "protocol error: " ++ fault.message
  | codec fault => "codec error: " ++ fault.message
  | transaction fault => fault.message
  | identity fault => fault.message
  | serialization fault => fault.message
  | close fault => "failed to close message input: " ++ fault.message
  | unexpectedResult expected found => s!"expected {expected} result, got {found.typeName}"

end InvocationError

abbrev CallResult := Except InvocationError Value

end Farcall
