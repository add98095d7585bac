import Farcall.Frame.Attachments

set_option autoImplicit false

/-!
# Messages

The vocabulary of the channel. A message is its header byte followed by fields in a fixed order;
requests and answers begin with the 16-bit id that pairs them, and the part of an answer behind
that id is its tail. Only application exceptions carry attachments among the failures, and only a
commit says whether it is in one phase.
-/

namespace Farcall

structure SessionId where
  bytes : Bytes
deriving DecidableEq

structure TransactionId where
  bytes : Bytes
deriving DecidableEq

def SessionId.text (id : SessionId) : String := "session-" ++ Text.hexText id.bytes

def TransactionId.text (id : TransactionId) : String := "tx-" ++ Text.hexText id.bytes

structure Triple where
  app : String
  module : String
  distinct : String
deriving DecidableEq

structure SessionOpenRequest where
  id : UInt16
  module : Triple
  bean : String
  attachments : Attachments
deriving DecidableEq

structure SessionOpenTail where
  session : SessionId
  attachments : Attachments
deriving DecidableEq

structure InvocationRequest where
  id : UInt16
  module : Triple
  bean : String
  view : String
  method : String
  signature : List String
  session : Option SessionId
  payload : Bytes
  attachments : Attachments
deriving DecidableEq

structure ResponseTail where
  payload : Bytes
  attachments : Attachments
deriving DecidableEq

inductive FailureKind where
  | applicationException
  | noSuchComponent
  | noSuchMethod
  | sessionNotActive
  | notStateful
deriving DecidableEq, Repr

structure FailureTail where
  message : String
  attachments : Attachments
deriving DecidableEq

structure ModuleAvailability where
  available : Bool
  modules : List Triple
deriving DecidableEq

/-- A step of two-phase completion. -/
inductive TxKind where
  | commit (onePhase : Bool)
  | rollback
  | prepare
  | forget
  | beforeCompletion
deriving DecidableEq, Repr

structure TxRequest where
  id : UInt16
  kind : TxKind
  transaction : TransactionId
deriving DecidableEq

inductive Message where
  | sessionOpenRequest (request : SessionOpenRequest)
  | sessionOpenResponse (id : UInt16) (tail : SessionOpenTail)
  | invocationRequest (request : InvocationRequest)
  | cancel (id : UInt16) (mayInterrupt : Bool)
  | invocationResponse (id : UInt16) (tail : ResponseTail)
  | failure (kind : FailureKind) (id : UInt16) (tail : FailureTail)
  | moduleAvailability (announcement : ModuleAvailability)
  | asyncMethodNotification (id : UInt16)
  | txRequest (request : TxRequest)
  | txResponse (id : UInt16) (value : Option UInt32)
deriving DecidableEq

namespace FailureKind

def all : List FailureKind :=
  [applicationException, noSuchComponent, noSuchMethod, sessionNotActive, notStateful]

def header : FailureKind → Header
  | applicationException => .applicationException
  | noSuchComponent => .noSuchComponent
  | noSuchMethod => .noSuchMethod
  | sessionNotActive => .sessionNotActive
  | notStateful => .notStateful

def ofHeader? : Header → Option FailureKind
  | .applicationException => some applicationException
  | .noSuchComponent => some noSuchComponent
  | .noSuchMethod => some noSuchMethod
  | .sessionNotActive => some sessionNotActive
  | .notStateful => some notStateful
  | _ => none

def name (kind : FailureKind) : String := kind.header.name

def hasAttachments : FailureKind → Bool
  | applicationException => true
  | _ => false

end FailureKind

def ModuleAvailability.header (announcement : ModuleAvailability) : Header :=
  if announcement.available then .moduleAvailable else .moduleUnavailable

namespace TxKind

def all (onePhase : Bool) : List TxKind :=
  [commit onePhase, rollback, prepare, forget, beforeCompletion]

def header : TxKind → Header
  | commit _ => .txCommit
  | rollback => .txRollback
  | prepare => .txPrepare
  | forget => .txForget
  | beforeCompletion => .txBeforeCompletion

def name : TxKind → String
  | commit _ => "Commit"
  | rollback => "Rollback"
  | prepare => "Prepare"
  | forget => "Forget"
  | beforeCompletion => "BeforeCompletion"

end TxKind

def Message.header : Message → Header
  | sessionOpenRequest _ => .sessionOpenRequest
  | sessionOpenResponse _ _ => .sessionOpenResponse
  | invocationRequest _ => .invocationRequest
  | cancel _ _ => .invocationCancel
  | invocationResponse _ _ => .invocationResponse
  | failure kind _ _ => kind.header
  | moduleAvailability announcement => announcement.header
  | asyncMethodNotification _ => .asyncMethodNotification
  | txRequest request => request.kind.header
  | txResponse _ _ => .txResponse

end Farcall
