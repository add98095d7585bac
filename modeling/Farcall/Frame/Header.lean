import Farcall.Text.Hex
import Farcall.Wire.Decoder

set_option autoImplicit false

/-!
# Message headers

Every message starts with one byte that names its kind. Seven has never been given to a kind.
-/

namespace Farcall

inductive Header where
  | sessionOpenRequest
  | sessionOpenResponse
  | invocationRequest
  | invocationCancel
  | invocationResponse
  | applicationException
  | moduleAvailable
  | moduleUnavailable
  | noSuchComponent
  | noSuchMethod
  | sessionNotActive
  | notStateful
  | asyncMethodNotification
  | txCommit
  | txRollback
  | txPrepare
  | txForget
  | txBeforeCompletion
  | txResponse
deriving DecidableEq, Repr

namespace Header

def toByte : Header → UInt8
  | sessionOpenRequest => 0x01
  | sessionOpenResponse => 0x02
  | invocationRequest => 0x03
  | invocationCancel => 0x04
  | invocationResponse => 0x05
  | applicationException => 0x06
  | moduleAvailable => 0x08
  | moduleUnavailable => 0x09
  | noSuchComponent => 0x0a
  | noSuchMethod => 0x0b
  | sessionNotActive => 0x0c
  | notStateful => 0x0d
  | asyncMethodNotification => 0x0e
  | txCommit => 0x0f
  | txRollback => 0x10
  | txPrepare => 0x11
  | txForget => 0x12
  | txBeforeCompletion => 0x13
  | txResponse => 0x14

def all : List Header :=
  [sessionOpenRequest, sessionOpenResponse, invocationRequest, invocationCancel,
    invocationResponse, applicationException, moduleAvailable, moduleUnavailable,
    noSuchComponent, noSuchMethod, sessionNotActive, notStateful, asyncMethodNotification,
    txCommit, txRollback, txPrepare, txForget, txBeforeCompletion, txResponse]

def ofByte? (b : UInt8) : Option Header :=
  all.find? (·.toByte = b)

def name : Header → String
  | sessionOpenRequest => "SessionOpenRequest"
  | sessionOpenResponse => "SessionOpenResponse"
  | invocationRequest => "InvocationRequest"
  | invocationCancel => "InvocationCancel"
  | invocationResponse => "InvocationResponse"
  | applicationException => "ApplicationException"
  | moduleAvailable => "ModuleAvailable"
  | moduleUnavailable => "ModuleUnavailable"
  | noSuchComponent => "NoSuchComponent"
  | noSuchMethod => "NoSuchMethod"
  | sessionNotActive => "SessionNotActive"
  | notStateful => "NotStateful"
  | asyncMethodNotification => "AsyncMethodNotification"
  | txCommit => "TxCommit"
  | txRollback => "TxRollback"
  | txPrepare => "TxPrepare"
  | txForget => "TxForget"
  | txBeforeCompletion => "TxBeforeCompletion"
  | txResponse => "TxResponse"

instance : Ord Header := ⟨fun a b => compare a.toByte b.toByte⟩

theorem ofByte?_toByte (h : Header) : ofByte? h.toByte = some h := by
  cases h <;> decide

end Header

inductive FrameError where
  | wire (fault : WireError)
  | unknownHeader (byte : UInt8)
  | unexpectedHeader (expected found : Header)
  | violation (text : String)
deriving DecidableEq, Repr

namespace FrameError

instance : FromWire FrameError := ⟨.wire⟩

def kind : FrameError → String
  | wire fault => "Pack." ++ fault.kind
  | unknownHeader _ => "UnknownHeader"
  | unexpectedHeader _ _ => "UnexpectedHeader"
  | violation _ => "ProtocolViolation"

def message : FrameError → String
  | wire fault => "framing error: " ++ fault.message
  | unknownHeader byte => "unknown message header " ++ Text.hexCode byte
  | unexpectedHeader expected found =>
    s!"expected {expected.name} header, found {found.name}"
  | violation text => "protocol violation: " ++ text

end FrameError

namespace Header

def decoder : Decoder FrameError Header := do
  let b ← Decoder.u8
  Decoder.getD (.unknownHeader b) (ofByte? b)

def expect (expected : Header) : Decoder FrameError Unit := do
  let found ← decoder
  if found = expected then return () else Decoder.fail (.unexpectedHeader expected found)

end Header

end Farcall
