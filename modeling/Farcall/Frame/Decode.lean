import Farcall.Frame.Message

set_option autoImplicit false

/-!
# Reading messages

`Message.decode` reads a header, the fields that this header announces, and then nothing more: a
byte that is left over is an error. Receivers that decode late use `idDecoder` and the tail
decoders on their own; a tail says nothing about what follows it.
-/

namespace Farcall

open Decoder

def idDecoder : Decoder FrameError UInt16 := u16

def Triple.decoder : Decoder FrameError Triple := do
  let app ← text
  let module ← text
  return ⟨app, module, ← text⟩

def SessionOpenRequest.decoder : Decoder FrameError SessionOpenRequest := do
  let id ← idDecoder
  let module ← Triple.decoder
  let bean ← text
  return ⟨id, module, bean, ← Attachments.decoder⟩

def SessionOpenTail.decoder : Decoder FrameError SessionOpenTail := do
  let session ← blob
  return ⟨⟨session⟩, ← Attachments.decoder⟩

def sessionDecoder : Decoder FrameError (Option SessionId) := do
  if ← bool then return some ⟨← blob⟩ else return none

def InvocationRequest.decoder : Decoder FrameError InvocationRequest := do
  let id ← idDecoder
  let module ← Triple.decoder
  let bean ← text
  let view ← text
  let method ← text
  let signature ← counted text
  let session ← sessionDecoder
  let payload ← blob
  return ⟨id, module, bean, view, method, signature, session, payload, ← Attachments.decoder⟩

def ResponseTail.decoder : Decoder FrameError ResponseTail := do
  let payload ← blob
  return ⟨payload, ← Attachments.decoder⟩

def FailureTail.decoder (kind : FailureKind) : Decoder FrameError FailureTail := do
  let message ← text
  if kind.hasAttachments then return ⟨message, ← Attachments.decoder⟩
  else return ⟨message, .empty⟩

def ModuleAvailability.decoder (available : Bool) : Decoder FrameError ModuleAvailability := do
  return ⟨available, ← counted Triple.decoder⟩

def TxKind.decoder : Header → Decoder FrameError TxKind
  | .txCommit => do return .commit (← bool)
  | .txRollback => return .rollback
  | .txPrepare => return .prepare
  | .txForget => return .forget
  | .txBeforeCompletion => return .beforeCompletion
  | other => fail (.violation (other.name ++ " is not a transaction request"))

def TxRequest.decoder (header : Header) : Decoder FrameError TxRequest := do
  let id ← idDecoder
  let transaction ← blob
  return ⟨id, ← TxKind.decoder header, ⟨transaction⟩⟩

def outcomeDecoder : Decoder FrameError (Option UInt32) := do
  if ← bool then return some (← packed) else return none

def withId {α : Type} (tail : Decoder FrameError α) : Decoder FrameError (UInt16 × α) := do
  let id ← idDecoder
  return (id, ← tail)

namespace Message

def failureDecoder (kind : FailureKind) : Decoder FrameError Message := do
  let (id, tail) ← withId (FailureTail.decoder kind)
  return failure kind id tail

def bodyDecoder : Header → Decoder FrameError Message
  | .sessionOpenRequest => return sessionOpenRequest (← SessionOpenRequest.decoder)
  | .sessionOpenResponse => do
    let (id, tail) ← withId SessionOpenTail.decoder
    return sessionOpenResponse id tail
  | .invocationRequest => return invocationRequest (← InvocationRequest.decoder)
  | .invocationCancel => do
    let (id, mayInterrupt) ← withId bool
    return cancel id mayInterrupt
  | .invocationResponse => do
    let (id, tail) ← withId ResponseTail.decoder
    return invocationResponse id tail
  | .applicationException => failureDecoder .applicationException
  | .moduleAvailable => return moduleAvailability (← ModuleAvailability.decoder true)
  | .moduleUnavailable => return moduleAvailability (← ModuleAvailability.decoder false)
  | .noSuchComponent => failureDecoder .noSuchComponent
  | .noSuchMethod => failureDecoder .noSuchMethod
  | .sessionNotActive => failureDecoder .sessionNotActive
  | .notStateful => failureDecoder .notStateful
  | .asyncMethodNotification => return asyncMethodNotification (← idDecoder)
  | .txCommit => return txRequest (← TxRequest.decoder .txCommit)
  | .txRollback => return txRequest (← TxRequest.decoder .txRollback)
  | .txPrepare => return txRequest (← TxRequest.decoder .txPrepare)
  | .txForget => return txRequest (← TxRequest.decoder .txForget)
  | .txBeforeCompletion => return txRequest (← TxRequest.decoder .txBeforeCompletion)
  | .txResponse => do
    let (id, value) ← withId outcomeDecoder
    return txResponse id value

def decoder : Decoder FrameError Message := do
  bodyDecoder (← Header.decoder)

/-- The message that fills the bytes exactly. -/
def decode (bytes : Bytes) : Except FrameError Message :=
  match decoder.run bytes with
  | (.ok message, []) => .ok message
  | (.ok message, rest) =>
    .error (.violation s!"{rest.length} trailing bytes after {message.header.name}")
  | (.error e, _) => .error e

end Message

end Farcall
