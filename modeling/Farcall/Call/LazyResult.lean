import Farcall.Call.Error
import Farcall.Frame.Decode
import Farcall.Input

set_option autoImplicit false

/-!
# Lazy results

A result that is decoded by whoever claims it, or discarded undecoded. An answer from the host
holds its message input, read up to the id. Reading and discarding both close the input; a fault of
closing shows only where decoding gave a value.
-/

namespace Farcall

inductive AnswerKind where
  | session
  | response
  | failure (kind : FailureKind)
  | transaction
deriving DecidableEq, Repr

inductive LazyResult where
  /-- A result that is known already; a labelled one reports what becomes of it. -/
  | known (label : Option String) (result : CallResult)
  | answer (kind : AnswerKind) (input : Input)

namespace AnswerKind

def read (kind : AnswerKind) (input : Input) : CallResult :=
  match kind with
  | session =>
    match (SessionOpenTail.decoder.run input).1 with
    | .ok tail => .ok (.session tail.session)
    | .error e => .error (.protocol e)
  | response =>
    match (ResponseTail.decoder.run input).1 with
    | .ok tail => (Payload.decodeResult tail.payload).mapError .codec
    | .error e => .error (.protocol e)
  | failure kind =>
    match ((FailureTail.decoder kind).run input).1 with
    | .ok tail => .error (.remote kind tail.message)
    | .error e => .error (.protocol e)
  | transaction =>
    match (outcomeDecoder.run input).1 with
    | .ok (some v) => .ok (.long (Int64.ofNat v.toNat))
    | .ok none => .ok .unit
    | .error e => .error (.protocol e)

end AnswerKind

/-- Closes an input behind a decoder: a fault of closing counts only if decoding succeeded. -/
def Input.finish {α : Type} (input : Input) (decoded : Except InvocationError α) :
    Except InvocationError α × List Event :=
  match decoded, input.close with
  | .ok a, (.ok (), events) => (.ok a, events)
  | .ok _, (.error fault, events) => (.error (.close fault), events)
  | .error e, (_, events) => (.error e, events)

namespace LazyResult

def read : LazyResult → CallResult × List Event
  | known label result => (result, label.toList.map .got)
  | answer kind input => input.finish (kind.read input)

def discard : LazyResult → List Event
  | known label _ => label.toList.map .discarded
  | answer _ input => input.release

/-- The result goes away with whoever held it. -/
def drop : LazyResult → List Event
  | known label _ => label.toList.map .dropped
  | answer _ input => input.release

end LazyResult

end Farcall
