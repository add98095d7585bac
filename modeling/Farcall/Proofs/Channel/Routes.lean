import Farcall.Channel.Association
import Farcall.Proofs.Wire.Reading

set_option autoImplicit false

/-!
# Routes

A channel reads a message only as far as it has to, and one decoder says how far that is: to the
header of a message that clients send, to the id of an answer, and to the end of anything else. What
the channel does then needs no more bytes. A whole message is such a route and what completes it, so
that a message read in two parts, by the channel and later by whoever claims the result, is still
read by one decoder.
-/

namespace Farcall

open Decoder

/-- What a channel knows of a message when it stops reading. -/
inductive Route where
  | foreign (header : Header)
  | answer (kind : AnswerKind) (id : UInt16)
  | announcement (news : ModuleAvailability)
  | notification (id : UInt16)

/-! ## Answers -/

def Message.outcome : Message → CallResult
  | sessionOpenResponse _ tail => .ok (.session tail.session)
  | invocationResponse _ tail => (Payload.decodeResult tail.payload).mapError .codec
  | failure kind _ tail => .error (.remote kind tail.message)
  | txResponse _ (some v) => .ok (.long (Int64.ofNat v.toNat))
  | _ => .ok .unit

def CallResult.ofDecoded : Except FrameError CallResult → CallResult
  | .ok result => result
  | .error e => .error (.protocol e)

namespace AnswerKind

def tail : AnswerKind → Decoder FrameError CallResult
  | session => do return .ok (.session (← SessionOpenTail.decoder).session)
  | response => do return (Payload.decodeResult (← ResponseTail.decoder).payload).mapError .codec
  | failure kind => do return .error (.remote kind (← FailureTail.decoder kind).message)
  | transaction => do
    match ← outcomeDecoder with
    | some v => return .ok (.long (Int64.ofNat v.toNat))
    | none => return .ok .unit

def message (kind : AnswerKind) (id : UInt16) : Decoder FrameError Message :=
  match kind with
  | session => do return .sessionOpenResponse id (← SessionOpenTail.decoder)
  | response => do return .invocationResponse id (← ResponseTail.decoder)
  | failure kind => do return .failure kind id (← FailureTail.decoder kind)
  | transaction => do return .txResponse id (← outcomeDecoder)

theorem read_eq (kind : AnswerKind) (input : Input) :
    kind.read input = .ofDecoded (kind.tail.run input).1 := by
  cases kind with
  | session =>
    simp only [read, tail, run_bind]
    cases SessionOpenTail.decoder.run input with
    | mk decoded rest => cases decoded <;> rfl
  | response =>
    simp only [read, tail, run_bind]
    cases ResponseTail.decoder.run input with
    | mk decoded rest => cases decoded <;> rfl
  | failure kind =>
    simp only [read, tail, run_bind]
    cases (FailureTail.decoder kind).run input with
    | mk decoded rest => cases decoded <;> rfl
  | transaction =>
    simp only [read, tail, run_bind]
    cases outcomeDecoder.run input with
    | mk decoded rest =>
      cases decoded with
      | error e => rfl
      | ok value => cases value <;> rfl

theorem tail_eq (kind : AnswerKind) (id : UInt16) :
    kind.tail = kind.message id >>= fun message => pure message.outcome := by
  cases kind with
  | session | response | failure =>
    simp only [tail, message, bind_assoc]
    rfl
  | transaction =>
    simp only [tail, message, bind_assoc]
    congr 1
    funext value
    cases value <;> rfl

/-- A claim gives what the answer says as a message, or the error of reading that message. -/
theorem read_of_message (kind : AnswerKind) (id : UInt16) (input : Input) :
    kind.read input = .ofDecoded (((kind.message id).run input).1.map Message.outcome) := by
  rw [read_eq, tail_eq kind id, run_bind]
  cases (kind.message id).run input with
  | mk decoded rest => cases decoded <;> rfl

end AnswerKind

/-! ## Reading in two parts -/

namespace Route

def behind (header : Header) : Decoder FrameError Route :=
  match header.inbound? with
  | none => pure (foreign header)
  | some (.answer kind) => do return answer kind (← idDecoder)
  | some (.availability available) => do
    return announcement (← ModuleAvailability.decoder available)
  | some .notification => do return notification (← idDecoder)

def decoder : Decoder FrameError Route := do
  behind (← Header.decoder)

def completion : Route → Decoder FrameError Message
  | foreign header => Message.bodyDecoder header
  | answer kind id => kind.message id
  | announcement news => pure (.moduleAvailability news)
  | notification id => pure (.asyncMethodNotification id)

theorem withId_bind {α β : Type} (tail : Decoder FrameError α)
    (f : UInt16 × α → Decoder FrameError β) :
    withId tail >>= f = idDecoder >>= fun id => tail >>= fun a => f (id, a) := by
  simp only [withId, bind_assoc]
  rfl

theorem body_eq (header : Header) :
    Message.bodyDecoder header = behind header >>= completion := by
  cases header with
  | sessionOpenResponse | invocationResponse | txResponse | applicationException | noSuchComponent
  | noSuchMethod | sessionNotActive | notStateful =>
    simp only [Message.bodyDecoder, Message.failureDecoder, withId_bind, behind, Header.inbound?,
      bind_assoc]
    rfl
  | moduleAvailable | moduleUnavailable | asyncMethodNotification =>
    simp only [Message.bodyDecoder, behind, Header.inbound?, bind_assoc]
    rfl
  | _ => rfl

theorem message_eq : Message.decoder = decoder >>= completion := by
  simp only [Message.decoder, decoder, bind_assoc, body_eq]

end Route

/-! ## The header of a message -/

theorem ModuleAvailability.gives_decoder (available : Bool) :
    (ModuleAvailability.decoder available).Gives (·.available = available) :=
  Gives.bind (gives_of_forall _ fun _ => rfl)

theorem TxKind.gives_decoder (header : Header) :
    (TxKind.decoder header).Gives (·.header = header) := by
  cases header with
  | txCommit => exact Gives.bind (gives_of_forall _ fun _ => rfl)
  | txRollback | txPrepare | txForget | txBeforeCompletion => rfl
  | _ => trivial

theorem TxRequest.gives_decoder (header : Header) :
    (TxRequest.decoder header).Gives (·.kind.header = header) := by
  refine Gives.bind (gives_of_forall _ fun id => ?_)
  refine Gives.bind (gives_of_forall _ fun transaction => ?_)
  exact Gives.bind ((TxKind.gives_decoder header).mono fun kind own => own)

theorem Message.gives_bodyDecoder (header : Header) :
    (bodyDecoder header).Gives (·.header = header) := by
  cases header with
  | moduleAvailable | moduleUnavailable =>
    refine Gives.bind ((ModuleAvailability.gives_decoder _).mono fun news own => ?_)
    change news.header = _
    rw [ModuleAvailability.header, own]
    rfl
  | txCommit | txRollback | txPrepare | txForget | txBeforeCompletion =>
    exact Gives.bind ((TxRequest.gives_decoder _).mono fun request own => own)
  | _ => exact Gives.bind (gives_of_forall _ fun _ => rfl)

/-! ## What a channel does with a route -/

namespace Association

/-- What is done with a message once the channel has read its part of it; `input` is what is left
of it. -/
def settle (association : Association) (registry : Registry) (input : Input) :
    Except FrameError Route → Processed
  | .error e => association.refuse registry input (.protocol e)
  | .ok (.foreign header) => association.refuse registry input (notFromHost header)
  | .ok (.answer kind id) =>
    let (_, association, events) := association.resultReady id (.answer kind input)
    ⟨.ok (), association, registry, events⟩
  | .ok (.announcement announcement) =>
    match input.close with
    | (.error fault, events) => ⟨.error (.close fault), association, registry, events⟩
    | (.ok (), events) =>
      let (association, registry) := association.modulesChanged registry announcement
      ⟨.ok (), association, registry, events⟩
  | .ok (.notification id) =>
    match input.close with
    | (.error fault, events) => ⟨.error (.close fault), association, registry, events⟩
    | (.ok (), events) => ⟨.ok (), (association.proceedAsync id).2, registry, events⟩

variable (association : Association) (registry : Registry)

theorem processAnswer_eq (kind : AnswerKind) (input : Input) :
    association.processAnswer registry kind input =
      association.settle registry (idDecoder.run input).2
        ((idDecoder.run input).1.map (Route.answer kind)) := by
  unfold processAnswer
  cases idDecoder.run input with
  | mk decoded rest => cases decoded <;> rfl

theorem processAvailability_eq (available : Bool) (input : Input) :
    association.processAvailability registry available input =
      association.settle registry ((ModuleAvailability.decoder available).run input).2
        (((ModuleAvailability.decoder available).run input).1.map Route.announcement) := by
  unfold processAvailability
  cases (ModuleAvailability.decoder available).run input with
  | mk decoded rest =>
    cases decoded with
    | error e => rfl
    | ok announcement =>
      have renamed : (Except.ok announcement).mapError InvocationError.protocol = .ok announcement := rfl
      simp only [settle, Input.finish, renamed, Except.map]
      cases rest.close with
      | mk closed events => cases closed <;> rfl

theorem processNotification_eq (input : Input) :
    association.processNotification registry input =
      association.settle registry (idDecoder.run input).2
        ((idDecoder.run input).1.map Route.notification) := by
  unfold processNotification
  cases idDecoder.run input with
  | mk decoded rest =>
    cases decoded with
    | error e => rfl
    | ok id =>
      have renamed : (Except.ok id).mapError InvocationError.protocol = .ok id := rfl
      simp only [settle, Input.finish, renamed, Except.map]
      cases rest.close with
      | mk closed events => cases closed <;> rfl

theorem process_eq (input : Input) : association.process registry input =
    association.settle registry (Route.decoder.run input).2 (Route.decoder.run input).1 := by
  unfold process Route.decoder
  rw [run_bind]
  cases Header.decoder.run input with
  | mk decoded rest =>
    cases decoded with
    | error e => rfl
    | ok header =>
      simp only [Route.behind]
      cases header.inbound? with
      | none => rfl
      | some inbound =>
        cases inbound with
        | answer kind =>
          simp only [run_map, processAnswer_eq]
        | availability available =>
          simp only [run_map, processAvailability_eq]
        | notification =>
          simp only [run_map, processNotification_eq]

/-- The table hears of answers and of notifications, and of nothing else. -/
theorem table_process (input : Input) :
    (association.process registry input).association.table = association.table ∨
    (∃ kind id rest, Route.decoder.run input = (.ok (.answer kind id), rest) ∧
      (association.process registry input).association.table =
        (association.table.fulfill id (.answer kind rest)).2) ∨
    ∃ id rest, Route.decoder.run input = (.ok (.notification id), rest) ∧
      (association.process registry input).association.table =
        (association.table.proceedAsync id).2 := by
  rw [process_eq]
  cases Route.decoder.run input with
  | mk decoded rest =>
    cases decoded with
    | error e => exact .inl rfl
    | ok route =>
      cases route with
      | foreign header => exact .inl rfl
      | answer kind id => exact .inr (.inl ⟨kind, id, rest, rfl, rfl⟩)
      | announcement news =>
        simp only [settle]
        cases rest.close with
        | mk closed events =>
          cases closed with
          | error fault => exact .inl rfl
          | ok done =>
            simp only [modulesChanged]
            split <;> exact .inl rfl
      | notification id =>
        simp only [settle]
        cases rest.close with
        | mk closed events =>
          cases closed with
          | error fault => exact .inl rfl
          | ok done => exact .inr (.inr ⟨id, rest, rfl, rfl⟩)

theorem closed_process (input : Input) :
    (association.process registry input).association.closed = association.closed := by
  rw [process_eq]
  cases Route.decoder.run input with
  | mk decoded rest =>
    cases decoded with
    | error e => rfl
    | ok route =>
      cases route with
      | foreign header => rfl
      | answer kind id => rfl
      | announcement news =>
        simp only [settle]
        cases rest.close with
        | mk closed events =>
          cases closed with
          | error fault => rfl
          | ok done =>
            simp only [modulesChanged]
            split <;> rfl
      | notification id =>
        simp only [settle]
        cases rest.close with
        | mk closed events =>
          cases closed with
          | error fault => rfl
          | ok done => rfl

end Association

end Farcall
