import Farcall.Proofs.Channel.Confinement
import Farcall.Proofs.Channel.Routes
import Farcall.Proofs.Correlation.Permanence
import Farcall.Proofs.Frame.RoundTrip
import Farcall.Proofs.Wire.Steady

set_option autoImplicit false

/-!
# Messages read late

A channel hands answers on undecoded, and whoever claims one reads the rest. This comes to the same
as reading every message at once: what the message says takes effect, and what is wrong with it
comes to light, where the channel reads it or else where it is claimed.
-/

namespace Farcall

open Decoder

/-! ## What a message says first -/

def Header.ofBytes? (bytes : Bytes) : Option Header := bytes.head?.bind Header.ofByte?

/-- The call whose answer the bytes are, if they are one that has its id. -/
def answeredId? (bytes : Bytes) : Option UInt16 :=
  match Inbound.ofBytes? bytes with
  | some (.answer _) => messageId? bytes
  | _ => none

/-- The call that a message from a host is about, if it has its id. -/
def calledId? (bytes : Bytes) : Option UInt16 :=
  match Inbound.ofBytes? bytes with
  | some (.answer _) | some .notification => messageId? bytes
  | _ => none

theorem inbound_eq (bytes : Bytes) :
    Inbound.ofBytes? bytes = (Header.ofBytes? bytes).bind Header.inbound? := by
  cases bytes <;> rfl

theorem header_run {b : UInt8} {header : Header} (found : Header.ofByte? b = some header)
    (behind : Bytes) : Header.decoder.run (b :: behind) = (.ok header, behind) := by
  have read : (u8 : Decoder FrameError UInt8).run (b :: behind) = (.ok b, behind) :=
    reads_u8 b behind
  rw [Header.decoder, run_bind_ok read, found]
  rfl

namespace Route

def Named (bytes : Bytes) : Route → Prop
  | foreign header => Header.ofBytes? bytes = some header ∧ header.inbound? = none
  | answer _ id => answeredId? bytes = some id ∧ calledId? bytes = some id
  | announcement _ => answeredId? bytes = none
  | notification id => answeredId? bytes = none ∧ calledId? bytes = some id

theorem messageId_of_idDecoder {b : UInt8} {bytes rest : Bytes} {id : UInt16}
    (given : idDecoder.run bytes = (.ok id, rest)) : messageId? (b :: bytes) = some id := by
  obtain ⟨high, low, rfl, rfl⟩ := id_of_run given
  rfl

theorem of_run {bytes rest : Bytes} {route : Route}
    (given : decoder.run bytes = (.ok route, rest)) :
    ∃ b body header, bytes = b :: body ∧ Header.ofByte? b = some header ∧
      (behind header).run body = (.ok route, rest) := by
  obtain ⟨header, body, first, second⟩ := of_run_bind given
  obtain ⟨b, start, found⟩ := header_of_run first
  exact ⟨b, body, header, start, found, second⟩

theorem named_of_run {bytes rest : Bytes} {route : Route}
    (given : decoder.run bytes = (.ok route, rest)) : route.Named bytes := by
  obtain ⟨b, body, header, rfl, found, second⟩ := of_run given
  have sent : Header.ofBytes? (b :: body) = some header := found
  have sort : Inbound.ofBytes? (b :: body) = header.inbound? := by
    rw [inbound_eq, sent, Option.bind_some]
  unfold behind at second
  split at second
  · next foreign =>
    obtain ⟨same, -⟩ := Prod.mk.inj second
    obtain rfl := Except.ok.inj same
    exact ⟨sent, foreign⟩
  · next kind inbound =>
    obtain ⟨id, middle, first, done⟩ := of_run_bind second
    obtain ⟨same, -⟩ := Prod.mk.inj done
    obtain rfl := Except.ok.inj same
    have named := messageId_of_idDecoder (b := b) first
    simp only [Named, answeredId?, calledId?, sort, inbound, named, and_self]
  · next available inbound =>
    obtain ⟨news, middle, first, done⟩ := of_run_bind second
    obtain ⟨same, -⟩ := Prod.mk.inj done
    obtain rfl := Except.ok.inj same
    simp only [Named, answeredId?, sort, inbound]
  · next inbound =>
    obtain ⟨id, middle, first, done⟩ := of_run_bind second
    obtain ⟨same, -⟩ := Prod.mk.inj done
    obtain rfl := Except.ok.inj same
    have named := messageId_of_idDecoder (b := b) first
    simp only [Named, answeredId?, calledId?, sort, inbound, named, and_self]

theorem run_ofBytes {bytes : Bytes} {result : Except FrameError Route} {rest : Input}
    (given : decoder.run (Input.ofBytes bytes) = (result, rest)) :
    decoder.run bytes = (result, rest.pending) ∧ rest.Steady := by
  obtain ⟨same, pending, steady⟩ := decoder.run_of_steady (Input.steady_ofBytes bytes)
  rw [given] at same pending steady
  exact ⟨Prod.ext same.symm pending.symm, steady⟩

theorem run_of_foreign {bytes : Bytes} {header : Header}
    (sent : Header.ofBytes? bytes = some header) (foreign : header.inbound? = none) :
    decoder.run bytes = (.ok (.foreign header), bytes.tail) := by
  cases bytes with
  | nil => cases sent
  | cons b behind =>
    rw [decoder, run_bind_ok (header_run sent behind)]
    simp only [Route.behind, foreign]
    rfl

theorem run_of_answer {bytes : Bytes} {id : UInt16} (answered : answeredId? bytes = some id) :
    ∃ kind, decoder.run bytes = (.ok (answer kind id), bytes.drop 3) := by
  unfold answeredId? at answered
  split at answered
  · next kind sort =>
    match bytes, answered with
    | b :: high :: low :: bytes, answered =>
      obtain rfl := Option.some.inj answered
      cases found : Header.ofByte? b with
      | none => simp [Inbound.ofBytes?, found] at sort
      | some header =>
        have inbound : header.inbound? = some (.answer kind) := by
          simpa [Inbound.ofBytes?, found] using sort
        refine ⟨kind, ?_⟩
        rw [decoder, run_bind_ok (header_run found _)]
        simp only [behind, inbound, run_map]
        rfl
  · cases answered

theorem run_of_notification {bytes : Bytes} {id : UInt16} (called : calledId? bytes = some id)
    (unanswered : answeredId? bytes = none) :
    decoder.run bytes = (.ok (notification id), bytes.drop 3) := by
  unfold calledId? at called
  split at called
  · next kind sort =>
    rw [answeredId?, sort] at unanswered
    rw [called] at unanswered
    cases unanswered
  · next sort =>
    match bytes, called with
    | b :: high :: low :: bytes, called =>
      obtain rfl := Option.some.inj called
      cases found : Header.ofByte? b with
      | none => simp [Inbound.ofBytes?, found] at sort
      | some header =>
        have inbound : header.inbound? = some .notification := by
          simpa [Inbound.ofBytes?, found] using sort
        rw [decoder, run_bind_ok (header_run found _)]
        simp only [behind, inbound, run_map]
        rfl
  · cases called

end Route

/-! ## What a message does -/

namespace Association

def Refused (association : Association) (registry : Registry) (after : Processed)
    (e : InvocationError) : Prop :=
  after.result = .error e ∧ after.association = association ∧ after.registry = registry

/-- A result that reads as stated came for a call, and whoever waits for it claims it. -/
def Brings (association : Association) (registry : Registry) (after : Processed) (id : UInt16)
    (outcome : CallResult) : Prop :=
  after.registry = registry ∧ ∃ result : LazyResult, result.read.1 = outcome ∧
    (after.association, after.events) = (association.resultReady id result).2 ∧
    ∀ slot : Slot, slot.id = id → association.table.owns slot = true →
      association.table.Read slot.generation →
      (after.association.table.claim slot).1 = some (.ok result)

/-- A call is told to proceed: the signal of its slot goes up, and the call stays outstanding. -/
structure Raises (association : Association) (registry : Registry) (after : Processed)
    (id : UInt16) : Prop where
  raised : ∀ slot : Slot, slot.id = id → association.table.owns slot = true →
    after.association.table.box? slot =
      (association.table.box? slot).map fun box => { box with signals := box.signals.raise }
  confined : association.table.Confined after.association.table id
  entries : ∀ k : UInt16,
    after.association.table.entries[k]? = association.table.entries[k]?
  frame : after.association = { association with table := after.association.table }
  registry_eq : after.registry = registry

/-- The modules of an announcement come or go, at once or when the channel is bound. -/
def Heeds (association : Association) (registry : Registry) (after : Processed)
    (news : ModuleAvailability) : Prop :=
  match association.receiver with
  | some receiver => after.association = association ∧
    Announced news.available news.modules receiver registry after.registry
  | none => after.registry = registry ∧
    after.association = { association with backlog := association.backlog ++ [news] } ∧
    ∀ receiver later, Announced news.available news.modules receiver
      (association.associate later receiver).2 (after.association.associate later receiver).2

def TakesEffect (association : Association) (registry : Registry) (after : Processed) :
    Message → Prop
  | .sessionOpenResponse id tail =>
    Brings association registry after id (.ok (.session tail.session))
  | .invocationResponse id tail => Brings association registry after id
    ((Payload.decodeResult tail.payload).mapError .codec)
  | .failure kind id tail => Brings association registry after id (.error (.remote kind tail.message))
  | .txResponse id (some v) =>
    Brings association registry after id (.ok (.long (Int64.ofNat v.toNat)))
  | .txResponse id none => Brings association registry after id (.ok .unit)
  | .asyncMethodNotification id => Raises association registry after id
  | .moduleAvailability news => Heeds association registry after news
  | .sessionOpenRequest _ | .invocationRequest _ | .cancel _ _ | .txRequest _ => False

variable {association : Association} {registry : Registry}

theorem brings_settle (registry : Registry) (kind : AnswerKind) {id : UInt16} {rest : Input}
    (steady : rest.Steady)
    (live : ∀ entry, association.table.entries[id]? = some entry → entry.discard = false) :
    Brings association registry (association.settle registry rest (.ok (.answer kind id))) id
      (kind.read rest) := by
  refine ⟨rfl, .answer kind rest, ?_, rfl, ?_⟩
  · simp only [LazyResult.read, Input.finish, Input.close, steady.closes]
    cases kind.read rest <;> rfl
  · rintro slot rfl owned read
    obtain ⟨entry, found, own⟩ := Table.owns_iff.mp owned
    change ((association.table.fulfill slot.id (.answer kind rest)).2.claim slot).1 = _
    rw [Table.claim_of_arrived (Table.arrival_fulfill found (live entry found) own read _)]
    rfl

theorem raises_settle {id : UInt16} {rest : Input} (steady : rest.Steady) :
    (association.settle registry rest (.ok (.notification id))).result = .ok () ∧
    Raises association registry (association.settle registry rest (.ok (.notification id))) id := by
  have done : association.settle registry rest (.ok (.notification id)) =
      ⟨.ok (), (association.proceedAsync id).2, registry, rest.close.2⟩ := by
    simp only [settle, Input.close, steady.closes]
  rw [done]
  refine ⟨rfl, ?_, Table.confined_proceedAsync association.table id, ?_, rfl, rfl⟩
  · rintro slot rfl owned
    obtain ⟨entry, found, own⟩ := Table.owns_iff.mp owned
    change (association.table.proceedAsync slot.id).2.box? slot = _
    rw [Table.proceedAsync_of_some found, own]
    simp [Table.box?]
  · intro k
    change (association.table.proceedAsync id).2.entries[k]? = _
    cases found : association.table.entries[id]? with
    | none =>
      rw [Table.proceedAsync_of_none found]
      rfl
    | some entry =>
      rw [Table.proceedAsync_of_some found]
      rfl

theorem heeds_settle {news : ModuleAvailability} {rest : Input} (steady : rest.Steady) :
    (association.settle registry rest (.ok (.announcement news))).result = .ok () ∧
    Heeds association registry (association.settle registry rest (.ok (.announcement news)))
      news := by
  have done : association.settle registry rest (.ok (.announcement news)) =
      ⟨.ok (), (association.modulesChanged registry news).1,
        (association.modulesChanged registry news).2, rest.close.2⟩ := by
    simp only [settle, Input.close, steady.closes]
  rw [done]
  refine ⟨rfl, ?_⟩
  unfold Heeds
  cases bound : association.receiver with
  | some receiver =>
    simp only [modulesChanged, bound]
    exact ⟨trivial, announced_apply news receiver registry⟩
  | none =>
    simp only [modulesChanged, bound]
    refine ⟨trivial, trivial, ?_⟩
    intro receiver later
    simp only [associate, List.foldl_append, List.foldl_cons, List.foldl_nil]
    exact announced_apply news receiver _

/-! ## Both ways of reading -/

theorem gives_takesEffect {after : Processed} (kind : AnswerKind) (id : UInt16) :
    (kind.message id).Gives fun message =>
      Brings association registry after id message.outcome →
        TakesEffect association registry after message := by
  cases kind with
  | session | response | failure =>
    refine Gives.bind (gives_of_forall _ ?_)
    intro tail brings
    exact brings
  | transaction =>
    refine Gives.bind (gives_of_forall _ ?_)
    intro value brings
    cases value <;> exact brings

structure Agrees (association : Association) (registry : Registry) (bytes : Bytes)
    (after : Processed) : Prop where
  /-- What comes behind a message is never looked at. -/
  taken : ∀ front behind message, bytes = front ++ behind → Message.decode front = .ok message →
    message.header.inbound? ≠ none →
    after.result = .ok () ∧ TakesEffect association registry after message
  refused : ∀ message, Message.decode bytes = .ok message → message.header.inbound? = none →
    Refused association registry after (notFromHost message.header)
  foreign : ∀ header, Header.ofBytes? bytes = some header → header.inbound? = none →
    Refused association registry after (notFromHost header)
  /-- The error of bytes that no message begins is that of the channel or of the claim. -/
  malformed : ∀ e, Message.decode bytes = .error e →
    (∀ front message, front <+: bytes → Message.decode front ≠ .ok message) →
    (∀ header, Header.ofBytes? bytes = some header → header.inbound? ≠ none) →
    match answeredId? bytes with
    | some id => after.result = .ok () ∧
      Brings association registry after id (.error (.protocol e))
    | none => Refused association registry after (.protocol e)

end Association

namespace Message

theorem error_of_decode {bytes : Bytes} {e : FrameError} (failed : decode bytes = .error e)
    (none_begins : ∀ front message, front <+: bytes → decode front ≠ .ok message) :
    (decoder.run bytes).1 = .error e := by
  cases ran : decoder.run bytes with
  | mk decoded rest =>
    cases decoded with
    | ok message =>
      obtain ⟨front, rfl, alone⟩ := run_suffix ran
      exact absurd (decode_of_run alone) (none_begins front message (List.prefix_append _ _))
    | error e' =>
      rw [decode, ran] at failed
      exact failed

end Message

namespace Association

variable {association : Association} {registry : Registry} {input : Input}

theorem process_of_run (association : Association) (registry : Registry)
    {decoded : Except FrameError Route} {rest : Bytes} (steady : input.Steady)
    (given : Route.decoder.run input.pending = (decoded, rest)) :
    ∃ left : Input, left.Steady ∧ left.pending = rest ∧
      association.process registry input = association.settle registry left decoded := by
  obtain ⟨same, behind, steady'⟩ := Route.decoder.run_of_steady steady
  rw [given] at same behind
  exact ⟨_, steady', behind, by rw [process_eq, same]⟩

theorem refused_of_foreign (steady : input.Steady) {header : Header}
    (sent : Header.ofBytes? input.pending = some header) (foreign : header.inbound? = none) :
    Refused association registry (association.process registry input) (notFromHost header) := by
  obtain ⟨left, -, -, same⟩ := process_of_run association registry steady
    (Route.run_of_foreign sent foreign)
  rw [same]
  exact ⟨rfl, rfl, rfl⟩

theorem takesEffect_of_run (steady : input.Steady)
    (live : ∀ id, calledId? input.pending = some id → ∀ entry,
      association.table.entries[id]? = some entry → entry.discard = false)
    {message : Message} {rest : Bytes}
    (given : Message.decoder.run input.pending = (.ok message, rest))
    (inbound : message.header.inbound? ≠ none) :
    (association.process registry input).result = .ok () ∧
      TakesEffect association registry (association.process registry input) message := by
  -- The decoder of messages is split where the channel stops: what comes first is its route, and
  -- what comes second is read by the claim from where the channel left the stream.
  rw [Route.message_eq] at given
  obtain ⟨route, middle, first, second⟩ := of_run_bind given
  have named := Route.named_of_run first
  obtain ⟨left, steady', rfl, same⟩ := process_of_run association registry steady first
  rw [same]
  cases route with
  | foreign header =>
    have own : message.header = header := (Message.gives_bodyDecoder header).of_run second
    rw [own] at inbound
    exact absurd named.2 inbound
  | answer kind id =>
    refine ⟨rfl, (gives_takesEffect kind id).of_run second ?_⟩
    have brings := brings_settle registry kind steady' (live id named.2)
    change (kind.message id).run left.pending = (.ok message, rest) at second
    have read : kind.read left = message.outcome := by
      rw [kind.read_of_message id, ((kind.message id).run_of_steady steady').1, second]
      rfl
    rwa [read] at brings
  | announcement news =>
    obtain ⟨same, -⟩ := Prod.mk.inj second
    obtain rfl := Except.ok.inj same
    exact heeds_settle steady'
  | notification id =>
    obtain ⟨same, -⟩ := Prod.mk.inj second
    obtain rfl := Except.ok.inj same
    exact raises_settle steady'

theorem surfaces_of_run (steady : input.Steady)
    (live : ∀ id, calledId? input.pending = some id → ∀ entry,
      association.table.entries[id]? = some entry → entry.discard = false)
    {e : FrameError} (failed : (Message.decoder.run input.pending).1 = .error e)
    (domestic : ∀ header, Header.ofBytes? input.pending = some header → header.inbound? ≠ none) :
    match answeredId? input.pending with
    | some id => (association.process registry input).result = .ok () ∧
      Brings association registry (association.process registry input) id (.error (.protocol e))
    | none => Refused association registry (association.process registry input) (.protocol e) := by
  rw [Route.message_eq, run_bind] at failed
  cases first : Route.decoder.run input.pending with
  | mk decoded middle =>
    obtain ⟨left, steady', rfl, same⟩ := process_of_run association registry steady first
    rw [first] at failed
    rw [same]
    cases decoded with
    | error e' =>
      -- The channel itself met the error, so it had not come to the id of an answer.
      obtain rfl := Except.error.inj failed
      cases answered : answeredId? input.pending with
      | none => exact ⟨rfl, rfl, rfl⟩
      | some id =>
        obtain ⟨kind, read⟩ := Route.run_of_answer answered
        rw [read] at first
        cases (Prod.mk.inj first).1
    | ok route =>
      have named := Route.named_of_run first
      cases route with
      | foreign header => exact absurd named.2 (domestic header named.1)
      | answer kind id =>
        rw [named.1]
        refine ⟨rfl, ?_⟩
        have brings := brings_settle registry kind steady' (live id named.2)
        have read : kind.read left = .error (.protocol e) := by
          rw [kind.read_of_message id, ((kind.message id).run_of_steady steady').1]
          change ((kind.message id).run left.pending).1 = .error e at failed
          rw [failed]
          rfl
        rwa [read] at brings
      | announcement news => cases failed
      | notification id => cases failed

/-- A message that is read late does what it says, and shows what is wrong with it, as if it were
read at once: on any stream that holds, if the call that the message names is outstanding. -/
theorem lazy_eq_eager (association : Association) (registry : Registry) (input : Input)
    (steady : input.Steady)
    (outstanding : ∀ id, calledId? input.pending = some id →
      ∃ entry, association.table.entries[id]? = some entry ∧ entry.discard = false) :
    Agrees association registry input.pending (association.process registry input) := by
  have live : ∀ id, calledId? input.pending = some id → ∀ entry,
      association.table.entries[id]? = some entry → entry.discard = false := by
    intro id called entry found
    obtain ⟨entry', found', live⟩ := outstanding id called
    rw [found] at found'
    rw [Option.some.inj found']
    exact live
  refine ⟨?_, ?_, ?_, ?_⟩
  · intro front behind message split decoded inbound
    have given := run_append (Message.run_of_decode decoded) behind
    rw [← split] at given
    exact takesEffect_of_run steady live given inbound
  · intro message decoded foreign
    have given := Message.run_of_decode decoded
    obtain ⟨header, middle, first, second⟩ := of_run_bind given
    obtain ⟨b, start, found⟩ := header_of_run first
    have own : message.header = header := (Message.gives_bodyDecoder header).of_run second
    refine refused_of_foreign steady ?_ foreign
    rw [own, start]
    exact found
  · intro header sent foreign
    exact refused_of_foreign steady sent foreign
  · intro e failed none_begins domestic
    exact surfaces_of_run steady live (Message.error_of_decode failed none_begins) domestic

/-- A response comes in pieces of three bytes, is interrupted, and has a byte behind it. -/
theorem lazy_eq_eager_of_pieces :
    let association : Association :=
      { Association.named "link" 4 with table := (Table.empty 4).register.2 }
    let input : Input := { Input.ofBytes [5, 0, 1, 2, 1, 1, 0, 9] with
      chunk := fun _ => some 3
      breakdowns := [⟨4, ⟨.interrupted, "signal"⟩, true⟩] }
    (association.process .empty input).result = .ok () ∧
      ∃ result : LazyResult, result.read.1 = .ok (.bool true) ∧
        ((association.process .empty input).association.table.claim ⟨1, 0⟩).1 =
          some (.ok result) := by
  intro association input
  have steady : input.Steady := ⟨by simp [input], by simp [input], rfl⟩
  have outstanding : ∀ id, calledId? input.pending = some id →
      ∃ entry, association.table.entries[id]? = some entry ∧ entry.discard = false := by
    intro id called
    obtain rfl : 1 = id := Option.some.inj called
    exact ⟨⟨0, false⟩, rfl, rfl⟩
  have agrees := lazy_eq_eager association .empty input steady outstanding
  have decoded : Message.decode [5, 0, 1, 2, 1, 1, 0] =
      .ok (.invocationResponse 1 ⟨[1, 1], .empty⟩) := by rfl
  obtain ⟨done, effect⟩ := agrees.taken [5, 0, 1, 2, 1, 1, 0] [9] _ rfl decoded (by decide)
  obtain ⟨-, result, value, -, claimed⟩ := effect
  have owned : association.table.owns ⟨1, 0⟩ = true := by decide
  have read : association.table.Read 0 := ⟨⟨1, none, .idle false, .slot⟩, rfl, by decide⟩
  have arrived := claimed ⟨1, 0⟩ rfl owned read
  exact ⟨done, result, value, arrived⟩

end Association

end Farcall
