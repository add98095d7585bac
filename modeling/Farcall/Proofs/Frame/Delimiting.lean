import Farcall.Proofs.Frame.RoundTrip

set_option autoImplicit false

/-!
# Messages say where they end

Every decoder of a message passes a fault of its source on as it is, so a message that is cut short
anywhere is one that ended too soon, and nothing else. What stands behind a message is never looked
at by the decoders of its parts, and only counted by the decoder of whole messages.
-/

namespace Farcall

open Decoder Written

theorem Header.direct_decoder : Header.decoder.Direct :=
  direct_u8.bind fun _ => direct_getD _ _

theorem Triple.direct_decoder : Triple.decoder.Direct :=
  direct_text.bind fun _ => direct_text.bind fun _ => direct_text.bind fun _ => direct_pure _

theorem SessionOpenTail.direct_decoder : SessionOpenTail.decoder.Direct :=
  direct_blob.bind fun _ => Attachments.direct_decoder.bind fun _ => direct_pure _

theorem ResponseTail.direct_decoder : ResponseTail.decoder.Direct :=
  direct_blob.bind fun _ => Attachments.direct_decoder.bind fun _ => direct_pure _

theorem FailureTail.direct_decoder (kind : FailureKind) : (FailureTail.decoder kind).Direct := by
  refine direct_text.bind fun message => ?_
  split
  · exact Attachments.direct_decoder.bind fun _ => direct_pure _
  · exact direct_pure _

theorem direct_sessionDecoder : sessionDecoder.Direct := by
  refine direct_bool.bind fun present => ?_
  split
  · exact direct_blob.bind fun _ => direct_pure _
  · exact direct_pure _

theorem direct_outcomeDecoder : outcomeDecoder.Direct := by
  refine direct_bool.bind fun present => ?_
  split
  · exact direct_packed.bind fun _ => direct_pure _
  · exact direct_pure _

theorem SessionOpenRequest.direct_decoder : SessionOpenRequest.decoder.Direct :=
  direct_u16.bind fun _ => Triple.direct_decoder.bind fun _ => direct_text.bind fun _ =>
    Attachments.direct_decoder.bind fun _ => direct_pure _

theorem InvocationRequest.direct_decoder : InvocationRequest.decoder.Direct :=
  direct_u16.bind fun _ => Triple.direct_decoder.bind fun _ => direct_text.bind fun _ =>
    direct_text.bind fun _ => direct_text.bind fun _ => (direct_counted direct_text).bind fun _ =>
    direct_sessionDecoder.bind fun _ => direct_blob.bind fun _ =>
    Attachments.direct_decoder.bind fun _ => direct_pure _

theorem ModuleAvailability.direct_decoder (available : Bool) :
    (ModuleAvailability.decoder available).Direct :=
  (direct_counted Triple.direct_decoder).bind fun _ => direct_pure _

theorem TxKind.direct_decoder (header : Header) : (TxKind.decoder header).Direct := by
  cases header with
  | txCommit => exact direct_bool.bind fun _ => direct_pure _
  | _ => trivial

theorem TxRequest.direct_decoder (header : Header) : (TxRequest.decoder header).Direct :=
  direct_u16.bind fun _ => direct_blob.bind fun _ => (TxKind.direct_decoder header).bind fun _ =>
    direct_pure _

theorem direct_withId {α : Type} {tail : Decoder FrameError α} (direct : tail.Direct) :
    (withId tail).Direct :=
  direct_u16.bind fun _ => direct.bind fun _ => direct_pure _

namespace Message

theorem direct_failureDecoder (kind : FailureKind) : (failureDecoder kind).Direct :=
  (direct_withId (FailureTail.direct_decoder kind)).bind fun _ => direct_pure _

theorem direct_bodyDecoder (header : Header) : (bodyDecoder header).Direct := by
  cases header with
  | sessionOpenRequest => exact SessionOpenRequest.direct_decoder.bind fun _ => direct_pure _
  | sessionOpenResponse =>
    exact (direct_withId SessionOpenTail.direct_decoder).bind fun _ => direct_pure _
  | invocationRequest => exact InvocationRequest.direct_decoder.bind fun _ => direct_pure _
  | invocationCancel => exact (direct_withId direct_bool).bind fun _ => direct_pure _
  | invocationResponse =>
    exact (direct_withId ResponseTail.direct_decoder).bind fun _ => direct_pure _
  | moduleAvailable =>
    exact (ModuleAvailability.direct_decoder true).bind fun _ => direct_pure _
  | moduleUnavailable =>
    exact (ModuleAvailability.direct_decoder false).bind fun _ => direct_pure _
  | asyncMethodNotification => exact direct_u16.bind fun _ => direct_pure _
  | txCommit | txRollback | txPrepare | txForget | txBeforeCompletion =>
    exact (TxRequest.direct_decoder _).bind fun _ => direct_pure _
  | txResponse => exact (direct_withId direct_outcomeDecoder).bind fun _ => direct_pure _
  | _ => exact direct_failureDecoder _

theorem direct_decoder : decoder.Direct :=
  Header.direct_decoder.bind direct_bodyDecoder

end Message

/-- An id, and behind it a tail that is read on its own, up to where `behind` starts. -/
def ReadsIdThen {α : Type} (tailDecoder : Decoder FrameError α) (bytes : Bytes) (id : UInt16)
    (tail : α) (behind : Bytes) : Prop :=
  ∃ middle, idDecoder.run bytes = (.ok id, middle) ∧ tailDecoder.run middle = (.ok tail, behind)

theorem readsIdThen_of_conveys {α : Type} {tail : Written} {decoder : Decoder FrameError α} {a : α}
    {id : UInt16} (conveys : Conveys tail decoder a) {body : Bytes}
    (written : join [.ok (Wire.u16 id), tail] = .ok body) (behind : Bytes) :
    ReadsIdThen decoder (body ++ behind) id a behind := by
  have whole := conveys_withId id conveys body written behind
  obtain ⟨id', middle, first, rest⟩ := of_run_bind whole
  obtain ⟨a', last, second, done⟩ := of_run_bind rest
  obtain ⟨same, rfl⟩ := Prod.mk.inj done
  obtain ⟨rfl, rfl⟩ := Prod.mk.inj (Except.ok.inj same)
  exact ⟨middle, first, second⟩

namespace Message

def TailReads (message : Message) (body behind : Bytes) : Prop :=
  match message with
  | sessionOpenResponse id tail => ReadsIdThen SessionOpenTail.decoder body id tail behind
  | invocationResponse id tail => ReadsIdThen ResponseTail.decoder body id tail behind
  | failure kind id tail => ReadsIdThen (FailureTail.decoder kind) body id tail behind
  | txResponse id value => ReadsIdThen outcomeDecoder body id value behind
  | _ => True

theorem tailReads_of_body {message : Message} {body : Bytes} (written : message.body = .ok body)
    (behind : Bytes) : message.asSent.TailReads (body ++ behind) behind := by
  cases message with
  | sessionOpenResponse id tail => exact readsIdThen_of_conveys tail.conveys_encode written behind
  | invocationResponse id tail => exact readsIdThen_of_conveys tail.conveys_encode written behind
  | failure kind id tail => exact readsIdThen_of_conveys (tail.conveys_encode kind) written behind
  | txResponse id value =>
    refine ⟨outcomeField value ++ behind, ?_, reads_outcomeField value behind⟩
    rw [← Except.ok.inj written, List.append_assoc]
    exact reads_u16 id _
  | _ => trivial

theorem decode_of_cut {message : Message} {bytes : Bytes} (written : message.encode = .ok bytes)
    {front : Bytes} (shorter : front <+: bytes) (cut : front ≠ bytes) :
    decode front = .error (.wire .endOfInput) := by
  rw [decode, (message.conveys_encode bytes written).run_of_cut direct_decoder shorter cut]
  rfl

theorem decode_of_more {message : Message} {bytes : Bytes} (written : message.encode = .ok bytes)
    {behind : Bytes} (more : behind ≠ []) : decode (bytes ++ behind) =
      .error (.violation s!"{behind.length} trailing bytes after {message.header.name}") := by
  rw [decode, message.conveys_encode bytes written behind]
  cases behind with
  | nil => exact absurd rfl more
  | cons b behind => rw [← message.header_asSent]

/-- A message that is cut short is an input that ended; bytes behind one are counted as trailing;
and whoever reads a message part by part is left with exactly what stands behind it. -/
theorem self_delimiting (message : Message) (bytes : Bytes)
    (written : message.encode = .ok bytes) :
    (∀ front, front <+: bytes → front ≠ bytes →
        decode front = .error (.wire .endOfInput)) ∧
      (∀ behind, behind ≠ [] → decode (bytes ++ behind) =
        .error (.violation s!"{behind.length} trailing bytes after {message.header.name}")) ∧
      ∃ body, ∀ behind, Header.decoder.run (bytes ++ behind) = (.ok message.header, body ++ behind) ∧
        (bodyDecoder message.header).run (body ++ behind) = (.ok message.asSent, behind) ∧
        message.asSent.TailReads (body ++ behind) behind := by
  refine ⟨fun front shorter cut => decode_of_cut written shorter cut,
    fun behind more => decode_of_more written more, ?_⟩
  obtain ⟨body, rest, rfl⟩ := body_of_encode written
  refine ⟨body, fun behind => ⟨?_, message.conveys_body body rest behind,
    tailReads_of_body rest behind⟩⟩
  rw [List.append_assoc]
  exact reads_header message.header (body ++ behind)

/-- A failure is cut within its text, and followed by two bytes more. -/
theorem self_delimiting_of_failure :
    let message := failure .applicationException 1 ⟨"ß", Attachments.empty.put 1 [5]⟩
    let bytes : Bytes := [0x06, 0, 1, 2, 0xc3, 0x9f, 1, 0, 1, 1, 5]
    message.encode = .ok bytes ∧ decode [0x06, 0, 1, 2, 0xc3] = .error (.wire .endOfInput) ∧
      decode (bytes ++ [0, 7]) =
        .error (.violation "2 trailing bytes after ApplicationException") := by
  intro message bytes
  have written : message.encode = .ok bytes := by rfl
  obtain ⟨cut, more, -⟩ := message.self_delimiting bytes written
  exact ⟨written, cut _ ⟨[0x9f, 1, 0, 1, 1, 5], rfl⟩ (by decide), more [0, 7] (by decide)⟩

end Message

end Farcall
