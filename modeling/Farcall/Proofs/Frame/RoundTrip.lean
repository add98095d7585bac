import Farcall.Frame.Decode
import Farcall.Frame.Encode
import Farcall.Proofs.Frame.Blocks

set_option autoImplicit false

/-!
# Messages read back

A message can be written exactly if what it announces by size fits into 32 bits and its attachment
block has at most 255 entries, and what is written is read back. Only the attachments of a failure
that carries none are missing then, as they are not sent. The sizes and the block are those of the
wire: what is not sent does not count.
-/

namespace Farcall

open Decoder

namespace Written

variable {α : Type}

theorem conveys_nil (a : α) : Conveys (join []) (pure a : Decoder FrameError α) a :=
  .of_reads (reads_pure a)

theorem conveys_cons {β : Type} {part : Written} {parts : List Written}
    {decoder : Decoder FrameError α} {f : α → Decoder FrameError β} {a : α} {b : β}
    (first : Conveys part decoder a) (others : Conveys (join parts) (f a) b) :
    Conveys (join (part :: parts)) (decoder >>= f) b :=
  first.append others

theorem conveys_last {β : Type} {part : Written} {decoder : Decoder FrameError α} {a : α}
    (last : Conveys part decoder a) (f : α → β) :
    Conveys (join [part]) (decoder >>= fun x => pure (f x)) (f a) :=
  conveys_cons last (conveys_nil (f a))

theorem conveys_ofField {field : Except WireError Bytes} {decoder : Decoder FrameError α} {a : α}
    (conveys : Conveys field decoder a) : Conveys (ofField field) decoder a := by
  intro bytes given
  cases field with
  | error e => cases given
  | ok written =>
    rw [← Except.ok.inj given]
    exact conveys written rfl

theorem conveys_text (s : String) :
    Conveys (text s) (Decoder.text : Decoder FrameError String) s :=
  conveys_ofField (Wire.conveys_text s)

theorem conveys_blob (bytes : Bytes) :
    Conveys (blob bytes) (Decoder.blob : Decoder FrameError Bytes) bytes :=
  conveys_ofField (Wire.conveys_blob bytes)

theorem conveys_u16 (v : UInt16) : Conveys (.ok (Wire.u16 v) : Written) idDecoder v :=
  .of_reads (reads_u16 v)

theorem readsEach_join {item : α → Written} {decoder : Decoder FrameError α} {items : List α}
    (each : ∀ a ∈ items, Conveys (item a) decoder a) {bytes : Bytes}
    (given : join (items.map item) = .ok bytes) : decoder.ReadsEach bytes items := by
  induction items generalizing bytes with
  | nil =>
    rw [← Except.ok.inj given]
    exact .nil
  | cons a items ih =>
    rw [List.map_cons, join] at given
    obtain ⟨front, rest, first, others, rfl⟩ := of_append_eq_ok given
    exact .cons (each a List.mem_cons_self front first)
      (ih (fun b mem => each b (List.mem_cons_of_mem a mem)) others)

theorem conveys_counted (tooMany : String) {item : α → Written} {decoder : Decoder FrameError α}
    {items : List α} (each : ∀ a ∈ items, Conveys (item a) decoder a) :
    Conveys (counted tooMany item items) (Decoder.counted decoder) items := by
  intro bytes given
  unfold counted at given
  split at given
  · cases given
  · next count small =>
    obtain ⟨v, length, reads⟩ := Wire.reads_count FrameError small
    refine conveys_cons (.of_reads reads) ?_ bytes given
    intro rest others
    rw [length]
    exact reads_replicate (readsEach_join each others)

theorem isOk_join (parts : List Written) : (join parts).isOk = parts.all (·.isOk) := by
  induction parts with
  | nil => rfl
  | cons part parts ih => rw [join, isOk_append, ih, List.all_cons]

theorem isOk_ofField (field : Except WireError Bytes) : (ofField field).isOk = field.isOk := by
  cases field <;> rfl

theorem isOk_blob (bytes : Bytes) :
    (blob bytes).isOk = decide (bytes.length < Bytes.wordBound) := by
  rw [blob, isOk_ofField, Wire.isOk_blob]

theorem isOk_counted (tooMany : String) (item : α → Written) (items : List α) :
    (counted tooMany item items).isOk =
      (decide (items.length < Bytes.wordBound) && items.all fun a => (item a).isOk) := by
  unfold counted Wire.count?
  by_cases fits : items.length < Bytes.wordBound
  · simp only [fits, ↓reduceIte, decide_true, Bool.true_and, isOk_join, List.all_cons, List.all_map]
    rfl
  · simp only [fits, ↓reduceIte, decide_false, Bool.false_and]
    rfl

end Written

open Written

/-! ## The parts of messages -/

theorem Triple.conveys_encode (triple : Triple) : Conveys triple.encode Triple.decoder triple :=
  conveys_cons (conveys_text _) <| conveys_cons (conveys_text _) <| conveys_last (conveys_text _) _

theorem conveys_sessionField (session : Option SessionId) :
    Conveys (sessionField session) sessionDecoder session := by
  cases session with
  | none => exact .of_reads ((reads_bool false).bind_of_nil (reads_pure none))
  | some session =>
    exact conveys_cons (.of_reads (reads_bool true)) (conveys_last (conveys_blob session.bytes) _)

theorem reads_outcomeField (value : Option UInt32) :
    outcomeDecoder.Reads (outcomeField value) value := by
  cases value with
  | none => exact (reads_bool false).bind_of_nil (reads_pure none)
  | some v => exact (reads_bool true).bind ((reads_packed v).map some)

theorem SessionOpenTail.conveys_encode (tail : SessionOpenTail) :
    Conveys tail.encode SessionOpenTail.decoder tail :=
  conveys_cons (conveys_blob _) <| conveys_last tail.attachments.conveys_encode _

theorem ResponseTail.conveys_encode (tail : ResponseTail) :
    Conveys tail.encode ResponseTail.decoder tail :=
  conveys_cons (conveys_blob _) <| conveys_last tail.attachments.conveys_encode _

def FailureTail.block (kind : FailureKind) (tail : FailureTail) : Attachments :=
  if kind.hasAttachments then tail.attachments else .empty

theorem FailureTail.conveys_encode (kind : FailureKind) (tail : FailureTail) :
    Conveys (tail.encode kind) (FailureTail.decoder kind)
      { tail with attachments := tail.block kind } := by
  unfold FailureTail.encode FailureTail.decoder FailureTail.block
  cases kind.hasAttachments with
  | true => exact conveys_cons (conveys_text _) (conveys_last tail.attachments.conveys_encode _)
  | false => exact conveys_cons (conveys_text _) (conveys_nil _)

theorem ModuleAvailability.conveys_body (announcement : ModuleAvailability) :
    Conveys announcement.body (ModuleAvailability.decoder announcement.available) announcement := by
  have modules : Conveys announcement.body (Decoder.counted Triple.decoder) announcement.modules :=
    conveys_counted _ fun triple _ => triple.conveys_encode
  exact modules.map fun modules => (⟨announcement.available, modules⟩ : ModuleAvailability)

theorem TxRequest.conveys_body (request : TxRequest) :
    Conveys request.body (TxRequest.decoder request.kind.header) request := by
  obtain ⟨id, kind, transaction⟩ := request
  refine conveys_cons (conveys_u16 id) (conveys_cons (conveys_blob transaction.bytes) ?_)
  cases kind with
  | commit onePhase => exact conveys_last (.of_reads ((reads_bool onePhase).map TxKind.commit)) _
  | _ => exact conveys_nil _

theorem SessionOpenRequest.conveys_body (request : SessionOpenRequest) :
    Conveys request.body SessionOpenRequest.decoder request :=
  conveys_cons (conveys_u16 _) <| conveys_cons request.module.conveys_encode <|
    conveys_cons (conveys_text _) <| conveys_last request.attachments.conveys_encode _

theorem InvocationRequest.conveys_body (request : InvocationRequest) :
    Conveys request.body InvocationRequest.decoder request :=
  conveys_cons (conveys_u16 _) <| conveys_cons request.module.conveys_encode <|
    conveys_cons (conveys_text _) <| conveys_cons (conveys_text _) <|
    conveys_cons (conveys_text _) <| conveys_cons (conveys_counted _ fun _ _ => conveys_text _) <|
    conveys_cons (conveys_sessionField _) <| conveys_cons (conveys_blob _) <|
    conveys_last request.attachments.conveys_encode _

theorem reads_withId {α : Type} {bytes : Bytes} {decoder : Decoder FrameError α} {a : α}
    (id : UInt16) (reads : decoder.Reads bytes a) :
    (withId decoder).Reads (Wire.u16 id ++ bytes) (id, a) :=
  (reads_u16 id).bind (reads.map fun a => (id, a))

theorem conveys_withId {α : Type} {tail : Written} {decoder : Decoder FrameError α} {a : α}
    (id : UInt16) (conveys : Conveys tail decoder a) :
    Conveys (join [.ok (Wire.u16 id), tail]) (withId decoder) (id, a) :=
  conveys_cons (conveys_u16 id) (conveys_last conveys _)

/-! ## Messages -/

namespace Message

def block : Message → Attachments
  | sessionOpenRequest request => request.attachments
  | sessionOpenResponse _ tail => tail.attachments
  | invocationRequest request => request.attachments
  | invocationResponse _ tail => tail.attachments
  | failure kind _ tail => tail.block kind
  | cancel _ _ | moduleAvailability _ | asyncMethodNotification _ | txRequest _
  | txResponse _ _ => .empty

/-- What a peer sees of a message: all but the attachments that are not sent. -/
def asSent : Message → Message
  | failure kind id tail => failure kind id { tail with attachments := tail.block kind }
  | message => message

theorem header_asSent (message : Message) : message.asSent.header = message.header := by
  cases message <;> rfl

theorem conveys_body (message : Message) :
    Conveys message.body (bodyDecoder message.header) message.asSent := by
  cases message with
  | sessionOpenRequest request => exact request.conveys_body.map _
  | sessionOpenResponse id tail => exact (conveys_withId id tail.conveys_encode).map _
  | invocationRequest request => exact request.conveys_body.map _
  | cancel id mayInterrupt =>
    exact .of_reads ((reads_withId id (reads_bool mayInterrupt)).map fun read =>
      cancel read.1 read.2)
  | invocationResponse id tail => exact (conveys_withId id tail.conveys_encode).map _
  | failure kind id tail =>
    have conveys := (conveys_withId id (tail.conveys_encode kind)).map
      fun read => failure kind read.1 read.2
    cases kind <;> exact conveys
  | moduleAvailability announcement =>
    have conveys := announcement.conveys_body.map moduleAvailability
    obtain ⟨available, modules⟩ := announcement
    cases available <;> exact conveys
  | asyncMethodNotification id => exact .of_reads ((reads_u16 id).map asyncMethodNotification)
  | txRequest request =>
    have conveys := request.conveys_body.map txRequest
    obtain ⟨id, kind, transaction⟩ := request
    cases kind <;> exact conveys
  | txResponse id value =>
    exact .of_reads ((reads_withId id (reads_outcomeField value)).map fun read =>
      txResponse read.1 read.2)

theorem reads_header (header : Header) : Header.decoder.Reads (Wire.u8 header.toByte) header := by
  intro behind
  unfold Header.decoder
  rw [run_bind_ok (reads_u8 header.toByte behind), Header.ofByte?_toByte]
  rfl

theorem conveys_encode (message : Message) : Conveys message.encode decoder message.asSent :=
  .behind (reads_header message.header) message.conveys_body

theorem run_of_decode {bytes : Bytes} {message : Message} (given : decode bytes = .ok message) :
    decoder.run bytes = (.ok message, []) := by
  unfold decode at given
  split at given
  · next message' given' =>
    rw [given', Except.ok.inj given]
  · cases given
  · cases given

theorem decode_of_run {bytes : Bytes} {message : Message}
    (given : decoder.run bytes = (.ok message, [])) : decode bytes = .ok message := by
  rw [decode, given]

theorem decode_of_encode {message : Message} {bytes : Bytes}
    (written : message.encode = .ok bytes) : decode bytes = .ok message.asSent :=
  decode_of_run (message.conveys_encode bytes written).alone

theorem body_of_encode {message : Message} {bytes : Bytes} (written : message.encode = .ok bytes) :
    ∃ body, message.body = .ok body ∧ bytes = Wire.u8 message.header.toByte ++ body := by
  unfold encode at written
  cases given : message.body with
  | error e =>
    rw [given] at written
    cases written
  | ok body =>
    rw [given] at written
    exact ⟨body, rfl, (Except.ok.inj written).symm⟩

theorem head?_of_encode {message : Message} {bytes : Bytes}
    (written : message.encode = .ok bytes) : bytes.head? = some message.header.toByte := by
  obtain ⟨body, -, rfl⟩ := body_of_encode written
  rfl

end Message

/-! ## What can be written -/

def textSize (s : String) : Nat := (Bytes.ofText s).length

def Triple.sizes (triple : Triple) : List Nat :=
  [textSize triple.app, textSize triple.module, textSize triple.distinct]

def Attachments.sizes (block : Attachments) : List Nat := block.entries.map (·.2.length)

/-- All that a message announces by its size: texts, byte strings and lists. -/
def Message.sizes : Message → List Nat
  | sessionOpenRequest request =>
    request.module.sizes ++ textSize request.bean :: request.attachments.sizes
  | sessionOpenResponse _ tail => tail.session.bytes.length :: tail.attachments.sizes
  | invocationRequest request =>
    request.module.sizes ++
      [textSize request.bean, textSize request.view, textSize request.method] ++
      request.signature.length :: request.signature.map textSize ++
      request.session.toList.map (·.bytes.length) ++
      request.payload.length :: request.attachments.sizes
  | invocationResponse _ tail => tail.payload.length :: tail.attachments.sizes
  | failure kind _ tail => textSize tail.message :: (tail.block kind).sizes
  | moduleAvailability announcement =>
    announcement.modules.length :: announcement.modules.flatMap Triple.sizes
  | txRequest request => [request.transaction.bytes.length]
  | cancel _ _ | asyncMethodNotification _ | txResponse _ _ => []

def Message.Fits (message : Message) : Prop := ∀ size ∈ message.sizes, size < Bytes.wordBound

instance (message : Message) : Decidable message.Fits :=
  inferInstanceAs (Decidable (∀ _ ∈ _, _))

def announced (sizes : List Nat) : Bool := sizes.all (· < Bytes.wordBound)

theorem announced_cons (size : Nat) (sizes : List Nat) :
    announced (size :: sizes) = (decide (size < Bytes.wordBound) && announced sizes) := rfl

theorem announced_append (sizes sizes' : List Nat) :
    announced (sizes ++ sizes') = (announced sizes && announced sizes') := List.all_append

theorem announced_map {α : Type} (size : α → Nat) (items : List α) :
    announced (items.map size) = items.all fun a => decide (size a < Bytes.wordBound) :=
  List.all_map

theorem announced_flatMap {α : Type} (sizes : α → List Nat) (items : List α) :
    announced (items.flatMap sizes) = items.all fun a => announced (sizes a) := by
  induction items with
  | nil => rfl
  | cons a items ih => rw [List.flatMap_cons, announced_append, ih, List.all_cons]

theorem isOk_ok (bytes : Bytes) : (.ok bytes : Written).isOk = true := rfl

theorem isOk_text (s : String) : (text s).isOk = decide (textSize s < Bytes.wordBound) :=
  isOk_blob (Bytes.ofText s)

theorem Triple.isOk_encode (triple : Triple) : triple.encode.isOk = announced triple.sizes := by
  simp only [Triple.encode, isOk_join, List.all_cons, List.all_nil, isOk_text]
  rfl

theorem Attachments.isOk_eq_announced (block : Attachments) :
    block.encode.isOk = (decide (block.size ≤ maxEntries) && announced block.sizes) := by
  rw [isOk_encode, announced, sizes, List.all_map]
  rfl

theorem isOk_sessionField (session : Option SessionId) : (sessionField session).isOk =
    announced (session.toList.map (·.bytes.length)) := by
  cases session with
  | none => rfl
  | some session =>
    simp only [sessionField, isOk_join, List.all_cons, List.all_nil, isOk_ok, isOk_blob,
      Bool.true_and]
    rfl

theorem FailureTail.isOk_encode (kind : FailureKind) (tail : FailureTail) :
    (tail.encode kind).isOk = (decide (textSize tail.message < Bytes.wordBound) &&
      (decide ((tail.block kind).size ≤ Attachments.maxEntries) &&
        announced (tail.block kind).sizes)) := by
  unfold FailureTail.encode FailureTail.block
  rw [isOk_join, List.all_cons, List.all_cons, List.all_nil, isOk_text, Bool.and_true]
  cases kind.hasAttachments with
  | true => rw [if_pos rfl, if_pos rfl, Attachments.isOk_eq_announced]
  | false => rfl

theorem TxRequest.isOk_body (request : TxRequest) :
    request.body.isOk = decide (request.transaction.bytes.length < Bytes.wordBound) := by
  unfold TxRequest.body
  rw [isOk_join, List.all_cons, List.all_cons, List.all_cons, isOk_ok, isOk_blob]
  cases request.kind <;> simp [isOk_ok]

theorem Message.isOk_body (message : Message) : message.body.isOk =
    (decide (message.block.size ≤ Attachments.maxEntries) && announced message.sizes) := by
  have no_block : Attachments.empty.size = 0 := rfl
  cases message with
  | sessionOpenRequest request =>
    simp only [body, SessionOpenRequest.body, isOk_join, List.all_cons, List.all_nil, isOk_ok,
      isOk_text, Triple.isOk_encode, Attachments.isOk_eq_announced, block, sizes, announced_append,
      announced_cons, Bool.true_and, Bool.and_true]
    ac_rfl
  | sessionOpenResponse id tail =>
    simp only [body, SessionOpenTail.encode, isOk_join, List.all_cons, List.all_nil, isOk_ok,
      isOk_blob, Attachments.isOk_eq_announced, block, sizes, announced_cons, Bool.true_and,
      Bool.and_true]
    ac_rfl
  | invocationRequest request =>
    simp only [body, InvocationRequest.body, isOk_join, List.all_cons, List.all_nil, isOk_ok,
      isOk_text, isOk_blob, isOk_counted, isOk_sessionField, Triple.isOk_encode,
      Attachments.isOk_eq_announced, block, sizes, announced_append, announced_cons, Bool.true_and,
      Bool.and_true, announced_map]
    ac_rfl
  | cancel id mayInterrupt => rfl
  | invocationResponse id tail =>
    simp only [body, ResponseTail.encode, isOk_join, List.all_cons, List.all_nil, isOk_ok,
      isOk_blob, Attachments.isOk_eq_announced, block, sizes, announced_cons, Bool.true_and,
      Bool.and_true]
    ac_rfl
  | failure kind id tail =>
    simp only [body, isOk_join, List.all_cons, List.all_nil, isOk_ok, FailureTail.isOk_encode,
      block, sizes, announced_cons, Bool.true_and, Bool.and_true]
    ac_rfl
  | moduleAvailability announcement =>
    simp only [body, ModuleAvailability.body, isOk_counted, Triple.isOk_encode, block, sizes,
      no_block, Nat.zero_le, decide_true, announced_cons, announced_flatMap, Bool.true_and]
  | asyncMethodNotification id => rfl
  | txRequest request =>
    rw [body, TxRequest.isOk_body]
    simp only [block, sizes, no_block, Nat.zero_le, decide_true, announced_cons, Bool.true_and]
    exact (Bool.and_true _).symm
  | txResponse id value => rfl

theorem Message.isOk_encode (message : Message) : message.encode.isOk = true ↔
    message.block.size ≤ Attachments.maxEntries ∧ message.Fits := by
  have body : message.encode.isOk = message.body.isOk := isOk_behind _ _
  rw [body, isOk_body, Bool.and_eq_true, decide_eq_true_iff, announced, List.all_eq_true]
  simp only [decide_eq_true_iff, Fits]

/-- A message is written exactly if its block is short enough, starts with its header, and is read
back but for what was not sent. So two messages that are written alike are the same to a peer. -/
theorem Message.round_trip (message : Message) (fits : message.Fits) :
    ((∃ bytes, message.encode = .ok bytes) ↔ message.block.size ≤ Attachments.maxEntries) ∧
      (∀ bytes, message.encode = .ok bytes →
        bytes.head? = some message.header.toByte ∧ decode bytes = .ok message.asSent) ∧
      ∀ (other : Message) (bytes : Bytes), message.encode = .ok bytes →
        other.encode = .ok bytes → other.asSent = message.asSent := by
  refine ⟨?_, fun bytes written => ⟨head?_of_encode written, decode_of_encode written⟩, ?_⟩
  · have isOk := message.isOk_encode
    constructor
    · rintro ⟨bytes, written⟩
      exact (isOk.mp (by rw [written]; rfl)).1
    · intro few
      have written := isOk.mpr ⟨few, fits⟩
      cases encoded : message.encode with
      | ok bytes => exact ⟨bytes, rfl⟩
      | error e =>
        rw [encoded] at written
        cases written
  · intro other bytes written written'
    have same := (decode_of_encode written').symm.trans (decode_of_encode written)
    exact Except.ok.inj same

theorem Message.round_trip_of_refusal :
    let message := Message.failure .noSuchMethod 513 ⟨"ß", Attachments.empty.put 7 [1, 2]⟩
    message.Fits ∧ message.encode = .ok [0x0b, 2, 1, 2, 0xc3, 0x9f] ∧
      Message.decode [0x0b, 2, 1, 2, 0xc3, 0x9f] =
        .ok (.failure .noSuchMethod 513 ⟨"ß", .empty⟩) := by
  intro message
  have fits : message.Fits := by decide
  have written : message.encode = .ok [0x0b, 2, 1, 2, 0xc3, 0x9f] := by rfl
  exact ⟨fits, written, ((message.round_trip fits).2.1 _ written).2⟩

end Farcall
