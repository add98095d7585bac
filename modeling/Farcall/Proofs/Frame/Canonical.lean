import Farcall.Proofs.Frame.RoundTrip
import Farcall.Proofs.Wire.Spending
import Mathlib.Algebra.GroupWithZero.Nat

set_option autoImplicit false

/-!
# Messages written again

A message that was read can be written again, in no more bytes than it was read from, and the
written form is read as the same message. So of all the forms in which a message can come, the written
one stands for them all, and no message holds more than the bytes that it came in.
-/

namespace Farcall

open Decoder

namespace Written

variable {α : Type}

theorem costs_nil : Costs (join []) 0 := .of_ok (Nat.le_refl 0)

theorem costs_cons {part : Written} {parts : List Written} {n k : Nat} (first : Costs part n)
    (others : Costs (join parts) k) : Costs (join (part :: parts)) (n + k) :=
  first.append others

theorem costs_ofField {field : Except WireError Bytes} {n : Nat} (costs : Costs field n) :
    Costs (ofField field) n := by
  obtain ⟨bytes, rfl, short⟩ := costs
  exact .of_ok short

theorem spends_text : (Decoder.text : Decoder FrameError String).Spends fun n s =>
    Costs (text s) n :=
  Wire.spends_text.mono fun _ _ => costs_ofField

theorem spends_blob : (Decoder.blob : Decoder FrameError Bytes).Spends fun n bytes =>
    Costs (blob bytes) n :=
  Wire.spends_blob.mono fun _ _ => costs_ofField

theorem costs_each {item : α → Written} {n : Nat} {items : List α}
    (each : SpendsEach (fun n a => Costs (item a) n) n items) : Costs (join (items.map item)) n := by
  induction each with
  | nil => exact costs_nil
  | cons first _ ih => exact costs_cons first ih

theorem spends_counted (tooMany : String) {item : Decoder FrameError α} {write : α → Written}
    (spends : item.Spends fun n a => Costs (write a) n) :
    (Decoder.counted item).Spends fun n items => Costs (counted tooMany write items) n := by
  refine (Decoder.spends_counted spends).mono ?_
  rintro n items ⟨size, k, given, short, each⟩
  unfold counted
  rw [given]
  exact (costs_cons (.of_ok (Nat.le_refl _)) (costs_each each)).mono short

theorem costs_u16 (v : UInt16) : Costs (.ok (Wire.u16 v) : Written) 2 :=
  .of_ok (Nat.le_of_eq (Bytes.bigEndian_length 2 v.toNat))

theorem spends_idDecoder : idDecoder.Spends fun n id => Costs (.ok (Wire.u16 id) : Written) n :=
  spends_u16.mono fun _ id two => two ▸ costs_u16 id

theorem spends_flag : (Decoder.bool : Decoder FrameError Bool).Spends fun n b =>
    Costs (.ok (Wire.bool b) : Written) n :=
  spends_bool.mono fun _ _ one => one ▸ .of_ok (Nat.le_refl 1)

end Written

open Written

/-! ## Attachment blocks -/

theorem length_insertEntry_le (code : UInt16) (value : Bytes) (entries : List (UInt16 × Bytes)) :
    (insertEntry code value entries).length ≤ entries.length + 1 := by
  induction entries with
  | nil => exact Nat.le_refl 1
  | cons first rest ih =>
    rw [insertEntry]
    split
    · exact Nat.le_refl _
    · split
      · exact Nat.le_succ _
      · exact Nat.succ_le_succ ih

namespace Attachments

theorem spends_entryDecoder : entryDecoder.Spends fun n entry => Costs (entryBytes entry) n := by
  refine spends_u16.bind fun n code two => Wire.spends_blob.map _ fun k value costs => ?_
  exact costs.behind (two ▸ Nat.le_of_eq (Bytes.bigEndian_length 2 code.toNat))

/-- An entry takes no more than its own bytes, and an entry that it replaces takes none any more. -/
theorem costs_insertEntry {code : UInt16} {value : Bytes} {entries : List (UInt16 × Bytes)}
    {n k : Nat} (costs : Costs (entriesBytes entries) n)
    (entry : Costs (entryBytes (code, value)) k) :
    Costs (entriesBytes (insertEntry code value entries)) (n + k) := by
  induction entries generalizing n with
  | nil => exact (entry.append costs).mono (Nat.le_of_eq (Nat.add_comm k n))
  | cons first rest ih =>
    obtain ⟨a, b, total, own, others⟩ := costs.of_append
    rw [insertEntry]
    split
    · exact (entry.append costs).mono (by omega)
    · split
      · exact (entry.append others).mono (by omega)
      · exact (own.append (ih others)).mono (by omega)

theorem costs_putAll {entries : List (UInt16 × Bytes)} {n : Nat}
    (each : SpendsEach (fun n entry => Costs (entryBytes entry) n) n entries) {block : Attachments}
    {m : Nat} (costs : Costs (entriesBytes block.entries) m) :
    Costs (entriesBytes (block.putAll entries).entries) (m + n) ∧
      (block.putAll entries).size ≤ block.size + entries.length := by
  induction each generalizing block m with
  | nil => exact ⟨costs, Nat.le_refl _⟩
  | @cons n k entry entries first _ ih =>
    have inserted : Costs (entriesBytes (block.put entry.1 entry.2).entries) (m + n) :=
      costs_insertEntry costs first
    obtain ⟨all, few⟩ := ih inserted
    have one : (block.put entry.1 entry.2).size ≤ block.size + 1 := length_insertEntry_le _ _ _
    change Costs (entriesBytes ((block.put entry.1 entry.2).putAll entries).entries) _ ∧
      ((block.put entry.1 entry.2).putAll entries).size ≤ _
    rw [List.length_cons]
    exact ⟨all.mono (by omega), by omega⟩

theorem costs_encode {block : Attachments} (few : block.size ≤ maxEntries) {n : Nat}
    (costs : Costs (entriesBytes block.entries) n) : Costs block.encode (1 + n) := by
  obtain ⟨body, written, short⟩ := costs
  rw [encode, if_neg (Nat.not_lt.mpr few), written]
  refine .of_ok ?_
  rw [List.length_append]
  exact Nat.add_le_add_left short 1

theorem spends_decoder : decoder.Spends fun n block => Costs block.encode n := by
  refine spends_u8.bind fun n count one => ?_
  refine (spends_replicate spends_entryDecoder count.toNat).map _ fun k entries given => ?_
  obtain ⟨counted, each⟩ := given
  have none : Costs (entriesBytes empty.entries) 0 := .of_ok (Nat.le_refl 0)
  obtain ⟨costs, few⟩ := costs_putAll each none
  have limit : count.toNat ≤ maxEntries := Nat.le_of_lt_succ count.toNat_lt
  have size : (empty.putAll entries).size ≤ maxEntries := by
    have start : empty.size = 0 := rfl
    omega
  rw [one, ← Nat.zero_add k]
  exact costs_encode size costs

end Attachments

/-! ## Parts of messages -/

theorem Triple.spends_decoder : Triple.decoder.Spends fun n triple => Costs triple.encode n :=
  spends_text.bind fun _ _ app => spends_text.bind fun _ _ module =>
    spends_text.map _ fun _ _ distinct =>
      costs_cons app (costs_cons module (costs_cons distinct costs_nil))

theorem SessionOpenTail.spends_decoder : SessionOpenTail.decoder.Spends fun n tail =>
    Costs tail.encode n :=
  spends_blob.bind fun _ _ session => Attachments.spends_decoder.map _ fun _ _ block =>
    costs_cons session (costs_cons block costs_nil)

theorem ResponseTail.spends_decoder : ResponseTail.decoder.Spends fun n tail =>
    Costs tail.encode n :=
  spends_blob.bind fun _ _ payload => Attachments.spends_decoder.map _ fun _ _ block =>
    costs_cons payload (costs_cons block costs_nil)

theorem FailureTail.spends_decoder (kind : FailureKind) :
    (FailureTail.decoder kind).Spends fun n tail =>
      Costs (tail.encode kind) n ∧ tail.block kind = tail.attachments := by
  refine spends_text.bind fun _ message text => ?_
  unfold FailureTail.encode FailureTail.block
  cases kind.hasAttachments with
  | true =>
    exact Attachments.spends_decoder.map _ fun _ _ block =>
      ⟨costs_cons text (costs_cons block costs_nil), rfl⟩
  | false => exact ⟨costs_cons text (costs_cons costs_nil costs_nil), rfl⟩

theorem spends_sessionDecoder : sessionDecoder.Spends fun n session =>
    Costs (sessionField session) n := by
  refine spends_flag.bind fun _ present given => ?_
  cases present with
  | true => exact spends_blob.map _ fun _ _ session => costs_cons given (costs_cons session costs_nil)
  | false => exact given

theorem spends_outcomeDecoder : outcomeDecoder.Spends fun n value =>
    (outcomeField value).length ≤ n := by
  refine spends_bool.bind fun _ present one => ?_
  subst one
  cases present with
  | true =>
    refine spends_packed.map _ fun k v short => ?_
    change (Wire.bool true ++ Wire.packed v).length ≤ 1 + k
    rw [List.length_append]
    exact Nat.add_le_add_left short 1
  | false => exact Nat.le_refl 1

theorem ModuleAvailability.spends_decoder (available : Bool) :
    (ModuleAvailability.decoder available).Spends fun n announcement =>
      Costs announcement.body n :=
  (spends_counted _ Triple.spends_decoder).map _ fun _ _ modules => modules

theorem SessionOpenRequest.spends_decoder : SessionOpenRequest.decoder.Spends fun n request =>
    Costs request.body n :=
  spends_idDecoder.bind fun _ _ id => Triple.spends_decoder.bind fun _ _ module =>
    spends_text.bind fun _ _ bean => Attachments.spends_decoder.map _ fun _ _ block =>
      costs_cons id (costs_cons module (costs_cons bean (costs_cons block costs_nil)))

theorem InvocationRequest.spends_decoder : InvocationRequest.decoder.Spends fun n request =>
    Costs request.body n :=
  spends_idDecoder.bind fun _ _ id => Triple.spends_decoder.bind fun _ _ module =>
    spends_text.bind fun _ _ bean => spends_text.bind fun _ _ view =>
    spends_text.bind fun _ _ method => (spends_counted _ spends_text).bind fun _ _ signature =>
    spends_sessionDecoder.bind fun _ _ session => spends_blob.bind fun _ _ payload =>
    Attachments.spends_decoder.map _ fun _ _ block =>
      costs_cons id <| costs_cons module <| costs_cons bean <| costs_cons view <|
      costs_cons method <| costs_cons signature <| costs_cons session <| costs_cons payload <|
      costs_cons block costs_nil

theorem TxRequest.spends_decoder (header : Header) :
    (TxRequest.decoder header).Spends fun n request => Costs request.body n := by
  refine spends_idDecoder.bind fun _ _ id => spends_blob.bind fun _ _ transaction => ?_
  cases header with
  | txCommit =>
    exact (spends_flag.map _ fun _ _ onePhase => onePhase).map _ fun _ _ onePhase =>
      costs_cons id (costs_cons transaction (costs_cons onePhase costs_nil))
  | txRollback | txPrepare | txForget | txBeforeCompletion =>
    exact costs_cons id (costs_cons transaction (costs_cons costs_nil costs_nil))
  | _ => trivial

theorem spends_withId {α : Type} {tail : Decoder FrameError α} {P : Nat → α → Prop}
    (spends : tail.Spends P) : (withId tail).Spends fun n read => ∃ k, n = 2 + k ∧ P k read.2 :=
  spends_u16.bind fun _ _ two => spends.map _ fun k _ given =>
    ⟨k, congrArg (· + k) two, given⟩

theorem spends_answer {α : Type} {tail : Decoder FrameError α} {write : α → Written}
    (spends : tail.Spends fun n a => Costs (write a) n) : (withId tail).Spends fun n read =>
      Costs (join [.ok (Wire.u16 read.1), write read.2]) n := by
  refine (spends_withId spends).mono ?_
  rintro n ⟨id, a⟩ ⟨k, rfl, costs⟩
  exact costs_cons (costs_u16 id) (costs_cons costs costs_nil)

/-! ## Messages -/

namespace Message

/-- A message that was read can be written behind its header, and lacks nothing that is not sent. -/
def Frugal (n : Nat) (message : Message) : Prop :=
  Costs message.body n ∧ message.asSent = message

theorem spends_failureDecoder (kind : FailureKind) : (failureDecoder kind).Spends Frugal := by
  refine (spends_withId (FailureTail.spends_decoder kind)).map
    (fun read => failure kind read.1 read.2) ?_
  rintro n ⟨id, tail⟩ ⟨k, rfl, costs, sent⟩
  refine ⟨costs_cons (costs_u16 id) (costs_cons costs costs_nil), ?_⟩
  rw [asSent, sent]

theorem spends_bodyDecoder (header : Header) : (bodyDecoder header).Spends Frugal := by
  cases header with
  | sessionOpenRequest =>
    exact SessionOpenRequest.spends_decoder.map _ fun _ _ costs => ⟨costs, rfl⟩
  | sessionOpenResponse =>
    exact (spends_answer SessionOpenTail.spends_decoder).map
      (fun read => sessionOpenResponse read.1 read.2) fun _ _ costs => ⟨costs, rfl⟩
  | invocationRequest =>
    exact InvocationRequest.spends_decoder.map _ fun _ _ costs => ⟨costs, rfl⟩
  | invocationCancel =>
    refine (spends_withId spends_bool).map (fun read => cancel read.1 read.2) ?_
    rintro n ⟨id, mayInterrupt⟩ ⟨k, rfl, rfl⟩
    exact ⟨.of_ok (Nat.le_refl _), rfl⟩
  | invocationResponse =>
    exact (spends_answer ResponseTail.spends_decoder).map
      (fun read => invocationResponse read.1 read.2) fun _ _ costs => ⟨costs, rfl⟩
  | moduleAvailable =>
    exact (ModuleAvailability.spends_decoder true).map _ fun _ _ costs => ⟨costs, rfl⟩
  | moduleUnavailable =>
    exact (ModuleAvailability.spends_decoder false).map _ fun _ _ costs => ⟨costs, rfl⟩
  | asyncMethodNotification => exact spends_idDecoder.map _ fun _ _ costs => ⟨costs, rfl⟩
  | txCommit | txRollback | txPrepare | txForget | txBeforeCompletion =>
    exact (TxRequest.spends_decoder _).map _ fun _ _ costs => ⟨costs, rfl⟩
  | txResponse =>
    refine (spends_withId spends_outcomeDecoder).map (fun read => txResponse read.1 read.2) ?_
    rintro n ⟨id, value⟩ ⟨k, rfl, short⟩
    refine ⟨.of_ok ?_, rfl⟩
    rw [List.length_append]
    exact Nat.add_le_add_left short 2
  | _ => exact spends_failureDecoder _

theorem spends_decoder : decoder.Spends fun n message =>
    Costs message.encode n ∧ message.asSent = message := by
  have header : Header.decoder.Spends fun n _ => n = 1 :=
    spends_u8.bind fun _ _ one => spends_getD _ fun _ _ => one
  refine header.bind fun _ header one => (spends_bodyDecoder header).mono ?_
  rintro k message ⟨costs, sent⟩
  exact ⟨costs.behind (Nat.le_of_eq one.symm), sent⟩

end Message

/-! ## What a message holds -/

def Weighs {ε : Type} (written : Except ε Bytes) (size : Nat) : Prop :=
  ∀ bytes, written = .ok bytes → size ≤ bytes.length

namespace Weighs

variable {ε : Type}

theorem nothing (written : Except ε Bytes) : Weighs written 0 := fun _ _ => Nat.zero_le _

theorem mono {written : Except ε Bytes} {size smaller : Nat} (weighs : Weighs written size)
    (le : smaller ≤ size) : Weighs written smaller :=
  fun bytes given => Nat.le_trans le (weighs bytes given)

theorem append {first second : Except ε Bytes} {n k : Nat} (weighs : Weighs first n)
    (weighs' : Weighs second k) :
    Weighs (do let front ← first; return front ++ (← second)) (n + k) := by
  intro bytes given
  obtain ⟨front, rest, written, written', rfl⟩ := of_append_eq_ok given
  rw [List.length_append]
  exact Nat.add_le_add (weighs front written) (weighs' rest written')

end Weighs

namespace Written

variable {α : Type}

theorem weighs_cons {part : Written} {parts : List Written} {n k : Nat} (first : Weighs part n)
    (others : Weighs (join parts) k) : Weighs (join (part :: parts)) (n + k) :=
  first.append others

theorem weighs_last {part : Written} {n : Nat} (last : Weighs part n) : Weighs (join [part]) n :=
  weighs_cons last (.nothing _)

theorem weighs_wireBlob (bytes : Bytes) : Weighs (Wire.blob bytes) (bytes.length + 1) := by
  intro written given
  unfold Wire.blob at given
  split at given
  · next size counted =>
    obtain ⟨-, rfl⟩ := Wire.count?_eq_some counted
    have some_size := Wire.packed_length_pos (UInt32.ofNat bytes.length)
    rw [← Except.ok.inj given, List.length_append]
    omega
  · cases given

theorem weighs_ofField {field : Except WireError Bytes} {n : Nat} (weighs : Weighs field n) :
    Weighs (ofField field) n := by
  intro bytes given
  cases field with
  | error e => cases given
  | ok written => exact weighs bytes (congrArg Except.ok (Except.ok.inj given))

theorem weighs_blob (bytes : Bytes) : Weighs (blob bytes) (bytes.length + 1) :=
  weighs_ofField (weighs_wireBlob bytes)

theorem weighs_text (s : String) : Weighs (text s) (textSize s + 1) := weighs_blob (Bytes.ofText s)

/-- Each item takes a byte more than it holds, and this makes up for the number of items. -/
theorem weighs_counted (tooMany : String) {item : α → Written} {size : α → Nat}
    (each : ∀ a, Weighs (item a) (size a + 1)) (items : List α) :
    Weighs (counted tooMany item items) ((items.map size).sum + items.length) := by
  have all : Weighs (join (items.map item)) ((items.map size).sum + items.length) := by
    induction items with
    | nil => exact .nothing _
    | cons a items ih =>
      refine (weighs_cons (each a) ih).mono ?_
      simp only [List.map_cons, List.sum_cons, List.length_cons]
      omega
  unfold counted
  cases Wire.count? items.length with
  | none => exact fun bytes given => nomatch given
  | some count => exact (weighs_cons (.nothing (.ok count)) all).mono (Nat.le_add_left _ _)

end Written

theorem Attachments.weighs_encode (block : Attachments) :
    Weighs block.encode (block.sizes.sum + block.size) := by
  have all : ∀ entries, Weighs (entriesBytes entries)
      ((entries.map (·.2.length)).sum + entries.length) := by
    intro entries
    induction entries with
    | nil => exact .nothing _
    | cons entry entries ih =>
      have first : Weighs (entryBytes entry) (entry.2.length + 1) := by
        intro bytes given
        obtain ⟨rest, written, same⟩ := of_bind_eq_ok given
        have weighs := weighs_wireBlob entry.2 rest written
        rw [← Except.ok.inj same, List.length_append]
        omega
      refine (first.append ih).mono ?_
      simp only [List.map_cons, List.sum_cons, List.length_cons]
      omega
  intro bytes given
  unfold encode at given
  split at given
  · cases given
  · split at given
    · next body written =>
      have weighs := all block.entries body written
      rw [← Except.ok.inj given, List.length_append]
      exact Nat.le_trans weighs (Nat.le_add_left _ _)
    · cases given

theorem Triple.weighs_encode (triple : Triple) : Weighs triple.encode (triple.sizes.sum + 1) := by
  refine (weighs_cons (weighs_text triple.app)
    (weighs_cons (weighs_text triple.module) (weighs_last (weighs_text triple.distinct)))).mono ?_
  simp only [sizes, List.sum_cons, List.sum_nil]
  omega

theorem weighs_sessionField (session : Option SessionId) :
    Weighs (sessionField session) (session.toList.map (·.bytes.length)).sum := by
  cases session with
  | none => exact .nothing _
  | some session =>
    exact (weighs_cons (.nothing _) (weighs_last (weighs_blob session.bytes))).mono (by simp)

theorem FailureTail.weighs_encode (kind : FailureKind) (tail : FailureTail) :
    Weighs (tail.encode kind)
      (textSize tail.message + (tail.block kind).sizes.sum + (tail.block kind).size) := by
  have message := weighs_text tail.message
  unfold FailureTail.encode FailureTail.block
  cases kind.hasAttachments with
  | true =>
    refine (weighs_cons message (weighs_last tail.attachments.weighs_encode)).mono ?_
    simp only [if_true]
    omega
  | false => exact (weighs_cons message (.nothing _)).mono (Nat.le_succ _)

theorem ModuleAvailability.weighs_body (announcement : ModuleAvailability) :
    Weighs announcement.body
      ((announcement.modules.flatMap Triple.sizes).sum + announcement.modules.length) := by
  refine (weighs_counted _ Triple.weighs_encode announcement.modules).mono (Nat.le_of_eq ?_)
  congr 1
  induction announcement.modules with
  | nil => rfl
  | cons triple modules ih =>
    rw [List.flatMap_cons, List.sum_append, ih, List.map_cons, List.sum_cons]

namespace Message

theorem weighs_body (message : Message) :
    Weighs message.body (message.sizes.sum + message.block.size) := by
  cases message with
  | sessionOpenRequest request =>
    refine (weighs_cons (.nothing _) <| weighs_cons request.module.weighs_encode <|
      weighs_cons (weighs_text request.bean) <|
      weighs_last request.attachments.weighs_encode).mono ?_
    simp only [sizes, block, List.sum_append, List.sum_cons]
    omega
  | sessionOpenResponse id tail =>
    refine (weighs_cons (.nothing _) (weighs_last (weighs_cons (weighs_blob tail.session.bytes)
      (weighs_last tail.attachments.weighs_encode)))).mono ?_
    simp only [sizes, block, List.sum_cons]
    omega
  | invocationRequest request =>
    refine (weighs_cons (.nothing _) <| weighs_cons request.module.weighs_encode <|
      weighs_cons (weighs_text request.bean) <| weighs_cons (weighs_text request.view) <|
      weighs_cons (weighs_text request.method) <|
      weighs_cons (weighs_counted _ weighs_text request.signature) <|
      weighs_cons (weighs_sessionField request.session) <|
      weighs_cons (weighs_blob request.payload) <|
      weighs_last request.attachments.weighs_encode).mono ?_
    simp only [sizes, block, List.sum_append, List.sum_cons, List.sum_nil]
    omega
  | cancel id mayInterrupt => exact .nothing _
  | invocationResponse id tail =>
    refine (weighs_cons (.nothing _) (weighs_last (weighs_cons (weighs_blob tail.payload)
      (weighs_last tail.attachments.weighs_encode)))).mono ?_
    simp only [sizes, block, List.sum_cons]
    omega
  | failure kind id tail =>
    refine (weighs_cons (.nothing _) (weighs_last (tail.weighs_encode kind))).mono ?_
    simp only [sizes, block, List.sum_cons]
    omega
  | moduleAvailability announcement =>
    have no_block : (moduleAvailability announcement).block.size = 0 := rfl
    refine announcement.weighs_body.mono ?_
    simp only [sizes, List.sum_cons, no_block]
    omega
  | asyncMethodNotification id => exact .nothing _
  | txRequest request =>
    have no_block : (txRequest request).block.size = 0 := rfl
    refine (weighs_cons (.nothing _) (weighs_cons (weighs_blob request.transaction.bytes)
      (weighs_last (.nothing _)))).mono ?_
    simp only [sizes, List.sum_cons, List.sum_nil, no_block]
    omega
  | txResponse id value => exact .nothing _

theorem weighs_encode (message : Message) :
    Weighs message.encode (message.sizes.sum + message.block.size) := by
  intro bytes written
  obtain ⟨body, given, rfl⟩ := body_of_encode written
  rw [List.length_append]
  exact Nat.le_trans (message.weighs_body body given) (Nat.le_add_left _ _)

theorem costs_of_decode {bytes : Bytes} {message : Message} (decoded : decode bytes = .ok message) :
    Costs message.encode bytes.length ∧ message.asSent = message := by
  obtain ⟨n, spent, costs, sent⟩ := spends_decoder.of_run (run_of_decode decoded)
  exact ⟨costs.mono (Nat.le_of_eq spent), sent⟩

/-- What was read can be written, in no more bytes, and reads as before. What is written stands for
all forms of the message, and has room for all its texts, byte strings and lists. -/
theorem reencodes (bytes : Bytes) (message : Message) (decoded : decode bytes = .ok message) :
    ∃ canonical, message.encode = .ok canonical ∧ canonical.length ≤ bytes.length ∧
      decode canonical = .ok message ∧
      message.sizes.sum + message.block.size ≤ canonical.length ∧
      ∀ (bytes' : Bytes) (message' : Message), decode bytes' = .ok message' →
        (message'.encode = .ok canonical ↔ message' = message) := by
  obtain ⟨⟨canonical, written, short⟩, sent⟩ := costs_of_decode decoded
  have again := decode_of_encode written
  rw [sent] at again
  refine ⟨canonical, written, short, again, message.weighs_encode canonical written, ?_⟩
  intro bytes' message' decoded'
  constructor
  · intro written'
    have again' := decode_of_encode written'
    rw [(costs_of_decode decoded').2, again] at again'
    exact (Except.ok.inj again').symm
  · rintro rfl
    exact written

theorem ok_of_toOption {ε α : Type} {result : Except ε α} {a : α}
    (given : result.toOption = some a) : result = .ok a := by
  cases result with
  | error e => cases given
  | ok b => exact congrArg Except.ok (Option.some.inj given)

/-- A call whose first name has an over-long size, whose flag for a session is five, and whose block
is out of order and has two entries of one code. -/
theorem reencodes_of_loose_call :
    let loose : Bytes := [3, 0, 9, 0x81, 0x80, 0, 0x61, 0, 0, 0, 0, 0, 0, 5, 1, 0x73, 0,
      3, 0, 7, 1, 5, 0, 1, 0x80, 0, 0, 7, 0]
    let canonical : Bytes := [3, 0, 9, 1, 0x61, 0, 0, 0, 0, 0, 0, 1, 1, 0x73, 0,
      2, 0, 1, 0, 0, 7, 0]
    let message := Message.invocationRequest ⟨9, ⟨"a", "", ""⟩, "", "", "", [], some ⟨[0x73]⟩, [],
      (Attachments.empty.put 1 []).put 7 []⟩
    decode loose = .ok message ∧ message.encode = .ok canonical ∧
      canonical.length ≤ loose.length ∧ decode canonical = .ok message := by
  intro loose canonical message
  have decoded : decode loose = .ok message := ok_of_toOption (by decide +kernel)
  obtain ⟨canonical', written, short, again, -⟩ := reencodes loose message decoded
  have written' : message.encode = .ok canonical := ok_of_toOption (by decide +kernel)
  have same : canonical' = canonical := Except.ok.inj (written.symm.trans written')
  subst same
  exact ⟨decoded, written, short, again⟩

end Message

end Farcall
