import Farcall.Proofs.Frame.RoundTrip
import Farcall.Value.Payload

set_option autoImplicit false

/-!
# Payloads read back

Every value but a proxy can be written, as far as what it announces by size fits into 32 bits, and
what is written is read back. The same goes for the arguments of a call and for its result.
-/

namespace Farcall

open Decoder

/-! ## Locators -/

theorem TargetKind.conveys_encode (kind : TargetKind) : Conveys kind.encode decoder kind := by
  cases kind with
  | stateless => exact .of_reads ((reads_u8 0).bind_of_nil (reads_pure _))
  | stateful session =>
    exact .behind (reads_u8 1)
      ((Wire.conveys_blob session.bytes).map fun key => TargetKind.stateful ⟨key⟩)
  | entity key =>
    exact .behind (reads_u8 2) ((Wire.conveys_blob key.bytes).map fun key => TargetKind.entity ⟨key⟩)
  | home => exact .of_reads ((reads_u8 3).bind_of_nil (reads_pure _))

theorem ModuleId.of_self (module : ModuleId) :
    of (some module.app) module.name (some module.distinct) = .ok module := by
  rw [of, dif_neg module.name_ne]
  rfl

theorem Locator.conveys_encode (locator : Locator) : Conveys locator.encode decoder locator := by
  intro bytes given
  obtain ⟨app, app_written, given⟩ := of_bind_eq_ok given
  obtain ⟨name, name_written, given⟩ := of_bind_eq_ok given
  obtain ⟨distinct, distinct_written, given⟩ := of_bind_eq_ok given
  obtain ⟨bean, bean_written, given⟩ := of_bind_eq_ok given
  obtain ⟨view, view_written, given⟩ := of_bind_eq_ok given
  obtain ⟨kind, kind_written, given⟩ := of_bind_eq_ok given
  have split : bytes = app ++ (name ++ (distinct ++ (bean ++ (view ++ kind)))) := by
    rw [← Except.ok.inj given]
    simp only [List.append_assoc]
  rw [split]
  refine (Wire.conveys_text _ app app_written).bind <| (Wire.conveys_text _ name name_written).bind <|
    (Wire.conveys_text _ distinct distinct_written).bind ?_
  rw [locator.module.of_self]
  exact (Wire.conveys_text _ bean bean_written).bind <| (Wire.conveys_text _ view view_written).bind <|
    (locator.kind.conveys_encode kind kind_written).map _

/-! ## Values -/

namespace Payload

theorem conveys_locator (locator : Locator) : Conveys locator.encode locatorDecoder locator :=
  fun bytes given => (locator.conveys_encode bytes given).mapError _

theorem conveys_tagged (tag : UInt8) {fields : Except WireError Bytes} {value : Value}
    (conveys : Conveys fields (fieldsDecoder tag) value) :
    Conveys (tagged tag fields) valueDecoder value := by
  intro bytes given
  cases fields with
  | error fault => cases given
  | ok written =>
    rw [← Except.ok.inj given]
    exact (reads_u8 tag).bind (conveys written rfl)

theorem conveys_value (value : Value) : Conveys (encodeValue value) valueDecoder value := by
  cases value with
  | unit => exact conveys_tagged 0 (.of_reads (reads_pure _))
  | bool b => exact conveys_tagged 1 (.of_reads ((reads_bool b).map Value.bool))
  | int v => exact conveys_tagged 2 (.of_reads ((reads_i32 v).map Value.int))
  | long v => exact conveys_tagged 3 (.of_reads ((reads_i64 v).map Value.long))
  | text s => exact conveys_tagged 4 ((Wire.conveys_text s).map Value.text)
  | bytes data => exact conveys_tagged 5 ((Wire.conveys_blob data).map Value.bytes)
  | primaryKey key =>
    exact conveys_tagged 6 ((Wire.conveys_blob key.bytes).map fun key => Value.primaryKey ⟨key⟩)
  | session id =>
    exact conveys_tagged 7 ((Wire.conveys_blob id.bytes).map fun id => Value.session ⟨id⟩)
  | handle target => exact conveys_tagged 8 ((conveys_locator target).map Value.handle)
  | homeHandle target => exact conveys_tagged 9 ((conveys_locator target).map Value.homeHandle)
  | proxy p =>
    intro bytes given
    cases given

theorem readsEach_values {values : List Value} {bytes : Bytes}
    (given : encodeValues values = .ok bytes) : valueDecoder.ReadsEach bytes values := by
  induction values generalizing bytes with
  | nil =>
    rw [← Except.ok.inj given]
    exact .nil
  | cons value values ih =>
    rw [encodeValues] at given
    obtain ⟨front, rest, first, others, rfl⟩ := of_append_eq_ok given
    exact .cons (conveys_value value front first) (ih others)

theorem conveys_arguments (arguments : List Value) :
    Conveys (encodeArguments arguments) (counted valueDecoder) arguments := by
  intro bytes given
  unfold encodeArguments at given
  split at given
  · cases given
  · next count small =>
    obtain ⟨v, length, reads⟩ := Wire.reads_count CodecError small
    obtain ⟨values, written, given⟩ := of_bind_eq_ok given
    rw [← Except.ok.inj given]
    refine reads.bind ?_
    rw [length]
    exact reads_replicate (readsEach_values written)

theorem readAll_of_reads {α : Type} {decoder : Decoder CodecError α} {bytes : Bytes} {a : α}
    (reads : decoder.Reads bytes a) : readAll decoder bytes = .ok a := by
  rw [readAll, reads.alone]

theorem decodeArguments_of_encode {arguments : List Value} {payload : Bytes}
    (written : encodeArguments arguments = .ok payload) : decodeArguments payload = .ok arguments :=
  readAll_of_reads (conveys_arguments arguments payload written)

theorem decodeResult_of_encode {value : Value} {payload : Bytes}
    (written : encodeResult value = .ok payload) : decodeResult payload = .ok value :=
  readAll_of_reads (conveys_value value payload written)

end Payload

/-! ## What can be written -/

open Written

def Locator.sizes (locator : Locator) : List Nat :=
  textSize locator.module.app :: textSize locator.module.name :: textSize locator.module.distinct ::
    textSize locator.bean :: textSize locator.view :: locator.kind.key?.toList.map (·.length)

def Value.sizes : Value → List Nat
  | text s => [textSize s]
  | bytes data => [data.length]
  | primaryKey key => [key.bytes.length]
  | session id => [id.bytes.length]
  | handle target | homeHandle target => target.sizes
  | unit | bool _ | int _ | long _ | proxy _ => []

def Payload.sizes (arguments : List Value) : List Nat :=
  arguments.length :: arguments.flatMap Value.sizes

theorem isOk_wireText (s : String) :
    (Wire.text s).isOk = decide (textSize s < Bytes.wordBound) := Wire.isOk_blob (Bytes.ofText s)

theorem TargetKind.isOk_encode (kind : TargetKind) :
    kind.encode.isOk = announced (kind.key?.toList.map (·.length)) := by
  unfold encode
  cases kind.key? with
  | none => rfl
  | some key =>
    rw [isOk_behind, Wire.isOk_blob]
    exact (Bool.and_true _).symm

theorem isOk_bind {ε α β : Type} (first : Except ε α) {f : α → Except ε β} {given : Bool}
    (second : ∀ a, (f a).isOk = given) : (first >>= f).isOk = (first.isOk && given) := by
  cases first with
  | error e => rfl
  | ok a => exact (second a).trans (Bool.true_and _).symm

theorem Locator.isOk_encode (locator : Locator) : locator.encode.isOk = announced locator.sizes := by
  unfold encode
  rw [isOk_bind _ fun app => isOk_bind _ fun name => isOk_bind _ fun distinct =>
    isOk_bind _ fun bean => isOk_bind _ fun view => isOk_behind _ locator.kind.encode]
  simp only [isOk_wireText, TargetKind.isOk_encode, sizes, announced_cons]

namespace Payload

theorem isOk_tagged (tag : UInt8) (fields : Except WireError Bytes) :
    (tagged tag fields).isOk = fields.isOk := by
  cases fields <;> rfl

theorem isOk_value (value : Value) :
    (encodeValue value).isOk = (value.asProxy?.isNone && announced value.sizes) := by
  cases value with
  | text s =>
    rw [encodeValue, isOk_tagged, isOk_wireText]
    exact (Bool.and_true _).symm
  | bytes data =>
    rw [encodeValue, isOk_tagged, Wire.isOk_blob]
    exact (Bool.and_true _).symm
  | primaryKey key =>
    rw [encodeValue, isOk_tagged, Wire.isOk_blob]
    exact (Bool.and_true _).symm
  | session id =>
    rw [encodeValue, isOk_tagged, Wire.isOk_blob]
    exact (Bool.and_true _).symm
  | handle target => exact (isOk_tagged 8 _).trans target.isOk_encode
  | homeHandle target => exact (isOk_tagged 9 _).trans target.isOk_encode
  | unit | bool b | int v | long v | proxy p => rfl

theorem isOk_values (values : List Value) : (encodeValues values).isOk =
    (values.all (·.asProxy?.isNone) && announced (values.flatMap Value.sizes)) := by
  induction values with
  | nil => rfl
  | cons value values ih =>
    rw [encodeValues, isOk_append, ih, isOk_value, List.all_cons, List.flatMap_cons,
      announced_append]
    ac_rfl

theorem isOk_arguments (arguments : List Value) : (encodeArguments arguments).isOk =
    (arguments.all (·.asProxy?.isNone) && announced (sizes arguments)) := by
  rw [sizes, announced_cons]
  unfold encodeArguments Wire.count?
  by_cases fits : arguments.length < Bytes.wordBound
  · simp only [fits, ↓reduceIte, decide_true, Bool.true_and, isOk_behind, isOk_values]
  · simp only [fits, ↓reduceIte, decide_false, Bool.false_and, Bool.and_false]
    rfl

end Payload

end Farcall
