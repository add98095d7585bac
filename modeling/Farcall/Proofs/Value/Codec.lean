import Farcall.Proofs.Value.Payloads
import Farcall.Proofs.Wire.Spending

set_option autoImplicit false

/-!
# Payloads as a code

Payloads are read back, and a payload that was read can be written again in no more bytes. Bytes
behind a payload are counted, and one that is cut short is an input that ended. Where the end lies
within the locator of a handle, it is the locator that is malformed, and the fault comes as its text.
-/

namespace Farcall

open Decoder Written

/-! ## Written again -/

theorem TargetKind.spends_decoder : decoder.Spends fun n kind => Costs kind.encode n := by
  refine spends_u8.bind fun n code one => ?_
  subst one
  exact spends_ite (spends_pure (.of_ok (Nat.le_refl 1))) <|
    spends_ite (Wire.spends_blob.map _ fun k key costs => costs.behind (Nat.le_refl 1)) <|
    spends_ite (Wire.spends_blob.map _ fun k key costs => costs.behind (Nat.le_refl 1)) <|
    spends_ite (spends_pure (.of_ok (Nat.le_refl 1))) trivial

theorem Locator.spends_decoder : decoder.Spends fun n locator => Costs locator.encode n := by
  refine Wire.spends_text.bind fun n₁ app costs_app => ?_
  refine Wire.spends_text.bind fun n₂ name costs_name => ?_
  refine Wire.spends_text.bind fun n₃ distinct costs_distinct => ?_
  split
  · trivial
  · next module given =>
    refine Wire.spends_text.bind fun n₄ bean costs_bean => ?_
    refine Wire.spends_text.bind fun n₅ view costs_view => ?_
    refine TargetKind.spends_decoder.map _ fun n₆ kind costs_kind => ?_
    unfold ModuleId.of at given
    split at given
    · cases given
    · obtain rfl := Except.ok.inj given
      obtain ⟨_, written_app, short_app⟩ := costs_app
      obtain ⟨_, written_name, short_name⟩ := costs_name
      obtain ⟨_, written_distinct, short_distinct⟩ := costs_distinct
      obtain ⟨_, written_bean, short_bean⟩ := costs_bean
      obtain ⟨_, written_view, short_view⟩ := costs_view
      obtain ⟨_, written_kind, short_kind⟩ := costs_kind
      simp only [encode, Option.getD_some, written_app, written_name, written_distinct, written_bean,
        written_view, written_kind]
      refine .of_ok ?_
      simp only [List.length_append]
      omega

namespace Payload

theorem spends_locator : locatorDecoder.Spends fun n locator => Costs locator.encode n :=
  Locator.spends_decoder.mapError _

theorem costs_tagged (tag : UInt8) {fields : Except WireError Bytes} {n : Nat}
    (costs : Costs fields n) : Costs (tagged tag fields) (1 + n) := by
  obtain ⟨bytes, rfl, short⟩ := costs
  refine .of_ok ?_
  rw [List.length_append]
  exact Nat.add_le_add_left short 1

theorem spends_value : valueDecoder.Spends fun n value => Costs (encodeValue value) n := by
  refine spends_u8.bind fun n tag one => ?_
  subst one
  exact spends_ite (spends_pure (costs_tagged 0 (.of_ok (Nat.le_refl 0)))) <|
    spends_ite (spends_bool.map _ fun n b one => costs_tagged 1
      (.of_ok (show (Wire.bool b).length ≤ n from Nat.le_of_eq one.symm))) <|
    spends_ite (spends_i32.map _ fun _ v four => costs_tagged 2
      (.of_ok (four ▸ Nat.le_of_eq (Bytes.bigEndian_length 4 v.toUInt32.toNat)))) <|
    spends_ite (spends_i64.map _ fun _ v eight => costs_tagged 3
      (.of_ok (eight ▸ Nat.le_of_eq (Bytes.bigEndian_length 8 v.toUInt64.toNat)))) <|
    spends_ite (Wire.spends_text.map _ fun _ _ => costs_tagged 4) <|
    spends_ite (Wire.spends_blob.map _ fun _ _ => costs_tagged 5) <|
    spends_ite (Wire.spends_blob.map _ fun _ _ => costs_tagged 6) <|
    spends_ite (Wire.spends_blob.map _ fun _ _ => costs_tagged 7) <|
    spends_ite (spends_locator.map _ fun _ _ => costs_tagged 8) <|
    spends_ite (spends_locator.map _ fun _ _ => costs_tagged 9) trivial

theorem costs_values {n : Nat} {values : List Value}
    (each : SpendsEach (fun n value => Costs (encodeValue value) n) n values) :
    Costs (encodeValues values) n := by
  induction each with
  | nil => exact .of_ok (Nat.le_refl 0)
  | cons first _ ih => exact first.append ih

theorem spends_arguments : (counted valueDecoder).Spends fun n arguments =>
    Costs (encodeArguments arguments) n := by
  refine (Decoder.spends_counted spends_value).mono ?_
  rintro n arguments ⟨size, k, counted, short, each⟩
  unfold encodeArguments
  rw [counted]
  exact ((costs_values each).behind (Nat.le_refl size.length)).mono short

theorem costs_of_readAll {α : Type} {decoder : Decoder CodecError α}
    {encode : α → Except CodecError Bytes} (spends : decoder.Spends fun n a => Costs (encode a) n)
    {payload : Bytes} {a : α} (given : readAll decoder payload = .ok a) :
    Costs (encode a) payload.length := by
  unfold readAll at given
  split at given
  · next read whole =>
    obtain rfl := Except.ok.inj given
    obtain ⟨n, all, costs⟩ := spends.of_run whole
    exact costs.mono (Nat.le_of_eq all)
  · cases given
  · cases given

/-! ## Refused -/

theorem encodeValue_of_proxy {value : Value} (proxy : value.asProxy?.isSome = true) :
    encodeValue value = .error (.unsupported "proxy") := by
  cases value with
  | proxy p => rfl
  | _ => cases proxy

theorem encodeValues_of_proxy {values : List Value}
    (proxy : ∃ value ∈ values, value.asProxy?.isSome = true)
    (fits : announced (values.flatMap Value.sizes) = true) :
    encodeValues values = .error (.unsupported "proxy") := by
  induction values with
  | nil =>
    obtain ⟨value, mem, -⟩ := proxy
    cases mem
  | cons value values ih =>
    rw [List.flatMap_cons, announced_append, Bool.and_eq_true_iff] at fits
    rw [encodeValues]
    cases own : value.asProxy? with
    | some p =>
      rw [encodeValue_of_proxy (Option.isSome_of_eq_some own)]
      rfl
    | none =>
      have there := isOk_value value
      rw [fits.1, own] at there
      obtain ⟨other, mem, is_proxy⟩ := proxy
      rcases List.mem_cons.mp mem with rfl | mem
      · rw [own] at is_proxy
        cases is_proxy
      · cases written : encodeValue value with
        | error e =>
          rw [written] at there
          cases there
        | ok front =>
          rw [ih ⟨other, mem, is_proxy⟩ fits.2]
          rfl

theorem encodeArguments_of_proxy {arguments : List Value}
    (proxy : ∃ value ∈ arguments, value.asProxy?.isSome = true)
    (fits : announced (sizes arguments) = true) :
    encodeArguments arguments = .error (.unsupported "proxy") := by
  rw [sizes, announced_cons, Bool.and_eq_true_iff] at fits
  unfold encodeArguments Wire.count?
  rw [if_pos (of_decide_eq_true fits.1), encodeValues_of_proxy proxy fits.2]
  rfl

end Payload

/-! ## Cut short -/

theorem TargetKind.direct_decoder : decoder.Direct :=
  direct_u8.bind fun _ => direct_ite (fun _ => trivial) <|
    direct_ite (fun _ => direct_blob.bind fun _ => trivial) <|
    direct_ite (fun _ => direct_blob.bind fun _ => trivial) <|
    direct_ite (fun _ => trivial) trivial

theorem Locator.direct_decoder : decoder.Direct := by
  refine direct_text.bind fun app => direct_text.bind fun name => direct_text.bind fun distinct => ?_
  split
  · trivial
  · exact direct_text.bind fun _ => direct_text.bind fun _ => TargetKind.direct_decoder.bind fun _ =>
      trivial

def Value.linked? : Value → Option (UInt8 × Locator)
  | handle target => some (8, target)
  | homeHandle target => some (9, target)
  | _ => none

namespace Payload

/-- The bytes end behind the tag of a handle and before the last byte of its locator. -/
def CutInLocator (value : Value) (cut : Bytes) : Prop :=
  ∃ tag target bytes part, value.linked? = some (tag, target) ∧ target.encode = .ok bytes ∧
    cut = tag :: part ∧ part <+: bytes ∧ part ≠ bytes

inductive EndsInLocator : List Value → Bytes → Prop
  | here {value : Value} {values : List Value} {cut : Bytes} (inside : CutInLocator value cut) :
    EndsInLocator (value :: values) cut
  | behind {value : Value} {values : List Value} {front cut : Bytes}
    (written : encodeValue value = .ok front) (later : EndsInLocator values cut) :
    EndsInLocator (value :: values) (front ++ cut)

def ArgumentsEndInLocator (arguments : List Value) (cut : Bytes) : Prop :=
  ∃ size part, Wire.count? arguments.length = some size ∧ cut = size ++ part ∧
    EndsInLocator arguments part

def locatorCut : CodecError := .locator "malformed serialized form: unexpected end of input"

theorem run_value_cons (tag : UInt8) (bytes : Bytes) :
    valueDecoder.run (tag :: bytes) = (fieldsDecoder tag).run bytes :=
  run_bind_ok (reads_u8 tag bytes) _

theorem run_locator_of_cut {target : Locator} {bytes part : Bytes}
    (written : target.encode = .ok bytes) (shorter : part <+: bytes) (cut : part ≠ bytes) :
    locatorDecoder.run part = (.error locatorCut, []) := by
  rw [locatorDecoder, run_mapError,
    (target.conveys_encode bytes written).run_of_cut Locator.direct_decoder shorter cut]
  rfl

theorem direct_fields {tag : UInt8} (plain : tag ≠ 8) (plain' : tag ≠ 9) :
    (fieldsDecoder tag).Direct :=
  direct_ite (fun _ => trivial) <| direct_ite (fun _ => direct_bool.bind fun _ => trivial) <|
    direct_ite (fun _ => direct_i32.bind fun _ => trivial) <|
    direct_ite (fun _ => direct_i64.bind fun _ => trivial) <|
    direct_ite (fun _ => direct_text.bind fun _ => trivial) <|
    direct_ite (fun _ => direct_blob.bind fun _ => trivial) <|
    direct_ite (fun _ => direct_blob.bind fun _ => trivial) <|
    direct_ite (fun _ => direct_blob.bind fun _ => trivial) <|
    direct_ite (fun same => absurd same plain) <| direct_ite (fun same => absurd same plain') trivial

theorem run_linked_of_cut {value : Value} {cut : Bytes} (inside : CutInLocator value cut) :
    valueDecoder.run cut = (.error locatorCut, []) := by
  obtain ⟨tag, target, bytes, part, linked, written, rfl, shorter, short⟩ := inside
  rw [run_value_cons]
  have failed := run_locator_of_cut written shorter short
  cases value with
  | handle target | homeHandle target =>
    obtain ⟨rfl, rfl⟩ := Prod.mk.inj (Option.some.inj linked)
    exact (run_bind locatorDecoder _ part).trans (by rw [failed])
  | _ => cases linked

theorem of_tagged {tag : UInt8} {fields : Except WireError Bytes} {bytes : Bytes}
    (written : tagged tag fields = .ok bytes) :
    ∃ given, fields = .ok given ∧ bytes = tag :: given := by
  cases fields with
  | error fault => cases written
  | ok given => exact ⟨given, rfl, (Except.ok.inj written).symm⟩

theorem parts_of_encode {value : Value} {bytes : Bytes} (written : encodeValue value = .ok bytes) :
    ∃ tag fields, bytes = tag :: fields ∧
      ((∃ target, value.linked? = some (tag, target) ∧ target.encode = .ok fields) ∨
        value.linked? = none ∧ tag ≠ 8 ∧ tag ≠ 9) := by
  cases value with
  | proxy p => cases written
  | handle target | homeHandle target =>
    obtain ⟨fields, given, rfl⟩ := of_tagged written
    exact ⟨_, fields, rfl, .inl ⟨target, rfl, given⟩⟩
  | _ =>
    rw [encodeValue] at written
    obtain ⟨fields, -, rfl⟩ := of_tagged written
    exact ⟨_, fields, rfl, .inr ⟨rfl, by decide, by decide⟩⟩

/-- The end of a value that is cut short is missed by its locator, or by whatever else was read. -/
theorem run_value_of_cut {value : Value} {bytes cut : Bytes} (written : encodeValue value = .ok bytes)
    (shorter : cut <+: bytes) (short : cut ≠ bytes) :
    CutInLocator value cut ∧ valueDecoder.run cut = (.error locatorCut, []) ∨
      ¬ CutInLocator value cut ∧ valueDecoder.run cut = (.error (.wire .endOfInput), []) := by
  by_cases inside : CutInLocator value cut
  · exact .inl ⟨inside, run_linked_of_cut inside⟩
  · refine .inr ⟨inside, ?_⟩
    obtain ⟨tag, fields, rfl, parts⟩ := parts_of_encode written
    cases cut with
    | nil => rfl
    | cons tag' part =>
      obtain ⟨rfl, part_shorter⟩ := List.cons_prefix_cons.mp shorter
      have part_short : part ≠ fields := fun same => short (same ▸ rfl)
      rcases parts with ⟨target, linked, target_written⟩ | ⟨-, plain, plain'⟩
      · exact absurd
          ⟨tag', target, fields, part, linked, target_written, rfl, part_shorter, part_short⟩ inside
      · obtain ⟨behind, rfl⟩ := part_shorter
        have missing : behind ≠ [] := by
          rintro rfl
          exact part_short (List.append_nil part).symm
        have whole := (conveys_value value _ written).alone
        rw [run_value_cons] at whole ⊢
        exact run_of_cut (direct_fields plain plain') whole (List.length_pos_iff.mpr missing)

theorem CutInLocator.length_lt {value : Value} {cut front : Bytes} (inside : CutInLocator value cut)
    (written : encodeValue value = .ok front) : cut.length < front.length := by
  obtain ⟨tag, target, bytes, part, linked, target_written, rfl, shorter, short⟩ := inside
  obtain ⟨tag', fields, rfl, parts⟩ := parts_of_encode written
  rcases parts with ⟨target', linked', written'⟩ | ⟨plain, -⟩
  · obtain ⟨rfl, rfl⟩ := Prod.mk.inj (Option.some.inj (linked.symm.trans linked'))
    obtain rfl := Except.ok.inj (target_written.symm.trans written')
    have fewer : part.length < bytes.length :=
      Nat.lt_of_le_of_ne shorter.length_le fun same => short (shorter.eq_of_length same)
    exact Nat.succ_lt_succ fewer
  · rw [plain] at linked
    cases linked

theorem EndsInLocator.of_short {value : Value} {values : List Value} {cut front : Bytes}
    (written : encodeValue value = .ok front) (short : cut.length < front.length)
    (ends : EndsInLocator (value :: values) cut) : CutInLocator value cut := by
  cases ends with
  | here inside => exact inside
  | behind written' later =>
    obtain rfl := Except.ok.inj (written.symm.trans written')
    rw [List.length_append] at short
    omega

theorem EndsInLocator.of_long {value : Value} {values : List Value} {cut front : Bytes}
    (written : encodeValue value = .ok front)
    (ends : EndsInLocator (value :: values) (front ++ cut)) : EndsInLocator values cut := by
  generalize whole : front ++ cut = bytes at ends
  cases ends with
  | here inside =>
    have short := inside.length_lt written
    rw [← whole, List.length_append] at short
    omega
  | behind written' later =>
    obtain rfl := Except.ok.inj (written.symm.trans written')
    exact List.append_cancel_left whole ▸ later

theorem run_values_of_cut {values : List Value} {bytes cut : Bytes}
    (written : encodeValues values = .ok bytes) (shorter : cut <+: bytes) (short : cut ≠ bytes)
    (read : List Value) :
    EndsInLocator values cut ∧
        (repeatOnto valueDecoder values.length read).run cut = (.error locatorCut, []) ∨
      ¬ EndsInLocator values cut ∧
        (repeatOnto valueDecoder values.length read).run cut = (.error (.wire .endOfInput), []) := by
  induction values generalizing bytes cut read with
  | nil =>
    obtain rfl := Except.ok.inj written
    exact absurd (List.prefix_nil.mp shorter) short
  | cons value values ih =>
    rw [encodeValues] at written
    obtain ⟨front, rest, first, others, rfl⟩ := of_append_eq_ok written
    have next : (repeatOnto valueDecoder (value :: values).length read).run cut =
        (valueDecoder >>= fun value => repeatOnto valueDecoder values.length (value :: read)).run cut :=
      rfl
    rw [next]
    -- the end lies within the first value, or the first is read and the others are cut short
    by_cases within : cut.length < front.length
    · have shorter' : cut <+: front := List.prefix_of_prefix_length_le shorter
        (List.prefix_append front rest) (Nat.le_of_lt within)
      have short' : cut ≠ front := fun same => absurd (congrArg List.length same) (Nat.ne_of_lt within)
      rw [run_bind]
      rcases run_value_of_cut first shorter' short' with ⟨inside, failed⟩ | ⟨outside, failed⟩
      · exact .inl ⟨.here inside, by rw [failed]⟩
      · exact .inr ⟨fun ends => outside (ends.of_short first within), by rw [failed]⟩
    · obtain ⟨more, rfl⟩ : front <+: cut := List.prefix_of_prefix_length_le
        (List.prefix_append front rest) shorter (Nat.le_of_not_lt within)
      rw [run_bind_ok (conveys_value value front first more)]
      have shorter' := (List.prefix_append_right_inj front).mp shorter
      have short' : more ≠ rest := fun same => short (same ▸ rfl)
      rcases ih others shorter' short' (value :: read) with ⟨ends, failed⟩ | ⟨whole, failed⟩
      · exact .inl ⟨.behind first ends, failed⟩
      · exact .inr ⟨fun ends => whole (ends.of_long first), failed⟩

theorem run_arguments_of_cut {arguments : List Value} {payload cut : Bytes}
    (written : encodeArguments arguments = .ok payload) (shorter : cut <+: payload)
    (short : cut ≠ payload) :
    ArgumentsEndInLocator arguments cut ∧
        (counted valueDecoder).run cut = (.error locatorCut, []) ∨
      ¬ ArgumentsEndInLocator arguments cut ∧
        (counted valueDecoder).run cut = (.error (.wire .endOfInput), []) := by
  unfold encodeArguments at written
  split at written
  · cases written
  · next size counted =>
    obtain ⟨v, length, reads⟩ := Wire.reads_count CodecError counted
    obtain ⟨values, others, written⟩ := of_bind_eq_ok written
    obtain rfl := Except.ok.inj written
    by_cases within : cut.length < size.length
    · have shorter' : cut <+: size := List.prefix_of_prefix_length_le shorter
        (List.prefix_append size values) (Nat.le_of_lt within)
      have short' : cut ≠ size := fun same => absurd (congrArg List.length same) (Nat.ne_of_lt within)
      refine .inr ⟨?_, ?_⟩
      · rintro ⟨size', part, counted', rfl, -⟩
        obtain rfl := Option.some.inj (counted.symm.trans counted')
        rw [List.length_append] at within
        omega
      · rw [Decoder.counted, run_bind, reads.run_of_cut direct_packed shorter' short']
        rfl
    · obtain ⟨more, rfl⟩ : size <+: cut := List.prefix_of_prefix_length_le
        (List.prefix_append size values) shorter (Nat.le_of_not_lt within)
      have shorter' := (List.prefix_append_right_inj size).mp shorter
      have short' : more ≠ values := fun same => short (same ▸ rfl)
      rw [Decoder.counted, run_bind_ok (reads more), length]
      rcases run_values_of_cut others shorter' short' [] with ⟨ends, failed⟩ | ⟨whole, failed⟩
      · exact .inl ⟨⟨size, more, counted, rfl, ends⟩, failed⟩
      · refine .inr ⟨?_, failed⟩
        rintro ⟨size', part, counted', same, ends⟩
        obtain rfl := Option.some.inj (counted.symm.trans counted')
        exact whole (List.append_cancel_left same ▸ ends)

/-! ## The code -/

/-- How things are written as payloads and read back, where a thing consists of values: `sizes` are
what it announces, and `cutInLocator` says that its bytes end within a locator. -/
structure Code {α : Type} (encode : α → Except CodecError Bytes)
    (decode : Bytes → Except CodecError α) (values : α → List Value) (sizes : α → List Nat)
    (cutInLocator : α → Bytes → Prop) : Prop where
  written : ∀ a, announced (sizes a) = true →
    ((∃ payload, encode a = .ok payload) ↔ ∀ value ∈ values a, value.asProxy? = none)
  refused : ∀ a, announced (sizes a) = true → (∃ value ∈ values a, value.asProxy?.isSome = true) →
    encode a = .error (.unsupported "proxy")
  returns : ∀ a payload, encode a = .ok payload → decode payload = .ok a
  again : ∀ payload a, decode payload = .ok a → ∃ shorter, encode a = .ok shorter ∧
    shorter.length ≤ payload.length ∧ decode shorter = .ok a
  longer : ∀ a payload behind, encode a = .ok payload → behind ≠ [] →
    decode (payload ++ behind) = .error (.trailingBytes behind.length)
  cut : ∀ a payload cut, encode a = .ok payload → cut <+: payload → cut ≠ payload →
    cutInLocator a cut ∧ decode cut = .error locatorCut ∨
      ¬ cutInLocator a cut ∧ decode cut = .error (.wire .endOfInput)

theorem readAll_of_error {α : Type} {decoder : Decoder CodecError α} {bytes rest : Bytes}
    {e : CodecError} (failed : decoder.run bytes = (.error e, rest)) :
    readAll decoder bytes = .error e := by
  rw [readAll, failed]

theorem readAll_of_more {α : Type} {decoder : Decoder CodecError α} {payload behind : Bytes} {a : α}
    (reads : decoder.Reads payload a) (more : behind ≠ []) :
    readAll decoder (payload ++ behind) = .error (.trailingBytes behind.length) := by
  rw [readAll, reads behind]
  cases behind with
  | nil => exact absurd rfl more
  | cons b behind => rfl

theorem Code.of_parts {α : Type} {encode : α → Except CodecError Bytes}
    {decoder : Decoder CodecError α} {values : α → List Value} {sizes : α → List Nat}
    {cutInLocator : α → Bytes → Prop}
    (written : ∀ a, (encode a).isOk =
      ((values a).all (·.asProxy?.isNone) && announced (sizes a)))
    (refused : ∀ {a}, (∃ value ∈ values a, value.asProxy?.isSome = true) →
      announced (sizes a) = true → encode a = .error (.unsupported "proxy"))
    (conveys : ∀ a, Conveys (encode a) decoder a)
    (spends : decoder.Spends fun n a => Costs (encode a) n)
    (cut : ∀ {a payload cut}, encode a = .ok payload → cut <+: payload → cut ≠ payload →
      cutInLocator a cut ∧ decoder.run cut = (.error locatorCut, []) ∨
        ¬ cutInLocator a cut ∧ decoder.run cut = (.error (.wire .endOfInput), [])) :
    Code encode (readAll decoder) values sizes cutInLocator where
  written a fits := by
    have same := written a
    rw [fits, Bool.and_true] at same
    simp only [← Option.isNone_iff_eq_none, ← List.all_eq_true, ← same]
    cases encode a with
    | ok payload => exact iff_of_true ⟨payload, rfl⟩ rfl
    | error e => exact iff_of_false (fun ⟨_, given⟩ => nomatch given) Bool.false_ne_true
  refused a fits proxy := refused proxy fits
  returns a payload given := readAll_of_reads (conveys a payload given)
  again payload a read := by
    obtain ⟨shorter, given, short⟩ := costs_of_readAll spends read
    exact ⟨shorter, given, short, readAll_of_reads (conveys a shorter given)⟩
  longer a payload behind given more := readAll_of_more (conveys a payload given) more
  cut a payload cut' given shorter short :=
    (cut given shorter short).imp (And.imp_right readAll_of_error) (And.imp_right readAll_of_error)

/-- Arguments and results are a code: what has no proxy in it is written and read back, what was read
is written again in no more bytes, and what is too long or too short is refused for just that. -/
theorem faithful_code :
    Code encodeArguments decodeArguments id sizes ArgumentsEndInLocator ∧
      Code encodeResult decodeResult (fun value => [value]) Value.sizes CutInLocator := by
  have single : ∀ value, (encodeValue value).isOk =
      ([value].all (·.asProxy?.isNone) && announced value.sizes) := by
    intro value
    rw [isOk_value, List.all_cons, List.all_nil, Bool.and_true]
  have proxy : ∀ {value : Value}, (∃ v ∈ [value], v.asProxy?.isSome = true) →
      announced value.sizes = true → encodeValue value = .error (.unsupported "proxy") := by
    rintro value ⟨_, mem, is_proxy⟩ -
    exact encodeValue_of_proxy (List.mem_singleton.mp mem ▸ is_proxy)
  exact ⟨.of_parts isOk_arguments encodeArguments_of_proxy conveys_arguments spends_arguments
      run_arguments_of_cut,
    .of_parts single proxy conveys_value spends_value run_value_of_cut⟩

/-- The second of two arguments is a handle, and the bytes end behind its tag. -/
example : decodeArguments [2, 0, 8] = .error locatorCut := by rfl

end Payload
end Farcall
