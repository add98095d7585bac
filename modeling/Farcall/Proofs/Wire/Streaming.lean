import Farcall.Proofs.Wire.Fields
import Farcall.Proofs.Wire.Steady

set_option autoImplicit false

/-!
# Fields from a stream

Fields that are read one after the other from a stream are the fields of its bytes: each gives the
same value or error and uses as many bytes, wherever the reads are cut and interrupted. Where the
stream fails, this holds of every field that lies in front of the failure; a field that needs a byte
behind it gives the fault, and a field without bytes is still read.
-/

namespace Farcall

inductive Field where
  | u8
  | u16
  | u32
  | i32
  | i64
  | bool
  | packed
  | raw (count : Nat)
  | blob
  | text
deriving DecidableEq, Repr

inductive Datum where
  | u8 (v : UInt8)
  | u16 (v : UInt16)
  | u32 (v : UInt32)
  | i32 (v : Int32)
  | i64 (v : Int64)
  | bool (v : Bool)
  | bytes (v : Bytes)
  | text (v : String)
deriving DecidableEq

namespace Field

def decoder : Field → Decoder WireError Datum
  | u8 => do return .u8 (← Decoder.u8)
  | u16 => do return .u16 (← Decoder.u16)
  | u32 => do return .u32 (← Decoder.u32)
  | i32 => do return .i32 (← Decoder.i32)
  | i64 => do return .i64 (← Decoder.i64)
  | bool => do return .bool (← Decoder.bool)
  | packed => do return .u32 (← Decoder.packed)
  | raw count => do return .bytes (← Decoder.take count)
  | blob => do return .bytes (← Decoder.blob)
  | text => do return .text (← Decoder.text)

/-- A source behind fields that were read from it one after the other; a field that is in error
does not keep the next one from being read. -/
def leftBy {σ : Type} [ByteSource σ] : List Field → σ → σ
  | [], source => source
  | field :: later, source => leftBy later (field.decoder.run source).2

end Field

/-- How many bytes a decoder asks for on given bytes, those that are missing included. -/
def Decoder.asked {ε α : Type} : Decoder ε α → Bytes → Nat
  | done _, _ => 0
  | need count _ next, bytes =>
    if count ≤ bytes.length then
      count + (next (bytes.take count)).asked (bytes.drop count)
    else count

/-- How far into the bytes any of the fields asks, read one after the other. -/
def Field.reach : List Field → Bytes → Nat
  | [], _ => 0
  | field :: later, bytes =>
    let read := field.decoder.run bytes
    max (field.decoder.asked bytes) (bytes.length - read.2.length + reach later read.2)

/-- On the input the decoder gives what it gives on the bytes, and it uses as many bytes. -/
structure Decoder.SameOn {ε α : Type} (decoder : Decoder ε α) (input : Input) (bytes : Bytes) :
    Prop where
  result : (decoder.run input).1 = (decoder.run bytes).1
  rest : (decoder.run input).2.pending = (decoder.run bytes).2
  used : (decoder.run input).2.delivered + (decoder.run bytes).2.length =
    input.delivered + bytes.length

/-- Once so many bytes were handed over, every read fails; a read that is merely interrupted is
repeated. -/
structure Input.FailsAt (input : Input) (position : Nat) (fault : IoFault) : Prop where
  stops : Input.stop? input.delivered input.breakdowns = some (position, fault)
  held : position ≤ input.delivered + input.pending.length
  lasting : fault.kind ≠ .interrupted

namespace Decoder

variable {ε α : Type} [FromWire ε]

omit [FromWire ε] in
theorem run_of_asked {decoder : Decoder ε α} {bytes : Bytes} {held : Nat} (error : WireError)
    (enough : held ≤ bytes.length) (within : decoder.asked bytes ≤ held) :
    decoder.run (Supply.mk (bytes.take held) error) =
        ((decoder.run bytes).1, ⟨(bytes.take held).drop (decoder.asked bytes), error⟩) ∧
      (decoder.run bytes).2 = bytes.drop (decoder.asked bytes) := by
  induction decoder generalizing bytes held with
  | done result => exact ⟨rfl, rfl⟩
  | need count fault next ih =>
    rw [asked] at within ⊢
    have long : count ≤ bytes.length := by
      split at within <;> omega
    rw [if_pos long] at within ⊢
    have left : held - count ≤ (bytes.drop count).length := by
      rw [List.length_drop]
      omega
    have held' : count ≤ (Supply.mk (bytes.take held) error).bytes.length := by
      change count ≤ (bytes.take held).length
      rw [List.length_take]
      omega
    obtain ⟨same, rest⟩ := ih (bytes.take count) left (by omega)
    have front : (bytes.take held).take count = bytes.take count := by
      rw [List.take_take, Nat.min_eq_left (by omega)]
    have back : (bytes.take held).drop count = (bytes.drop count).take (held - count) :=
      List.drop_take
    simp only [run]
    rw [Supply.fetch_of_long held', fetch_of_long long]
    simp only [Supply.behind, front, back]
    rw [same, rest, List.drop_drop, ← back, List.drop_drop]
    exact ⟨rfl, rfl⟩

theorem run_of_asked_beyond {decoder : Decoder ε α} (direct : decoder.Direct) {bytes : Bytes}
    {held : Nat} (error : WireError) (enough : held ≤ bytes.length)
    (beyond : held < decoder.asked bytes) :
    decoder.run (Supply.mk (bytes.take held) error) =
      (.error (FromWire.ofWire error), ⟨[], error⟩) := by
  induction decoder generalizing bytes held with
  | done result => exact absurd beyond (Nat.not_lt_zero _)
  | need count fault next ih =>
    obtain ⟨same, direct⟩ := direct
    rw [asked] at beyond
    simp only [run]
    by_cases met : count ≤ held
    · have long : count ≤ bytes.length := by omega
      have held' : count ≤ (Supply.mk (bytes.take held) error).bytes.length := by
        change count ≤ (bytes.take held).length
        rw [List.length_take]
        omega
      have left : held - count ≤ (bytes.drop count).length := by
        rw [List.length_drop]
        omega
      rw [if_pos long] at beyond
      have front : (bytes.take held).take count = bytes.take count := by
        rw [List.take_take, Nat.min_eq_left (by omega)]
      rw [Supply.fetch_of_long held']
      simp only [Supply.behind, front, List.drop_take]
      exact ih (bytes.take count) (direct _) left (by omega)
    · have short : (Supply.mk (bytes.take held) error).bytes.length < count := by
        change (bytes.take held).length < count
        rw [List.length_take]
        omega
      rw [Supply.fetch_of_short short, same]
      simp only [Supply.behind, List.drop_length]

theorem run_of_short {decoder : Decoder ε α} (direct : decoder.Direct) {bytes : Bytes}
    (short : bytes.length < decoder.asked bytes) :
    decoder.run bytes = (.error (FromWire.ofWire .endOfInput), []) := by
  have whole := run_of_asked_beyond direct .endOfInput (Nat.le_refl _) short
  rw [List.take_length] at whole
  have same := Supply.run_ofBytes decoder bytes
  rw [Supply.ofBytes, whole] at same
  obtain ⟨result, rest⟩ := Prod.mk.inj same
  exact Prod.ext result.symm (congrArg Supply.bytes rest).symm

end Decoder

namespace Field

theorem direct (field : Field) : field.decoder.Direct := by
  cases field with
  | u8 => exact Decoder.direct_u8.bind fun _ => trivial
  | u16 => exact Decoder.direct_u16.bind fun _ => trivial
  | u32 => exact Decoder.direct_u32.bind fun _ => trivial
  | i32 => exact Decoder.direct_i32.bind fun _ => trivial
  | i64 => exact Decoder.direct_i64.bind fun _ => trivial
  | bool => exact Decoder.direct_bool.bind fun _ => trivial
  | packed => exact Decoder.direct_packed.bind fun _ => trivial
  | raw count => exact (Decoder.direct_take count).bind fun _ => trivial
  | blob => exact Decoder.direct_blob.bind fun _ => trivial
  | text => exact Decoder.direct_text.bind fun _ => trivial

theorem asked_pos {field : Field} (nonempty : field ≠ .raw 0) (bytes : Bytes) :
    0 < field.decoder.asked bytes := by
  have begins : ∃ count fault next, field.decoder = .need (count + 1) fault next := by
    cases field with
    | raw count =>
      cases count with
      | zero => exact absurd rfl nonempty
      | succ count => exact ⟨count, _, _, rfl⟩
    | u16 => exact ⟨1, _, _, rfl⟩
    | u32 | i32 => exact ⟨3, _, _, rfl⟩
    | i64 => exact ⟨7, _, _, rfl⟩
    | u8 | bool | packed | blob | text => exact ⟨0, _, _, rfl⟩
  obtain ⟨count, fault, next, same⟩ := begins
  rw [same, Decoder.asked]
  split <;> omega

theorem run_of_empty {σ : Type} [ByteSource σ] (source : σ) :
    (raw 0).decoder.run source = (.ok (.bytes []), source) := rfl

theorem length_run_le {ε α : Type} (decoder : Decoder ε α) (bytes : Bytes) :
    (decoder.run bytes).2.length ≤ bytes.length := by
  induction decoder generalizing bytes with
  | done result => exact Nat.le_refl _
  | need count fault next ih =>
    simp only [Decoder.run]
    by_cases long : count ≤ bytes.length
    · rw [Decoder.fetch_of_long long]
      exact Nat.le_trans (ih _ _) (by rw [List.length_drop]; omega)
    · rw [Decoder.fetch_of_short (Nat.lt_of_not_le long)]
      exact Nat.zero_le _

theorem used_le_asked {ε α : Type} (decoder : Decoder ε α) (bytes : Bytes) :
    bytes.length ≤ (decoder.run bytes).2.length + decoder.asked bytes := by
  induction decoder generalizing bytes with
  | done result => exact Nat.le_refl _
  | need count fault next ih =>
    simp only [Decoder.run, Decoder.asked]
    by_cases long : count ≤ bytes.length
    · have further := ih (bytes.take count) (bytes.drop count)
      rw [List.length_drop] at further
      rw [Decoder.fetch_of_long long, if_pos long]
      dsimp only
      omega
    · rw [Decoder.fetch_of_short (Nat.lt_of_not_le long), if_neg long]
      dsimp only
      omega

theorem length_leftBy_le (before : List Field) (bytes : Bytes) :
    (leftBy before bytes).length ≤ bytes.length := by
  induction before generalizing bytes with
  | nil => exact Nat.le_refl _
  | cons field before ih => exact Nat.le_trans (ih _) (length_run_le _ _)

theorem reach_append (before : List Field) (field : Field) (bytes : Bytes) :
    reach (before ++ [field]) bytes = max (reach before bytes)
      (bytes.length - (leftBy before bytes).length +
        field.decoder.asked (leftBy before bytes)) := by
  induction before generalizing bytes with
  | nil =>
    have used := used_le_asked field.decoder bytes
    simp only [List.nil_append, reach, leftBy, Nat.add_zero]
    omega
  | cons first before ih =>
    have shorter := length_run_le first.decoder bytes
    have shorter' := length_leftBy_le before (first.decoder.run bytes).2
    simp only [List.cons_append, reach, leftBy, ih]
    omega

/-! ## Along a stream -/

/-- The stream stands before these bytes, and all but `left` of them it will not hand over. -/
structure Standing (input : Input) (bytes : Bytes) (left : Nat) (error : WireError) : Prop where
  moves : input.Moves
  pending : input.pending = bytes
  supply : input.supply = ⟨bytes.take left, error⟩
  enough : left ≤ bytes.length

variable {input : Input} {bytes : Bytes} {left : Nat} {error : WireError}

theorem Standing.within {ε α : Type} (standing : Standing input bytes left error)
    {decoder : Decoder ε α} (within : decoder.asked bytes ≤ left) :
    decoder.SameOn input bytes ∧
      (decoder.run bytes).2.length + decoder.asked bytes = bytes.length ∧
      Standing (decoder.run input).2 (decoder.run bytes).2 (left - decoder.asked bytes) error := by
  obtain ⟨moves, rfl, supply, enough⟩ := standing
  obtain ⟨result, supply', n, onward⟩ := decoder.run_of_moves moves
  obtain ⟨same, rest⟩ := Decoder.run_of_asked error enough within
  rw [supply, same] at result supply'
  have length : n = decoder.asked input.pending := by
    have taken := onward.enough
    have used := congrArg (fun supply : Supply => supply.bytes.length)
      (supply'.symm.trans onward.supply)
    simp only [supply, Supply.behind, List.length_drop, List.length_take] at taken used
    omega
  have pending := onward.pending
  rw [length, ← rest] at pending
  have lengths : (decoder.run input.pending).2.length + decoder.asked input.pending =
      input.pending.length := by
    rw [rest, List.length_drop]
    omega
  refine ⟨⟨result, pending, ?_⟩, lengths, onward.moves moves, pending, ?_, ?_⟩
  · rw [onward.delivered, length]
    omega
  · rw [supply', rest, List.drop_take]
  · omega

theorem Standing.beyond {ε α : Type} [FromWire ε] (standing : Standing input bytes left error)
    {decoder : Decoder ε α} (direct : decoder.Direct) (beyond : left < decoder.asked bytes) :
    (decoder.run input).1 = .error (FromWire.ofWire error) ∧
      (decoder.run input).2.delivered = input.delivered + left ∧
      Standing (decoder.run input).2 (decoder.run input).2.pending 0 error := by
  obtain ⟨moves, rfl, supply, enough⟩ := standing
  obtain ⟨result, supply', n, onward⟩ := decoder.run_of_moves moves
  rw [supply, Decoder.run_of_asked_beyond direct error enough beyond] at result supply'
  have length : n = left := by
    have taken := onward.enough
    have used := congrArg (fun supply : Supply => supply.bytes.length)
      (supply'.symm.trans onward.supply)
    simp only [supply, Supply.behind, List.length_drop, List.length_take, List.length_nil]
      at taken used
    omega
  exact ⟨result, by rw [onward.delivered, length], onward.moves moves, rfl, supply',
    Nat.zero_le _⟩

theorem Standing.used_up (standing : Standing input input.pending 0 error) (field : Field) :
    (field.decoder.run input).2.delivered = input.delivered ∧
      Standing (field.decoder.run input).2 (field.decoder.run input).2.pending 0 error := by
  by_cases empty : field = .raw 0
  · subst empty
    exact ⟨rfl, standing⟩
  · exact (standing.beyond field.direct (asked_pos empty _)).2

theorem Standing.leftBy_used_up (standing : Standing input input.pending 0 error)
    (fields : List Field) : (leftBy fields input).delivered = input.delivered ∧
      Standing (leftBy fields input) (leftBy fields input).pending 0 error := by
  induction fields generalizing input with
  | nil => exact ⟨rfl, standing⟩
  | cons field later ih =>
    obtain ⟨same, standing'⟩ := standing.used_up field
    obtain ⟨same', standing''⟩ := ih standing'
    exact ⟨same'.trans same, standing''⟩

theorem Standing.leftBy_within (standing : Standing input bytes left error) {fields : List Field}
    (within : reach fields bytes ≤ left) :
    (leftBy fields input).delivered + (leftBy fields bytes).length =
        input.delivered + bytes.length ∧
      bytes.length - (leftBy fields bytes).length ≤ left ∧
      Standing (leftBy fields input) (leftBy fields bytes)
        (left - (bytes.length - (leftBy fields bytes).length)) error := by
  induction fields generalizing input bytes left with
  | nil =>
    simp only [leftBy, Nat.sub_self, Nat.sub_zero]
    exact ⟨trivial, Nat.zero_le _, standing⟩
  | cons field later ih =>
    rw [reach] at within
    have asked : field.decoder.asked bytes ≤ left := by omega
    obtain ⟨same, lengths, standing'⟩ := standing.within asked
    obtain ⟨used, few, standing''⟩ := ih standing' (by omega)
    have shorter := length_leftBy_le later (field.decoder.run bytes).2
    have used' := same.used
    have whole : left - field.decoder.asked bytes - ((field.decoder.run bytes).2.length -
        (leftBy later (field.decoder.run bytes).2).length) =
          left - (bytes.length - (leftBy later (field.decoder.run bytes).2).length) := by
      omega
    rw [whole] at standing''
    simp only [leftBy]
    exact ⟨by omega, by omega, standing''⟩

theorem Standing.leftBy_beyond (standing : Standing input bytes left error) {fields : List Field}
    (beyond : left < reach fields bytes) :
    (leftBy fields input).delivered = input.delivered + left ∧
      Standing (leftBy fields input) (leftBy fields input).pending 0 error := by
  induction fields generalizing input bytes left with
  | nil => exact absurd beyond (Nat.not_lt_zero _)
  | cons field later ih =>
    rw [reach] at beyond
    by_cases within : field.decoder.asked bytes ≤ left
    · obtain ⟨same, lengths, standing'⟩ := standing.within within
      have used := same.used
      obtain ⟨stopped, standing''⟩ := ih standing' (by omega)
      simp only [leftBy]
      exact ⟨by omega, standing''⟩
    · obtain ⟨-, stopped, standing'⟩ :=
        standing.beyond field.direct (Nat.lt_of_not_le within)
      obtain ⟨same, standing''⟩ := standing'.leftBy_used_up later
      exact ⟨same.trans stopped, standing''⟩

end Field

namespace Input

theorem FailsAt.standing {input : Input} {position : Nat} {fault : IoFault}
    (fails : input.FailsAt position fault) (moves : input.Moves) :
    Field.Standing input input.pending (position - input.delivered) (.ofFault fault) := by
  have held := fails.held
  exact ⟨moves, rfl, supply_of_stop fails.stops held, by omega⟩

theorem leftBy_of_unbroken {input : Input} (moves : input.Moves)
    (unbroken : ∀ b ∈ input.breakdowns, b.passing = true) (fields : List Field) :
    (Field.leftBy fields input).Moves ∧
      (∀ b ∈ (Field.leftBy fields input).breakdowns, b.passing = true) ∧
      (Field.leftBy fields input).pending = Field.leftBy fields input.pending := by
  induction fields generalizing input with
  | nil => exact ⟨moves, unbroken, rfl⟩
  | cons field later ih =>
    obtain ⟨-, rest, n, onward⟩ := field.decoder.run_of_unbroken moves unbroken
    have further := ih (onward.moves moves) (onward.unbroken unbroken)
    rw [rest] at further
    exact further

theorem sameOn_of_unbroken {input : Input} (moves : input.Moves)
    (unbroken : ∀ b ∈ input.breakdowns, b.passing = true) (before : List Field) (field : Field) :
    field.decoder.SameOn (Field.leftBy before input) (Field.leftBy before input.pending) := by
  obtain ⟨moves', unbroken', pending⟩ := leftBy_of_unbroken moves unbroken before
  obtain ⟨result, rest, n, onward⟩ := field.decoder.run_of_unbroken moves' unbroken'
  rw [pending] at result rest
  refine ⟨result, rest, ?_⟩
  have enough := onward.enough
  rw [supply_of_unbroken unbroken'] at enough
  change n ≤ (Field.leftBy before input).pending.length at enough
  rw [onward.delivered, ← rest, onward.pending, ← pending, List.length_drop]
  omega

/-- Fields from a stream are the fields of its bytes up to where the stream fails for good. -/
theorem streams_as_bytes (input : Input) (moves : ∀ n, input.chunk n ≠ some 0)
    (before : List Field) (field : Field) :
    ((Field.leftBy before input.pending).length <
        field.decoder.asked (Field.leftBy before input.pending) →
      field.decoder.run (Field.leftBy before input.pending) = (.error .endOfInput, [])) ∧
    ((∀ b ∈ input.breakdowns, b.passing = true) →
      field.decoder.SameOn (Field.leftBy before input) (Field.leftBy before input.pending)) ∧
    ∀ position fault, input.FailsAt position fault →
      (Field.reach (before ++ [field]) input.pending ≤ position - input.delivered →
        field.decoder.SameOn (Field.leftBy before input) (Field.leftBy before input.pending)) ∧
      (position - input.delivered < Field.reach (before ++ [field]) input.pending →
        field ≠ .raw 0 →
        (field.decoder.run (Field.leftBy before input)).1 =
          .error (if fault.kind = .unexpectedEnd then .endOfInput else .io fault)) ∧
      (field = .raw 0 →
        field.decoder.run (Field.leftBy before input) =
          (.ok (.bytes []), Field.leftBy before input)) := by
  refine ⟨Decoder.run_of_short field.direct,
    fun unbroken => sameOn_of_unbroken moves unbroken before field, ?_⟩
  intro position fault fails
  have standing := fails.standing moves
  rw [Field.reach_append]
  refine ⟨?_, ?_, ?_⟩
  · intro within
    have inside : Field.reach before input.pending ≤ position - input.delivered := by omega
    obtain ⟨-, few, standing'⟩ := standing.leftBy_within inside
    exact (standing'.within (by omega)).1
  · intro beyond nonempty
    have error : (if fault.kind = .unexpectedEnd then .endOfInput else .io fault) =
        WireError.ofFault fault := by
      unfold WireError.ofFault
      cases fault.kind <;> rfl
    rw [error]
    by_cases within : Field.reach before input.pending ≤ position - input.delivered
    · obtain ⟨-, few, standing'⟩ := standing.leftBy_within within
      exact (standing'.beyond field.direct (by omega)).1
    · obtain ⟨-, standing'⟩ := standing.leftBy_beyond (Nat.lt_of_not_le within)
      exact (standing'.beyond field.direct (Field.asked_pos nonempty _)).1
  · rintro rfl
    exact Field.run_of_empty _

/-- A number and the first byte of a blob come in single bytes and over an interruption, then the
stream fails inside the blob; with the interruption alone the blob is read to its end. -/
theorem streams_as_bytes_of_timeout :
    let late : IoFault := ⟨.timedOut, "late"⟩
    let pause : Breakdown := ⟨1, ⟨.interrupted, "again"⟩, true⟩
    let slow : Input := ⟨none, [0, 7, 2, 0xee, 0x99], 0, fun _ => some 1, [pause], none⟩
    let failing : Input := { slow with breakdowns := [pause, ⟨4, late, false⟩] }
    (∀ n, failing.chunk n ≠ some 0) ∧ failing.FailsAt 4 late ∧
      Field.u16.decoder.SameOn failing failing.pending ∧
      (Field.blob.decoder.run (Field.leftBy [.u16, .raw 0] failing)).1 = .error (.io late) ∧
      (Field.u8.decoder.run (Field.leftBy [.u16, .raw 0, .blob] failing)).1 = .error (.io late) ∧
      (Field.blob.decoder.run (Field.leftBy [.u16, .raw 0] slow)).1 =
        .ok (.bytes [0xee, 0x99]) := by
  intro late pause slow failing
  have moves : ∀ n, failing.chunk n ≠ some 0 := fun n => by simp [failing, slow]
  have moves' : ∀ n, slow.chunk n ≠ some 0 := fun n => by simp [slow]
  have fails : failing.FailsAt 4 late := ⟨by decide, by decide, by decide⟩
  have unbroken : ∀ b ∈ slow.breakdowns, b.passing = true := by decide
  refine ⟨moves, fails, ?_, ?_, ?_, ?_⟩
  · exact ((streams_as_bytes failing moves [] .u16).2.2 4 late fails).1 (by decide)
  · exact ((streams_as_bytes failing moves [.u16, .raw 0] .blob).2.2 4 late fails).2.1
      (by decide) nofun
  · exact ((streams_as_bytes failing moves [.u16, .raw 0, .blob] .u8).2.2 4 late fails).2.1
      (by decide) nofun
  · rw [((streams_as_bytes slow moves' [.u16, .raw 0] .blob).2.1 unbroken).result]
    rfl

end Input

end Farcall
