import Farcall.Proofs.Wire.Reading
import Mathlib.Algebra.Group.Nat.Defs

set_option autoImplicit false

/-!
# Fields read back

Every field that can be written is read back as it was, up to its last byte. `Conveys` says this of
a written thing and the decoder it is meant for; it is shown here for single fields, and for longer
things it follows part by part.
-/

namespace Farcall

namespace Bytes

theorem ofBigEndian_snoc (bytes : Bytes) (b : UInt8) :
    ofBigEndian (bytes ++ [b]) = ofBigEndian bytes * 256 + b.toNat := by
  simp [ofBigEndian]

theorem ofBigEndian_bigEndian {width n : Nat} (small : n < 256 ^ width) :
    ofBigEndian (bigEndian width n) = n := by
  induction width generalizing n with
  | zero =>
    have zero : n = 0 := by simpa using small
    rw [zero]
    rfl
  | succ width ih =>
    have high : n / 256 < 256 ^ width := by
      rw [Nat.pow_succ] at small
      omega
    have low : (UInt8.ofNat (n % 256)).toNat = n % 256 := by
      simp
    rw [bigEndian, ofBigEndian_snoc, ih high, low]
    omega

theorem toText?_ofText (text : String) : toText? (ofText text) = some text := by
  have same : (⟨(ofText text).toArray⟩ : ByteArray) = text.toByteArray := by
    simp [ofText]
  have valid : (⟨(ofText text).toArray⟩ : ByteArray).IsValidUTF8 := same ▸ text.isValidUTF8
  rw [toText?, String.fromUTF8?, dif_pos valid]
  congr 1

end Bytes

namespace Decoder

variable {ε α : Type} [FromWire ε]

theorem direct_take (count : Nat) : (take count : Decoder ε Bytes).Direct := by
  unfold take
  split
  · trivial
  · exact ⟨rfl, fun _ => trivial⟩

theorem reads_take {bytes : Bytes} {count : Nat} (full : bytes.length = count) :
    (take count : Decoder ε Bytes).Reads bytes bytes := by
  intro behind
  unfold take
  split
  · next none =>
    rw [List.eq_nil_of_length_eq_zero (full.trans none)]
    rfl
  · simp only [run, fetch_append full]

/-! ## Numbers -/

theorem direct_u8 : (u8 : Decoder ε UInt8).Direct := (direct_take 1).bind fun _ => trivial

theorem direct_u16 : (u16 : Decoder ε UInt16).Direct := (direct_take 2).bind fun _ => trivial

theorem direct_u32 : (u32 : Decoder ε UInt32).Direct := (direct_take 4).bind fun _ => trivial

theorem direct_i32 : (i32 : Decoder ε Int32).Direct := (direct_take 4).bind fun _ => trivial

theorem direct_i64 : (i64 : Decoder ε Int64).Direct := (direct_take 8).bind fun _ => trivial

theorem direct_bool : (bool : Decoder ε Bool).Direct := direct_u8.bind fun _ => trivial

theorem direct_ite {c : Prop} [Decidable c] {first second : Decoder ε α} (direct : c → first.Direct)
    (direct' : second.Direct) : (if c then first else second).Direct := by
  split
  · next given => exact direct given
  · exact direct'

theorem reads_u8 (v : UInt8) : (u8 : Decoder ε UInt8).Reads (Wire.u8 v) v := by
  have given : UInt8.ofNat (Bytes.ofBigEndian [v]) = v := by
    simp [Bytes.ofBigEndian]
  have single : (take 1 : Decoder ε Bytes).Reads [v] [v] := reads_take rfl
  have reads := single.map fun bytes => UInt8.ofNat (Bytes.ofBigEndian bytes)
  rwa [given] at reads

theorem reads_u16 (v : UInt16) : (u16 : Decoder ε UInt16).Reads (Wire.u16 v) v := by
  have small : v.toNat < 256 ^ 2 := v.toNat_lt
  have given : UInt16.ofNat (Bytes.ofBigEndian (Wire.u16 v)) = v := by
    rw [Wire.u16, Bytes.ofBigEndian_bigEndian small, UInt16.ofNat_toNat]
  have pair : (take 2 : Decoder ε Bytes).Reads (Wire.u16 v) (Wire.u16 v) :=
    reads_take (Bytes.bigEndian_length 2 v.toNat)
  have reads := pair.map fun bytes => UInt16.ofNat (Bytes.ofBigEndian bytes)
  rwa [given] at reads

theorem reads_i32 (v : Int32) : (i32 : Decoder ε Int32).Reads (Wire.i32 v) v := by
  have small : v.toUInt32.toNat < 256 ^ 4 := v.toUInt32.toNat_lt
  have given : (UInt32.ofNat (Bytes.ofBigEndian (Wire.i32 v))).toInt32 = v := by
    rw [Wire.i32, Bytes.ofBigEndian_bigEndian small, UInt32.ofNat_toNat, Int32.toInt32_toUInt32]
  have word : (take 4 : Decoder ε Bytes).Reads (Wire.i32 v) (Wire.i32 v) :=
    reads_take (Bytes.bigEndian_length 4 v.toUInt32.toNat)
  have reads := word.map fun bytes => (UInt32.ofNat (Bytes.ofBigEndian bytes)).toInt32
  rwa [given] at reads

theorem reads_i64 (v : Int64) : (i64 : Decoder ε Int64).Reads (Wire.i64 v) v := by
  have small : v.toUInt64.toNat < 256 ^ 8 := v.toUInt64.toNat_lt
  have given : (UInt64.ofNat (Bytes.ofBigEndian (Wire.i64 v))).toInt64 = v := by
    rw [Wire.i64, Bytes.ofBigEndian_bigEndian small, UInt64.ofNat_toNat, Int64.toInt64_toUInt64]
  have word : (take 8 : Decoder ε Bytes).Reads (Wire.i64 v) (Wire.i64 v) :=
    reads_take (Bytes.bigEndian_length 8 v.toUInt64.toNat)
  have reads := word.map fun bytes => (UInt64.ofNat (Bytes.ofBigEndian bytes)).toInt64
  rwa [given] at reads

theorem reads_bool (v : Bool) : (bool : Decoder ε Bool).Reads (Wire.bool v) v := by
  have byte : (u8 : Decoder ε UInt8).Reads (Wire.bool v) (if v then 1 else 0) := reads_u8 _
  have reads := byte.map fun b => b != 0
  cases v <;> exact reads

theorem direct_packedFrom (groups weight total : Nat) :
    (packedFrom groups weight total : Decoder ε UInt32).Direct := by
  induction groups generalizing weight total with
  | zero => trivial
  | succ groups ih =>
    refine direct_u8.bind fun b => ?_
    dsimp only
    split
    · split <;> trivial
    · exact ih _ _

theorem direct_packed : (packed : Decoder ε UInt32).Direct := direct_packedFrom _ _ _

/-- Groups add up: what is read so far, and what the number still to come weighs. -/
theorem reads_packedFrom {groups n : Nat} (some_left : 0 < groups) (small : n < 128 ^ groups)
    {weight total : Nat} (fits : total + n * weight < Bytes.wordBound) :
    (packedFrom groups weight total : Decoder ε UInt32).Reads (Wire.packedGroups groups n)
      (UInt32.ofNat (total + n * weight)) := by
  induction groups generalizing n weight total with
  | zero => omega
  | succ groups ih =>
    by_cases last : n < 128
    · have byte : (UInt8.ofNat n).toNat = n := by
        simp
        omega
      rw [Wire.packedGroups, if_pos last]
      refine (reads_u8 (UInt8.ofNat n)).bind_of_nil ?_
      simp only [byte, last, Nat.mod_eq_of_lt last, fits, ↓reduceIte]
      exact reads_pure _
    · -- The high bit of the byte says that more groups come, and its rest weighs as it stands.
      have byte : (UInt8.ofNat (n % 128 + 128)).toNat = n % 128 + 128 := by
        simp
        omega
      have more : ¬ n % 128 + 128 < 128 := by omega
      have rest : n / 128 < 128 ^ groups := by
        rw [Nat.pow_succ] at small
        omega
      have group : (n % 128 + 128) % 128 = n % 128 := by omega
      have left : 0 < groups := by
        rcases Nat.eq_zero_or_pos groups with rfl | left
        · omega
        · exact left
      have whole : total + n % 128 * weight + n / 128 * (weight * 128) = total + n * weight := by
        rw [Nat.add_assoc, Nat.mul_comm weight 128, ← Nat.mul_assoc, ← Nat.add_mul,
          Nat.mul_comm (n / 128) 128, Nat.mod_add_div]
      rw [Wire.packedGroups, if_neg last]
      refine (reads_u8 (UInt8.ofNat (n % 128 + 128))).bind ?_
      simp only [byte, more, group, ↓reduceIte]
      rw [← whole] at fits ⊢
      exact ih left rest fits

theorem reads_packed (v : UInt32) : (packed : Decoder ε UInt32).Reads (Wire.packed v) v := by
  have small : v.toNat < 128 ^ Wire.maxGroups :=
    Nat.lt_of_lt_of_le v.toNat_lt (by decide)
  have fits : 0 + v.toNat * 1 < Bytes.wordBound := by
    have bound : v.toNat < Bytes.wordBound := v.toNat_lt
    omega
  have reads : (packed : Decoder ε UInt32).Reads _ _ := reads_packedFrom (by decide) small fits
  rwa [Nat.zero_add, Nat.mul_one, UInt32.ofNat_toNat] at reads

end Decoder

/-! ## Things that may not fit -/

theorem isOk_behind {ε : Type} (front : Bytes) (second : Except ε Bytes) :
    (do return front ++ (← second) : Except ε Bytes).isOk = second.isOk := by
  cases second <;> rfl

theorem isOk_append {ε : Type} (first second : Except ε Bytes) :
    (do let front ← first; return front ++ (← second) : Except ε Bytes).isOk =
      (first.isOk && second.isOk) := by
  cases first with
  | error e => rfl
  | ok front => exact isOk_behind front second

theorem of_bind_eq_ok {ε α β : Type} {first : Except ε α} {f : α → Except ε β} {b : β}
    (given : first >>= f = .ok b) : ∃ a, first = .ok a ∧ f a = .ok b := by
  cases first with
  | error e => cases given
  | ok a => exact ⟨a, rfl, given⟩

theorem of_append_eq_ok {ε : Type} {first second : Except ε Bytes} {bytes : Bytes}
    (given : (do let front ← first; return front ++ (← second) : Except ε Bytes) = .ok bytes) :
    ∃ front rest, first = .ok front ∧ second = .ok rest ∧ bytes = front ++ rest := by
  obtain ⟨front, written, given⟩ := of_bind_eq_ok given
  obtain ⟨rest, written', given⟩ := of_bind_eq_ok given
  exact ⟨front, rest, written, written', (Except.ok.inj given).symm⟩

/-- What is written, if it can be, is read back as this value. -/
def Conveys {ε ε' α : Type} (written : Except ε' Bytes) (decoder : Decoder ε α) (a : α) : Prop :=
  ∀ bytes, written = .ok bytes → decoder.Reads bytes a

namespace Conveys

variable {ε ε' α β : Type}

theorem of_reads {decoder : Decoder ε α} {bytes : Bytes} {a : α} (reads : decoder.Reads bytes a) :
    Conveys (.ok bytes : Except ε' Bytes) decoder a := by
  intro bytes' same
  rwa [← Except.ok.inj same]

theorem behind {front : Bytes} {second : Except ε' Bytes} {decoder : Decoder ε α}
    {f : α → Decoder ε β} {a : α} {b : β} (first : decoder.Reads front a)
    (conveys : Conveys second (f a) b) :
    Conveys (do return front ++ (← second)) (decoder >>= f) b := by
  intro bytes given
  cases second with
  | error e => cases given
  | ok rest =>
    rw [← Except.ok.inj given]
    exact first.bind (conveys rest rfl)

theorem append {first second : Except ε' Bytes} {decoder : Decoder ε α} {f : α → Decoder ε β}
    {a : α} {b : β} (conveys : Conveys first decoder a) (conveys' : Conveys second (f a) b) :
    Conveys (do let front ← first; return front ++ (← second)) (decoder >>= f) b := by
  intro bytes given
  obtain ⟨front, rest, written, written', rfl⟩ := of_append_eq_ok given
  exact (conveys front written).bind (conveys' rest written')

theorem map {written : Except ε' Bytes} {decoder : Decoder ε α} {a : α}
    (conveys : Conveys written decoder a) (f : α → β) :
    Conveys written (decoder >>= fun x => pure (f x)) (f a) :=
  fun bytes same => (conveys bytes same).map f

end Conveys

namespace Decoder

variable {ε α : Type} [FromWire ε]

theorem direct_blob : (blob : Decoder ε Bytes).Direct :=
  direct_packed.bind fun _ => direct_take _

theorem direct_text : (text : Decoder ε String).Direct :=
  direct_blob.bind fun _ => direct_getD _ _

inductive ReadsEach (item : Decoder ε α) : Bytes → List α → Prop
  | nil : ReadsEach item [] []
  | cons {front rest : Bytes} {a : α} {items : List α} (first : item.Reads front a)
      (others : ReadsEach item rest items) : ReadsEach item (front ++ rest) (a :: items)

theorem direct_repeatOnto {item : Decoder ε α} (direct : item.Direct) (count : Nat)
    (read : List α) : (repeatOnto item count read).Direct := by
  induction count generalizing read with
  | zero => trivial
  | succ count ih => exact direct.bind fun a => ih (a :: read)

theorem direct_replicate {item : Decoder ε α} (direct : item.Direct) (count : Nat) :
    (replicate count item).Direct := direct_repeatOnto direct count []

theorem direct_counted {item : Decoder ε α} (direct : item.Direct) : (counted item).Direct :=
  direct_packed.bind fun _ => direct_replicate direct _

omit [FromWire ε] in
theorem reads_repeatOnto {item : Decoder ε α} {bytes : Bytes} {items : List α}
    (each : item.ReadsEach bytes items) (read : List α) :
    (repeatOnto item items.length read).Reads bytes (read.reverse ++ items) := by
  induction each generalizing read with
  | nil =>
    rw [List.append_nil]
    exact reads_pure _
  | @cons front rest a items first _ ih =>
    have behind := ih (a :: read)
    rw [List.reverse_cons, List.append_assoc, List.singleton_append] at behind
    exact first.bind behind

omit [FromWire ε] in
theorem reads_replicate {item : Decoder ε α} {bytes : Bytes} {items : List α}
    (each : item.ReadsEach bytes items) : (replicate items.length item).Reads bytes items :=
  reads_repeatOnto each []

end Decoder

namespace Wire

theorem count?_eq_some {n : Nat} {bytes : Bytes} (given : count? n = some bytes) :
    n < Bytes.wordBound ∧ bytes = packed (UInt32.ofNat n) := by
  unfold count? at given
  split at given
  · next fits => exact ⟨fits, (Option.some.inj given).symm⟩
  · cases given

theorem reads_count (ε : Type) [FromWire ε] {n : Nat} {bytes : Bytes}
    (given : count? n = some bytes) :
    ∃ v : UInt32, v.toNat = n ∧ (Decoder.packed : Decoder ε UInt32).Reads bytes v := by
  obtain ⟨fits, rfl⟩ := count?_eq_some given
  exact ⟨UInt32.ofNat n, UInt32.toNat_ofNat_of_lt' fits, Decoder.reads_packed _⟩

variable {ε : Type} [FromWire ε]

omit [FromWire ε] in
theorem isOk_blob (bytes : Bytes) :
    (blob bytes).isOk = decide (bytes.length < Bytes.wordBound) := by
  unfold blob count?
  by_cases fits : bytes.length < Bytes.wordBound
  · simp only [fits, ↓reduceIte, decide_true]
    rfl
  · simp only [fits, ↓reduceIte, decide_false]
    rfl

theorem conveys_blob (bytes : Bytes) : Conveys (blob bytes) (Decoder.blob : Decoder ε Bytes) bytes := by
  intro written given
  unfold blob at given
  split at given
  · next size counted =>
    obtain ⟨v, length, reads⟩ := reads_count ε counted
    rw [← Except.ok.inj given]
    exact reads.bind (Decoder.reads_take length.symm)
  · cases given

theorem conveys_text (s : String) : Conveys (text s) (Decoder.text : Decoder ε String) s := by
  intro written given
  have found : (Decoder.getD (FromWire.ofWire .badText) (Bytes.toText? (Bytes.ofText s)) :
      Decoder ε String) = pure s := by
    rw [Bytes.toText?_ofText]
    rfl
  intro behind
  unfold Decoder.text
  rw [Decoder.run_bind_ok (conveys_blob (Bytes.ofText s) written given behind), found]
  rfl

end Wire

end Farcall
