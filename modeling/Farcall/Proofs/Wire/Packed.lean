import Farcall.Proofs.Wire.Spending
import Mathlib.Tactic.Ring

set_option autoImplicit false

/-!
# Packed integers

A packed integer ends with the first byte whose high bit is clear, and its value is the sum of the
seven-bit groups up to there, each one shifted behind those before it. The reader takes any such
form of at most five bytes whose value fits in 32 bits, the padded ones too; the writer gives the
shortest one. What else can happen is that the bytes run out within the first four, or an overflow,
which always shows with the fifth byte.
-/

namespace Farcall

namespace Wire

/-- The number that groups stand for, lowest group first. -/
def groupSum (bytes : Bytes) : Nat :=
  (bytes.mapIdx fun i b => (b &&& 0x7f).toNat <<< (7 * i)).sum

/-- The position, counted from one, of the first byte whose high bit is clear. -/
def lastGroup? (bytes : Bytes) : Option Nat :=
  (bytes.findIdx? fun b => b &&& 0x80 == 0).map (· + 1)

/-! ## Bits as numbers -/

theorem lowBits_toNat (b : UInt8) : (b &&& 0x7f).toNat = b.toNat % 128 := by
  rw [UInt8.toNat_and]
  exact Nat.and_two_pow_sub_one_eq_mod b.toNat 7

theorem highBit_clear_iff (b : UInt8) : b &&& 0x80 = 0 ↔ b.toNat < 128 := by
  have bit : ∀ n : Fin 256, n.val &&& 128 = n.val / 128 * 128 := by decide +kernel
  have high : (b &&& 0x80).toNat = b.toNat / 128 * 128 := by
    rw [UInt8.toNat_and]
    exact bit ⟨b.toNat, b.toNat_lt⟩
  rw [← UInt8.toNat_inj, high]
  change b.toNat / 128 * 128 = 0 ↔ b.toNat < 128
  omega

theorem sum_mapIdx_mul (c : Nat) (g : Nat → UInt8 → Nat) (bytes : Bytes) :
    (bytes.mapIdx fun i b => c * g i b).sum = c * (bytes.mapIdx g).sum := by
  induction bytes generalizing g with
  | nil => simp
  | cons b bytes ih =>
    simp only [List.mapIdx_cons, List.sum_cons, ih, Nat.mul_add]

theorem groupSum_nil : groupSum [] = 0 := rfl

theorem groupSum_cons (b : UInt8) (bytes : Bytes) :
    groupSum (b :: bytes) = b.toNat % 128 + 128 * groupSum bytes := by
  have shifted : ∀ (i : Nat) (c : UInt8), (c &&& 0x7f).toNat <<< (7 * (i + 1)) =
      128 * ((c &&& 0x7f).toNat <<< (7 * i)) := by
    intro i c
    rw [Nat.mul_add, Nat.shiftLeft_add, Nat.shiftLeft_eq _ (7 * 1), Nat.mul_comm]
  simp only [groupSum, List.mapIdx_cons, List.sum_cons, shifted, sum_mapIdx_mul, Nat.mul_zero,
    Nat.shiftLeft_zero]
  rw [lowBits_toNat]

theorem groupSum_lt (bytes : Bytes) : groupSum bytes < 128 ^ bytes.length := by
  induction bytes with
  | nil => simp [groupSum_nil]
  | cons b bytes ih =>
    have low : b.toNat % 128 < 128 := Nat.mod_lt _ (by decide)
    rw [groupSum_cons, List.length_cons, Nat.pow_succ]
    omega

theorem lastGroup?_cons_of_clear {b : UInt8} (clear : b.toNat < 128) (bytes : Bytes) :
    lastGroup? (b :: bytes) = some 1 := by
  simp [lastGroup?, List.findIdx?_cons, (highBit_clear_iff b).mpr clear]

theorem lastGroup?_cons_of_set {b : UInt8} (more : ¬ b.toNat < 128) (bytes : Bytes) :
    lastGroup? (b :: bytes) = (lastGroup? bytes).map (· + 1) := by
  simp [lastGroup?, List.findIdx?_cons, mt (highBit_clear_iff b).mp more]

theorem lastGroup?_pos {bytes : Bytes} {k : Nat} (last : lastGroup? bytes = some k) : 0 < k := by
  obtain ⟨i, -, rfl⟩ := Option.map_eq_some_iff.mp last
  exact Nat.succ_pos i

theorem lastGroup?_le {bytes : Bytes} {k : Nat} (last : lastGroup? bytes = some k) :
    k ≤ bytes.length := by
  obtain ⟨i, found, rfl⟩ := Option.map_eq_some_iff.mp last
  exact (List.findIdx?_eq_some_iff_getElem.mp found).1

theorem lastGroup?_eq_none_iff {bytes : Bytes} :
    lastGroup? bytes = none ↔ ∀ b ∈ bytes, b &&& 0x80 ≠ 0 := by
  simp [lastGroup?, List.findIdx?_eq_none_iff]

def Closed (bytes : Bytes) : Prop := lastGroup? bytes = some bytes.length

theorem closed_cons_iff {b : UInt8} {bytes : Bytes} : Closed (b :: bytes) ↔
    b.toNat < 128 ∧ bytes = [] ∨ ¬ b.toNat < 128 ∧ Closed bytes := by
  by_cases clear : b.toNat < 128
  · simp [Closed, lastGroup?_cons_of_clear clear, clear, eq_comm]
  · simp [Closed, lastGroup?_cons_of_set clear, clear]

theorem eq_of_groupSum {bytes other : Bytes} (closed : Closed bytes) (closed' : Closed other)
    (long : bytes.length = other.length) (same : groupSum bytes = groupSum other) :
    bytes = other := by
  induction bytes generalizing other with
  | nil => exact (List.eq_nil_of_length_eq_zero long.symm).symm
  | cons b bytes ih =>
    cases other with
    | nil => cases long
    | cons c other =>
      have long' : bytes.length = other.length := Nat.succ.inj long
      rw [groupSum_cons, groupSum_cons] at same
      have low : b.toNat % 128 = c.toNat % 128 := by omega
      have high : groupSum bytes = groupSum other := by omega
      have bound := b.toNat_lt
      have bound' := c.toNat_lt
      rcases closed_cons_iff.mp closed with ⟨clear, rfl⟩ | ⟨more, closed⟩
      · obtain rfl := List.eq_nil_of_length_eq_zero long'.symm
        rcases closed_cons_iff.mp closed' with ⟨clear', -⟩ | ⟨-, closed'⟩
        · rw [UInt8.toNat_inj.mp (show b.toNat = c.toNat by omega)]
        · cases closed'
      · rcases closed_cons_iff.mp closed' with ⟨-, rfl⟩ | ⟨more', closed'⟩
        · obtain rfl := List.eq_nil_of_length_eq_zero long'
          cases closed
        · rw [ih closed closed' long' high, UInt8.toNat_inj.mp (show b.toNat = c.toNat by omega)]

end Wire

namespace Decoder

def Uses {ε α : Type} (decoder : Decoder ε α) (bytes : Bytes) (k : Nat) (result : Except ε α) :
    Prop :=
  k ≤ bytes.length ∧ decoder.run bytes = (result, bytes.drop k)

theorem Uses.unique {ε α : Type} {decoder : Decoder ε α} {bytes : Bytes} {k k' : Nat}
    {result result' : Except ε α} (uses : decoder.Uses bytes k result)
    (uses' : decoder.Uses bytes k' result') : k = k' ∧ result = result' := by
  obtain ⟨within, given⟩ := uses
  obtain ⟨within', given'⟩ := uses'
  obtain ⟨same, rest⟩ := Prod.mk.inj (given.symm.trans given')
  have long := congrArg List.length rest
  rw [List.length_drop, List.length_drop] at long
  exact ⟨by omega, same⟩

/-! ## Reading group by group -/

section

variable {ε : Type} [FromWire ε]

theorem run_packedFrom_nil (groups weight total : Nat) :
    (packedFrom (groups + 1) weight total : Decoder ε UInt32).run ([] : Bytes) =
      (.error (FromWire.ofWire .endOfInput), []) := rfl

theorem run_packedFrom_cons (groups weight total : Nat) (b : UInt8) (bytes : Bytes) :
    (packedFrom (groups + 1) weight total : Decoder ε UInt32).run (b :: bytes) =
      if b.toNat < 128 then
        (if total + b.toNat % 128 * weight < Bytes.wordBound then
          .ok (UInt32.ofNat (total + b.toNat % 128 * weight))
        else .error (FromWire.ofWire .packedOverflow), bytes)
      else (packedFrom groups (weight * 128) (total + b.toNat % 128 * weight) :
        Decoder ε UInt32).run bytes := by
  have byte : (u8 : Decoder ε UInt8).run (b :: bytes) = (.ok b, bytes) := reads_u8 b bytes
  rw [packedFrom, run_bind_ok byte]
  dsimp only
  split
  · split <;> rfl
  · rfl

variable {groups weight total k : Nat} {bytes : Bytes}

theorem run_packedFrom_of_last (last : Wire.lastGroup? bytes = some k) (few : k ≤ groups) :
    (packedFrom groups weight total : Decoder ε UInt32).run bytes =
      (if total + Wire.groupSum (bytes.take k) * weight < Bytes.wordBound then
        .ok (UInt32.ofNat (total + Wire.groupSum (bytes.take k) * weight))
      else .error (FromWire.ofWire .packedOverflow), bytes.drop k) := by
  induction groups generalizing bytes k weight total with
  | zero =>
    have some_read := Wire.lastGroup?_pos last
    omega
  | succ groups ih =>
    cases bytes with
    | nil => cases last
    | cons b bytes =>
      rw [run_packedFrom_cons]
      by_cases clear : b.toNat < 128
      · rw [Wire.lastGroup?_cons_of_clear clear] at last
        obtain rfl := Option.some.inj last
        simp only [clear, ↓reduceIte, List.take_succ_cons, List.take_zero, Wire.groupSum_cons,
          Wire.groupSum_nil, Nat.mul_zero, Nat.add_zero, List.drop_succ_cons, List.drop_zero]
      · rw [Wire.lastGroup?_cons_of_set clear] at last
        obtain ⟨i, behind, rfl⟩ := Option.map_eq_some_iff.mp last
        have whole : total + b.toNat % 128 * weight +
            Wire.groupSum (bytes.take i) * (weight * 128) =
            total + Wire.groupSum ((b :: bytes).take (i + 1)) * weight := by
          rw [List.take_succ_cons, Wire.groupSum_cons]
          ring
        rw [if_neg clear, ih behind (by omega), whole, List.drop_succ_cons]

theorem run_packedFrom_of_short (open_ended : Wire.lastGroup? bytes = none)
    (short : bytes.length < groups) :
    (packedFrom groups weight total : Decoder ε UInt32).run bytes =
      (.error (FromWire.ofWire .endOfInput), []) := by
  induction groups generalizing bytes weight total with
  | zero => omega
  | succ groups ih =>
    cases bytes with
    | nil => exact run_packedFrom_nil groups weight total
    | cons b bytes =>
      have more : ¬ b.toNat < 128 := by
        intro clear
        rw [Wire.lastGroup?_cons_of_clear clear] at open_ended
        cases open_ended
      rw [Wire.lastGroup?_cons_of_set more, Option.map_eq_none_iff] at open_ended
      rw [run_packedFrom_cons, if_neg more]
      exact ih open_ended (by simpa using short)

theorem run_packedFrom_of_long (later : ∀ k, Wire.lastGroup? bytes = some k → groups < k)
    (long : groups ≤ bytes.length) :
    (packedFrom groups weight total : Decoder ε UInt32).run bytes =
      (.error (FromWire.ofWire .packedOverflow), bytes.drop groups) := by
  induction groups generalizing bytes weight total with
  | zero => rfl
  | succ groups ih =>
    cases bytes with
    | nil => simp at long
    | cons b bytes =>
      have more : ¬ b.toNat < 128 := by
        intro clear
        have first := later 1 (Wire.lastGroup?_cons_of_clear clear bytes)
        omega
      have later' : ∀ k, Wire.lastGroup? bytes = some k → groups < k := by
        intro k last
        have behind := later (k + 1) (by rw [Wire.lastGroup?_cons_of_set more, last]; rfl)
        omega
      rw [run_packedFrom_cons, if_neg more, List.drop_succ_cons]
      exact ih later' (by simpa using long)

end

inductive PackedRead (bytes : Bytes) : Prop where
  | value {k : Nat} (last : Wire.lastGroup? bytes = some k) (few : k ≤ 5)
      (fits : Wire.groupSum (bytes.take k) < Bytes.wordBound)
      (uses : (packed : Decoder WireError UInt32).Uses bytes k
        (.ok (UInt32.ofNat (Wire.groupSum (bytes.take k)))))
  | ended (open_ended : Wire.lastGroup? bytes = none) (short : bytes.length ≤ 4)
      (uses : (packed : Decoder WireError UInt32).Uses bytes bytes.length (.error .endOfInput))
  | overflow (long : 5 ≤ bytes.length) (large : ∀ k, Wire.lastGroup? bytes = some k → k ≤ 5 →
        Bytes.wordBound ≤ Wire.groupSum (bytes.take k))
      (uses : (packed : Decoder WireError UInt32).Uses bytes 5 (.error .packedOverflow))

theorem five_of_large {bytes : Bytes} {k : Nat} (few : k ≤ 5)
    (large : Bytes.wordBound ≤ Wire.groupSum (bytes.take k)) : k = 5 := by
  have bound := Wire.groupSum_lt (bytes.take k)
  have long : (bytes.take k).length ≤ k := List.length_take_le k bytes
  rcases Nat.lt_or_ge k 5 with fewer | all
  · have four : 128 ^ (bytes.take k).length ≤ 128 ^ 4 := Nat.pow_le_pow_right (by decide) (by omega)
    have room : 128 ^ 4 < Bytes.wordBound := by decide
    omega
  · omega

theorem packedRead (bytes : Bytes) : PackedRead bytes := by
  cases last : Wire.lastGroup? bytes with
  | none =>
    rcases Nat.lt_or_ge bytes.length 5 with short | long
    · refine .ended last (by omega) ⟨Nat.le_refl _, ?_⟩
      rw [List.drop_length]
      exact run_packedFrom_of_short last short
    · have no_last : ∀ k, Wire.lastGroup? bytes ≠ some k := by simp [last]
      exact .overflow long (fun k found => absurd found (no_last k))
        ⟨long, run_packedFrom_of_long (fun k found => absurd found (no_last k)) long⟩
  | some k =>
    have within := Wire.lastGroup?_le last
    have only : ∀ k', Wire.lastGroup? bytes = some k' → k' = k :=
      fun k' found => Option.some.inj (found.symm.trans last)
    rcases Nat.lt_or_ge 5 k with beyond | few
    · refine .overflow (by omega) (fun k' found few => ?_)
        ⟨by omega, run_packedFrom_of_long (fun k' found => ?_) (show 5 ≤ bytes.length by omega)⟩
      · have same := only k' found
        omega
      · exact only k' found ▸ beyond
    · have given : (packed : Decoder WireError UInt32).run bytes = _ :=
        run_packedFrom_of_last last few
      rw [Nat.zero_add, Nat.mul_one] at given
      by_cases fits : Wire.groupSum (bytes.take k) < Bytes.wordBound
      · rw [if_pos fits] at given
        exact .value last few fits ⟨within, given⟩
      · rw [if_neg fits] at given
        have all := five_of_large few (Nat.le_of_not_lt fits)
        subst all
        refine .overflow within (fun k' found _ => ?_) ⟨within, given⟩
        rw [only k' found]
        exact Nat.le_of_not_lt fits

end Decoder

namespace Wire

/-- The reader takes these bytes, all of them, for this number. -/
def IsForm (bytes : Bytes) (v : UInt32) : Prop :=
  (Decoder.packed : Decoder WireError UInt32).run bytes = (.ok v, [])

theorem IsForm.closed {bytes : Bytes} {v : UInt32} (form : IsForm bytes v) :
    Closed bytes ∧ groupSum bytes = v.toNat := by
  have whole : (Decoder.packed : Decoder WireError UInt32).Uses bytes bytes.length (.ok v) :=
    ⟨Nat.le_refl _, by rw [List.drop_length]; exact form⟩
  cases Decoder.packedRead bytes with
  | value last few fits uses =>
    obtain ⟨rfl, same⟩ := uses.unique whole
    rw [List.take_length] at fits same
    refine ⟨last, ?_⟩
    rw [← Except.ok.inj same, UInt32.toNat_ofNat_of_lt' fits]
  | ended open_ended short uses => cases (uses.unique whole).2
  | overflow long large uses => cases (uses.unique whole).2

theorem isForm_packed (v : UInt32) : IsForm (packed v) v := (Decoder.reads_packed v).alone

theorem eq_packed_or_longer {bytes : Bytes} {v : UInt32} (form : IsForm bytes v) :
    bytes = packed v ∨ (packed v).length < bytes.length := by
  obtain ⟨n, spent, least⟩ := Decoder.spends_packed.of_run form
  rw [List.length_nil, Nat.add_zero] at spent
  subst spent
  rcases Nat.lt_or_ge (packed v).length bytes.length with longer | short
  · exact .inr longer
  · obtain ⟨closed, value⟩ := form.closed
    obtain ⟨closed', value'⟩ := (isForm_packed v).closed
    exact .inl (eq_of_groupSum closed closed' (by omega) (value.trans value'.symm))

/-- How a packed integer is written: in the one form that is shorter than all others, which is read
back up to its end. -/
structure WrittenShortest (v : UInt32) : Prop where
  some_written : 1 ≤ (packed v).length
  five_at_most : (packed v).length ≤ 5
  form : IsForm (packed v) v
  shortest : ∀ other, IsForm other v → other = packed v ∨ (packed v).length < other.length
  read_back : ∀ behind, (Decoder.packed : Decoder WireError UInt32).run (packed v ++ behind) =
    (.ok v, behind)

structure ReadExactly (bytes : Bytes) : Prop where
  value : ∀ v k, (Decoder.packed : Decoder WireError UInt32).Uses bytes k (.ok v) ↔
    k ≤ 5 ∧ lastGroup? bytes = some k ∧ groupSum (bytes.take k) = v.toNat
  ended : ((Decoder.packed : Decoder WireError UInt32).run bytes).1 = .error .endOfInput ↔
    bytes.length ≤ 4 ∧ ∀ b ∈ bytes, b &&& 0x80 ≠ 0
  overflow : (Decoder.packed : Decoder WireError UInt32).Uses bytes 5 (.error .packedOverflow) ↔
    ¬ (∃ v k, (Decoder.packed : Decoder WireError UInt32).Uses bytes k (.ok v)) ∧
      ((Decoder.packed : Decoder WireError UInt32).run bytes).1 ≠ .error .endOfInput

theorem writtenShortest (v : UInt32) : WrittenShortest v where
  some_written := packed_length_pos v
  five_at_most := packedGroups_length_le (by decide) (Nat.lt_of_lt_of_le v.toNat_lt (by decide))
  form := isForm_packed v
  shortest _ form := eq_packed_or_longer form
  read_back := Decoder.reads_packed v

theorem readExactly (bytes : Bytes) : ReadExactly bytes := by
  cases Decoder.packedRead bytes with
  | @value k last few fits uses =>
    have given := congrArg Prod.fst uses.2
    refine ⟨fun v k' => ⟨fun uses' => ?_, ?_⟩, ⟨fun ended => ?_, ?_⟩, ⟨fun uses' => ?_, ?_⟩⟩
    · obtain ⟨rfl, same⟩ := uses'.unique uses
      refine ⟨few, last, ?_⟩
      rw [Except.ok.inj same, UInt32.toNat_ofNat_of_lt' fits]
    · rintro ⟨-, last', value⟩
      obtain rfl := Option.some.inj (last'.symm.trans last)
      rwa [value, UInt32.ofNat_toNat] at uses
    · cases given.symm.trans ended
    · rintro ⟨-, set⟩
      cases last.symm.trans (lastGroup?_eq_none_iff.mpr set)
    · cases (uses'.unique uses).2
    · rintro ⟨none, -⟩
      exact absurd ⟨_, k, uses⟩ none
  | ended open_ended short uses =>
    have given := congrArg Prod.fst uses.2
    refine ⟨fun v k' => ⟨fun uses' => ?_, ?_⟩, ⟨fun _ => ?_, fun _ => given⟩,
      ⟨fun uses' => ?_, ?_⟩⟩
    · cases (uses'.unique uses).2
    · rintro ⟨-, last', -⟩
      cases last'.symm.trans open_ended
    · exact ⟨short, lastGroup?_eq_none_iff.mp open_ended⟩
    · cases (uses'.unique uses).2
    · rintro ⟨-, other⟩
      exact absurd given other
  | overflow long large uses =>
    have given := congrArg Prod.fst uses.2
    refine ⟨fun v k' => ⟨fun uses' => ?_, ?_⟩, ⟨fun ended => ?_, ?_⟩,
      ⟨fun _ => ⟨?_, ?_⟩, fun _ => uses⟩⟩
    · cases (uses'.unique uses).2
    · rintro ⟨few, last', value⟩
      have bound : v.toNat < Bytes.wordBound := v.toNat_lt
      have beyond := large k' last' few
      omega
    · cases given.symm.trans ended
    · rintro ⟨short, -⟩
      omega
    · rintro ⟨v, k', uses'⟩
      cases (uses'.unique uses).2
    · intro ended
      cases given.symm.trans ended

/-- Packed integers are written in their shortest form, and read exactly as they are made up. -/
theorem packed_exact : (∀ v, WrittenShortest v) ∧ ∀ bytes, ReadExactly bytes :=
  ⟨writtenShortest, readExactly⟩

end Wire

end Farcall
