import Farcall.Proofs.Wire.Fields

set_option autoImplicit false

/-!
# What reading costs

A decoder spends bytes, and whatever it gives for them can be written in no more. Writers take the
shortest form that there is, readers take any: a packed integer may come with groups that add
nothing, and any byte but zero is true. `Spends` says what a decoder gives together with the number
of bytes that it took.
-/

namespace Farcall

/-- This can be written, in so many bytes at the most. -/
def Costs {ε : Type} (written : Except ε Bytes) (budget : Nat) : Prop :=
  ∃ bytes, written = .ok bytes ∧ bytes.length ≤ budget

namespace Costs

variable {ε : Type}

theorem of_ok {bytes : Bytes} {budget : Nat} (short : bytes.length ≤ budget) :
    Costs (.ok bytes : Except ε Bytes) budget := ⟨bytes, rfl, short⟩

theorem mono {written : Except ε Bytes} {budget larger : Nat} (costs : Costs written budget)
    (le : budget ≤ larger) : Costs written larger := by
  obtain ⟨bytes, given, short⟩ := costs
  exact ⟨bytes, given, Nat.le_trans short le⟩

theorem behind {front : Bytes} {second : Except ε Bytes} {n k : Nat} (first : front.length ≤ n)
    (costs : Costs second k) : Costs (do return front ++ (← second)) (n + k) := by
  obtain ⟨rest, rfl, short⟩ := costs
  refine of_ok ?_
  rw [List.length_append]
  omega

theorem append {first second : Except ε Bytes} {n k : Nat} (costs : Costs first n)
    (costs' : Costs second k) :
    Costs (do let front ← first; return front ++ (← second)) (n + k) := by
  obtain ⟨front, rfl, short⟩ := costs
  exact behind short costs'

theorem of_append {first second : Except ε Bytes} {budget : Nat}
    (costs : Costs (do let front ← first; return front ++ (← second)) budget) :
    ∃ n k, n + k = budget ∧ Costs first n ∧ Costs second k := by
  obtain ⟨bytes, given, short⟩ := costs
  obtain ⟨front, rest, rfl, rfl, rfl⟩ := of_append_eq_ok given
  rw [List.length_append] at short
  exact ⟨front.length, budget - front.length, by omega, of_ok (Nat.le_refl _),
    of_ok (by omega)⟩

end Costs

theorem Bytes.ofText_of_toText? {bytes : Bytes} {s : String} (given : toText? bytes = some s) :
    ofText s = bytes := by
  unfold toText? String.fromUTF8? at given
  split at given
  · next valid =>
    rw [← Option.some.inj given]
    rfl
  · cases given

namespace Decoder

variable {ε α β : Type}

/-- Whatever bytes it gets, the decoder gives nothing but such values, for so many bytes. -/
def Spends : Decoder ε α → (Nat → α → Prop) → Prop
  | done (.ok a), Q => Q 0 a
  | done (.error _), _ => True
  | need count _ next, Q =>
    ∀ bytes, bytes.length = count → (next bytes).Spends fun n a => Q (count + n) a

theorem Spends.mono {decoder : Decoder ε α} {P Q : Nat → α → Prop} (spends : decoder.Spends P)
    (weaker : ∀ n a, P n a → Q n a) : decoder.Spends Q := by
  induction decoder generalizing P Q with
  | done result =>
    cases result with
    | ok a => exact weaker 0 a spends
    | error e => trivial
  | need count fault next ih =>
    exact fun bytes full => ih bytes (spends bytes full) fun n a => weaker (count + n) a

theorem Spends.bind {decoder : Decoder ε α} {f : α → Decoder ε β} {P : Nat → α → Prop}
    {Q : Nat → β → Prop} (first : decoder.Spends P)
    (second : ∀ n a, P n a → (f a).Spends fun k b => Q (n + k) b) : (decoder >>= f).Spends Q := by
  change (decoder.bind f).Spends Q
  induction decoder generalizing P Q with
  | done result =>
    cases result with
    | ok a =>
      have spends := second 0 a first
      simp only [Nat.zero_add] at spends
      exact spends
    | error e => trivial
  | need count fault next ih =>
    intro bytes full
    refine ih bytes (first bytes full) fun n a given => ?_
    have spends := second (count + n) a given
    simp only [Nat.add_assoc] at spends
    exact spends

theorem spends_pure {Q : Nat → α → Prop} {a : α} (given : Q 0 a) :
    (pure a : Decoder ε α).Spends Q := given

theorem Spends.map {decoder : Decoder ε α} {P : Nat → α → Prop} {Q : Nat → β → Prop}
    (spends : decoder.Spends P) (f : α → β) (given : ∀ n a, P n a → Q n (f a)) :
    (decoder >>= fun a => pure (f a)).Spends Q :=
  spends.bind fun n a p => spends_pure (given n a p)

theorem spends_getD (e : ε) {found : Option α} {Q : Nat → α → Prop}
    (given : ∀ a, found = some a → Q 0 a) : (getD e found).Spends Q := by
  cases found with
  | none => trivial
  | some a => exact given a rfl

theorem spends_ite {c : Prop} [Decidable c] {first second : Decoder ε α} {Q : Nat → α → Prop}
    (spends : first.Spends Q) (spends' : second.Spends Q) : (if c then first else second).Spends Q := by
  split
  · exact spends
  · exact spends'

theorem Spends.mapError {ε' : Type} {decoder : Decoder ε α} {Q : Nat → α → Prop}
    (spends : decoder.Spends Q) (f : ε → ε') : (decoder.mapError f).Spends Q := by
  induction decoder generalizing Q with
  | done result =>
    cases result with
    | ok a => exact spends
    | error e => trivial
  | need count fault next ih => exact fun bytes full => ih bytes (spends bytes full)

theorem Spends.of_run {decoder : Decoder ε α} {Q : Nat → α → Prop} (spends : decoder.Spends Q)
    {bytes rest : Bytes} {a : α} (given : decoder.run bytes = (.ok a, rest)) :
    ∃ n, n + rest.length = bytes.length ∧ Q n a := by
  induction decoder generalizing bytes Q with
  | done result =>
    obtain ⟨rfl, rfl⟩ := Prod.mk.inj given
    exact ⟨0, Nat.zero_add _, spends⟩
  | need count fault next ih =>
    simp only [run] at given
    by_cases long : count ≤ bytes.length
    · rw [fetch_of_long long] at given
      have full : (bytes.take count).length = count := by
        rw [List.length_take, Nat.min_eq_left long]
      obtain ⟨n, left, q⟩ := ih _ (spends _ full) given
      rw [List.length_drop] at left
      exact ⟨count + n, by omega, q⟩
    · rw [fetch_of_short (by omega)] at given
      cases (Prod.mk.inj given).1

inductive SpendsEach (P : Nat → α → Prop) : Nat → List α → Prop
  | nil : SpendsEach P 0 []
  | cons {n k : Nat} {a : α} {items : List α} (first : P n a) (others : SpendsEach P k items) :
      SpendsEach P (n + k) (a :: items)

theorem spends_repeatOnto {item : Decoder ε α} {P : Nat → α → Prop} (spends : item.Spends P)
    (count : Nat) (read : List α) : (repeatOnto item count read).Spends fun n items =>
      ∃ more, items = read.reverse ++ more ∧ more.length = count ∧ SpendsEach P n more := by
  induction count generalizing read with
  | zero => exact ⟨[], (List.append_nil _).symm, rfl, .nil⟩
  | succ count ih =>
    refine spends.bind fun n a first => (ih (a :: read)).mono ?_
    rintro k items ⟨more, rfl, counted, each⟩
    exact ⟨a :: more, by simp, congrArg (· + 1) counted, .cons first each⟩

theorem spends_replicate {item : Decoder ε α} {P : Nat → α → Prop} (spends : item.Spends P)
    (count : Nat) : (replicate count item).Spends fun n items =>
      items.length = count ∧ SpendsEach P n items := by
  refine (spends_repeatOnto spends count []).mono ?_
  rintro n items ⟨more, rfl, counted, each⟩
  exact ⟨counted, each⟩

variable [FromWire ε]

theorem spends_take (count : Nat) : (take count : Decoder ε Bytes).Spends fun n bytes =>
    n = count ∧ bytes.length = count := by
  unfold take
  split
  · next none => exact ⟨none.symm, none.symm⟩
  · exact fun bytes full => ⟨rfl, full⟩

theorem spends_u8 : (u8 : Decoder ε UInt8).Spends fun n _ => n = 1 :=
  (spends_take 1).map _ fun _ _ taken => taken.1

theorem spends_u16 : (u16 : Decoder ε UInt16).Spends fun n _ => n = 2 :=
  (spends_take 2).map _ fun _ _ taken => taken.1

theorem spends_i32 : (i32 : Decoder ε Int32).Spends fun n _ => n = 4 :=
  (spends_take 4).map _ fun _ _ taken => taken.1

theorem spends_i64 : (i64 : Decoder ε Int64).Spends fun n _ => n = 8 :=
  (spends_take 8).map _ fun _ _ taken => taken.1

theorem spends_bool : (bool : Decoder ε Bool).Spends fun n _ => n = 1 :=
  spends_u8.map _ fun _ _ taken => taken

/-- The groups that were read stand for a number that so many groups can hold. -/
theorem spends_packedFrom (groups weight total : Nat) :
    (packedFrom groups weight total : Decoder ε UInt32).Spends fun n v =>
      ∃ m, v.toNat = total + m * weight ∧ m < 128 ^ n ∧ 0 < n := by
  induction groups generalizing weight total with
  | zero => trivial
  | succ groups ih =>
    refine spends_u8.bind fun n b one => ?_
    subst one
    dsimp only
    split
    · next last =>
      split
      · next fits =>
        refine spends_pure ⟨b.toNat, ?_, by omega, Nat.one_pos⟩
        rw [UInt32.toNat_ofNat_of_lt' fits, Nat.mod_eq_of_lt last]
      · trivial
    · refine (ih (weight * 128) _).mono ?_
      rintro k v ⟨m, value, small, -⟩
      have bound : b.toNat % 128 + m * 128 < 128 ^ (1 + k) := by
        rw [Nat.add_comm 1 k, Nat.pow_succ]
        omega
      refine ⟨b.toNat % 128 + m * 128, ?_, bound, by omega⟩
      rw [value, Nat.add_mul, Nat.add_assoc, Nat.mul_comm weight 128, Nat.mul_assoc]

end Decoder

namespace Wire

theorem packedGroups_length_le {groups n count : Nat} (some_read : 0 < count)
    (small : n < 128 ^ count) : (packedGroups groups n).length ≤ count := by
  induction groups generalizing n count with
  | zero => exact Nat.zero_le _
  | succ groups ih =>
    rw [packedGroups]
    split
    · exact some_read
    · next more =>
      obtain ⟨rest, rfl⟩ : ∃ rest, count = rest + 1 := ⟨count - 1, by omega⟩
      rw [Nat.pow_succ] at small
      have left : 0 < rest := by
        rcases Nat.eq_zero_or_pos rest with rfl | left
        · omega
        · exact left
      have behind := ih left (n := n / 128) (by omega)
      rw [List.length_cons]
      omega

theorem packed_length_pos (v : UInt32) : 0 < (packed v).length := by
  unfold packed maxGroups packedGroups
  split <;> exact Nat.succ_pos _

end Wire

namespace Decoder

variable {ε α : Type} [FromWire ε]

theorem spends_packed : (packed : Decoder ε UInt32).Spends fun n v =>
    (Wire.packed v).length ≤ n := by
  refine (spends_packedFrom _ 1 0).mono ?_
  rintro n v ⟨m, value, small, some_read⟩
  refine Wire.packedGroups_length_le some_read ?_
  rwa [value, Nat.zero_add, Nat.mul_one]

theorem spends_count : (packed : Decoder ε UInt32).Spends fun n v =>
    ∃ size, Wire.count? v.toNat = some size ∧ size.length ≤ n := by
  refine spends_packed.mono fun n v short => ⟨Wire.packed v, ?_, short⟩
  rw [Wire.count?, if_pos (show v.toNat < Bytes.wordBound from v.toNat_lt), UInt32.ofNat_toNat]

theorem spends_counted {item : Decoder ε α} {P : Nat → α → Prop} (spends : item.Spends P) :
    (counted item).Spends fun n items => ∃ size k, Wire.count? items.length = some size ∧
      size.length + k ≤ n ∧ SpendsEach P k items := by
  refine spends_count.bind fun n v given => ?_
  obtain ⟨size, counted, short⟩ := given
  refine (spends_replicate spends v.toNat).mono ?_
  rintro k items ⟨same, each⟩
  rw [same]
  exact ⟨size, k, counted, by omega, each⟩

end Decoder

namespace Wire

variable {ε : Type} [FromWire ε]

theorem spends_blob : (Decoder.blob : Decoder ε Bytes).Spends fun n bytes =>
    Costs (blob bytes) n := by
  refine Decoder.spends_count.bind fun n v given => ?_
  obtain ⟨size, counted, short⟩ := given
  refine (Decoder.spends_take v.toNat).mono ?_
  rintro k bytes ⟨rfl, full⟩
  rw [blob, full, counted]
  refine .of_ok ?_
  rw [List.length_append]
  omega

theorem spends_text : (Decoder.text : Decoder ε String).Spends fun n s => Costs (text s) n := by
  refine spends_blob.bind fun n bytes costs => Decoder.spends_getD _ fun s given => ?_
  rwa [text, Bytes.ofText_of_toText? given]

end Wire

end Farcall
