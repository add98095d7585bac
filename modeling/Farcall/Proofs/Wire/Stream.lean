import Farcall.Input

set_option autoImplicit false

/-!
# Reading a stream

However a stream cuts its bytes up, and wherever it breaks, a decoder that finishes on it has read
the bytes that lay there: it gives what it gives on the byte string, and leaves the same rest.
-/

namespace Farcall

namespace Input

def Ahead (input : Input) (count : Nat) (rest : Input) : Prop :=
  count ≤ input.pending.length ∧ rest.pending = input.pending.drop count ∧
    rest.label = input.label ∧ rest.closeFault = input.closeFault

theorem Ahead.refl (input : Input) : input.Ahead 0 input :=
  ⟨Nat.zero_le _, rfl, rfl, rfl⟩

theorem Ahead.trans {input mid rest : Input} {n m : Nat} (first : input.Ahead n mid)
    (second : mid.Ahead m rest) : input.Ahead (n + m) rest := by
  obtain ⟨enough, pending, label, closeFault⟩ := first
  obtain ⟨enough', pending', label', closeFault'⟩ := second
  refine ⟨?_, ?_, label'.trans label, closeFault'.trans closeFault⟩
  · rw [pending, List.length_drop] at enough'
    omega
  · rw [pending', pending, List.drop_drop]

theorem deliver_eq (input : Input) (count : Nat) : ∃ n, n ≤ count ∧ input.deliver count =
    (.bytes (input.pending.take n), { input with
      pending := input.pending.drop n
      delivered := input.delivered + (input.pending.take n).length }) := by
  cases bound : input.chunk input.delivered with
  | none => exact ⟨count, Nat.le_refl _, by rw [deliver, bound]⟩
  | some bound' => exact ⟨min count bound', Nat.min_le_left _ _, by rw [deliver, bound]⟩

theorem read_of_deliver (input : Input) {rest : Input} {count : Nat} {data : Bytes}
    (given : input.deliver count = (.bytes data, rest)) :
    data.length ≤ count ∧ data = input.pending.take data.length ∧
      input.Ahead data.length rest := by
  obtain ⟨n, small, delivered⟩ := input.deliver_eq count
  rw [delivered] at given
  obtain ⟨same, rfl⟩ := Prod.mk.inj given
  rw [← Reading.bytes.inj same, List.length_take]
  refine ⟨by omega, ?_, by omega, ?_, rfl, rfl⟩
  · rw [List.take_eq_take_iff]
    omega
  · change input.pending.drop n = input.pending.drop (min n input.pending.length)
    by_cases long : n ≤ input.pending.length
    · rw [Nat.min_eq_left long]
    · rw [Nat.min_eq_right (by omega), List.drop_of_length_le (by omega), List.drop_length]

theorem read_of_readOn {input rest : Input} {count : Nat} {data : Bytes}
    (given : input.readOn count = (.bytes data, rest)) :
    data.length ≤ count ∧ data = input.pending.take data.length ∧
      input.Ahead data.length rest := by
  have resumed : ∀ n, input.resumed.deliver n = (.bytes data, rest) →
      data.length ≤ n ∧ data = input.pending.take data.length ∧ input.Ahead data.length rest :=
    fun n delivered => read_of_deliver input.resumed delivered
  unfold readOn read at given
  split at given
  · exact resumed count given
  · split at given
    · split at given <;> cases (Prod.mk.inj given).1
    · obtain ⟨small, rest⟩ := resumed _ given
      exact ⟨Nat.le_trans small (Nat.min_le_left _ _), rest⟩

theorem gather_ok {fuel missing : Nat} {got data : Bytes} {input rest : Input}
    (enough : missing ≤ fuel) (given : gather fuel missing got input = (.ok data, rest)) :
    data = got.reverse ++ input.pending.take missing ∧ input.Ahead missing rest := by
  induction fuel generalizing missing got input with
  | zero =>
    obtain rfl : missing = 0 := by omega
    obtain ⟨same, rfl⟩ := Prod.mk.inj given
    rw [← Except.ok.inj same, List.take_zero, List.append_nil]
    exact ⟨rfl, .refl input⟩
  | succ fuel ih =>
    cases missing with
    | zero =>
      obtain ⟨same, rfl⟩ := Prod.mk.inj given
      rw [← Except.ok.inj same, List.take_zero, List.append_nil]
      exact ⟨rfl, .refl input⟩
    | succ missing =>
      rw [gather] at given
      split at given
      · cases (Prod.mk.inj given).1
      · next front mid nonempty read =>
        obtain ⟨small, taken, ahead⟩ := read_of_readOn read
        -- A read brings a byte at least, so the fuel outlasts what is missing.
        have some_bytes : front.length ≠ 0 := by
          intro none
          exact nonempty (List.eq_nil_of_length_eq_zero none)
        obtain ⟨joined, further⟩ := ih (by omega) given
        have whole : front.length + (missing + 1 - front.length) = missing + 1 := by omega
        refine ⟨?_, whole ▸ ahead.trans further⟩
        rw [ahead.2.1] at joined
        calc data = got.reverse ++ (front ++
              (input.pending.drop front.length).take (missing + 1 - front.length)) := by
              rw [joined, List.reverse_append, List.reverse_reverse, List.append_assoc]
          _ = got.reverse ++ (input.pending.take front.length ++
              (input.pending.drop front.length).take (missing + 1 - front.length)) := by
              rw [← taken]
          _ = got.reverse ++ input.pending.take (missing + 1) := by
              rw [← List.take_add, whole]
      · cases (Prod.mk.inj given).1
      · cases (Prod.mk.inj given).1

theorem fetch_ok {count : Nat} {data : Bytes} {input rest : Input}
    (given : ByteSource.fetch count input = (.ok data, rest)) :
    data = input.pending.take count ∧ input.Ahead count rest := by
  have read := gather_ok (Nat.le_refl count) given
  rwa [List.reverse_nil, List.nil_append] at read

end Input

namespace Decoder

variable {ε α : Type}

theorem run_of_input {decoder : Decoder ε α} {input rest : Input} {a : α}
    (given : decoder.run input = (.ok a, rest)) :
    decoder.run input.pending = (.ok a, rest.pending) ∧ ∃ count, input.Ahead count rest := by
  induction decoder generalizing input with
  | done result =>
    obtain ⟨rfl, rfl⟩ := Prod.mk.inj given
    exact ⟨rfl, 0, .refl input⟩
  | need count fault next ih =>
    rw [run] at given
    split at given
    · next data mid fetched =>
      obtain ⟨taken, ahead⟩ := Input.fetch_ok fetched
      obtain ⟨same, further, behind⟩ := ih data given
      have full : (input.pending.take count).length = count := by
        rw [List.length_take, Nat.min_eq_left ahead.1]
      refine ⟨?_, count + further, ahead.trans behind⟩
      rw [run]
      simp only [ByteSource.fetch, full, ↓reduceIte]
      rw [← taken, ← ahead.2.1]
      exact same
    · cases (Prod.mk.inj given).1

end Decoder

end Farcall
