import Farcall.Proofs.Wire.Supply

set_option autoImplicit false

/-!
# Streams that hold

A stream may give its bytes in pieces of any size and interrupt its reads. As long as it does not
break for good, every decoder finds on it what it finds on the byte string, the end of it included.
-/

namespace Farcall

namespace Input

/-- The stream gives all its bytes, each read at least one, and can be closed. -/
structure Steady (input : Input) : Prop where
  moves : ∀ n, input.chunk n ≠ some 0
  lasts : ∀ b ∈ input.breakdowns, b.passing = true
  closes : input.closeFault = none

theorem steady_ofBytes (bytes : Bytes) : (ofBytes bytes).Steady :=
  ⟨by simp [ofBytes], by simp [ofBytes], rfl⟩

theorem Onward.unbroken {input rest : Input} {n : Nat} (onward : input.Onward n rest)
    (unbroken : ∀ b ∈ input.breakdowns, b.passing = true) :
    ∀ b ∈ rest.breakdowns, b.passing = true :=
  fun b mem => unbroken b (onward.breakdowns.subset mem)

theorem Steady.onward {input rest : Input} {n : Nat} (steady : input.Steady)
    (onward : input.Onward n rest) : rest.Steady :=
  ⟨onward.moves steady.moves, onward.unbroken steady.lasts,
    onward.closeFault.trans steady.closes⟩

end Input

namespace Decoder

variable {ε α : Type}

/-- On a stream that does not break for good a decoder finds what it finds on the byte string. -/
theorem run_of_unbroken (decoder : Decoder ε α) {input : Input} (moves : input.Moves)
    (unbroken : ∀ b ∈ input.breakdowns, b.passing = true) :
    (decoder.run input).1 = (decoder.run input.pending).1 ∧
      (decoder.run input).2.pending = (decoder.run input.pending).2 ∧
      ∃ n, input.Onward n (decoder.run input).2 := by
  obtain ⟨result, supply, n, onward⟩ := decoder.run_of_moves moves
  rw [Input.supply_of_unbroken unbroken, Supply.run_ofBytes] at result supply
  rw [Input.supply_of_unbroken (onward.unbroken unbroken)] at supply
  exact ⟨result, congrArg Supply.bytes supply, n, onward⟩

theorem run_of_steady (decoder : Decoder ε α) {input : Input} (steady : input.Steady) :
    (decoder.run input).1 = (decoder.run input.pending).1 ∧
      (decoder.run input).2.pending = (decoder.run input.pending).2 ∧
      (decoder.run input).2.Steady := by
  obtain ⟨result, rest, n, onward⟩ := decoder.run_of_unbroken steady.moves steady.lasts
  exact ⟨result, rest, steady.onward onward⟩

end Decoder

end Farcall
