import Farcall.Bytes
import Farcall.Wire.Error

set_option autoImplicit false

/-!
# Writing fields

The written form of single fields. Fixed-width numbers are big-endian. A packed integer is written
in groups of seven bits, least significant first, with the high bit set on every group but the
last; a blob is its packed length and its bytes, and a text is the blob of its UTF-8 form.
-/

namespace Farcall.Wire

/-- The number of groups that a 32-bit integer can take. -/
def maxGroups : Nat := 5

def u8 (v : UInt8) : Bytes := [v]

def u16 (v : UInt16) : Bytes := Bytes.bigEndian 2 v.toNat

def u32 (v : UInt32) : Bytes := Bytes.bigEndian 4 v.toNat

def i32 (v : Int32) : Bytes := Bytes.bigEndian 4 v.toUInt32.toNat

def i64 (v : Int64) : Bytes := Bytes.bigEndian 8 v.toUInt64.toNat

def bool (v : Bool) : Bytes := [if v then 1 else 0]

/-- The seven-bit groups of a number, at most `groups` of them. -/
def packedGroups : Nat → Nat → Bytes
  | 0, _ => []
  | groups + 1, n =>
    if n < 128 then [UInt8.ofNat n]
    else UInt8.ofNat (n % 128 + 128) :: packedGroups groups (n / 128)

def packed (v : UInt32) : Bytes := packedGroups maxGroups v.toNat

/-- The packed form of a count of things, which has to fit in 32 bits. -/
def count? (n : Nat) : Option Bytes :=
  if n < Bytes.wordBound then some (packed (UInt32.ofNat n)) else none

def blob (bytes : Bytes) : Except WireError Bytes :=
  match count? bytes.length with
  | some size => .ok (size ++ bytes)
  | none => .error (.blobTooLarge bytes.length)

def text (s : String) : Except WireError Bytes := blob (Bytes.ofText s)

end Farcall.Wire
