set_option autoImplicit false

/-!
# Hexadecimal text

Bytes as lower-case hexadecimal digits, most significant digit first, two for each byte.
-/

namespace Farcall.Text

def hexDigit (n : Nat) : Char :=
  if n < 10 then Char.ofNat (48 + n) else Char.ofNat (87 + n)

def hexDigits (b : UInt8) : List Char :=
  [hexDigit (b.toNat / 16), hexDigit (b.toNat % 16)]

def hexText (bytes : List UInt8) : String :=
  String.ofList (bytes.flatMap hexDigits)

/-- One byte as a code, such as `0x0a`. -/
def hexCode (b : UInt8) : String :=
  "0x" ++ String.ofList (hexDigits b)

/-- A bracketed list of two-digit bytes, such as `[0a, ff]`. -/
def hexList (bytes : List UInt8) : String :=
  "[" ++ ", ".intercalate (bytes.map fun b => String.ofList (hexDigits b)) ++ "]"

end Farcall.Text
