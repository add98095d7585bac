import Farcall.Text.Hidden

set_option autoImplicit false

/-!
# Quoted text

A text between double quotes in which every character is visible. Quotes and backslashes get a
backslash, a few controls have a letter of their own, and any other character without a printed
form is written as its code point in braces.
-/

namespace Farcall.Text

/-- The hexadecimal digits of a code point, without leading zeros. -/
def codeDigits (code : Nat) : List Char := Nat.toDigits 16 code

def codeEscape (code : Nat) : List Char :=
  ['\\', 'u', '\x7b'] ++ codeDigits code ++ ['\x7d']

def quotedChar (c : Char) : List Char :=
  match c with
  | '\x00' => ['\\', '0']
  | '\t' => ['\\', 't']
  | '\n' => ['\\', 'n']
  | '\r' => ['\\', 'r']
  | '"' => ['\\', '"']
  | '\\' => ['\\', '\\']
  | _ =>
    if c.toNat < 0x20 ∨ c.toNat = 0x7f then codeEscape c.toNat
    else if c.toNat < 0x80 then [c]
    else if isHidden c.toNat then codeEscape c.toNat
    else [c]

def quoted (s : String) : String :=
  String.ofList (['"'] ++ s.toList.flatMap quotedChar ++ ['"'])

end Farcall.Text
