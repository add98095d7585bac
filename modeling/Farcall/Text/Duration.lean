set_option autoImplicit false

/-!
# Duration text

Spans of whole milliseconds in the largest unit that is not below one: seconds, else milliseconds.
Seconds carry the fraction without trailing zeros; the empty span is written in nanoseconds.
-/

namespace Farcall.Text

def digit (n : Nat) : Char := Char.ofNat (48 + n % 10)

/-- The three decimals of a number of milliseconds below one second, trailing zeros dropped. -/
def millisFraction (ms : Nat) : List Char :=
  let digits := [digit (ms / 100), digit (ms / 10), digit ms]
  (digits.reverse.dropWhile (· = '0')).reverse

def durationText (ms : Nat) : String :=
  if ms = 0 then "0ns"
  else if ms < 1000 then s!"{ms}ms"
  else
    match millisFraction (ms % 1000) with
    | [] => s!"{ms / 1000}s"
    | fraction => s!"{ms / 1000}." ++ String.ofList fraction ++ "s"

end Farcall.Text
