import Farcall.Wire.Field

set_option autoImplicit false

/-!
# Decoders

A decoder is a tree of demands: it is finished, or it needs a stated number of bytes and goes on
with them. It says nothing about where bytes come from, so one decoder reads a byte string and a
stream alike (`run` over any `ByteSource`), and what holds of every demand holds of every decoder
by induction on the tree.
-/

namespace Farcall

/-- What a reader does next. -/
inductive Decoder (ε α : Type) where
  | done (result : Except ε α)
  /-- Asks for `count` bytes; a fault of the source is reported through `fault`. -/
  | need (count : Nat) (fault : WireError → ε) (next : Bytes → Decoder ε α)

class ByteSource (σ : Type) where
  /-- Exactly that many bytes, or the fault and the source as the failed attempt left it. -/
  fetch : Nat → σ → Except WireError Bytes × σ

/-- A byte string gives its first bytes; when it is too short the attempt uses it up. -/
instance : ByteSource Bytes where
  fetch n bytes :=
    let front := bytes.take n
    if front.length = n then (.ok front, bytes.drop n) else (.error .endOfInput, [])

namespace Decoder

variable {ε ε' α β σ : Type}

/-- Reads from a source; the source is left just behind the last byte used. -/
def run [ByteSource σ] : Decoder ε α → σ → Except ε α × σ
  | done result, source => (result, source)
  | need count fault next, source =>
    match ByteSource.fetch count source with
    | (.ok bytes, rest) => run (next bytes) rest
    | (.error e, rest) => (.error (fault e), rest)

protected def pure (a : α) : Decoder ε α := done (.ok a)

def fail (e : ε) : Decoder ε α := done (.error e)

protected def bind : Decoder ε α → (α → Decoder ε β) → Decoder ε β
  | done (.ok a), f => f a
  | done (.error e), _ => done (.error e)
  | need count fault next, f => need count fault fun bytes => (next bytes).bind f

def mapError (f : ε → ε') : Decoder ε α → Decoder ε' α
  | done (.ok a) => done (.ok a)
  | done (.error e) => done (.error (f e))
  | need count fault next => need count (f ∘ fault) fun bytes => (next bytes).mapError f

instance : Monad (Decoder ε) where
  pure := Decoder.pure
  bind := Decoder.bind

def getD (e : ε) : Option α → Decoder ε α
  | some a => done (.ok a)
  | none => fail e

/-- Reads `count` items one after the other; `read` holds earlier ones, last first. -/
def repeatOnto (item : Decoder ε α) : Nat → List α → Decoder ε (List α)
  | 0, read => done (.ok read.reverse)
  | count + 1, read => item.bind fun a => repeatOnto item count (a :: read)

def replicate (count : Nat) (item : Decoder ε α) : Decoder ε (List α) :=
  repeatOnto item count []

variable [FromWire ε]

/-- Exactly `count` bytes; none are asked for when `count` is zero. -/
def take (count : Nat) : Decoder ε Bytes :=
  if count = 0 then done (.ok []) else need count FromWire.ofWire fun bytes => done (.ok bytes)

def u8 : Decoder ε UInt8 := do
  return UInt8.ofNat (Bytes.ofBigEndian (← take 1))

def u16 : Decoder ε UInt16 := do
  return UInt16.ofNat (Bytes.ofBigEndian (← take 2))

def u32 : Decoder ε UInt32 := do
  return UInt32.ofNat (Bytes.ofBigEndian (← take 4))

def i32 : Decoder ε Int32 := do
  return (UInt32.ofNat (Bytes.ofBigEndian (← take 4))).toInt32

def i64 : Decoder ε Int64 := do
  return (UInt64.ofNat (Bytes.ofBigEndian (← take 8))).toInt64

/-- Any byte but zero is true. -/
def bool : Decoder ε Bool := do
  return (← u8) != 0

/-- Goes on with a packed integer whose next group has the given weight. -/
def packedFrom : Nat → Nat → Nat → Decoder ε UInt32
  | 0, _, _ => fail (FromWire.ofWire .packedOverflow)
  | groups + 1, weight, total => do
    let b ← u8
    let total := total + b.toNat % 128 * weight
    if b.toNat < 128 then
      if total < Bytes.wordBound then return UInt32.ofNat total
      else fail (FromWire.ofWire .packedOverflow)
    else packedFrom groups (weight * 128) total

/-- A packed integer; its groups need not be as few as they could be. -/
def packed : Decoder ε UInt32 := packedFrom Wire.maxGroups 1 0

def blob : Decoder ε Bytes := do
  take (← packed).toNat

def text : Decoder ε String := do
  getD (FromWire.ofWire .badText) (Bytes.toText? (← blob))

def counted (item : Decoder ε α) : Decoder ε (List α) := do
  replicate (← packed).toNat item

end Decoder

end Farcall
