import Farcall.Event
import Farcall.Wire.Decoder

set_option autoImplicit false

/-!
# Message inputs

An inbound message arrives as a stream: it hands over its bytes in reads that a bound may cut
short, each read with a bound of its own, it may break at any points, and it has to be closed.
Readers ask for whole fields, so how the bytes were cut is not seen by a decoder. A closed input is
gone: a `Guard` holds an input until it is closed and never reads afterwards.
-/

namespace Farcall

structure Breakdown where
  /-- The number of bytes that are still handed over. -/
  after : Nat
  fault : IoFault
  /-- A passing breakdown stops a single read; any other stops every read from there on. -/
  passing : Bool
deriving DecidableEq, Repr

structure Input where
  /-- The name under which closing is reported, if it is. -/
  label : Option String
  pending : Bytes
  delivered : Nat
  /-- The most bytes that one read returns, by the number of bytes that were handed over before
  it; a bound of zero looks like the end of the stream. -/
  chunk : Nat → Option Nat
  breakdowns : List Breakdown
  closeFault : Option IoFault

inductive Reading where
  /-- Some bytes, or none at the end of the stream. -/
  | bytes (data : Bytes)
  | interrupted (fault : IoFault)
  | failed (fault : IoFault)
deriving DecidableEq, Repr

namespace Input

def ofBytes (bytes : Bytes) : Input where
  label := none
  pending := bytes
  delivered := 0
  chunk := fun _ => none
  breakdowns := []
  closeFault := none

def deliver (input : Input) (count : Nat) : Reading × Input :=
  let count := match input.chunk input.delivered with
    | some bound => min count bound
    | none => count
  let data := input.pending.take count
  (.bytes data,
    { input with pending := input.pending.drop count, delivered := input.delivered + data.length })

/-- One read of at most `count` bytes; no read reaches across a breakdown. -/
def read (input : Input) (count : Nat) : Reading × Input :=
  match input.breakdowns with
  | [] => input.deliver count
  | b :: later =>
    if b.after ≤ input.delivered then
      if b.passing then (.interrupted b.fault, { input with breakdowns := later })
      else (.failed b.fault, input)
    else input.deliver (min count (b.after - input.delivered))

/-- The input behind the interruptions that the next reads would meet. -/
def resumed (input : Input) : Input :=
  { input with
    breakdowns := input.breakdowns.dropWhile fun b => b.passing && b.after ≤ input.delivered }

/-- A read that is repeated as long as it is interrupted. -/
def readOn (input : Input) (count : Nat) : Reading × Input := input.resumed.read count

/-- Reads until `missing` more bytes are there; `got` holds what came so far, last byte first. -/
def gather : Nat → Nat → Bytes → Input → Except WireError Bytes × Input
  | 0, _, got, input => (.ok got.reverse, input)
  | _ + 1, 0, got, input => (.ok got.reverse, input)
  | fuel + 1, missing + 1, got, input =>
    match input.readOn (missing + 1) with
    | (.bytes [], rest) => (.error .endOfInput, rest)
    | (.bytes data, rest) => gather fuel (missing + 1 - data.length) (data.reverse ++ got) rest
    | (.interrupted fault, rest) => (.error (.io fault), rest)
    | (.failed fault, rest) => (.error (.ofFault fault), rest)

/-- Every read but the last brings a byte, so no more reads than bytes are needed. -/
instance : ByteSource Input where
  fetch count input := gather count count [] input

def close (input : Input) : Except IoFault Unit × List Event :=
  (match input.closeFault with
    | some fault => .error fault
    | none => .ok (),
   input.label.toList.map .closed)

/-- Closes the input and lets a fault of closing pass. -/
def release (input : Input) : List Event := input.close.2

end Input

inductive Guard where
  | opened (input : Input)
  | closed

namespace Guard

def isClosed : Guard → Bool
  | opened _ => false
  | closed => true

def closedFault : IoFault := ⟨.brokenPipe, "message input already closed"⟩

def read (guard : Guard) (count : Nat) : Reading × Guard :=
  match guard with
  | opened input => ((input.read count).1, opened (input.read count).2)
  | closed => (.failed closedFault, closed)

/-- Closes the input; closing again does nothing. -/
def close : Guard → Except IoFault Unit × List Event
  | opened input => input.close
  | closed => (.ok (), [])

def drop (guard : Guard) : List Event := guard.close.2

end Guard

end Farcall
