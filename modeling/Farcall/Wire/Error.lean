set_option autoImplicit false

/-!
# Framing faults

What can go wrong below the level of messages: a byte source that breaks, and fields that are cut
short or malformed. A source that merely ends, and one that fails with the kind `unexpectedEnd`,
give the same fault.
-/

namespace Farcall

inductive IoKind where
  | other
  | timedOut
  | unexpectedEnd
  | interrupted
  | brokenPipe
deriving DecidableEq, Repr

def IoKind.name : IoKind → String
  | other => "Other"
  | timedOut => "TimedOut"
  | unexpectedEnd => "UnexpectedEof"
  | interrupted => "Interrupted"
  | brokenPipe => "BrokenPipe"

structure IoFault where
  kind : IoKind
  message : String
deriving DecidableEq, Repr

inductive WireError where
  | endOfInput
  /-- A packed integer is longer than five bytes or above 32 bits. -/
  | packedOverflow
  /-- A blob is longer than its length field can say. -/
  | blobTooLarge (size : Nat)
  | badText
  | io (fault : IoFault)
deriving DecidableEq, Repr

namespace WireError

def ofFault (fault : IoFault) : WireError :=
  match fault.kind with
  | .unexpectedEnd => .endOfInput
  | _ => .io fault

def kind : WireError → String
  | .endOfInput => "UnexpectedEnd"
  | .packedOverflow => "PackedIntegerOverflow"
  | .blobTooLarge _ => "BlobTooLarge"
  | .badText => "InvalidUtf8"
  | .io _ => "Io"

def message : WireError → String
  | .endOfInput => "unexpected end of input"
  | .packedOverflow => "packed integer does not fit in 32 bits"
  | .blobTooLarge size => s!"blob of {size} bytes is too large to frame"
  | .badText => "string is not valid UTF-8"
  | .io fault => "i/o failure: " ++ fault.message

end WireError

class FromWire (ε : Type) where
  ofWire : WireError → ε

instance : FromWire WireError := ⟨id⟩

end Farcall
