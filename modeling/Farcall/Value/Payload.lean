import Farcall.Value.Basic

set_option autoImplicit false

/-!
# Payloads

Arguments and results travel as opaque payloads. A value is written as one tag byte and its fields;
arguments are a packed count and the values, a result is a single value. A payload holds nothing
behind its last value. Proxies have no written form.
-/

namespace Farcall

inductive CodecError where
  | unsupported (typeName : String)
  | unknownTag (tag : UInt8)
  | trailingBytes (count : Nat)
  | wire (fault : WireError)
  | locator (text : String)
deriving DecidableEq, Repr

namespace CodecError

instance : FromWire CodecError := ⟨.wire⟩

def kind : CodecError → String
  | unsupported _ => "Unsupported"
  | unknownTag _ => "UnknownTag"
  | trailingBytes _ => "TrailingBytes"
  | wire fault => "Pack." ++ fault.kind
  | locator _ => "Locator"

def message : CodecError → String
  | unsupported typeName => typeName ++ " values cannot be encoded"
  | unknownTag tag => "unknown value tag " ++ Text.hexCode tag
  | trailingBytes count => s!"{count} trailing bytes after value"
  | wire fault => fault.message
  | locator text => "malformed locator: " ++ text

end CodecError

namespace Payload

def tagged (tag : UInt8) (fields : Except WireError Bytes) : Except CodecError Bytes :=
  match fields with
  | .ok bytes => .ok (Wire.u8 tag ++ bytes)
  | .error fault => .error (.wire fault)

def encodeValue : Value → Except CodecError Bytes
  | .unit => tagged 0 (.ok [])
  | .bool b => tagged 1 (.ok (Wire.bool b))
  | .int v => tagged 2 (.ok (Wire.i32 v))
  | .long v => tagged 3 (.ok (Wire.i64 v))
  | .text s => tagged 4 (Wire.text s)
  | .bytes data => tagged 5 (Wire.blob data)
  | .primaryKey key => tagged 6 (Wire.blob key.bytes)
  | .session id => tagged 7 (Wire.blob id.bytes)
  | .handle target => tagged 8 target.encode
  | .homeHandle target => tagged 9 target.encode
  | .proxy p => .error (.unsupported (Value.proxy p).typeName)

/-- The values one after the other; the first that has no written form counts. -/
def encodeValues : List Value → Except CodecError Bytes
  | [] => .ok []
  | value :: rest => do
    let front ← encodeValue value
    return front ++ (← encodeValues rest)

def encodeArguments (args : List Value) : Except CodecError Bytes :=
  match Wire.count? args.length with
  | none => .error (.wire (.blobTooLarge args.length))
  | some count => do return count ++ (← encodeValues args)

def encodeResult (value : Value) : Except CodecError Bytes := encodeValue value

/-- Reads a locator; whatever is wrong with it is reported as its text. -/
def locatorDecoder : Decoder CodecError Locator :=
  Locator.decoder.mapError fun e => .locator e.message

def fieldsDecoder (tag : UInt8) : Decoder CodecError Value := do
  if tag = 0 then return .unit
  else if tag = 1 then return .bool (← Decoder.bool)
  else if tag = 2 then return .int (← Decoder.i32)
  else if tag = 3 then return .long (← Decoder.i64)
  else if tag = 4 then return .text (← Decoder.text)
  else if tag = 5 then return .bytes (← Decoder.blob)
  else if tag = 6 then return .primaryKey ⟨← Decoder.blob⟩
  else if tag = 7 then return .session ⟨← Decoder.blob⟩
  else if tag = 8 then return .handle (← locatorDecoder)
  else if tag = 9 then return .homeHandle (← locatorDecoder)
  else Decoder.fail (.unknownTag tag)

def valueDecoder : Decoder CodecError Value := do
  fieldsDecoder (← Decoder.u8)

/-- What a decoder reads from bytes that it has to use up. -/
def readAll {α : Type} (decoder : Decoder CodecError α) (bytes : Bytes) : Except CodecError α :=
  match decoder.run bytes with
  | (.ok a, []) => .ok a
  | (.ok _, rest) => .error (.trailingBytes rest.length)
  | (.error e, _) => .error e

def decodeArguments (bytes : Bytes) : Except CodecError (List Value) :=
  readAll (Decoder.counted valueDecoder) bytes

def decodeResult (bytes : Bytes) : Except CodecError Value :=
  readAll valueDecoder bytes

end Payload

end Farcall
