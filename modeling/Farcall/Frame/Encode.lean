import Farcall.Frame.Message

set_option autoImplicit false

/-!
# Writing messages

`Message.encode` is the header byte followed by the fields of the message. It fails only where a
field does not fit: an attachment block with more than 255 entries, or a length of 32 bits or more.
-/

namespace Farcall

/-- A field or list that may not fit. -/
abbrev Written := Except FrameError Bytes

namespace Written

def ofField (field : Except WireError Bytes) : Written :=
  field.mapError .wire

/-- The parts of a message one after the other; the first that fails counts. -/
def join : List Written → Written
  | [] => .ok []
  | part :: rest => do
    let front ← part
    return front ++ (← join rest)

def text (s : String) : Written := ofField (Wire.text s)

def blob (bytes : Bytes) : Written := ofField (Wire.blob bytes)

/-- A packed number of items and the items, each written by `item`. -/
def counted {α : Type} (tooMany : String) (item : α → Written) (items : List α) : Written := do
  match Wire.count? items.length with
  | none => throw (.violation tooMany)
  | some count => join (.ok count :: items.map item)

end Written

open Written

def Triple.encode (triple : Triple) : Written :=
  join [text triple.app, text triple.module, text triple.distinct]

def SessionOpenRequest.body (request : SessionOpenRequest) : Written :=
  join [.ok (Wire.u16 request.id), request.module.encode, text request.bean,
    request.attachments.encode]

def SessionOpenTail.encode (tail : SessionOpenTail) : Written :=
  join [blob tail.session.bytes, tail.attachments.encode]

def sessionField : Option SessionId → Written
  | some session => join [.ok (Wire.bool true), blob session.bytes]
  | none => .ok (Wire.bool false)

def InvocationRequest.body (request : InvocationRequest) : Written :=
  join [.ok (Wire.u16 request.id), request.module.encode, text request.bean, text request.view,
    text request.method, counted "signature too long" text request.signature,
    sessionField request.session, blob request.payload, request.attachments.encode]

def ResponseTail.encode (tail : ResponseTail) : Written :=
  join [blob tail.payload, tail.attachments.encode]

def FailureTail.encode (kind : FailureKind) (tail : FailureTail) : Written :=
  join [text tail.message, if kind.hasAttachments then tail.attachments.encode else .ok []]

def ModuleAvailability.body (announcement : ModuleAvailability) : Written :=
  counted "too many modules" Triple.encode announcement.modules

def TxRequest.body (request : TxRequest) : Written :=
  join [.ok (Wire.u16 request.id), blob request.transaction.bytes,
    match request.kind with
    | .commit onePhase => .ok (Wire.bool onePhase)
    | _ => .ok []]

def outcomeField : Option UInt32 → Bytes
  | some v => Wire.bool true ++ Wire.packed v
  | none => Wire.bool false

namespace Message

def body : Message → Written
  | sessionOpenRequest request => request.body
  | sessionOpenResponse id tail => join [.ok (Wire.u16 id), tail.encode]
  | invocationRequest request => request.body
  | cancel id mayInterrupt => .ok (Wire.u16 id ++ Wire.bool mayInterrupt)
  | invocationResponse id tail => join [.ok (Wire.u16 id), tail.encode]
  | failure kind id tail => join [.ok (Wire.u16 id), tail.encode kind]
  | moduleAvailability announcement => announcement.body
  | asyncMethodNotification id => .ok (Wire.u16 id)
  | txRequest request => request.body
  | txResponse id value => .ok (Wire.u16 id ++ outcomeField value)

def encode (message : Message) : Written := do
  return Wire.u8 message.header.toByte ++ (← message.body)

end Message

end Farcall
