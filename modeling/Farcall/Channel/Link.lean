import Farcall.Channel.Association

set_option autoImplicit false

/-!
# Links

A link moves whole messages between a channel and its host. Outbound messages wait in a queue for
the writer, inbound ones for the pump. When the writer cannot send or the pump cannot receive, it
closes the channel and stops; messages that are on their way stay there.
-/

namespace Farcall

inductive TransportError where
  | connectionLost (text : String)
  | payloadTooLarge
  | io (text : String)
deriving DecidableEq, Repr

def TransportError.message : TransportError → String
  | connectionLost text => "connection lost: " ++ text
  | payloadTooLarge => "message too large for transport"
  | io text => "i/o error: " ++ text

/-- A fault that shows after a number of operations that work. -/
structure Fuse where
  left : Nat
  error : TransportError
deriving DecidableEq, Repr

def Fuse.burn : Option Fuse → Except TransportError (Option Fuse)
  | none => .ok none
  | some ⟨0, error⟩ => .error error
  | some ⟨left + 1, error⟩ => .ok (some ⟨left, error⟩)

structure Link where
  association : Association
  outbound : List Bytes
  toHost : List Bytes
  fromHost : List Bytes
  hostThere : Bool
  writerStopped : Bool
  pumpStopped : Bool
  sendFuse : Option Fuse
  receiveFuse : Option Fuse
  /-- The pump has been let through to wait for a message. -/
  receiving : Bool

namespace Link

def named (name : String) (limit : Nat) (sendFuse receiveFuse : Option Fuse) : Link where
  association := .named name limit
  outbound := []
  toHost := []
  fromHost := []
  hostThere := true
  writerStopped := false
  pumpStopped := false
  sendFuse := sendFuse
  receiveFuse := receiveFuse
  receiving := false

def withTable (link : Link) (table : Table LazyResult) : Link :=
  { link with association := { link.association with table } }

def enqueue (link : Link) (message : Bytes) : Except InvocationError Unit × Link :=
  if link.association.closed then
    (.error (.channelClosed ("channel " ++ link.association.name ++ " is closed")), link)
  else if link.writerStopped then
    (.error (.channelClosed ("channel " ++ link.association.name ++ " writer stopped")), link)
  else (.ok (), { link with outbound := link.outbound ++ [message] })

def close (link : Link) (reason : String) : Nat × Link :=
  let (failed, association) := link.association.close reason
  (failed, { link with association })

def send (link : Link) (message : Bytes) : Except TransportError Link :=
  match Fuse.burn link.sendFuse with
  | .error e => .error e
  | .ok fuse =>
    if link.hostThere then
      .ok { link with sendFuse := fuse, toHost := link.toHost ++ [message] }
    else .error (.connectionLost "channel closed")

def write : List Bytes → Link → Link
  | [], link => { link with outbound := [] }
  | message :: rest, link =>
    match link.send message with
    | .ok link => write rest link
    | .error e =>
      { (link.close ("send failed: " ++ e.message)).2 with outbound := [], writerStopped := true }

def runWriter (link : Link) : Link :=
  if link.writerStopped then link else write link.outbound link

def stopPump (link : Link) (reason : String) : Link :=
  { (link.close reason).2 with pumpStopped := true }

def beginReceive (link : Link) : Except TransportError Link :=
  if link.receiving then .ok link
  else
    match Fuse.burn link.receiveFuse with
    | .error e => .error e
    | .ok fuse => .ok { link with receiveFuse := fuse, receiving := true }

/-- A link, the modules of its client, and what happened to inputs, newest first. -/
structure Pumped where
  link : Link
  registry : Registry
  events : List Event

/-- Processes one message; one that is refused changes nothing. -/
def receive (message : Bytes) (p : Pumped) : Pumped :=
  let after := p.link.association.process p.registry (.ofBytes message)
  ⟨{ p.link with association := after.association, receiving := false }, after.registry,
    after.events.reverse ++ p.events⟩

def pump : List Bytes → Pumped → Pumped
  | messages, p =>
    match p.link.beginReceive with
    | .error e => { p with link := { p.link.stopPump e.message with fromHost := messages } }
    | .ok link =>
      match messages with
      | [] =>
        if link.hostThere then { p with link := { link with fromHost := [] } }
        else { p with link := { link.stopPump "stream closed" with fromHost := [] } }
      | message :: rest => pump rest (receive message { p with link })

def runPump (link : Link) (registry : Registry) : Pumped :=
  if link.pumpStopped then ⟨link, registry, []⟩ else pump link.fromHost ⟨link, registry, []⟩

def run (link : Link) (registry : Registry) : Pumped :=
  link.runWriter.runPump registry

def nearGone (link : Link) : Bool := link.writerStopped && link.pumpStopped

def hostSend (link : Link) (message : Bytes) : Except TransportError Link :=
  if link.nearGone then .error (.connectionLost "channel closed")
  else .ok { link with fromHost := link.fromHost ++ [message] }

def hostNext (link : Link) : Option Bytes × Link :=
  match link.toHost with
  | [] => (none, link)
  | message :: rest => (some message, { link with toHost := rest })

def hostDrop (link : Link) : Link := { link with hostThere := false, toHost := [] }

end Link

end Farcall
