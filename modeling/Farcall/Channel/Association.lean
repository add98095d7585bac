import Farcall.Call.LazyResult
import Farcall.Correlation.Table
import Farcall.Text.Quoted

set_option autoImplicit false

/-!
# Channel associations

The inbound half of a channel. A message is routed by its header: an answer is handed, undecoded
behind its id, to the table of outstanding calls; a notification and an announcement are small and
are decoded at once. Announcements that come before the channel is bound to a receiver are kept in
order and applied when it is.
-/

namespace Farcall

structure Association where
  name : String
  table : Table LazyResult
  receiver : Option ReceiverId
  /-- Announcements from before the binding, in order. -/
  backlog : List ModuleAvailability
  closed : Bool

inductive Inbound where
  | answer (kind : AnswerKind)
  | availability (available : Bool)
  | notification
deriving DecidableEq, Repr

/-- How a header is routed; the other headers are only sent by clients. -/
def Header.inbound? : Header → Option Inbound
  | .sessionOpenResponse => some (.answer .session)
  | .invocationResponse => some (.answer .response)
  | .applicationException => some (.answer (.failure .applicationException))
  | .noSuchComponent => some (.answer (.failure .noSuchComponent))
  | .noSuchMethod => some (.answer (.failure .noSuchMethod))
  | .sessionNotActive => some (.answer (.failure .sessionNotActive))
  | .notStateful => some (.answer (.failure .notStateful))
  | .txResponse => some (.answer .transaction)
  | .moduleAvailable => some (.availability true)
  | .moduleUnavailable => some (.availability false)
  | .asyncMethodNotification => some .notification
  | .sessionOpenRequest | .invocationRequest | .invocationCancel | .txCommit | .txRollback
  | .txPrepare | .txForget | .txBeforeCompletion => none

namespace ModuleAvailability

/-- Applies one announced name; a name that no module can have is passed over. -/
def applyName (available : Bool) (receiver : ReceiverId) (registry : Registry)
    (triple : Triple) : Registry :=
  match ModuleId.ofTriple triple with
  | .error _ => registry
  | .ok module =>
    if available then (registry.register receiver module).2
    else (registry.deregister receiver module).2

def apply (announcement : ModuleAvailability) (receiver : ReceiverId) (registry : Registry) :
    Registry :=
  announcement.modules.foldl (applyName announcement.available receiver) registry

end ModuleAvailability

structure Processed where
  result : Except InvocationError Unit
  association : Association
  registry : Registry
  events : List Event

namespace Association

def named (name : String) (limit : Nat) : Association where
  name := name
  table := .empty limit
  receiver := none
  backlog := []
  closed := false

def text (association : Association) : String :=
  Text.recordText "ChannelAssociation" [
    ("name", Text.quoted association.name), ("table", association.table.text),
    ("closed", Text.boolText association.closed)]

def resultReady (association : Association) (id : UInt16) (result : LazyResult) :
    Bool × Association × List Event :=
  let ((found, rejected), table) := association.table.fulfill id result
  (found, { association with table }, rejected.toList.flatMap LazyResult.discard)

def proceedAsync (association : Association) (id : UInt16) : Bool × Association :=
  let (found, table) := association.table.proceedAsync id
  (found, { association with table })

/-- Applies an announcement, or keeps it until the channel is bound. -/
def modulesChanged (association : Association) (registry : Registry)
    (announcement : ModuleAvailability) : Association × Registry :=
  match association.receiver with
  | some receiver => (association, announcement.apply receiver registry)
  | none =>
    ({ association with backlog := association.backlog ++ [announcement] }, registry)

/-- Binds the channel to a receiver and applies what was announced before. -/
def associate (association : Association) (registry : Registry) (receiver : ReceiverId) :
    Association × Registry :=
  ({ association with receiver := some receiver, backlog := [] },
    association.backlog.foldl (fun registry announcement => announcement.apply receiver registry)
      registry)

def close (association : Association) (reason : String) : Nat × Association :=
  let (failed, table) := association.table.failAll reason
  (failed, { association with table, closed := true })

/-- A refused message: nothing changes but that the input is closed. -/
def refuse (association : Association) (registry : Registry) (input : Input)
    (e : InvocationError) : Processed :=
  ⟨.error e, association, registry, input.release⟩

def processAnswer (association : Association) (registry : Registry) (kind : AnswerKind)
    (input : Input) : Processed :=
  match idDecoder.run input with
  | (.error e, input) => association.refuse registry input (.protocol e)
  | (.ok id, input) =>
    let (_, association, events) := association.resultReady id (.answer kind input)
    ⟨.ok (), association, registry, events⟩

def processAvailability (association : Association) (registry : Registry) (available : Bool)
    (input : Input) : Processed :=
  let (decoded, input) := (ModuleAvailability.decoder available).run input
  match input.finish (decoded.mapError .protocol) with
  | (.error e, events) => ⟨.error e, association, registry, events⟩
  | (.ok announcement, events) =>
    let (association, registry) := association.modulesChanged registry announcement
    ⟨.ok (), association, registry, events⟩

def processNotification (association : Association) (registry : Registry) (input : Input) :
    Processed :=
  let (decoded, input) := idDecoder.run input
  match input.finish (decoded.mapError .protocol) with
  | (.error e, events) => ⟨.error e, association, registry, events⟩
  | (.ok id, events) => ⟨.ok (), (association.proceedAsync id).2, registry, events⟩

def notFromHost (header : Header) : InvocationError :=
  .protocol (.violation (header.name ++ " is not a message a host sends"))

def process (association : Association) (registry : Registry) (input : Input) : Processed :=
  match Header.decoder.run input with
  | (.error e, input) => association.refuse registry input (.protocol e)
  | (.ok header, input) =>
    match header.inbound? with
    | none => association.refuse registry input (notFromHost header)
    | some (.answer kind) => association.processAnswer registry kind input
    | some (.availability available) =>
      association.processAvailability registry available input
    | some .notification => association.processNotification registry input

end Association

end Farcall
