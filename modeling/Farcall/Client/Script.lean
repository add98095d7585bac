import Farcall.Client.Core

set_option autoImplicit false

/-!
# Client scripts

A script drives one client step by step, with receivers and calls under names, and plays the hosts
of linked receivers. A call name stands for the work that is under way for it, or for what it came
to, with the call that is held after that. The client is settled with every step. A step that names
something that is not there changes nothing.
-/

namespace Farcall.Client

inductive Who where
  | id (receiver : ReceiverId)
  | name (name : String)
deriving DecidableEq, Repr

abbrev GivenModule := Except IdentityError ModuleId

inductive Step where
  | addBare (name : String)
  | addPlanned (name : String) (limit : Nat) (plan : Plan) (interceptors : List Interceptor)
  /-- `settleFirst` lets the link run before the receiver joins. -/
  | addLinked (name : String) (sendFuse receiveFuse : Option Fuse) (settleFirst : Bool)
  | register (name : String) (module : GivenModule)
  | deregister (name : String) (module : GivenModule)
  | accepts (name : String) (module : GivenModule)
  | unregister (name : String)
  | find (module : GivenModule)
  | receiver (who : Who)
  | modules (name : String)
  | describe
  | status (name : String)
  | call (name : String) (proxy : Proxy) (method : Method) (arguments : List Value) (mode : Mode)
  | callAlone (name : String) (proxy : Proxy) (method : Method) (arguments : List Value)
  | createSession (name : String) (module : GivenModule) (bean view : String)
  | transaction (name : String) (module : GivenModule) (step : TxStep) (onePhase : Bool)
      (transaction : TransactionId)
  | poll (name : String)
  | get (name : String) (timeout : Option Nat)
  | cancel (name : String)
  | future (name : String)
  | forget (name : String)
  | abort (name : String)
  | advance (span : Nat)
  | fulfill (receiver : String) (id : UInt16) (result : LazyResult)
  | fail (receiver : String) (id : UInt16) (e : InvocationError)
  | proceed (receiver : String) (id : UInt16)
  | close (receiver : String) (reason : String)
  | hostSend (receiver : String) (message : Bytes)
  | hostNext (receiver : String)
  | hostDrop (receiver : String)

inductive Answer where
  | badStep
  | nothing
  | flag (b : Bool)
  | number (n : Nat)
  | text (s : String)
  | modules (ids : List ModuleId)
  | noModule (e : IdentityError)
  | member (name : String) (associated : Bool)
  | found (name : String) (receiver : ReceiverId) (associated : Bool) (resource : String)
  | status (pending : Nat) (stats : Stats) (link : Option (String × Bool))
  | waiting
  | aborted
  | failed (e : InvocationError)
  | value (v : Value)
  | discarded
  | pending (id : UInt16)
  | opened (locator : Locator)
  | stepFailed (e : XaError)
  | stepped (vote : Option Vote)
  | future (future : Future) (text : String)
  | sent
  | notSent (e : TransportError)
  | noMessage
  | hostClosed
  | message (bytes : Bytes)

/-- What a step answers, and what happened during it, oldest first. -/
structure Report where
  answer : Answer
  journal : List Note
  events : List Event

structure Call where
  standing : Answer
  task : Option Nat
  future : Option Future

def Answer.ofOutcome : Outcome → Answer
  | .failed e => failed e
  | .value v => value v
  | .discarded => discarded
  | .pending call => pending call.slot.id
  | .opened locator => opened locator
  | .stepFailed e => stepFailed e
  | .stepped vote => stepped vote
  | .claimed (.ok v) _ => value v
  | .claimed (.error e) _ => failed e

namespace Call

def ofOutcome (outcome : Outcome) : Call := ⟨.ofOutcome outcome, none, outcome.future?⟩

def ofTakenUp : TakenUp → Call
  | .ended outcome => ofOutcome outcome
  | .waits task => ⟨.waiting, some task, none⟩

end Call

structure State where
  client : Client
  receivers : Std.TreeMap String ReceiverId
  calls : Std.TreeMap String Call

namespace State

def initial (config : Config) : State := ⟨.ofConfig config, ∅, ∅⟩

/-! ## Calls -/

def dropHeld (s : State) : Option Future → State
  | none => s
  | some future => { s with client := s.client.dropHeld future }

def putCall (s : State) (name : String) (call : Call) : State :=
  { s with calls := s.calls.insert name call }

def nameOf? (s : State) (task : Nat) : Option String :=
  (s.calls.toList.find? (·.2.task = some task)).map (·.1)

/-- Takes note of an outcome; if nobody waits for it, what it holds is let go. -/
def conclude (s : State) (ended : Nat × Outcome) : State :=
  match s.nameOf? ended.1 with
  | some name => s.putCall name (.ofOutcome ended.2)
  | none => s.dropHeld ended.2.future?

def settle (s : State) : State :=
  let (ended, client) := s.client.settle
  ended.foldl conclude { s with client }

def standing (s : State) (name : String) : Answer :=
  match s.calls[name]? with
  | some call => call.standing
  | none => .badStep

def takeUp (s : State) (name : String) (started : Start × Client) : Answer × State :=
  let (takenUp, client) := started.2.takeUp started.1
  let s := (putCall { s with client } name (.ofTakenUp takenUp)).settle
  (s.standing name, s)

/-- Starts something under a name. What the name held is let go before. -/
def begin (s : State) (name : String) (start : Client → Start × Client) : Answer × State :=
  let s := s.dropHeld (s.calls[name]?.bind (·.future))
  s.takeUp name (start s.client)

def onCall (s : State) (name : String) (f : Call → Answer × State) : Answer × State :=
  match s.calls[name]? with
  | some call => f call
  | none => (.badStep, s)

def onFuture (s : State) (name : String) (f : Future → Answer × State) : Answer × State :=
  match s.calls[name]?.bind (·.future) with
  | some future => f future
  | none => (.badStep, s)

/-- Starts to claim the result of a held call; until it is there the name holds nothing. -/
def get (s : State) (name : String) (timeout : Option Nat) : Answer × State :=
  s.onFuture name fun future =>
    s.takeUp name (s.client.claim future (timeout.getD future.timeout))

def abort (s : State) (name : String) : Answer × State :=
  s.onCall name fun call =>
    match call.task with
    | none => (call.standing, s)
    | some task =>
      let s := (putCall { s with client := s.client.abort task } name ⟨.aborted, none, none⟩).settle
      (s.standing name, s)

/-- Forgets a call; says whether it held one. Work under way goes on. -/
def forget (s : State) (name : String) : Answer × State :=
  match s.calls[name]? with
  | none => (.flag false, s)
  | some call =>
    (.flag call.future.isSome, { s with calls := s.calls.erase name }.dropHeld call.future)

/-! ## Receivers -/

def onReceiver (s : State) (name : String) (f : ReceiverId → Endpoint → Answer × State) :
    Answer × State :=
  match s.receivers[name]? with
  | none => (.badStep, s)
  | some receiver =>
    match s.client.endpoint? receiver with
    | none => (.badStep, s)
    | some endpoint => f receiver endpoint

def onLink (s : State) (name : String) (f : ReceiverId → Link → Answer × State) :
    Answer × State :=
  s.onReceiver name fun receiver endpoint =>
    match endpoint.link? with
    | none => (.badStep, s)
    | some link => f receiver link

def withLink (s : State) (receiver : ReceiverId) (link : Link) : State :=
  { s with
    client := (s.client.visit receiver () fun site => ((), site.withLink link)).2 }

def dropHost (s : State) (receiver : ReceiverId) : State :=
  match (s.client.endpoint? receiver).bind (·.link?) with
  | none => s
  | some link => s.withLink receiver link.hostDrop

def add (s : State) (endpoint : Endpoint) : Answer × State :=
  let (receiver, client) := s.client.join endpoint
  let old := s.receivers[endpoint.name]?
  let s : State := { s with client, receivers := s.receivers.insert endpoint.name receiver }
  (.text receiver.text, (old.map s.dropHost).getD s)

def addLinked (s : State) (name : String) (sendFuse receiveFuse : Option Fuse)
    (settleFirst : Bool) : Answer × State :=
  let link := Link.named name s.client.config.maxOutstanding sendFuse receiveFuse
  let link := if settleFirst then (link.run s.client.registry).link else link
  s.add ⟨name, .linked link, []⟩

/-- A step on the modules of a member; membership comes before the name of the module. -/
def onModule (s : State) (name : String) (module : GivenModule)
    (f : Registry → ReceiverId → ModuleId → Bool × Registry) : Answer × State :=
  s.onReceiver name fun receiver _ =>
    match s.client.member receiver, module with
    | .error e, _ => (.failed e, s)
    | .ok _, .error e => (.noModule e, s)
    | .ok _, .ok module =>
      let (b, registry) := f s.client.registry receiver module
      (.flag b, { s with client := s.client.withRegistry registry })

def endpointName (s : State) (receiver : ReceiverId) : String :=
  ((s.client.endpoint? receiver).map (·.name)).getD ""

def resourceText (name : String) (receiver : ReceiverId) : String :=
  Text.recordText "TransactionResource" [
    ("receiver", Text.quoted name), ("id", s!"ReceiverId({receiver.number})")]

def find (s : State) : GivenModule → Answer
  | .error e => .noModule e
  | .ok module =>
    match s.client.resolve module with
    | .error e => .failed e
    | .ok receiver =>
      let name := s.endpointName receiver
      .found name receiver (s.client.registry.tracks receiver) (resourceText name receiver)

def member (s : State) (receiver : ReceiverId) : Answer :=
  match s.client.member receiver with
  | .error e => .failed e
  | .ok receiver => .member (s.endpointName receiver) (s.client.registry.tracks receiver)

def status (endpoint : Endpoint) : Answer :=
  .status endpoint.table.outstanding endpoint.table.stats
    (endpoint.link?.map fun link => (link.association.name, link.association.closed))

def atSite (s : State) (name : String) (f : Site → Bool × Site) : Answer × State :=
  s.onReceiver name fun receiver _ =>
    let (b, client) := s.client.visit receiver false f
    (.flag b, { s with client })

/-! ## Starting -/

def withModule (s : State) (module : GivenModule) (f : ModuleId → Answer × State) :
    Answer × State :=
  match module with
  | .error e => (.noModule e, s)
  | .ok module => f module

def transaction (s : State) (name : String) (module : GivenModule) (step : TxStep)
    (onePhase : Bool) (transaction : TransactionId) : Answer × State :=
  s.withModule module fun module =>
    match s.client.resolve module with
    | .error e => (.failed e, s)
    | .ok receiver =>
      s.begin name fun client => client.drive receiver step onePhase transaction

/-! ## Hosts -/

def onHost (s : State) (name : String) (f : ReceiverId → Link → Answer × State) :
    Answer × State :=
  s.onLink name fun receiver link => if link.hostThere then f receiver link else (.badStep, s)

def hostSend (s : State) (name : String) (message : Bytes) : Answer × State :=
  s.onHost name fun receiver link =>
    match link.hostSend message with
    | .error e => (.notSent e, s)
    | .ok link => (.sent, (s.withLink receiver link).settle)

def hostNext (s : State) (name : String) : Answer × State :=
  s.onHost name fun receiver link =>
    match link.hostNext with
    | (some message, link) => (.message message, s.withLink receiver link)
    | (none, _) => (if link.nearGone then .hostClosed else .noMessage, s)

def hostDrop (s : State) (name : String) : Answer × State :=
  s.onReceiver name fun receiver endpoint =>
    (.flag (endpoint.link?.any (·.hostThere)), (s.dropHost receiver).settle)

def act (s : State) : Step → Answer × State
  | .addBare name => s.add ⟨name, .bare (.empty 16), []⟩
  | .addPlanned name limit plan interceptors =>
    s.add ⟨name, .planned (.empty limit) plan, interceptors⟩
  | .addLinked name sendFuse receiveFuse settleFirst =>
    s.addLinked name sendFuse receiveFuse settleFirst
  | .register name module => s.onModule name module Registry.register
  | .deregister name module => s.onModule name module Registry.deregister
  | .accepts name module =>
    s.onModule name module fun registry receiver module =>
      (registry.accepts receiver module, registry)
  | .unregister name => s.onReceiver name fun receiver _ =>
    let (found, client) := s.client.leave receiver
    (.flag found, { s with client })
  | .find module => (s.find module, s)
  | .receiver (.id receiver) => (s.member receiver, s)
  | .receiver (.name name) => s.onReceiver name fun receiver _ => (s.member receiver, s)
  | .modules name => s.onReceiver name fun receiver _ =>
    (.modules (ModuleId.sorted (s.client.registry.modules receiver)), s)
  | .describe => (.text s.client.text, s)
  | .status name => s.onReceiver name fun _ endpoint => (status endpoint, s)
  | .call name proxy method arguments mode =>
    s.begin name fun client => client.dispatch proxy method arguments mode
  | .callAlone name proxy method arguments =>
    s.begin name fun client => (dispatchAlone proxy method arguments, client)
  | .createSession name module bean view => s.withModule module fun module =>
    s.begin name fun client => client.createSession module bean view
  | .transaction name module step onePhase transaction =>
    s.transaction name module step onePhase transaction
  | .poll name => (s.standing name, s)
  | .get name timeout => s.get name timeout
  | .cancel name => s.onFuture name fun future =>
    let (confirmed, client) := s.client.cancelHeld future
    (.flag confirmed, { s with client })
  | .future name => s.onFuture name fun future =>
    (.future future (future.text (s.endpointName future.receiver)), s)
  | .forget name => s.forget name
  | .abort name => s.abort name
  | .advance span => (.nothing, { s with client := s.client.advance span }.settle)
  | .fulfill name id result => s.atSite name fun site => site.fulfill id result
  | .fail name id e => s.atSite name fun site => site.fail id e
  | .proceed name id => s.atSite name fun site => site.proceedAsync id
  | .close name reason => s.onLink name fun receiver link =>
    let (failed, link) := link.close reason
    (.number failed, s.withLink receiver link)
  | .hostSend name message => s.hostSend name message
  | .hostNext name => s.hostNext name
  | .hostDrop name => s.hostDrop name

def step (s : State) (step : Step) : Report × State :=
  let (answer, s) := act { s with client := { s.client with journal := [], events := [] } } step
  let s := s.settle
  (⟨answer, s.client.journal.reverse, s.client.events.reverse⟩, s)

end State

end Farcall.Client
