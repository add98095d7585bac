import Farcall.Client.Work

set_option autoImplicit false

/-!
# Clients

A client holds the endpoints of its receivers, picks one for each call by the module that is called,
and keeps the work that waits. Nothing happens by itself: messages move and waits end when the client
is settled, and time passes when it is advanced.

An endpoint outlives its receiver's membership, because calls through it may still be held.
-/

namespace Farcall

structure Task where
  number : Nat
  work : Work
  deadline : Nat

structure Client where
  config : Config
  directory : Directory Unit
  endpoints : Std.TreeMap Nat Endpoint
  now : Nat
  journal : Journal
  /-- What became of labelled results and inputs, newest first. -/
  events : List Event
  tasks : List Task
  nextTask : Nat

/-- What taking something up gives: its outcome, or the number of the task that goes on with it. -/
inductive TakenUp where
  | ended (outcome : Outcome)
  | waits (task : Nat)

namespace Client

def ofConfig (config : Config) : Client where
  config := config
  directory := .empty
  endpoints := ∅
  now := 0
  journal := []
  events := []
  tasks := []
  nextTask := 0

def text (client : Client) : String :=
  Text.recordText "ClientContext" [
    ("config", client.config.text), ("receivers", toString client.directory.size)]

def registry (client : Client) : Registry := client.directory.registry

def withRegistry (client : Client) (registry : Registry) : Client :=
  { client with directory := { client.directory with registry } }

def endpoint? (client : Client) (receiver : ReceiverId) : Option Endpoint :=
  client.endpoints[receiver.number]?

def withEndpoint (client : Client) (receiver : ReceiverId) (endpoint : Endpoint) : Client :=
  { client with endpoints := client.endpoints.insert receiver.number endpoint }

/-- Does something at an endpoint; without it nothing happens, and `dflt` is the answer. -/
def visit {α : Type} (client : Client) (receiver : ReceiverId) (dflt : α) (act : Site → α × Site) :
    α × Client :=
  match client.endpoint? receiver with
  | none => (dflt, client)
  | some endpoint =>
    let (a, site) := act ⟨endpoint, client.journal, client.events⟩
    (a, { client.withEndpoint receiver site.endpoint with
      journal := site.journal, events := site.events })

/-! ## Receivers -/

def runLink (client : Client) (receiver : ReceiverId) : Client :=
  match client.endpoint? receiver with
  | none => client
  | some endpoint =>
    match endpoint.link? with
    | none => client
    | some link =>
      let after := link.run client.registry
      { (client.withEndpoint receiver (endpoint.withLink after.link)).withRegistry after.registry with
        events := after.events ++ client.events }

def associate (client : Client) (receiver : ReceiverId) (endpoint : Endpoint) : Client :=
  match endpoint.kind with
  | .bare _ => client.withEndpoint receiver endpoint
  | .planned _ _ =>
    { client.withEndpoint receiver endpoint with journal := .associated receiver :: client.journal }
  | .linked link =>
    let (association, registry) := link.association.associate client.registry receiver
    (client.withEndpoint receiver (endpoint.withLink { link with association })).withRegistry registry

def join (client : Client) (endpoint : Endpoint) : ReceiverId × Client :=
  let (receiver, directory) := client.directory.join ()
  (receiver, associate { client with directory } receiver endpoint)

def leave (client : Client) (receiver : ReceiverId) : Bool × Client :=
  let (found, directory) := client.directory.leave receiver
  (found, { client with directory })

def member (client : Client) (receiver : ReceiverId) : Except InvocationError ReceiverId :=
  match client.directory.member? receiver with
  | some () => .ok receiver
  | none => .error (.unknownReceiver receiver)

def resolve (client : Client) (module : ModuleId) : Except InvocationError ReceiverId :=
  match client.directory.resolve? module with
  | some (receiver, ()) => .ok receiver
  | none => .error (.noSuchReceiver module)

/-! ## Starting -/

def startAt (client : Client) (module : ModuleId) (start : ReceiverId → Site → Start × Site) :
    Start × Client :=
  match client.resolve module with
  | .error e => (.ended (.failed e), client)
  | .ok receiver =>
    client.visit receiver (.ended (.failed (.noSuchReceiver module))) (start receiver)

def dispatch (client : Client) (proxy : Proxy) (method : Method) (arguments : List Value)
    (mode : Mode) : Start × Client :=
  match proxy.answer? method arguments with
  | some result => (.ended (.ofResult result), client)
  | none =>
    client.startAt proxy.locator.module fun receiver site =>
      site.startCall client.config.invocationTimeout
        (.ofCall proxy.locator method arguments receiver) mode

def dispatchAlone (proxy : Proxy) (method : Method) (arguments : List Value) : Start :=
  match proxy.answer? method arguments with
  | some result => .ended (.ofResult result)
  | none => .ended (.failed .noClientContext)

def createSession (client : Client) (module : ModuleId) (bean view : String) : Start × Client :=
  client.startAt module fun receiver site =>
    site.startSession client.config.sessionOpenTimeout client.registry receiver module bean view

def drive (client : Client) (receiver : ReceiverId) (step : TxStep) (onePhase : Bool)
    (transaction : TransactionId) : Start × Client :=
  client.visit receiver (.ended (.failed (.unknownReceiver receiver))) fun site =>
    site.startTransaction client.config.transactionTimeout receiver step onePhase transaction

def claim (client : Client) (future : Future) (timeout : Nat) : Start × Client :=
  client.visit future.receiver (.ended (.failed (.unknownReceiver future.receiver))) fun site =>
    site.startClaim timeout future

/-! ## Held calls -/

/-- Asks for a call to be given up. If it is sure that the call never ran, its entry is withdrawn
and a claim reports the cancellation. -/
def cancelHeld (client : Client) (future : Future) : Bool × Client :=
  client.visit future.receiver false fun site =>
    let (confirmed, site) := site.cancelCall future.slot.id
    if confirmed then (true, site.withTable (site.table.cancel future.slot).2) else (false, site)

def dropHeld (client : Client) (future : Future) : Client :=
  (client.visit future.receiver () fun site => ((), site.dropSlot future.slot)).2

/-! ## Running -/

def look (client : Client) (work : Work) (deadline : Nat) : Option Outcome × Client :=
  client.visit work.receiver none fun site => site.look work (deadline ≤ client.now)

/-- Takes up what was started: it gets a look at once, and becomes a task if it has to wait. -/
def takeUp (client : Client) (start : Start) : TakenUp × Client :=
  match start with
  | .ended outcome => (.ended outcome, client)
  | .running work timeout =>
    let deadline := client.now + timeout
    match client.look work deadline with
    | (some outcome, client) => (.ended outcome, client)
    | (none, client) =>
      (.waits client.nextTask, {
        client with
        tasks := client.tasks ++ [⟨client.nextTask, work, deadline⟩]
        nextTask := client.nextTask + 1 })

def runLinks (client : Client) : Client :=
  client.endpoints.keys.foldl (fun client number => client.runLink ⟨number⟩) client

/-- Looks at tasks one after the other; gives those that ended, with their outcomes. The others
are kept. -/
def lookAtAll : List Task → Client → List (Nat × Outcome) × Client
  | [], client => ([], { client with tasks := [] })
  | task :: rest, client =>
    match client.look task.work task.deadline with
    | (some outcome, client) =>
      let (ended, client) := lookAtAll rest client
      ((task.number, outcome) :: ended, client)
    | (none, client) =>
      let (ended, client) := lookAtAll rest client
      (ended, { client with tasks := task :: client.tasks })

/-- Lets everything run that can. A task that ends gives nothing that a link waits for, so one round
is enough. -/
def settle (client : Client) : List (Nat × Outcome) × Client :=
  lookAtAll client.tasks client.runLinks

def advance (client : Client) (span : Nat) : Client := { client with now := client.now + span }

def abort (client : Client) (number : Nat) : Client :=
  match client.tasks.find? (·.number = number) with
  | none => client
  | some task =>
    let rest := client.tasks.filter (·.number ≠ number)
    (visit { client with tasks := rest } task.work.receiver () fun site =>
      ((), site.stop task.work)).2

end Client

end Farcall
