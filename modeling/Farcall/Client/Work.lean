import Farcall.Client.Endpoint

set_option autoImplicit false

/-!
# Work

What a caller waits for: the result of a call, a session, or the answer to a transaction step. Each
piece of work waits on one slot. It is started at a site, may be looked at any number of times, and
ends with an outcome. A look takes what arrived before it heeds the time, so a result that is there
wins over a deadline that has passed.
-/

namespace Farcall

structure Future where
  receiver : ReceiverId
  slot : Slot
  invocation : Invocation
  interceptors : List Interceptor
  /-- How long a claim waits if nothing else is said. -/
  timeout : Nat
  /-- What the caller expects, whatever the interceptors made of the invocation. -/
  returns : ReturnType

inductive Work where
  /-- Waits for the result of a call, or to be told to proceed. -/
  | reply (call : Future)
  | opening (receiver : ReceiverId) (slot : Slot) (module : ModuleId) (bean view : String)
  | stepping (receiver : ReceiverId) (slot : Slot) (step : TxStep)
  | claiming (future : Future)

inductive Outcome where
  | failed (e : InvocationError)
  | value (v : Value)
  | discarded
  | pending (future : Future)
  | opened (locator : Locator)
  | stepFailed (e : XaError)
  | stepped (vote : Option Vote)
  | claimed (result : CallResult) (future : Future)

inductive Start where
  | ended (outcome : Outcome)
  | running (work : Work) (timeout : Nat)

namespace Future

def ready (future : Future) : Future :=
  { future with invocation := { future.invocation with state := .ready } }

def text (future : Future) (endpointName : String) : String :=
  Text.recordText "InvocationFuture" [
    ("correlation_id", toString future.slot.id), ("receiver", Text.quoted endpointName)]

end Future

def Work.receiver : Work → ReceiverId
  | reply call => call.receiver
  | opening receiver _ _ _ _ => receiver
  | stepping receiver _ _ => receiver
  | claiming future => future.receiver

namespace Outcome

def ofResult : CallResult → Outcome
  | .ok v => value v
  | .error e => failed e

def ofStep : Except XaError (Option Vote) → Outcome
  | .ok vote => stepped vote
  | .error e => stepFailed e

def ofSession (module : ModuleId) (bean view : String) : CallResult → Outcome
  | .ok (.session session) => opened ⟨module, bean, view, .stateful session⟩
  | .ok other => failed (.unexpectedResult "session" other)
  | .error e => failed e

def future? : Outcome → Option Future
  | pending future => some future
  | claimed _ future => some future
  | _ => none

end Outcome

namespace Site

def readResult (site : Site) (result : LazyResult) : CallResult × Site :=
  let (result, events) := result.read
  (result, site.happen events)

def finishCall (site : Site) (call : Future) (result : LazyResult) : CallResult × Site :=
  let (result, site) := site.readResult result
  let (result, journal) :=
    Interceptor.afterResult call.interceptors call.ready.invocation result site.journal
  (result, { site with journal })

/-! ## Starting -/

/-- Lets a call go on without its caller. Without a result to come it is given up. -/
def detach (site : Site) (call : Future) : Outcome × Site :=
  match call.returns with
  | .unit => (.discarded, site.discardSlot call.slot)
  | .value | .future => (.pending call, site)

/-- Sends a call. Its interceptors see it first, with the attachments of the endpoint. -/
def startCall (site : Site) (timeout : Nat) (invocation : Invocation) (mode : Mode) :
    Start × Site :=
  let receiver := invocation.receiver
  let returns := invocation.method.returns
  let interceptors := site.endpoint.interceptors
  let attachments := invocation.attachments.merge site.endpoint.ownAttachments
  match Interceptor.beforeSend interceptors { invocation with attachments } site.journal with
  | (.error e, journal) => (.ended (.failed e), { site with journal })
  | (.ok invocation, journal) =>
    match send { site with journal } invocation with
    | (.error e, site) => (.ended (.failed e), site)
    | (.ok (slot, invocation), site) =>
      let call : Future := ⟨receiver, slot, invocation, interceptors, timeout, returns⟩
      match mode with
      | .sync => (.running (.reply call) timeout, site)
      | .async =>
        let (outcome, site) := site.detach call
        (.ended outcome, site)

def beginWait (site : Site) (slot : Slot) : Site :=
  site.withTable (site.table.beginWait slot).2

def startSession (site : Site) (timeout : Nat) (registry : Registry) (receiver : ReceiverId)
    (module : ModuleId) (bean view : String) : Start × Site :=
  match site.verify registry module bean with
  | (.error e, site) => (.ended (.failed e), site)
  | (.ok (), site) =>
    match site.openSession module bean with
    | (.error e, site) => (.ended (.failed e), site)
    | (.ok (.opened session), site) =>
      (.ended (.opened ⟨module, bean, view, .stateful session⟩), site)
    | (.ok (.waits slot), site) =>
      (.running (.opening receiver slot module bean view) timeout, site.beginWait slot)

def startTransaction (site : Site) (timeout : Nat) (receiver : ReceiverId) (step : TxStep)
    (onePhase : Bool) (transaction : TransactionId) : Start × Site :=
  match site.startStep step onePhase transaction with
  | (.ended outcome, site) => (.ended (.ofStep outcome), site)
  | (.waits slot, site) => (.running (.stepping receiver slot step) timeout, site.beginWait slot)

def startClaim (site : Site) (timeout : Nat) (future : Future) : Start × Site :=
  match site.table.beginWait future.slot with
  | (.error e, table) => (.ended (.claimed (.error e) future), site.withTable table)
  | (.ok (), table) => (.running (.claiming future) timeout, site.withTable table)

/-! ## Waiting -/

/-- One look into the box of a slot. When the wait is over, `none` stands for lost time. -/
def lookFor (site : Site) (slot : Slot) (late : Bool) :
    Option (Except InvocationError LazyResult) × Site :=
  match site.table.claim slot with
  | (some result, table) => (some result, site.withTable table)
  | (none, table) =>
    if late then
      let (e, table) := table.expire slot
      (some (.error e), site.withTable table)
    else (none, site.withTable table)

/-- One look on behalf of someone who keeps nothing of the call: the result is read, and the slot
goes away. -/
def lookOnce (site : Site) (slot : Slot) (late : Bool) : Option CallResult × Site :=
  match site.lookFor slot late with
  | (none, site) => (none, site)
  | (some (.error e), site) => (some (.error e), site.dropSlot slot)
  | (some (.ok result), site) =>
    let (result, site) := site.readResult result
    (some result, site.dropSlot slot)

def lookForReply (site : Site) (call : Future) (late : Bool) : Option Outcome × Site :=
  match site.table.claimOrProceed call.slot with
  | (some (.ok (.ready result)), table) =>
    let (result, site) := (site.withTable table).finishCall call result
    (some (.ofResult result), site.dropSlot call.slot)
  | (some (.ok .proceedAsync), table) =>
    let (outcome, site) := (site.withTable table).detach call
    (some outcome, site)
  | (some (.error e), table) => (some (.failed e), (site.withTable table).dropSlot call.slot)
  | (none, table) =>
    if late then
      let (e, table) := table.expire call.slot
      (some (.failed e), (site.withTable table).dropSlot call.slot)
    else (none, site.withTable table)

def lookForClaim (site : Site) (future : Future) (late : Bool) : Option Outcome × Site :=
  match site.lookFor future.slot late with
  | (none, site) => (none, site)
  | (some (.error e), site) => (some (.claimed (.error e) future), site)
  | (some (.ok result), site) =>
    let (result, site) := site.finishCall future result
    (some (.claimed result future.ready), site)

/-- One look at work; `late` says that its time is over. Gives the outcome if the work ended. -/
def look (site : Site) (work : Work) (late : Bool) : Option Outcome × Site :=
  match work with
  | .reply call => site.lookForReply call late
  | .opening _ slot module bean view =>
    let (result, site) := site.lookOnce slot late
    (result.map (.ofSession module bean view), site)
  | .stepping _ slot step =>
    let (result, site) := site.lookOnce slot late
    (result.map fun result => .ofStep (stepOutcome step result), site)
  | .claiming future => site.lookForClaim future late

/-- Ends a wait under way for good, and lets its slot go. The wait has the reading end of the box,
so the entry stays until something arrives for it. -/
def breakOff (site : Site) (slot : Slot) : Site :=
  let (rejected, table) := site.table.breakOff slot
  ((site.withTable table).happen (rejected.toList.flatMap LazyResult.drop)).dropSlot slot

def stop (site : Site) : Work → Site
  | .reply call => site.dropSlot call.slot
  | .opening _ slot _ _ _ => site.breakOff slot
  | .stepping _ slot _ => site.breakOff slot
  | .claiming future => site.breakOff future.slot

end Site

end Farcall
