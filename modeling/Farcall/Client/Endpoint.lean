import Farcall.Call.Invocation
import Farcall.Channel.Link

set_option autoImplicit false

/-!
# Endpoints

An endpoint is the near side of one receiver: it registers calls in its table and gets requests on
their way. A *link* endpoint talks to a host; a *local* endpoint answers from a plan, without a
host; a *bare* endpoint registers calls and leaves them. Only a link drives transactions; the others
refuse every step but `beforeCompletion`, for which there is nothing to do.
-/

namespace Farcall

inductive Reply where
  /-- Fails the call before it is registered. -/
  | refuse
  | nothing
  | proceed
  | value (v : Value)
  | valueAndProceed (v : Value)
  | fail
deriving DecidableEq

structure Plan where
  reply : Reply
  message : String
  /-- Arguments are copied and stay with the call. -/
  keepArguments : Bool
  confirmCancel : Bool
  attachments : Attachments
  verifyError : Option String
  sessionError : Option String
  session : SessionId

inductive EndpointKind where
  | bare (table : Table LazyResult)
  | planned (table : Table LazyResult) (plan : Plan)
  | linked (link : Link)

structure Endpoint where
  name : String
  kind : EndpointKind
  interceptors : List Interceptor

namespace Endpoint

def table (endpoint : Endpoint) : Table LazyResult :=
  match endpoint.kind with
  | .bare table => table
  | .planned table _ => table
  | .linked link => link.association.table

def withTable (endpoint : Endpoint) (table : Table LazyResult) : Endpoint :=
  { endpoint with
    kind := match endpoint.kind with
      | .bare _ => .bare table
      | .planned _ plan => .planned table plan
      | .linked link => .linked (link.withTable table) }

def link? (endpoint : Endpoint) : Option Link :=
  match endpoint.kind with
  | .linked link => some link
  | _ => none

def withLink (endpoint : Endpoint) (link : Link) : Endpoint :=
  { endpoint with kind := .linked link }

def ownAttachments (endpoint : Endpoint) : Attachments :=
  match endpoint.kind with
  | .bare _ => .empty
  | .planned _ plan => plan.attachments
  | .linked _ => Attachments.empty.put AttachmentKey.sessionAffinity.code
      (Bytes.ofText endpoint.name)

end Endpoint

/-- An endpoint and what happens at it, newest first. -/
structure Site where
  endpoint : Endpoint
  journal : Journal
  events : List Event

namespace Site

def table (site : Site) : Table LazyResult := site.endpoint.table

def withTable (site : Site) (table : Table LazyResult) : Site :=
  { site with endpoint := site.endpoint.withTable table }

def withLink (site : Site) (link : Link) : Site :=
  { site with endpoint := site.endpoint.withLink link }

def note (site : Site) (n : Note) : Site := { site with journal := n :: site.journal }

def happen (site : Site) (events : List Event) : Site :=
  { site with events := events.reverse ++ site.events }

def dropSlot (site : Site) (slot : Slot) : Site :=
  let (rejected, table) := site.table.drop slot
  (site.withTable table).happen (rejected.toList.flatMap LazyResult.discard)

def discardSlot (site : Site) (slot : Slot) : Site :=
  let (rejected, table) := site.table.discard slot
  (site.withTable table).happen (rejected.toList.flatMap LazyResult.discard)

def fulfill (site : Site) (id : UInt16) (result : LazyResult) : Bool × Site :=
  let ((found, rejected), table) := site.table.fulfill id result
  (found, (site.withTable table).happen (rejected.toList.flatMap LazyResult.discard))

def fail (site : Site) (id : UInt16) (e : InvocationError) : Bool × Site :=
  let (found, table) := site.table.fail id e
  (found, site.withTable table)

def proceedAsync (site : Site) (id : UInt16) : Bool × Site :=
  let (found, table) := site.table.proceedAsync id
  (found, site.withTable table)

/-! ## Registering and queueing -/

def register (site : Site) : Except InvocationError Slot × Site :=
  match site.table.register with
  | (.error e, table) => (.error (.correlation e), site.withTable table)
  | (.ok slot, table) => (.ok slot, site.withTable table)

/-- Queues a message for the host; an endpoint without one has nowhere to send. -/
def enqueue (site : Site) (message : Bytes) : Except InvocationError Unit × Site :=
  match site.endpoint.link? with
  | none => (.error (.channelClosed ("channel " ++ site.endpoint.name ++ " is closed")), site)
  | some link =>
    let (result, link) := link.enqueue message
    (result, site.withLink link)

/-- Registers a slot and queues the message that `write` makes for its id. If there is no message,
or it cannot be queued, the slot is dropped again. -/
def post (site : Site) (write : UInt16 → Except InvocationError Message) :
    Except InvocationError Slot × Site :=
  match site.register with
  | (.error e, site) => (.error e, site)
  | (.ok slot, site) =>
    let message := do
      let message ← write slot.id
      message.encode.mapError InvocationError.protocol
    match message with
    | .error e => (.error e, site.dropSlot slot)
    | .ok bytes =>
      match site.enqueue bytes with
      | (.error e, site) => (.error e, site.dropSlot slot)
      | (.ok (), site) => (.ok slot, site)

/-! ## Calls -/

def requestFor (invocation : Invocation) (id : UInt16) : Except InvocationError Message := do
  let payload ← (Payload.encodeArguments (invocation.arguments.getD [])).mapError .codec
  return .invocationRequest (invocation.request id payload)

def replyAs (site : Site) (plan : Plan) (id : UInt16) : Site :=
  match plan.reply with
  | .refuse | .nothing => site
  | .proceed => (site.proceedAsync id).2
  | .value v => (site.fulfill id (.known none (.ok v))).2
  | .valueAndProceed v => ((site.proceedAsync id).2.fulfill id (.known none (.ok v))).2
  | .fail => (site.fail id (.remoteInvocation plan.message)).2

def sendPlanned (site : Site) (plan : Plan) (invocation : Invocation) :
    Except InvocationError (Slot × Invocation) × Site :=
  match plan.reply with
  | .refuse => (.error (.remoteInvocation plan.message), site)
  | _ =>
    match site.register with
    | (.error e, site) => (.error e, site)
    | (.ok slot, site) =>
      let invocation := { invocation with correlationId := some slot.id }
      let arguments := invocation.arguments.getD []
      let site := site.note (.sent slot.id invocation arguments)
      let kept := if plan.keepArguments then invocation.arguments else none
      (.ok (slot, { invocation with arguments := kept }), site.replyAs plan slot.id)

def send (site : Site) (invocation : Invocation) :
    Except InvocationError (Slot × Invocation) × Site :=
  match site.endpoint.kind with
  | .bare _ =>
    match site.register with
    | (.error e, site) => (.error e, site)
    | (.ok slot, site) =>
      (.ok (slot, { invocation with correlationId := some slot.id }), site)
  | .planned _ plan => site.sendPlanned plan invocation
  | .linked _ =>
    match site.post (requestFor invocation) with
    | (.error e, site) => (.error e, site)
    | (.ok slot, site) =>
      (.ok (slot, { invocation with correlationId := some slot.id, arguments := none }), site)

/-- Asks for a call to be given up; says whether it is sure that the call never ran. A host never
confirms that. -/
def cancelCall (site : Site) (id : UInt16) : Bool × Site :=
  match site.endpoint.kind with
  | .bare _ => (false, site)
  | .planned _ plan => (plan.confirmCancel, site)
  | .linked _ =>
    match (Message.cancel id true).encode with
    | .error _ => (false, site)
    | .ok bytes => (false, (site.enqueue bytes).2)

/-! ## Sessions -/

def verify (site : Site) (registry : Registry) (module : ModuleId) (bean : String) :
    Except InvocationError Unit × Site :=
  match site.endpoint.kind with
  | .bare _ => (.ok (), site)
  | .planned _ plan =>
    (match plan.verifyError with
      | some text => .error (.remoteInvocation text)
      | none => .ok (),
     site.note (.verified bean))
  | .linked link =>
    match link.association.receiver with
    | some receiver =>
      if registry.accepts receiver module then (.ok (), site)
      else (.error (.noSuchReceiver module), site)
    | none => (.error (.noSuchReceiver module), site)

/-- What asking for a session gives at once: a session, or the slot to wait on for one. -/
inductive Opening where
  | opened (session : SessionId)
  | waits (slot : Slot)

def openingRequest (endpoint : Endpoint) (module : ModuleId) (bean : String) (id : UInt16) :
    Except InvocationError Message :=
  .ok (.sessionOpenRequest ⟨id, module.toTriple, bean, endpoint.ownAttachments⟩)

def openSession (site : Site) (module : ModuleId) (bean : String) :
    Except InvocationError Opening × Site :=
  match site.endpoint.kind with
  | .bare _ => (.ok (.opened ⟨[1]⟩), site)
  | .planned _ plan =>
    (match plan.sessionError with
      | some text => .error (.remoteInvocation text)
      | none => .ok (.opened plan.session), site)
  | .linked _ =>
    match site.post (openingRequest site.endpoint module bean) with
    | (.error e, site) => (.error e, site)
    | (.ok slot, site) => (.ok (.waits slot), site)

/-! ## Transactions -/

def txKind (step : TxStep) (onePhase : Bool) : TxKind :=
  match step with
  | .prepare => .prepare
  | .commit => .commit onePhase
  | .rollback => .rollback
  | .forget => .forget
  | .beforeCompletion => .beforeCompletion

def xaCode : InvocationError → XaCode
  | .transaction e => e.code
  | .timeout _ => .rbTimeout
  | .channelClosed _ => .rmFail
  | .protocol _ | .codec _ => .proto
  | _ => .rmErr

/-- What a coordinator gets for the answer to a step: a vote for a prepare, else nothing. -/
def stepOutcome (step : TxStep) (answer : CallResult) : Except XaError (Option Vote) :=
  let value : Except XaError (Option Int64) := match answer with
    | .ok .unit => .ok none
    | .ok (.long v) => .ok (some v)
    | .ok _ => .error ⟨.proto, step⟩
    | .error e => .error ⟨xaCode e, step⟩
  match value, step with
  | .error e, _ => .error e
  | .ok v, .prepare =>
    match v.bind fun v => Vote.ofCode? v.toInt with
    | some vote => .ok (some vote)
    | none => .error ⟨.proto, step⟩
  | .ok _, _ => .ok none

inductive Stepping where
  | ended (outcome : Except XaError (Option Vote))
  | waits (slot : Slot)

def unsupportedStep : TxStep → Except XaError (Option Vote)
  | .beforeCompletion => .ok none
  | step => .error (.unsupported step)

def startStep (site : Site) (step : TxStep) (onePhase : Bool) (transaction : TransactionId) :
    Stepping × Site :=
  match site.endpoint.kind with
  | .bare _ | .planned _ _ => (.ended (unsupportedStep step), site)
  | .linked _ =>
    match site.post fun id => .ok (.txRequest ⟨id, txKind step onePhase, transaction⟩) with
    | (.error e, site) => (.ended (stepOutcome step (.error e)), site)
    | (.ok slot, site) => (.waits slot, site)

end Site

end Farcall
