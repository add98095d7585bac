import Farcall.Call.Method
import Farcall.Frame.Encode

set_option autoImplicit false

/-!
# Invocations

One call on its way from the caller to a receiver, and the interceptors around it. Interceptors see
the invocation in list order before it is sent, and the result in reverse order once it is claimed.
An interceptor is any pair of functions that may also read and write the journal; `rewriting` ones
are described by data.
-/

namespace Farcall

inductive ResultState where
  | pending
  | ready
  | discarded
deriving DecidableEq, Repr

def ResultState.name : ResultState → String
  | pending => "Pending"
  | ready => "Ready"
  | discarded => "Discarded"

structure Invocation where
  locator : Locator
  method : Method
  /-- Gone once the receiver took them to encode them. -/
  arguments : Option (List Value)
  receiver : ReceiverId
  attachments : Attachments
  correlationId : Option UInt16
  state : ResultState

namespace Invocation

def ofCall (locator : Locator) (method : Method) (arguments : List Value) (receiver : ReceiverId) :
    Invocation where
  locator := locator
  method := method
  arguments := some arguments
  receiver := receiver
  attachments := .empty
  correlationId := none
  state := .pending

def request (invocation : Invocation) (id : UInt16) (payload : Bytes) : InvocationRequest where
  id := id
  module := invocation.locator.module.toTriple
  bean := invocation.locator.bean
  view := invocation.locator.view
  method := invocation.method.name
  signature := invocation.method.params
  session := invocation.locator.session
  payload := payload
  attachments := invocation.attachments

end Invocation

inductive Note where
  | associated (receiver : ReceiverId)
  | sent (id : UInt16) (invocation : Invocation) (arguments : List Value)
  | verified (bean : String)
  | invocation (label : String) (invocation : Invocation)
  | result (label : String) (invocation : Invocation) (saw : CallResult)

/-- Notes, newest first. -/
abbrev Journal := List Note

structure Interceptor where
  before : Invocation → Journal → Except InvocationError Invocation × Journal
  /-- Sees a claimed result and may replace it. -/
  after : Invocation → CallResult → Journal → CallResult × Journal

namespace Interceptor

def idle : Interceptor where
  before invocation journal := (.ok invocation, journal)
  after _ result journal := (result, journal)

def beforeSend : List Interceptor → Invocation → Journal →
    Except InvocationError Invocation × Journal
  | [], invocation, journal => (.ok invocation, journal)
  | i :: rest, invocation, journal =>
    match i.before invocation journal with
    | (.error e, journal) => (.error e, journal)
    | (.ok invocation, journal) => beforeSend rest invocation journal

/-- Passes a result through interceptors in reverse order. -/
def afterResult (interceptors : List Interceptor) (invocation : Invocation) (result : CallResult)
    (journal : Journal) : CallResult × Journal :=
  interceptors.foldr (fun i seen => i.after invocation seen.1 seen.2) (result, journal)

structure Rewriting where
  label : String
  reject : Option String
  tag : Option AttachmentKey
  untag : Option AttachmentKey
  scale : Option Int32
  /-- Turns every other result into an error of this text. -/
  spoil : Option String
  recover : Option Value

namespace Rewriting

def edit (r : Rewriting) (block : Attachments) : Attachments :=
  let block := match r.tag with
    | some key => block.put key.code (Bytes.ofText r.label)
    | none => block
  match r.untag with
  | some key => block.erase key.code
  | none => block

def before (r : Rewriting) (invocation : Invocation) : Except InvocationError Invocation :=
  match r.reject with
  | some text => .error (.remoteInvocation text)
  | none => .ok { invocation with attachments := r.edit invocation.attachments }

def after (r : Rewriting) (result : CallResult) : CallResult :=
  match result, r.scale, r.spoil, r.recover with
  | .ok (.int v), some factor, _, _ => .ok (.int (v * factor))
  | .ok _, _, some text, _ => .error (.remoteInvocation text)
  | .error _, _, _, some value => .ok value
  | result, _, _, _ => result

end Rewriting

def rewriting (r : Rewriting) : Interceptor where
  before invocation journal := (r.before invocation, .invocation r.label invocation :: journal)
  after invocation result journal :=
    (r.after result, .result r.label invocation result :: journal)

end Interceptor

end Farcall
