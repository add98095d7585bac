import Farcall.Proofs.Channel.Pending
import Farcall.Proofs.Client.Invariant

set_option autoImplicit false

/-!
# How calls begin

A call that gets on its way leaves one request in the queue of its link and one entry under a fresh
id, whether its caller waits or not; any other call comes to nothing in both modes alike. A caller
that waits then looks at an empty box, until something arrives or a signal lets it go.
-/

namespace Farcall

variable {site : Site} {link : Link} {receiver : ReceiverId}

/-! ## Sites -/

theorem Endpoint.withTable_self (endpoint : Endpoint) : endpoint.withTable endpoint.table = endpoint := by
  obtain ⟨name, kind, interceptors⟩ := endpoint
  cases kind <;> rfl

namespace Site

theorem withTable_self (site : Site) : site.withTable site.table = site :=
  congrArg (fun endpoint => { site with endpoint }) site.endpoint.withTable_self

theorem On.dropSlot (on : site.On link) (slot : Slot) :
    (site.dropSlot slot).On (link.withTable (link.association.table.drop slot).2) := by
  have dropped := on.withTable (link.association.table.drop slot).2
  rw [Site.dropSlot, on.table_eq]
  exact dropped

theorem On.discardSlot (on : site.On link) (slot : Slot) :
    (site.discardSlot slot).On (link.withTable (link.association.table.discard slot).2) := by
  have discarded := on.withTable (link.association.table.discard slot).2
  rw [Site.discardSlot, on.table_eq]
  exact discarded

/-- A request is posted: a fresh id is there for it, it can be written, and the channel takes it. -/
structure Posts (link : Link) (write : UInt16 → Except InvocationError Message) (id : UInt16)
    (frame : Bytes) : Prop where
  registered : link.association.table.register =
    (.ok (link.association.table.enter id).1, (link.association.table.enter id).2)
  written : (do (← write id).encode.mapError InvocationError.protocol) = .ok frame
  isOpen : link.association.closed = false
  writes : link.writerStopped = false

def posted (site : Site) (link : Link) (id : UInt16) (frame : Bytes) : Site :=
  site.withLink (queueing (entered link id) frame)

variable {write : UInt16 → Except InvocationError Message} {id : UInt16} {frame : Bytes}

theorem on_posted (site : Site) (link : Link) (id : UInt16) (frame : Bytes) :
    (site.posted link id frame).On (queueing (entered link id) frame) := rfl

theorem post_of_posts (on : site.On link) (posts : Posts link write id frame) :
    site.post write = (.ok (link.association.table.enter id).1, site.posted link id frame) := by
  have behind : (site.withTable (link.association.table.enter id).2).endpoint.link? =
      some (entered link id) := on.withTable _
  have taken := enqueue_of_open (entered link id) posts.isOpen posts.writes frame
  have written := posts.written
  rw [show id = (link.association.table.enter id).1.id from rfl] at written
  simp only [post, register, on.table_eq, posts.registered, written, enqueue, behind, taken]
  rfl

inductive Posting (link : Link) (write : UInt16 → Except InvocationError Message) :
    Except InvocationError Slot → Prop where
  | refused {e : CorrelationError} (refused : link.association.table.register.1 = .error e) :
      Posting link write (.error (.correlation e))
  | unwritten {id : UInt16} {e : InvocationError}
      (registered : link.association.table.register =
        (.ok (link.association.table.enter id).1, (link.association.table.enter id).2))
      (unwritten : (do (← write id).encode.mapError InvocationError.protocol) = .error e) :
      Posting link write (.error e)
  | shut {id : UInt16} {frame : Bytes} {reason : String}
      (registered : link.association.table.register =
        (.ok (link.association.table.enter id).1, (link.association.table.enter id).2))
      (written : (do (← write id).encode.mapError InvocationError.protocol) = .ok frame)
      (shut : ¬ (link.association.closed = false ∧ link.writerStopped = false)) :
      Posting link write (.error (.channelClosed reason))
  | posted {id : UInt16} {frame : Bytes} (posts : Posts link write id frame) :
      Posting link write (.ok (link.association.table.enter id).1)

theorem post_cases (on : site.On link) (write : UInt16 → Except InvocationError Message) :
    Posting link write (site.post write).1 := by
  rcases Table.register_cases link.association.table with ⟨e, refused⟩ | ⟨id, -, registered⟩
  · have given : (site.post write).1 = .error (.correlation e) := by
      simp only [post, register, on.table_eq, refused]
    rw [given]
    exact .refused (congrArg Prod.fst refused)
  · cases written : (do (← write id).encode.mapError InvocationError.protocol : Except _ Bytes) with
    | error e =>
      have given : (site.post write).1 = .error e := by
        rw [show id = (link.association.table.enter id).1.id from rfl] at written
        simp only [post, register, on.table_eq, registered, written]
      rw [given]
      exact .unwritten registered written
    | ok frame =>
      by_cases ready : link.association.closed = false ∧ link.writerStopped = false
      · have posts : Posts link write id frame := ⟨registered, written, ready.1, ready.2⟩
        rw [post_of_posts on posts]
        exact .posted posts
      · obtain ⟨reason, refused⟩ := enqueue_of_shut (entered link id) ready frame
        have given : (site.post write).1 = .error (.channelClosed reason) := by
          have behind : (site.withTable (link.association.table.enter id).2).endpoint.link? =
              some (entered link id) := on.withTable _
          rw [show id = (link.association.table.enter id).1.id from rfl] at written
          simp only [post, register, on.table_eq, registered, written, enqueue, behind, refused]
        rw [given]
        exact .shut registered written ready

theorem posts_or_fails (on : site.On link) (write : UInt16 → Except InvocationError Message) :
    (∃ id frame, Posts link write id frame) ∨ ∃ e after, site.post write = (.error e, after) := by
  have posting := post_cases on write
  cases given : site.post write with
  | mk result after =>
    rw [given] at posting
    cases posting with
    | posted posts => exact .inl ⟨_, _, posts⟩
    | _ => exact .inr ⟨_, after, rfl⟩

end Site

namespace Endpoint

def shown (endpoint : Endpoint) (invocation : Invocation) : Invocation :=
  { invocation with attachments := invocation.attachments.merge endpoint.ownAttachments }

def calling (endpoint : Endpoint) (link : Link) (timeout : Nat) (invocation seen : Invocation)
    (id : UInt16) : Future where
  receiver := invocation.receiver
  slot := (link.association.table.enter id).1
  invocation := { seen with correlationId := some id, arguments := none }
  interceptors := endpoint.interceptors
  timeout := timeout
  returns := invocation.method.returns

/-- The interceptors let an invocation pass, and its request is posted. -/
structure Sends (endpoint : Endpoint) (link : Link) (invocation : Invocation) (journal : Journal)
    (seen : Invocation) (noted : Journal) (id : UInt16) (frame : Bytes) : Prop where
  passes : Interceptor.beforeSend endpoint.interceptors (endpoint.shown invocation) journal =
    (.ok seen, noted)
  posts : Site.Posts link (Site.requestFor seen) id frame

end Endpoint

namespace Site

variable {invocation seen : Invocation} {noted : Journal} {id : UInt16} {frame : Bytes}

def goOn (site : Site) (timeout : Nat) (call : Future) : Mode → Start × Site
  | .sync => (.running (.reply call) timeout, site)
  | .async => (.ended (site.detach call).1, (site.detach call).2)

theorem startCall_of_sends (on : site.On link)
    (sends : site.endpoint.Sends link invocation site.journal seen noted id frame) (timeout : Nat)
    (mode : Mode) :
    site.startCall timeout invocation mode = (posted { site with journal := noted } link id frame).goOn
      timeout (site.endpoint.calling link timeout invocation seen id) mode := by
  have kind := Endpoint.kind_of_link on
  have sent : post { site with journal := noted } (requestFor seen) = _ := post_of_posts on sends.posts
  have passes := sends.passes
  rw [Endpoint.shown] at passes
  simp only [startCall, passes, send, kind, sent]
  cases mode with
  | sync => rfl
  | async => rfl

theorem startCall_of_stopped {e : InvocationError}
    (stopped : Interceptor.beforeSend site.endpoint.interceptors (site.endpoint.shown invocation)
      site.journal = (.error e, noted)) (timeout : Nat) (mode : Mode) :
    site.startCall timeout invocation mode = (.ended (.failed e), { site with journal := noted }) := by
  rw [Endpoint.shown] at stopped
  simp only [startCall, stopped]

theorem startCall_of_unposted {e : InvocationError} {after : Site} (on : site.On link)
    (passes : Interceptor.beforeSend site.endpoint.interceptors (site.endpoint.shown invocation)
      site.journal = (.ok seen, noted))
    (failed : post { site with journal := noted } (requestFor seen) = (.error e, after))
    (timeout : Nat) (mode : Mode) :
    site.startCall timeout invocation mode = (.ended (.failed e), after) := by
  have kind := Endpoint.kind_of_link on
  rw [Endpoint.shown] at passes
  simp only [startCall, passes, send, kind, failed]

/-- A call is sent in both modes, or it fails in both. -/
theorem startCall_cases (on : site.On link) (invocation : Invocation) :
    (∃ seen noted id frame,
      site.endpoint.Sends link invocation site.journal seen noted id frame) ∨
    ∃ e after, ∀ timeout mode, site.startCall timeout invocation mode =
      (.ended (.failed e), after) := by
  cases passes : Interceptor.beforeSend site.endpoint.interceptors (site.endpoint.shown invocation)
      site.journal with
  | mk given noted =>
    cases given with
    | error e => exact .inr ⟨e, _, startCall_of_stopped passes⟩
    | ok seen =>
      have on' : On { site with journal := noted } link := on
      rcases posts_or_fails on' (requestFor seen) with ⟨id, frame, posts⟩ | ⟨e, after, failed⟩
      · exact .inl ⟨seen, noted, id, frame, passes, posts⟩
      · exact .inr ⟨e, after, startCall_of_unposted on passes failed⟩

theorem On.detach (on : site.On link) (call : Future) :
    ∃ table, (site.detach call).2.On (link.withTable table) ∧
      (site.detach call).2.journal = site.journal := by
  unfold Site.detach
  split
  · exact ⟨_, on.discardSlot call.slot, rfl⟩
  · exact ⟨_, on, rfl⟩
  · exact ⟨_, on, rfl⟩

theorem detach_of_result {call : Future} (expected : call.returns ≠ .unit) :
    site.detach call = (.pending call, site) := by
  unfold detach
  cases returns : call.returns with
  | unit => exact absurd returns expected
  | value => rfl
  | future => rfl

/-! ## Waiting for a reply -/

theorem lookForReply_of_empty (site : Site) {call : Future} (empty : site.table.arrival? call.slot = none)
    (owned : site.table.owns call.slot = true) (late : Bool) :
    site.lookForReply call late =
      if ((site.table.attend call.slot).useSignal call.slot).1 then
        let (outcome, after) :=
          (site.withTable ((site.table.attend call.slot).useSignal call.slot).2).detach call
        (some outcome, after)
      else if late then
        (some (.failed ((site.table.attend call.slot).expire call.slot).1),
          (site.withTable ((site.table.attend call.slot).expire call.slot).2).dropSlot call.slot)
      else (none, site.withTable (site.table.attend call.slot)) := by
  have nothing := Table.claim_of_empty ((Table.arrival_attend _ call.slot _).trans empty) owned
  rw [lookForReply]
  cases used : (site.table.attend call.slot).useSignal call.slot with
  | mk told after =>
    cases told with
    | true => rw [Table.claimOrProceed_of_signal nothing used, if_pos rfl]
    | false =>
      obtain rfl := Table.of_useSignal_false used
      rw [Table.claimOrProceed_of_none nothing used, if_neg Bool.false_ne_true]

theorem lookForClaim_of_empty (site : Site) {call : Future} (empty : site.table.arrival? call.slot = none)
    (owned : site.table.owns call.slot = true) (late : Bool) :
    site.lookForClaim call late =
      if late then (some (.claimed (.error (site.table.expire call.slot).1) call),
        site.withTable (site.table.expire call.slot).2)
      else (none, site) := by
  rw [lookForClaim, lookFor, Table.claim_of_empty empty owned]
  cases late with
  | true => rfl
  | false =>
    dsimp only
    rw [if_neg Bool.false_ne_true, withTable_self]
    rfl

end Site

/-! ## At a client -/

namespace Client

variable {client : Client} {endpoint : Endpoint}

theorem dispatch_of_remote {proxy : Proxy} {method : Method} {arguments : List Value}
    (remote : proxy.answer? method arguments = none)
    (resolved : client.resolve proxy.locator.module = .ok receiver) (mode : Mode) :
    client.dispatch proxy method arguments mode =
      client.visit receiver (.ended (.failed (.noSuchReceiver proxy.locator.module))) fun site =>
        site.startCall client.config.invocationTimeout
          (.ofCall proxy.locator method arguments receiver) mode := by
  simp only [dispatch, remote, startAt, resolved]

/-- A caller whose reply has not come waits, and if there is no time left it fails. -/
theorem look_of_pends (call : Future) (linked : client.link? call.receiver = some link)
    {signals : Signals} (pends : link.association.table.Pends call.slot signals .slot)
    (quiet : signals.size = 0) (deadline : Nat) :
    client.now < deadline ∧ (client.look (.reply call) deadline).1 = none ∧
        client.Left call.receiver (link.withTable (link.association.table.attend call.slot))
          client.journal (client.look (.reply call) deadline).2 ∨
      deadline ≤ client.now ∧
        (client.look (.reply call) deadline).1 = some (.failed (.timeout call.slot.id)) ∧
        ∃ table, client.Left call.receiver (link.withTable table) client.journal
          (client.look (.reply call) deadline).2 := by
  obtain ⟨site, on, noted, result, left⟩ := client.look_linked (.reply call) deadline linked
  have there : site.table.Pends call.slot signals .slot := on.table_eq ▸ pends
  have looked : site.look (.reply call) (decide (deadline ≤ client.now)) = _ :=
    site.lookForReply_of_empty there.empty there.owned (decide (deadline ≤ client.now))
  rw [there.told, quiet, if_neg (by decide), on.table_eq] at looked
  rw [← noted]
  by_cases late : deadline ≤ client.now
  · rw [if_pos (decide_eq_true late)] at looked
    rw [looked] at result left
    exact .inr ⟨late, result, _, left _ ((on.withTable _).dropSlot call.slot)⟩
  · rw [if_neg (by simpa using late)] at looked
    rw [looked] at result left
    exact .inl ⟨Nat.lt_of_not_le late, result, left _ (on.withTable _)⟩

end Client

/-! ## At a desk -/

namespace Desk

variable {desk : Desk} {endpoint : Endpoint} {proxy : Proxy} {method : Method}
  {arguments : List Value} {seen : Invocation} {noted : Journal} {id : UInt16} {frame : Bytes}

theorem act_call (mode : Mode) : desk.act (.request (.call proxy method arguments mode)) =
    takeUp desk.held (desk.client.dispatch proxy method arguments mode) := rfl

/-- A call goes to a receiver with a link; its proxy has no answer to it. -/
structure Remote (desk : Desk) (proxy : Proxy) (method : Method) (arguments : List Value)
    (receiver : ReceiverId) (endpoint : Endpoint) (link : Link) : Prop where
  unanswered : proxy.answer? method arguments = none
  resolved : desk.client.resolve proxy.locator.module = .ok receiver
  there : desk.client.endpoint? receiver = some endpoint
  linked : endpoint.link? = some link

namespace Remote

theorem on (remote : desk.Remote proxy method arguments receiver endpoint link) :
    Site.On ⟨endpoint, desk.client.journal, desk.client.events⟩ link := remote.linked

theorem link_of_remote (remote : desk.Remote proxy method arguments receiver endpoint link) :
    desk.client.link? receiver = some link := by
  rw [Client.link?, remote.there]
  exact remote.linked

theorem dispatched {site : Site} {start : Start} {after : Link} {mode : Mode}
    (remote : desk.Remote proxy method arguments receiver endpoint link)
    (started : Site.startCall ⟨endpoint, desk.client.journal, desk.client.events⟩
      desk.client.config.invocationTimeout (.ofCall proxy.locator method arguments receiver) mode =
        (start, site))
    (on : site.On after) : ∃ behind, desk.client.Left receiver after site.journal behind ∧
      desk.client.dispatch proxy method arguments mode = (start, behind) := by
  obtain ⟨result, left⟩ := Client.visit_left
    (.ended (.failed (.noSuchReceiver proxy.locator.module)))
    (fun site => site.startCall desk.client.config.invocationTimeout
      (.ofCall proxy.locator method arguments receiver) mode) remote.there
    (by rw [started]; exact on)
  rw [started] at result left
  rw [Client.dispatch_of_remote remote.unanswered remote.resolved]
  exact ⟨_, left, Prod.ext result rfl⟩

theorem act_failed {site : Site} {e : InvocationError} {mode : Mode}
    (remote : desk.Remote proxy method arguments receiver endpoint link)
    (failed : Site.startCall ⟨endpoint, desk.client.journal, desk.client.events⟩
      desk.client.config.invocationTimeout (.ofCall proxy.locator method arguments receiver) mode =
        (.ended (.failed e), site)) :
    desk.act (.request (.call proxy method arguments mode)) = (some (.ended (.failed e)),
      ⟨{ desk.client.withEndpoint receiver site.endpoint with
        journal := site.journal, events := site.events }, desk.held⟩) := by
  rw [act_call, Client.dispatch_of_remote remote.unanswered remote.resolved,
    Client.visit_of_there remote.there, failed, takeUp, keep]
  exact congrArg (fun held => (_, Desk.mk _ held)) (List.append_nil desk.held)

variable (remote : desk.Remote proxy method arguments receiver endpoint link)
  (sends : endpoint.Sends link (.ofCall proxy.locator method arguments receiver)
    desk.client.journal seen noted id frame)

include remote sends

theorem act_sync :
    let call := endpoint.calling link desk.client.config.invocationTimeout
      (.ofCall proxy.locator method arguments receiver) seen id
    let sent := Site.queueing (Site.entered link id) frame
    ∃ behind, (0 < desk.client.config.invocationTimeout ∧
        desk.client.Left receiver (sent.withTable (sent.association.table.attend call.slot)) noted
          behind ∧
        desk.act (.request (.call proxy method arguments .sync)) = (some (.waits behind.nextTask),
          ⟨behind.withTask (.reply call)
            (desk.client.now + desk.client.config.invocationTimeout), desk.held⟩)) ∨
      desk.client.config.invocationTimeout = 0 ∧
        (∃ table, desk.client.Left receiver (sent.withTable table) noted behind) ∧
        desk.act (.request (.call proxy method arguments .sync)) =
          (some (.ended (.failed (.timeout id))), ⟨behind, desk.held⟩) := by
  intro call sent
  obtain ⟨begun, left, started⟩ := remote.dispatched
    (Site.startCall_of_sends remote.on sends _ .sync) (Site.on_posted _ link id frame)
  have looked := Client.look_of_pends call left.link (Table.pends_enter link.association.table id)
    rfl (begun.now + desk.client.config.invocationTimeout)
  rw [act_call, started]
  rcases begun.takeUp_running (.reply call) desk.client.config.invocationTimeout with
    ⟨outcome, ended, taken⟩ | ⟨waiting, taken⟩
  · rcases looked with ⟨-, waiting, -⟩ | ⟨late, fails, table, behind⟩
    · rw [waiting] at ended
      cases ended
    · rw [fails] at ended
      obtain rfl := Option.some.inj ended
      rw [left.journal] at behind
      refine ⟨_, .inr ⟨by omega, ⟨table, left.trans behind⟩, ?_⟩⟩
      rw [takeUp, taken, keep]
      exact congrArg (fun held => (_, Desk.mk _ held)) (List.append_nil desk.held)
  · rcases looked with ⟨time, -, looked⟩ | ⟨-, fails, -⟩
    · rw [left.journal] at looked
      refine ⟨_, .inl ⟨Nat.pos_of_lt_add_right time, left.trans looked, ?_⟩⟩
      rw [takeUp, taken, keep, ← left.now]
      exact congrArg (fun held => (_, Desk.mk _ held)) (List.append_nil desk.held)
    · rw [waiting] at fails
      cases fails

theorem act_async (expected : method.returns ≠ .unit) : ∃ behind,
    desk.client.Left receiver (Site.queueing (Site.entered link id) frame) noted behind ∧
      desk.act (.request (.call proxy method arguments .async)) =
        (some (.ended (.pending (endpoint.calling link desk.client.config.invocationTimeout
          (.ofCall proxy.locator method arguments receiver) seen id))),
        ⟨behind, desk.held ++ [endpoint.calling link desk.client.config.invocationTimeout
          (.ofCall proxy.locator method arguments receiver) seen id]⟩) := by
  have started := Site.startCall_of_sends remote.on sends desk.client.config.invocationTimeout .async
  rw [Site.goOn, Site.detach_of_result expected] at started
  obtain ⟨behind, left, started⟩ := remote.dispatched started (Site.on_posted _ link id frame)
  refine ⟨behind, left, ?_⟩
  rw [act_call, started]
  rfl

theorem link_act (mode : Mode) : ∃ table,
    (desk.act (.request (.call proxy method arguments mode))).2.client.link? receiver =
      some ((Site.queueing (Site.entered link id) frame).withTable table) ∧
    (desk.act (.request (.call proxy method arguments mode))).2.client.journal = noted := by
  cases mode with
  | sync =>
    obtain ⟨behind, ⟨-, left, given⟩ | ⟨-, ⟨table, left⟩, given⟩⟩ := remote.act_sync sends
    · rw [given]
      exact ⟨_, left.link, left.journal⟩
    · rw [given]
      exact ⟨table, left.link, left.journal⟩
  | async =>
    have on := Site.on_posted { endpoint, journal := noted, events := desk.client.events } link id frame
    obtain ⟨table, on, kept⟩ := on.detach (endpoint.calling link desk.client.config.invocationTimeout
      (.ofCall proxy.locator method arguments receiver) seen id)
    obtain ⟨behind, left, started⟩ :=
      remote.dispatched (Site.startCall_of_sends remote.on sends _ .async) on
    rw [act_call, started]
    exact ⟨table, left.link, left.journal.trans kept⟩

end Remote

end Desk

/-! ## One sum -/

namespace OneSum

def module : ModuleId := ⟨"app", "mod", "", by decide⟩

def sums : Proxy := ⟨⟨⟨module, "Calc", "Sums", .stateless⟩, .sync⟩, .business⟩

def add : Method := ⟨"add", ["int", "int"], .value⟩

def call (mode : Mode) : Move := .request (.call sums add [.int 1, .int 2] mode)

def joined : Turn :=
  ⟨⟨.ofConfig .default, []⟩, .join ⟨"host", .linked (.named "host" 4 none none), []⟩⟩

def opened : Turn := ⟨joined.after, .announce ((Registry.empty.add ⟨1⟩).2.register ⟨1⟩ module).2⟩

theorem opens : Course .default [joined, opened] opened.after := by
  have joins : Course .default [joined] joined.after := Course.joins .default "host" 4
  change Course .default ([joined] ++ [opened]) opened.after
  exact joins.next trivial

def answer (id value : UInt8) : Bytes := [0x05, 0, id, 5, 2, 0, 0, 0, value, 0]

def host : Link :=
  { Link.named "host" 4 none none with
    association := { Association.named "host" 4 with receiver := some ⟨1⟩ } }

theorem remote : opened.after.Remote sums add [.int 1, .int 2] ⟨1⟩ ⟨"host", .linked host, []⟩ host :=
  ⟨rfl, rfl, rfl, rfl⟩

end OneSum

end Farcall
