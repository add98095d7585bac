import Farcall.Proofs.Channel.Likeness
import Farcall.Proofs.Client.Calls
import Farcall.Proofs.Client.Ending

set_option autoImplicit false

/-!
# Calls under way

The caller of a call waits for the reply, or it was let go and holds the call, or it waits for the
result that it claims. In the meantime the host may say what it likes about other calls, and tell the
caller to proceed as often as it likes. However the caller came to where it stands, it left no trace
but in the box of its own call.
-/

namespace Farcall

/-! ## Where a caller stands -/

/-- Where the caller of a call stands. -/
inductive Stand where
  | awaits (task : Nat)
  | holds (place : Nat)
  | claims (task : Nat)

namespace Stand

def task? : Stand → Option Nat
  | awaits task => some task
  | claims task => some task
  | holds _ => none

/-- How a caller comes to the end of its call, once the result is there. -/
def finish (timeout : Nat) : Stand → Move
  | awaits task => .look task
  | holds place => .claim place timeout
  | claims task => .look task

end Stand

def Work.call? : Work → Option Future
  | reply call => some call
  | claiming call => some call
  | opening _ _ _ _ _ => none
  | stepping _ _ _ => none

theorem Work.receiver_of_call {work : Work} {call : Future} (of : work.call? = some call) :
    work.receiver = call.receiver := by
  cases work with
  | reply own | claiming own =>
    obtain rfl := Option.some.inj of
    rfl
  | _ => cases of

theorem Work.slot_of_call {work : Work} {call : Future} (of : work.call? = some call) :
    work.slot = call.slot := by
  cases work with
  | reply own | claiming own =>
    obtain rfl := Option.some.inj of
    rfl
  | _ => cases of

/-- A call under way from its request on: where its caller stands, and what was heard meanwhile but
for the signals to proceed. -/
inductive Desk.Underway (before : Desk) (request : Mode → Move) (receiver : ReceiverId)
    (id : UInt16) : List Bytes → Stand → Desk → Prop
  | waits {task : Nat} (given : (before.act (request .sync)).1 = some (.waits task)) :
    Underway before request receiver id [] (.awaits task) (before.act (request .sync)).2
  | leaves {call : Future}
    (given : (before.act (request .async)).1 = some (.ended (.pending call))) :
    Underway before request receiver id [] (.holds before.held.length)
      (before.act (request .async)).2
  | hears {heard : List Bytes} {stand : Stand} {desk : Desk} {message : Bytes}
    (run : Underway before request receiver id heard stand desk)
    (other : calledId? message ≠ some id) :
    Underway before request receiver id (heard ++ [message]) stand
      (desk.act (.link receiver (.receive message))).2
  | signalled {heard : List Bytes} {stand : Stand} {desk : Desk} {message : Bytes}
    (run : Underway before request receiver id heard stand desk)
    (signal : calledId? message = some id) (unanswered : answeredId? message = none) :
    Underway before request receiver id heard stand
      (desk.act (.link receiver (.receive message))).2
  | carries {heard : List Bytes} {stand : Stand} {desk : Desk} {link : Link}
    (run : Underway before request receiver id heard stand desk)
    (allowed : desk.Allowed (.link receiver (.carry link))) :
    Underway before request receiver id heard stand (desk.act (.link receiver (.carry link))).2
  | passes {heard : List Bytes} {stand : Stand} {desk : Desk}
    (run : Underway before request receiver id heard stand desk) (span : Nat) :
    Underway before request receiver id heard stand (desk.act (.advance span)).2
  | looks {heard : List Bytes} {stand : Stand} {desk : Desk} {task : Nat}
    (run : Underway before request receiver id heard stand desk)
    (working : stand.task? = some task)
    (given : (desk.act (.look task)).1 = some (.waits task)) :
    Underway before request receiver id heard stand (desk.act (.look task)).2
  | proceeds {heard : List Bytes} {desk : Desk} {task : Nat} {call : Future}
    (run : Underway before request receiver id heard (.awaits task) desk)
    (given : (desk.act (.look task)).1 = some (.ended (.pending call))) :
    Underway before request receiver id heard (.holds desk.held.length)
      (desk.act (.look task)).2
  | claims {heard : List Bytes} {desk : Desk} {place timeout task : Nat}
    (run : Underway before request receiver id heard (.holds place) desk)
    (given : (desk.act (.claim place timeout)).1 = some (.waits task)) :
    Underway before request receiver id heard (.claims task) (desk.act (.claim place timeout)).2

inductive Stand.Of (desk : Desk) (call : Future) : Stand → Hold → Prop
  | awaits {task : Task} (mem : task ∈ desk.client.tasks) (work : task.work = .reply call) :
    Of desk call (.awaits task.number) .slot
  | holds {place : Nat} (found : desk.held[place]? = some call) : Of desk call (.holds place) .slot
  | claims {task : Task} (mem : task ∈ desk.client.tasks) (work : task.work = .claiming call) :
    Of desk call (.claims task.number) .wait

namespace Stand.Of

variable {desk after : Desk} {call : Future} {stand : Stand} {hold : Hold} {number : Nat}

theorem reads (of : stand.Of desk call hold) : hold ≠ .gone := by
  cases of <;> exact nofun

theorem congr (of : stand.Of desk call hold) (tasks : after.client.tasks = desk.client.tasks)
    (held : after.held = desk.held) : stand.Of after call hold := by
  cases of with
  | awaits mem work => exact .awaits (by rw [tasks]; exact mem) work
  | holds found => exact .holds (by rw [held]; exact found)
  | claims mem work => exact .claims (by rw [tasks]; exact mem) work

theorem task (of : stand.Of desk call hold) (working : stand.task? = some number) :
    ∃ task ∈ desk.client.tasks, task.number = number ∧ task.work.call? = some call ∧
      task.work.hold = hold := by
  cases of with
  | @awaits task mem work =>
    refine ⟨task, mem, Option.some.inj working, ?_, ?_⟩
    · rw [work]
      rfl
    · rw [work]
      rfl
  | holds found => cases working
  | @claims task mem work =>
    refine ⟨task, mem, Option.some.inj working, ?_, ?_⟩
    · rw [work]
      rfl
    · rw [work]
      rfl

end Stand.Of

/-! ## Looks at a call that nothing has arrived for -/

namespace Site

variable {site : Site} {work : Work} {call future : Future} {late : Bool}

theorem look_of_none (of : work.call? = some call) (empty : site.table.arrival? call.slot = none)
    (owned : site.table.owns call.slot = true) (nothing : (site.look work late).1 = none) :
    (site.look work late).2 = site ∨
      (site.look work late).2 = site.withTable (site.table.attend call.slot) := by
  cases work with
  | reply own =>
    obtain rfl := Option.some.inj of
    have looked := site.lookForReply_of_empty empty owned late
    rw [look] at nothing ⊢
    rw [looked] at nothing ⊢
    split
    · next signal =>
      rw [if_pos signal] at nothing
      cases nothing
    · next quiet =>
      rw [if_neg quiet] at nothing
      split
      · next out =>
        rw [if_pos out] at nothing
        cases nothing
      · exact .inr rfl
  | claiming own =>
    obtain rfl := Option.some.inj of
    have looked := site.lookForClaim_of_empty empty owned late
    rw [look] at nothing ⊢
    rw [looked] at nothing ⊢
    split
    · next out =>
      rw [if_pos out] at nothing
      cases nothing
    · exact .inl rfl
  | _ => cases of

theorem lookForReply_of_pending (expected : call.returns ≠ .unit)
    (empty : site.table.arrival? call.slot = none) (owned : site.table.owns call.slot = true)
    (given : (site.lookForReply call late).1 = some (.pending future)) : future = call ∧
      (site.lookForReply call late).2 =
        site.withTable ((site.table.attend call.slot).useSignal call.slot).2 := by
  have looked := site.lookForReply_of_empty empty owned late
  rw [looked] at given ⊢
  split
  · next signal =>
    rw [if_pos signal, detach_of_result expected] at given
    rw [detach_of_result expected]
    exact ⟨(Outcome.pending.inj (Option.some.inj given)).symm, rfl⟩
  · next quiet =>
    rw [if_neg quiet] at given
    split at given <;> cases given

end Site

namespace Client

variable {client : Client} {link : Link} {work : Work} {call future : Future} {signals : Signals}
  {hold : Hold} {deadline : Nat}

theorem look_of_none (linked : client.link? call.receiver = some link)
    (of : work.call? = some call) (pends : link.association.table.Pends call.slot signals hold)
    (nothing : (client.look work deadline).1 = none) : ∃ (table : Table LazyResult) (left : Signals),
      (table.Pends call.slot left hold ∧
        Table.AlikeBut call.slot.generation 0 link.association.table table) ∧
      client.Left call.receiver (link.withTable table) client.journal
        (client.look work deadline).2 := by
  rw [← Work.receiver_of_call of] at linked ⊢
  obtain ⟨site, on, noted, result, left⟩ := client.look_linked work deadline linked
  have there : site.table.Pends call.slot signals hold := on.table_eq ▸ pends
  rw [← noted]
  rcases Site.look_of_none of there.empty there.owned (result.symm.trans nothing) with same | same
  · rw [same] at left
    exact ⟨_, _, ⟨pends, .refl _ _⟩, left link on⟩
  · rw [same, on.table_eq] at left
    exact ⟨_, _, pends.alike_resignal .attend, left _ (on.withTable _)⟩

theorem look_of_pending (linked : client.link? call.receiver = some link)
    (expected : call.returns ≠ .unit)
    (pends : link.association.table.Pends call.slot signals hold)
    (given : (client.look (.reply call) deadline).1 = some (.pending future)) : future = call ∧
      client.Left call.receiver
        (link.withTable ((link.association.table.attend call.slot).useSignal call.slot).2)
        client.journal (client.look (.reply call) deadline).2 := by
  obtain ⟨site, on, noted, result, left⟩ := client.look_linked (.reply call) deadline linked
  have there : site.table.Pends call.slot signals hold := on.table_eq ▸ pends
  obtain ⟨same, after⟩ : future = call ∧
      (site.look (.reply call) (decide (deadline ≤ client.now))).2 =
        site.withTable ((site.table.attend call.slot).useSignal call.slot).2 :=
    Site.lookForReply_of_pending expected there.empty there.owned (result.symm.trans given)
  rw [after, on.table_eq] at left
  rw [← noted]
  exact ⟨same, left _ (on.withTable _)⟩

theorem look_of_signal (linked : client.link? call.receiver = some link)
    (expected : call.returns ≠ .unit)
    (pends : link.association.table.Pends call.slot signals hold) (told : 0 < signals.size) :
    (client.look (.reply call) deadline).1 = some (.pending call) := by
  obtain ⟨site, on, -, result, -⟩ := client.look_linked (.reply call) deadline linked
  have there : site.table.Pends call.slot signals hold := on.table_eq ▸ pends
  have looked : site.look (.reply call) (decide (deadline ≤ client.now)) = _ :=
    site.lookForReply_of_empty there.empty there.owned (decide (deadline ≤ client.now))
  rw [there.told, if_pos (decide_eq_true told), Site.detach_of_result expected] at looked
  rw [result, looked]

end Client

/-! ## What is the same wherever the caller stands -/

structure Outset where
  call : Future
  link : Link
  registry : Registry
  journal : Journal

namespace Outset

/-- The channel, and the modules of its client, if these messages are all that is heard. -/
def calm (outset : Outset) (heard : List Bytes) : Association × Registry :=
  Association.processAll (outset.link.association, outset.registry) (heard.map Input.ofBytes)

theorem calm_append (outset : Outset) (heard : List Bytes) (message : Bytes) :
    outset.calm (heard ++ [message]) =
      Association.advance (outset.calm heard) (.ofBytes message) := by
  rw [calm, List.map_append, Association.processAll, List.foldl_append]
  rfl

/-- The caller of a call stands somewhere, and its channel is, but for the box of the call, as it
would be without it. -/
structure Standing (outset : Outset) (calm : Association) (stand : Stand) (desk : Desk) (link : Link)
    (hold : Hold) : Prop where
  ordered : desk.Ordered
  stands : stand.Of desk outset.call hold
  journal : desk.client.journal = outset.journal
  linked : desk.client.link? outset.call.receiver = some link
  queue : link.outbound <:+ outset.link.outbound
  like : Association.Like outset.call.slot.generation calm link.association

structure Pending (outset : Outset) (heard : List Bytes) (stand : Stand) (desk : Desk) (link : Link)
    (signals : Signals) (hold : Hold) : Prop
    extends outset.Standing (outset.calm heard).1 stand desk link hold where
  registry : desk.client.registry = (outset.calm heard).2
  pends : link.association.table.Pends outset.call.slot signals hold

variable {outset : Outset} {calm : Association} {heard : List Bytes} {stand : Stand} {desk : Desk}
  {link : Link} {signals : Signals} {hold : Hold} {number : Nat}

theorem Standing.sound (standing : outset.Standing calm stand desk link hold) :
    link.association.table.Sound :=
  (standing.ordered.fit.fits _ link standing.linked).sound

theorem Standing.turn (standing : outset.Standing calm stand desk link hold) (turn : LinkTurn)
    (allowed : desk.Allowed (.link outset.call.receiver turn)) {calm' : Association}
    (queue : (turn.apply link desk.client.registry).link.outbound <:+ link.outbound)
    (like : Association.Like outset.call.slot.generation calm'
      (turn.apply link desk.client.registry).link.association) :
    outset.Standing calm' stand (desk.act (.link outset.call.receiver turn)).2
      (turn.apply link desk.client.registry).link hold := by
  have turned := desk.client.onLink_of_link (fun link registry => turn.apply link registry)
    standing.linked
  exact ⟨(standing.ordered.follows_act allowed).ordered, standing.stands.congr turned.tasks rfl,
    turned.journal.trans standing.journal, turned.link, queue.trans standing.queue, like⟩

namespace Pending

theorem turn (pending : outset.Pending heard stand desk link signals hold) (turn : LinkTurn)
    (allowed : desk.Allowed (.link outset.call.receiver turn)) {heard' : List Bytes} {signals' : Signals}
    (queue : (turn.apply link desk.client.registry).link.outbound <:+ link.outbound)
    (like : Association.Like outset.call.slot.generation (outset.calm heard').1
      (turn.apply link desk.client.registry).link.association)
    (registry : (turn.apply link desk.client.registry).registry = (outset.calm heard').2)
    (pends : (turn.apply link desk.client.registry).link.association.table.Pends outset.call.slot
      signals' hold) :
    outset.Pending heard' stand (desk.act (.link outset.call.receiver turn)).2
      (turn.apply link desk.client.registry).link signals' hold := by
  have turned := desk.client.onLink_of_link (fun link registry => turn.apply link registry)
    pending.linked
  exact ⟨pending.toStanding.turn turn allowed queue like, turned.registry.trans registry, pends⟩

theorem hears (pending : outset.Pending heard stand desk link signals hold) {message : Bytes}
    (other : calledId? message ≠ some outset.call.slot.id) :
    ∃ behind, outset.Pending (heard ++ [message]) stand
      (desk.act (.link outset.call.receiver (.receive message))).2 behind signals hold := by
  obtain ⟨like, registry⟩ := pending.like.process desk.client.registry (.ofBytes message)
  refine ⟨_, pending.turn (.receive message) trivial (List.suffix_refl _) ?_ ?_ ?_⟩
  · rw [calm_append, Association.advance, ← pending.registry]
    exact like
  · rw [calm_append, Association.advance, ← pending.registry]
    exact registry
  · exact Association.pends_process pending.sound.toCoupled pending.pends _ other

theorem notified (pending : outset.Pending heard stand desk link signals hold) {message : Bytes}
    (signal : calledId? message = some outset.call.slot.id) (unanswered : answeredId? message = none) :
    ∃ behind, outset.Pending heard stand
      (desk.act (.link outset.call.receiver (.receive message))).2 behind signals.raise hold := by
  -- the calm channel does not hear the signal, which reaches nothing but the box of the call
  obtain ⟨told, registry⟩ := link.association.process_of_notification desk.client.registry signal
    unanswered
  obtain ⟨pends, own⟩ := pending.pends.proceedAsync
  refine ⟨_, pending.turn (.receive message) trivial (List.suffix_refl _) ?_ ?_ ?_⟩
  · change Association.Like _ _ (link.association.process _ _).association
    rw [told]
    exact pending.like.withTable own
  · exact registry.trans pending.registry
  · change (link.association.process _ _).association.table.Pends _ _ _
    rw [told]
    exact pends

theorem carries (pending : outset.Pending heard stand desk link signals hold) {carried : Link}
    (allowed : desk.Allowed (.link outset.call.receiver (.carry carried))) :
    outset.Pending heard stand (desk.act (.link outset.call.receiver (.carry carried))).2 carried
      signals hold := by
  obtain ⟨same, queue⟩ := allowed link pending.linked
  refine pending.turn (.carry carried) allowed queue ?_ pending.registry ?_
  · change Association.Like _ _ carried.association
    rw [same]
    exact pending.like
  · change carried.association.table.Pends _ _ _
    rw [same]
    exact pending.pends

theorem passes (pending : outset.Pending heard stand desk link signals hold) (span : Nat) :
    outset.Pending heard stand (desk.act (.advance span)).2 link signals hold :=
  ⟨⟨(pending.ordered.follows_act (show desk.Allowed (.advance span) from trivial)).ordered,
    pending.stands.congr rfl rfl, pending.journal, pending.linked, pending.queue, pending.like⟩,
    pending.registry, pending.pends⟩

theorem looks (pending : outset.Pending heard stand desk link signals hold)
    (working : stand.task? = some number)
    (given : (desk.act (.look number)).1 = some (.waits number)) :
    ∃ behind left, outset.Pending heard stand (desk.act (.look number)).2 behind left hold := by
  obtain ⟨task, mem, rfl, of, -⟩ := pending.stands.task working
  have found := pending.ordered.find_of_mem mem
  have ordered := (pending.ordered.follows_act
    (show desk.Allowed (.look task.number) from trivial)).ordered
  rw [Desk.act] at given ordered ⊢
  cases looked : desk.client.look task.work task.deadline with
  | mk result after =>
    cases result with
    | some outcome =>
      rw [Desk.look_of_ended found looked] at given
      cases given
    | none =>
      obtain ⟨table, signals, ⟨pends, own⟩, left⟩ :=
        Client.look_of_none pending.linked of pending.pends (congrArg Prod.fst looked)
      rw [looked] at left
      rw [Desk.look_of_waits found looked] at ordered ⊢
      exact ⟨_, _, ⟨ordered, pending.stands.congr left.tasks rfl,
        left.journal.trans pending.journal, left.link, pending.queue,
        pending.like.withTable own⟩, left.registry.trans pending.registry, pends⟩

theorem proceeds (pending : outset.Pending heard (.awaits number) desk link signals hold)
    (expected : outset.call.returns ≠ .unit) {future : Future}
    (given : (desk.act (.look number)).1 = some (.ended (.pending future))) :
    ∃ behind left, outset.Pending heard (.holds desk.held.length) (desk.act (.look number)).2 behind
      left .slot := by
  have ordered := (pending.ordered.follows_act
    (show desk.Allowed (.look number) from trivial)).ordered
  have pends := pending.pends
  cases pending.stands with
  | @awaits task mem work =>
    have found := pending.ordered.find_of_mem mem
    rw [Desk.act] at given ordered ⊢
    cases looked : desk.client.look task.work task.deadline with
    | mk result after =>
      cases result with
      | none =>
        rw [Desk.look_of_waits found looked] at given
        cases given
      | some outcome =>
        rw [Desk.look_of_ended found looked] at given ordered ⊢
        obtain rfl : outcome = .pending future := TakenUp.ended.inj (Option.some.inj given)
        rw [work] at looked
        have lets : (desk.client.look (.reply outset.call) task.deadline).1 = some (.pending future) := by
          rw [looked]
        obtain ⟨rfl, left⟩ := Client.look_of_pending pending.linked expected pends lets
        rw [looked] at left
        obtain ⟨_, pends, own⟩ := pends.useSignal
        refine ⟨_, _, ⟨ordered, .holds ?_, left.journal.trans pending.journal, left.link,
          pending.queue, pending.like.withTable own⟩, left.registry.trans pending.registry, pends⟩
        exact List.getElem?_concat_length

theorem claims {place timeout : Nat}
    (pending : outset.Pending heard (.holds place) desk link signals hold)
    (given : (desk.act (.claim place timeout)).1 = some (.waits number)) :
    ∃ behind left, outset.Pending heard (.claims number) (desk.act (.claim place timeout)).2 behind
      left .wait := by
  have ordered := (pending.ordered.follows_act
    (show desk.Allowed (.claim place timeout) from trivial)).ordered
  have pends := pending.pends
  cases pending.stands with
  | holds found =>
    obtain ⟨started, begun⟩ := Client.claim_of_held pending.linked pends.held timeout
    obtain ⟨pends, own⟩ := pends.setHold .wait
    have acted : desk.act (.claim place timeout) =
        Desk.takeUp (desk.held.eraseIdx place) (desk.client.claim outset.call timeout) := by
      rw [Desk.act, Desk.onHeld, found]
    rw [acted, Desk.takeUp, started] at given ordered ⊢
    rcases (desk.client.claim outset.call timeout).2.takeUp_running (.claiming outset.call) timeout with
      ⟨outcome, -, taken⟩ | ⟨nothing, taken⟩
    · rw [taken] at given
      cases given
    · obtain ⟨table, _, ⟨pends, waited⟩, looked⟩ := Client.look_of_none begun.link rfl pends nothing
      have left := begun.trans looked
      rw [taken] at given ordered ⊢
      obtain rfl := TakenUp.waits.inj (Option.some.inj given)
      refine ⟨_, _, ⟨ordered, ?_, left.journal.trans (begun.journal.trans pending.journal), left.link,
        pending.queue, (pending.like.withTable own).withTable waited⟩,
        left.registry.trans pending.registry, pends⟩
      exact @Stand.Of.claims _ _ ⟨_, .claiming outset.call, _⟩
        (List.mem_append_right _ (List.mem_singleton_self _)) rfl

end Pending

end Outset

/-! ## From the request on -/

namespace Desk

variable {before desk : Desk} {proxy : Proxy} {method : Method} {arguments : List Value}
  {receiver : ReceiverId} {endpoint : Endpoint} {link : Link} {seen : Invocation} {noted : Journal}
  {id : UInt16} {frame : Bytes}

def outset (before : Desk) (proxy : Proxy) (method : Method) (arguments : List Value)
    (receiver : ReceiverId) (endpoint : Endpoint) (link : Link) (seen : Invocation) (noted : Journal)
    (id : UInt16) (frame : Bytes) : Outset where
  call := endpoint.calling link before.client.config.invocationTimeout
    (.ofCall proxy.locator method arguments receiver) seen id
  link := Site.queueing (Site.entered link id) frame
  registry := before.client.registry
  journal := noted

section sent

variable (ordered : before.Ordered)
  (remote : before.Remote proxy method arguments receiver endpoint link)
  (sends : endpoint.Sends link (.ofCall proxy.locator method arguments receiver)
    before.client.journal seen noted id frame)

include ordered remote sends

theorem pending_of_waits {task : Nat}
    (given : (before.act (.request (.call proxy method arguments .sync))).1 = some (.waits task)) :
    (before.outset proxy method arguments receiver endpoint link seen noted id frame).Pending []
      (.awaits task) (before.act (.request (.call proxy method arguments .sync))).2
      ((Site.queueing (Site.entered link id) frame).withTable
        ((link.association.table.enter id).2.attend (link.association.table.enter id).1))
      .awaited .slot := by
  have after := (ordered.follows_act
    (show before.Allowed (.request (.call proxy method arguments .sync)) from trivial)).ordered
  obtain ⟨behind, ⟨-, left, acted⟩ | ⟨-, -, acted⟩⟩ := remote.act_sync sends
  · rw [acted] at given after ⊢
    obtain rfl := TakenUp.waits.inj (Option.some.inj given)
    obtain ⟨pends, own⟩ := (Table.pends_enter link.association.table id).alike_resignal .attend
    refine ⟨⟨after, ?_, left.journal, left.link, List.suffix_refl _,
      (Association.Like.refl _ _).withTable own⟩, left.registry, pends⟩
    exact @Stand.Of.awaits _ _ ⟨_, .reply _, _⟩
      (List.mem_append_right _ (List.mem_singleton_self _)) rfl
  · rw [acted] at given
    cases given

theorem pending_of_leaves (expected : method.returns ≠ .unit) :
    (before.outset proxy method arguments receiver endpoint link seen noted id frame).Pending []
      (.holds before.held.length) (before.act (.request (.call proxy method arguments .async))).2
      (Site.queueing (Site.entered link id) frame) (.idle false) .slot := by
  have after := (ordered.follows_act
    (show before.Allowed (.request (.call proxy method arguments .async)) from trivial)).ordered
  obtain ⟨behind, left, acted⟩ := remote.act_async sends expected
  rw [acted] at after ⊢
  exact ⟨⟨after, .holds List.getElem?_concat_length, left.journal, left.link, List.suffix_refl _,
    .refl _ _⟩, left.registry, Table.pends_enter link.association.table id⟩

/-- However a caller came to where it stands, the call is pending, and all else is as it is for any
other caller that heard the same. -/
theorem Underway.pending (expected : method.returns ≠ .unit) {heard : List Bytes} {stand : Stand}
    (run : before.Underway (fun mode => .request (.call proxy method arguments mode)) receiver id
      heard stand desk) : ∃ behind signals hold,
    (before.outset proxy method arguments receiver endpoint link seen noted id frame).Pending heard
      stand desk behind signals hold := by
  -- from the request on: each step keeps the call pending, and tells its own stand
  induction run with
  | waits given => exact ⟨_, _, _, pending_of_waits ordered remote sends given⟩
  | leaves given => exact ⟨_, _, _, pending_of_leaves ordered remote sends expected⟩
  | hears run other ih =>
    obtain ⟨behind, signals, hold, pending⟩ := ih
    obtain ⟨after, pending⟩ := pending.hears other
    exact ⟨after, _, _, pending⟩
  | signalled run signal unanswered ih =>
    obtain ⟨behind, signals, hold, pending⟩ := ih
    obtain ⟨after, pending⟩ := pending.notified signal unanswered
    exact ⟨after, _, _, pending⟩
  | carries run allowed ih =>
    obtain ⟨behind, signals, hold, pending⟩ := ih
    exact ⟨_, _, _, pending.carries allowed⟩
  | passes run span ih =>
    obtain ⟨behind, signals, hold, pending⟩ := ih
    exact ⟨_, _, _, pending.passes span⟩
  | looks run working given ih =>
    obtain ⟨behind, signals, hold, pending⟩ := ih
    obtain ⟨after, _, pending⟩ := pending.looks working given
    exact ⟨after, _, _, pending⟩
  | proceeds run given ih =>
    obtain ⟨behind, signals, hold, pending⟩ := ih
    obtain ⟨after, _, pending⟩ := pending.proceeds expected given
    exact ⟨after, _, _, pending⟩
  | claims run given ih =>
    obtain ⟨behind, signals, hold, pending⟩ := ih
    obtain ⟨after, _, pending⟩ := pending.claims given
    exact ⟨after, _, _, pending⟩

end sent

end Desk

end Farcall
