import Farcall.Proofs.Client.Underway

set_option autoImplicit false

/-!
# Calls that complete

What a call comes to is settled by what the host said, not by the way its caller took: whether the
caller waits, was let go, or never waited, it gets the same result through the same interceptors, and
it leaves the same table.
-/

namespace Farcall

/-- What settles a call: an answer with its id, readable or not, or the end of its channel. -/
inductive LinkTurn.Settles (id : UInt16) : LinkTurn → Prop
  | answered {message : Bytes} (named : answeredId? message = some id) : Settles id (.receive message)
  | closed (reason : String) : Settles id (.close reason)

def Outcome.result? : Outcome → Option CallResult
  | value v => some (.ok v)
  | failed e => some (.error e)
  | claimed result _ => some result
  | _ => none

theorem Outcome.result_ofResult (result : CallResult) :
    (Outcome.ofResult result).result? = some result := by
  cases result <;> rfl

/-- What a call comes to: what its caller gets, what its interceptors noted, and the table that is
left but for the box of the call. -/
structure Finish where
  result : CallResult
  journal : Journal
  table : Table LazyResult

/-- A move brings a call to such an end, and no more than these messages are queued then. -/
def Desk.Finishes (desk : Desk) (move : Move) (receiver : ReceiverId) (slot : Slot)
    (queue : List Bytes) (finish : Finish) : Prop :=
  ∃ outcome link, (desk.act move).1 = some (.ended outcome) ∧
    outcome.result? = some finish.result ∧
    (desk.act move).2.client.journal = finish.journal ∧
    (desk.act move).2.client.link? receiver = some link ∧ link.outbound <:+ queue ∧
    Table.AlikeBut slot.generation 0 finish.table link.association.table

/-! ## Looks at a call that is settled -/

namespace Site

variable {site : Site} {link : Link} {work : Work} {call : Future} {hold : Hold}
  {d : Delivery LazyResult}

theorem result_of_arrived (of : work.call? = some call)
    (arrived : site.table.arrival? call.slot = some d) (late : Bool) :
    ∃ outcome, (site.look work late).1 = some outcome ∧
      outcome.result? = some (call.receive site.journal d.toExcept).1 ∧
      (site.look work late).2.journal = (call.receive site.journal d.toExcept).2 := by
  cases work with
  | reply own =>
    obtain rfl := Option.some.inj of
    obtain ⟨ended, noted⟩ := lookForReply_of_arrived arrived late
    exact ⟨_, ended, Outcome.result_ofResult _, noted⟩
  | claiming own =>
    obtain rfl := Option.some.inj of
    obtain ⟨ended, noted⟩ := lookForClaim_of_arrived arrived late
    exact ⟨_, ended, rfl, noted⟩
  | _ => cases of

theorem spent_of_arrived (on : site.On link) (of : work.call? = some call)
    (held : link.association.table.holder? call.slot = some hold)
    (arrived : link.association.table.arrival? call.slot = some d) (late : Bool) :
    ∃ table, (site.look work late).2.On (link.withTable table) ∧
      Table.AlikeBut call.slot.generation 0 link.association.table table ∧
      ¬ table.Read call.slot.generation := by
  rw [← on.table_eq] at arrived
  cases work with
  | reply own =>
    obtain rfl := Option.some.inj of
    let spent := (link.association.table.attend own.slot).spend own.slot
    have alike : Table.AlikeBut own.slot.generation 0 link.association.table spent :=
      .trans (.modify_self _ _ _) (.modify_self _ _ _)
    have attended := (Table.holder_attend _ own.slot own.slot).trans held
    refine ⟨(spent.drop own.slot).2, ?_, ?_, Table.not_read_drop spent own.slot⟩
    · rw [look, lookForReply, Table.claimOrProceed_of_arrived arrived, on.table_eq]
      cases d with
      | result r => exact (on.withTable spent).dropSlot own.slot
      | failed e => exact (on.withTable spent).dropSlot own.slot
    · rw [Table.drop_of_gone (Table.holder_spend attended)]
      exact alike.trans (.closeBox_self _ own.slot)
  | claiming own =>
    obtain rfl := Option.some.inj of
    refine ⟨link.association.table.spend own.slot, ?_, .modify_self _ _ _,
      Table.not_read_spend _ own.slot⟩
    rw [look, lookForClaim, lookFor, Table.claim_of_arrived arrived, on.table_eq]
    cases d with
    | result r => exact on.withTable _
    | failed e => exact on.withTable _
  | _ => cases of

end Site

theorem Client.look_of_settled {client : Client} {link : Link} {work : Work} {call : Future}
    {hold : Hold} {d : Delivery LazyResult} (linked : client.link? call.receiver = some link)
    (of : work.call? = some call)
    (held : link.association.table.holder? call.slot = some hold)
    (arrived : link.association.table.arrival? call.slot = some d) (deadline : Nat) :
    ∃ outcome table, (client.look work deadline).1 = some outcome ∧
      outcome.result? = some (call.receive client.journal d.toExcept).1 ∧
      client.Left call.receiver (link.withTable table) (call.receive client.journal d.toExcept).2
        (client.look work deadline).2 ∧
      Table.AlikeBut call.slot.generation 0 link.association.table table := by
  rw [← Work.receiver_of_call of] at linked ⊢
  obtain ⟨site, on, same, given, left⟩ := client.look_linked work deadline linked
  obtain ⟨outcome, ended, result, noted⟩ := Site.result_of_arrived of
    (by rw [on.table_eq]; exact arrived) (decide (deadline ≤ client.now))
  obtain ⟨table, after, own, -⟩ := Site.spent_of_arrived on of held arrived
    (decide (deadline ≤ client.now))
  have left := left _ after
  rw [noted] at left
  rw [← same]
  exact ⟨outcome, table, given.trans ended, result, left, own⟩

/-! ## Callers whose call is settled -/

namespace Outset

variable {outset : Outset} {calm : Association} {heard : List Bytes} {stand : Stand} {desk : Desk}
  {link : Link} {signals : Signals} {hold : Hold} {d : Delivery LazyResult}

structure Settled (outset : Outset) (calm : Association) (d : Delivery LazyResult) (stand : Stand)
    (desk : Desk) (link : Link) (hold : Hold) : Prop
    extends outset.Standing calm stand desk link hold where
  held : link.association.table.holder? outset.call.slot = some hold
  arrived : link.association.table.arrival? outset.call.slot = some d

theorem Pending.answered (pending : outset.Pending heard stand desk link signals hold)
    {message : Bytes} {result : LazyResult}
    (brings : ∀ (association : Association) (registry : Registry),
      (association.process registry (.ofBytes message)).association = { association with
        table := (association.table.fulfill outset.call.slot.id result).2 } ∧
      (association.process registry (.ofBytes message)).registry = registry) :
    ∃ behind, outset.Settled (outset.calm (heard ++ [message])).1 (.result result) stand
      (desk.act (.link outset.call.receiver (.receive message))).2 behind hold := by
  have table : (link.association.process desk.client.registry (.ofBytes message)).association.table =
      (link.association.table.fulfill outset.call.slot.id result).2 := by
    rw [(brings _ _).1]
  refine ⟨_, pending.toStanding.turn (.receive message) trivial (List.suffix_refl _) ?_, ?_, ?_⟩
  · rw [calm_append, Association.advance, ← pending.registry]
    exact (pending.like.process desk.client.registry (.ofBytes message)).1
  · change (link.association.process _ _).association.table.holder? _ = _
    rw [table]
    exact (Table.holder_fulfill _ _ _ _).trans pending.pends.held
  · change (link.association.process _ _).association.table.arrival? _ = _
    rw [table]
    exact pending.pends.arrival_fulfill pending.stands.reads result

theorem Pending.closed (pending : outset.Pending heard stand desk link signals hold)
    (reason : String) : ∃ behind, outset.Settled ((outset.calm heard).1.close reason).2
      (.failed (.channelClosed reason)) stand
      (desk.act (.link outset.call.receiver (.close reason))).2 behind hold := by
  refine ⟨_, pending.toStanding.turn (.close reason) trivial (List.suffix_refl _)
    (pending.like.close reason), ?_, ?_⟩
  · exact (Table.holder_failAll _ reason _).trans pending.pends.held
  · exact Table.arrival_failAll pending.pends.held pending.stands.reads pending.pends.owned reason

def finish (outset : Outset) (calm : Association) (d : Delivery LazyResult) : Finish where
  result := (outset.call.receive outset.journal d.toExcept).1
  journal := (outset.call.receive outset.journal d.toExcept).2
  table := calm.table

theorem Settled.look (settled : outset.Settled calm d stand desk link hold) {number : Nat}
    (working : stand.task? = some number) :
    desk.Finishes (.look number) outset.call.receiver outset.call.slot outset.link.outbound
      (outset.finish calm d) := by
  obtain ⟨task, mem, rfl, of, -⟩ := settled.stands.task working
  obtain ⟨outcome, table, ended, result, left, own⟩ :=
    Client.look_of_settled settled.linked of settled.held settled.arrived task.deadline
  rw [settled.journal] at result left
  have looked := Desk.look_of_ended (settled.ordered.find_of_mem mem) (Prod.ext ended rfl)
  refine ⟨outcome, link.withTable table, ?_, result, ?_, ?_, settled.queue,
    settled.like.tables.trans own⟩
  · rw [Desk.act, looked]
    rfl
  · rw [Desk.act, looked]
    exact left.journal
  · rw [Desk.act, looked]
    exact left.link

theorem Settled.claim {place : Nat}
    (settled : outset.Settled calm d (.holds place) desk link .slot)
    (found : desk.held[place]? = some outset.call) (timeout : Nat) :
    desk.Finishes (.claim place timeout) outset.call.receiver outset.call.slot
      outset.link.outbound (outset.finish calm d) := by
  obtain ⟨started, begun⟩ := Client.claim_of_held settled.linked settled.held timeout
  obtain ⟨outcome, table, ended, result, left, own⟩ := Client.look_of_settled begun.link
    (show (Work.claiming outset.call).call? = some outset.call from rfl)
    (Table.beginWait_of_held settled.held).2
    ((Table.arrival_setHold _ _ _ .wait).trans settled.arrived)
    ((desk.client.claim outset.call timeout).2.now + timeout)
  rw [begun.journal, settled.journal] at result left
  have acted := Desk.act_claim_of_ended found started ended
  have waits : Table.AlikeBut outset.call.slot.generation 0 link.association.table
      (link.association.table.setHold outset.call.slot .wait) := .modify_self _ _ _
  refine ⟨outcome, link.withTable table, ?_, result, ?_, ?_, settled.queue,
    settled.like.tables.trans (waits.trans own)⟩
  · rw [acted]
    rfl
  · rw [acted]
    exact left.journal
  · rw [acted]
    exact left.link

theorem Settled.finishes (settled : outset.Settled calm d stand desk link hold) (timeout : Nat) :
    desk.Finishes (stand.finish timeout) outset.call.receiver outset.call.slot
      outset.link.outbound (outset.finish calm d) := by
  have stands := settled.stands
  cases stands with
  | awaits mem work => exact settled.look rfl
  | claims mem work => exact settled.look rfl
  | holds found => exact settled.claim found timeout

theorem Pending.lets_go {number : Nat}
    (pending : outset.Pending heard (.awaits number) desk link signals hold)
    (told : 0 < signals.size) (expected : outset.call.returns ≠ .unit) :
    (desk.act (.look number)).1 = some (.ended (.pending outset.call)) := by
  have stands := pending.stands
  cases stands with
  | @awaits task mem work =>
    have found := pending.ordered.find_of_mem mem
    have lets : (desk.client.look task.work task.deadline).1 = some (.pending outset.call) := by
      rw [work]
      exact Client.look_of_signal pending.linked expected pending.pends told
    rw [Desk.act, Desk.look_of_ended found (Prod.ext lets rfl)]
    rfl

/-- What settles a pending call decides what it comes to. -/
theorem exists_finish (outset : Outset) (heard : List Bytes) {turn : LinkTurn}
    (settles : turn.Settles outset.call.slot.id) : ∃ finish, ∀ stand desk link signals hold,
      outset.Pending heard stand desk link signals hold → ∀ timeout,
        (desk.act (.link outset.call.receiver turn)).2.Finishes (stand.finish timeout)
          outset.call.receiver outset.call.slot outset.link.outbound finish := by
  -- the end is told from the calm channel, in which no stand shows
  cases settles with
  | @answered message named =>
    obtain ⟨result, brings⟩ := Association.process_of_answered named
    refine ⟨outset.finish (outset.calm (heard ++ [message])).1 (.result result), ?_⟩
    intro stand desk link signals hold pending timeout
    obtain ⟨behind, settled⟩ := pending.answered brings
    exact settled.finishes timeout
  | closed reason =>
    refine ⟨outset.finish ((outset.calm heard).1.close reason).2 (.failed (.channelClosed reason)), ?_⟩
    intro stand desk link signals hold pending timeout
    obtain ⟨behind, settled⟩ := pending.closed reason
    exact settled.finishes timeout

end Outset

/-! ## Both modes -/

variable {before : Desk} {proxy : Proxy} {method : Method} {arguments : List Value}
  {receiver : ReceiverId} {endpoint : Endpoint} {link : Link}

theorem Desk.Remote.refused_alike
    (remote : before.Remote proxy method arguments receiver endpoint link)
    (unsent : ∃ e after, ∀ timeout mode, Site.startCall
      ⟨endpoint, before.client.journal, before.client.events⟩ timeout
        (.ofCall proxy.locator method arguments receiver) mode = (.ended (.failed e), after)) :
    ∃ e after, ∀ mode, before.act (.request (.call proxy method arguments mode)) =
      (some (.ended (.failed e)), after) := by
  obtain ⟨e, site, failed⟩ := unsent
  exact ⟨e, _, fun mode => remote.act_failed (failed _ mode)⟩

/-- The mode of a call does not change what it comes to. -/
theorem Course.completion_agrees {config : Config} {turns : List Turn}
    (course : Course config turns before)
    (remote : before.Remote proxy method arguments receiver endpoint link)
    (expected : method.returns ≠ .unit) :
    (∃ e after, ∀ mode, before.act (.request (.call proxy method arguments mode)) =
      (some (.ended (.failed e)), after)) ∨
    ∃ slot frame noted, link.association.table.register.1 = .ok slot ∧
      (∀ mode, ∃ behind,
        (before.act (.request (.call proxy method arguments mode))).2.client.link? receiver =
          some behind ∧ behind.outbound = link.outbound ++ [frame] ∧
        (before.act (.request (.call proxy method arguments mode))).2.client.journal = noted) ∧
      (∀ heard task desk message,
        before.Underway (fun mode => .request (.call proxy method arguments mode)) receiver slot.id
          heard (.awaits task) desk →
        calledId? message = some slot.id → answeredId? message = none →
        ∃ future, ((desk.act (.link receiver (.receive message))).2.act (.look task)).1 =
          some (.ended (.pending future)) ∧ future.slot = slot) ∧
      ∀ heard turn, turn.Settles slot.id → ∃ finish, ∀ stand desk timeout,
        before.Underway (fun mode => .request (.call proxy method arguments mode)) receiver slot.id
          heard stand desk →
        (desk.act (.link receiver turn)).2.Finishes (stand.finish timeout) receiver slot
          (link.outbound ++ [frame]) finish := by
  rcases Site.startCall_cases remote.on (.ofCall proxy.locator method arguments receiver) with
    ⟨seen, noted, id, frame, sends⟩ | unsent
  · refine .inr ⟨(link.association.table.enter id).1, frame, noted, ?_, ?_, ?_, ?_⟩
    · rw [sends.posts.registered]
    · intro mode
      obtain ⟨table, behind, journal⟩ := remote.link_act sends mode
      exact ⟨_, behind, rfl, journal⟩
    · intro heard task desk message run signal unanswered
      obtain ⟨behind, signals, hold, pending⟩ := run.pending course.ordered remote sends expected
      obtain ⟨after, told⟩ := pending.notified signal unanswered
      exact ⟨_, told.lets_go signals.size_raise_pos expected, rfl⟩
    · intro heard turn settles
      obtain ⟨finish, comes⟩ := Outset.exists_finish (before.outset proxy method arguments receiver
        endpoint link seen noted id frame) heard settles
      refine ⟨finish, fun stand desk timeout run => ?_⟩
      obtain ⟨behind, signals, hold, pending⟩ := run.pending course.ordered remote sends expected
      exact comes stand desk behind signals hold pending timeout
  · exact .inl (remote.refused_alike unsent)

/-! ## One sum in three ways -/

namespace OneSum

def told : Desk := ((opened.after.act (call .sync)).2.act (.link ⟨1⟩ (.receive [0x0e, 0, 1]))).2

def released : Desk := (told.act (.look 0)).2

def left : Desk := (opened.after.act (call .async)).2

/-- Whether the caller was told to proceed or has gone already or was never there, it gets the sum. -/
theorem agrees_on_sum : ∃ queue finish, finish.result = .ok (.int 3) ∧
    (told.act (.link ⟨1⟩ (.receive (answer 1 3)))).2.Finishes (.look 0) ⟨1⟩ ⟨1, 0⟩ queue finish ∧
    (released.act (.link ⟨1⟩ (.receive (answer 1 3)))).2.Finishes (.claim 0 5) ⟨1⟩ ⟨1, 0⟩ queue
      finish ∧
    (left.act (.link ⟨1⟩ (.receive (answer 1 3)))).2.Finishes (.claim 0 5) ⟨1⟩ ⟨1, 0⟩ queue
      finish := by
  have begins : (opened.after.act (call .sync)).1 = some (.waits 0) := rfl
  have signal : calledId? [0x0e, 0, 1] = some 1 := rfl
  have unanswered : answeredId? [0x0e, 0, 1] = none := rfl
  have sum : ((told.act (.link ⟨1⟩ (.receive (answer 1 3)))).2.act (.look 0)).1 =
      some (.ended (.value (.int 3))) := rfl
  rcases opens.completion_agrees remote nofun with
    ⟨e, after, refused⟩ | ⟨slot, frame, noted, registered, -, lets, comes⟩
  · have same := congrArg Prod.fst (refused .sync)
    rw [show (opened.after.act (.request (.call sums add [.int 1, .int 2] .sync))).1 =
      some (.waits 0) from begins] at same
    cases same
  · obtain rfl : (⟨1, 0⟩ : Slot) = slot := Except.ok.inj registered
    obtain ⟨finish, agrees⟩ := comes [] (.receive (answer 1 3)) (.answered rfl)
    obtain ⟨future, lets, -⟩ := lets [] 0 _ [0x0e, 0, 1] (.waits begins) signal unanswered
    have ended := agrees (.awaits 0) told 0 (.signalled (.waits begins) signal unanswered)
    have gone := agrees (.holds 0) released 5
      (.proceeds (.signalled (.waits begins) signal unanswered) lets)
    have never := agrees (.holds 0) left 5 (.leaves rfl)
    refine ⟨_, finish, ?_, ended, gone, never⟩
    obtain ⟨outcome, link, came, result, -⟩ := ended
    obtain rfl := TakenUp.ended.inj (Option.some.inj (sum.symm.trans came))
    exact (Option.some.inj result).symm

end OneSum

end Farcall
