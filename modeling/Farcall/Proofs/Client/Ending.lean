import Farcall.Proofs.Client.Invariant
import Farcall.Proofs.Correlation.Arrivals

set_option autoImplicit false

/-!
# How work ends

Once something has arrived for a slot, the next look at the work that waits on it ends the work, late
or not and whatever signal is pending, and what it ends with is a function of what arrived. The same
goes for a held call that is claimed.
-/

namespace Farcall

/-- What the caller of a call gets of what arrived for it: a result is decoded and passed through the
interceptors, a failure is not. -/
def Future.receive (future : Future) (journal : Journal) :
    Except InvocationError LazyResult → CallResult × Journal
  | .error e => (.error e, journal)
  | .ok result =>
    Interceptor.afterResult future.interceptors future.ready.invocation result.read.1 journal

def Future.behind (future : Future) : Except InvocationError LazyResult → Future
  | .error _ => future
  | .ok _ => future.ready

def CallResult.ofArrived (arrived : Except InvocationError LazyResult) : CallResult :=
  arrived.bind fun result => result.read.1

def Work.ending (journal : Journal) (arrived : Except InvocationError LazyResult) : Work → Outcome
  | reply call => .ofResult (call.receive journal arrived).1
  | opening _ _ module bean view => .ofSession module bean view (.ofArrived arrived)
  | stepping _ _ step => .ofStep (Site.stepOutcome step (.ofArrived arrived))
  | claiming future => .claimed (future.receive journal arrived).1 (future.behind arrived)

namespace Site

variable {site : Site} {slot : Slot} {d : Delivery LazyResult}

theorem lookForReply_of_arrived {call : Future} (arrived : site.table.arrival? call.slot = some d)
    (late : Bool) :
    (site.lookForReply call late).1 = some (.ofResult (call.receive site.journal d.toExcept).1) ∧
      (site.lookForReply call late).2.journal = (call.receive site.journal d.toExcept).2 := by
  rw [lookForReply, Table.claimOrProceed_of_arrived arrived]
  cases d with
  | result r => exact ⟨rfl, rfl⟩
  | failed e => exact ⟨rfl, rfl⟩

theorem lookForClaim_of_arrived {future : Future}
    (arrived : site.table.arrival? future.slot = some d) (late : Bool) :
    (site.lookForClaim future late).1 = some (.claimed (future.receive site.journal d.toExcept).1
        (future.behind d.toExcept)) ∧
      (site.lookForClaim future late).2.journal = (future.receive site.journal d.toExcept).2 := by
  simp only [lookForClaim, lookFor, Table.claim_of_arrived arrived]
  cases d with
  | result r => exact ⟨rfl, rfl⟩
  | failed e => exact ⟨rfl, rfl⟩

theorem lookOnce_of_arrived (arrived : site.table.arrival? slot = some d) (late : Bool) :
    (site.lookOnce slot late).1 = some (.ofArrived d.toExcept) := by
  simp only [lookOnce, lookFor, Table.claim_of_arrived arrived]
  cases d with
  | result r => rfl
  | failed e => rfl

/-- What arrived ends the work, before time or a signal can. -/
theorem look_of_arrived {work : Work} (arrived : site.table.arrival? work.slot = some d)
    (late : Bool) : (site.look work late).1 = some (work.ending site.journal d.toExcept) := by
  cases work with
  | reply call => exact (lookForReply_of_arrived arrived late).1
  | claiming future => exact (lookForClaim_of_arrived arrived late).1
  | opening receiver slot module bean view =>
    exact congrArg (Option.map _) (lookOnce_of_arrived arrived late)
  | stepping receiver slot step =>
    exact congrArg (Option.map _) (lookOnce_of_arrived arrived late)

end Site

namespace Client

variable {client : Client} {link : Link} {d : Delivery LazyResult}

theorem look_of_arrived {work : Work} (linked : client.link? work.receiver = some link)
    (arrived : link.association.table.arrival? work.slot = some d) (deadline : Nat) :
    (client.look work deadline).1 = some (work.ending client.journal d.toExcept) := by
  obtain ⟨site, on, noted, result, -⟩ := client.look_linked work deadline linked
  rw [result, ← noted]
  refine Site.look_of_arrived ?_ _
  rw [on.table_eq]
  exact arrived

theorem claim_of_held {future : Future} (linked : client.link? future.receiver = some link)
    (held : link.association.table.holder? future.slot = some .slot) (timeout : Nat) :
    (client.claim future timeout).1 = .running (.claiming future) timeout ∧
      client.Left future.receiver
        (link.withTable (link.association.table.setHold future.slot .wait)) client.journal
        (client.claim future timeout).2 := by
  obtain ⟨site, on, noted, result, left⟩ := visit_linked
    (.ended (.failed (.unknownReceiver future.receiver)))
    (fun site : Site => site.startClaim timeout future) linked
  have started : site.startClaim timeout future = (.running (.claiming future) timeout,
      site.withTable (link.association.table.setHold future.slot .wait)) := by
    rw [Site.startClaim, on.table_eq, (Table.beginWait_of_held held).1]
  rw [started] at result left
  rw [← noted]
  exact ⟨result, left _ (on.withTable _)⟩

end Client

namespace Desk

variable {desk : Desk} {link : Link} {d : Delivery LazyResult}

theorem Ordered.find_of_mem (ordered : desk.Ordered) {task : Task}
    (mem : task ∈ desk.client.tasks) :
    desk.client.tasks.find? (·.number = task.number) = some task := by
  cases found : desk.client.tasks.find? (·.number = task.number) with
  | none => simpa using List.find?_eq_none.mp found task mem
  | some other =>
    have own : other.number = task.number := by simpa using List.find?_some found
    rw [List.inj_on_of_nodup_map ordered.numbered.tasks (List.mem_of_find?_eq_some found) mem own]

theorem Ordered.act_look_of_arrived (ordered : desk.Ordered) {task : Task}
    (mem : task ∈ desk.client.tasks) (linked : desk.client.link? task.work.receiver = some link)
    (arrived : link.association.table.arrival? task.work.slot = some d) :
    (desk.act (.look task.number)).1 =
      some (.ended (task.work.ending desk.client.journal d.toExcept)) := by
  have ended := Client.look_of_arrived linked arrived task.deadline
  change (desk.look task.number).1 = _
  cases given : desk.client.look task.work task.deadline with
  | mk result after =>
    rw [given] at ended
    obtain rfl : result = some _ := ended
    rw [look_of_ended (ordered.find_of_mem mem) given]
    rfl

theorem act_claim_of_ended {place timeout : Nat} {future : Future} {outcome : Outcome}
    (found : desk.held[place]? = some future)
    (started : (desk.client.claim future timeout).1 = .running (.claiming future) timeout)
    (ended : ((desk.client.claim future timeout).2.look (.claiming future)
      ((desk.client.claim future timeout).2.now + timeout)).1 = some outcome) :
    desk.act (.claim place timeout) = keep (desk.held.eraseIdx place) (.ended outcome,
      ((desk.client.claim future timeout).2.look (.claiming future)
        ((desk.client.claim future timeout).2.now + timeout)).2) := by
  rw [act, onHeld, found]
  dsimp only
  rw [takeUp, started]
  rcases (desk.client.claim future timeout).2.takeUp_running (.claiming future) timeout with
    ⟨outcome', same, taken⟩ | ⟨nothing, -⟩
  · obtain rfl := Option.some.inj (ended.symm.trans same)
    rw [taken]
  · rw [nothing] at ended
    cases ended

theorem act_claim_of_arrived {place : Nat} {future : Future}
    (found : desk.held[place]? = some future)
    (linked : desk.client.link? future.receiver = some link)
    (held : link.association.table.holder? future.slot = some .slot)
    (arrived : link.association.table.arrival? future.slot = some d) (timeout : Nat) :
    (desk.act (.claim place timeout)).1 =
      some (.ended ((Work.claiming future).ending desk.client.journal d.toExcept)) := by
  obtain ⟨started, left⟩ := Client.claim_of_held linked held timeout
  have arrived' : (link.withTable
      (link.association.table.setHold future.slot .wait)).association.table.arrival?
        (Work.claiming future).slot = some d :=
    (Table.arrival_setHold link.association.table future.slot future.slot .wait).trans arrived
  have ended := Client.look_of_arrived left.link arrived'
    ((desk.client.claim future timeout).2.now + timeout)
  rw [act_claim_of_ended found started ended, left.journal]
  rfl

end Desk

end Farcall
