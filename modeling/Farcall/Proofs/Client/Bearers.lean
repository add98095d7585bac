import Farcall.Proofs.Client.Awaiting
import Farcall.Proofs.Client.Touches
import Farcall.Proofs.Client.Underway

set_option autoImplicit false

/-!
# Who has a call

A call that somebody waits for or holds was sent by a request, and nothing about it changes from then
on but that its result was read. A request sends its call under a registration that is new. So whoever
has the slot of a call has that very call.
-/

namespace Farcall

theorem Future.of_ready {call future : Future} (same : future.ready = call.ready) :
    future.receiver = call.receiver ∧ future.slot = call.slot :=
  ⟨(Future.mk.inj same).1, (Future.mk.inj same).2.1⟩

namespace Start

def call? : Start → Option Future
  | ended outcome => outcome.future?
  | running work _ => work.call?

end Start

namespace Desk

def calls (desk : Desk) : List Future :=
  desk.client.tasks.filterMap (·.work.call?) ++ desk.held

end Desk

/-! ## What a look leaves of a call -/

namespace Site

variable {site : Site} {future : Future} {outcome : Outcome} {late : Bool}

theorem future_detach {call : Future} (given : (site.detach call).1.future? = some future) :
    future = call := by
  unfold detach at given
  split at given
  · cases given
  · exact (Option.some.inj given).symm
  · exact (Option.some.inj given).symm

theorem future_lookForReply {call : Future} (ended : (site.lookForReply call late).1 = some outcome)
    (given : outcome.future? = some future) : future = call := by
  unfold lookForReply at ended
  split at ended
  · rw [← Option.some.inj ended, Outcome.future_ofResult] at given
    cases given
  · rw [← Option.some.inj ended] at given
    exact future_detach given
  · rw [← Option.some.inj ended] at given
    cases given
  · split at ended
    · rw [← Option.some.inj ended] at given
      cases given
    · cases ended

theorem future_lookForClaim {call : Future} (ended : (site.lookForClaim call late).1 = some outcome)
    (given : outcome.future? = some future) : future = call ∨ future = call.ready := by
  unfold lookForClaim at ended
  split at ended
  · cases ended
  · rw [← Option.some.inj ended] at given
    exact .inl (Option.some.inj given).symm
  · rw [← Option.some.inj ended] at given
    exact .inr (Option.some.inj given).symm

theorem future_look {work : Work} (ended : (site.look work late).1 = some outcome)
    (given : outcome.future? = some future) :
    ∃ call, work.call? = some call ∧ future.ready = call.ready := by
  cases work with
  | reply call => exact ⟨call, rfl, congrArg Future.ready (future_lookForReply ended given)⟩
  | claiming call =>
    rcases future_lookForClaim ended given with rfl | rfl
    · exact ⟨_, rfl, rfl⟩
    · exact ⟨call, rfl, rfl⟩
  | opening receiver slot module bean view =>
    obtain ⟨result, -, rfl⟩ := Option.map_eq_some_iff.mp ended
    rw [Outcome.future_ofSession] at given
    cases given
  | stepping receiver slot step =>
    obtain ⟨result, -, rfl⟩ := Option.map_eq_some_iff.mp ended
    rw [Outcome.future_ofStep] at given
    cases given

end Site

namespace Client

variable {client : Client} {future : Future}

theorem future_look {work : Work} {deadline : Nat} {outcome : Outcome}
    (ended : (client.look work deadline).1 = some outcome) (given : outcome.future? = some future) :
    ∃ call, work.call? = some call ∧ future.ready = call.ready := by
  unfold look at ended
  cases there : client.endpoint? work.receiver with
  | none =>
    rw [visit_of_absent there] at ended
    cases ended
  | some endpoint =>
    rw [visit_of_there there] at ended
    exact Site.future_look ended given

theorem call_claim {call : Future} {timeout : Nat}
    (goesOn : (client.claim call timeout).1.call? = some future) : future = call := by
  unfold claim at goesOn
  cases there : client.endpoint? call.receiver with
  | none =>
    rw [visit_of_absent there] at goesOn
    cases goesOn
  | some endpoint =>
    rw [visit_of_there there] at goesOn
    unfold Site.startClaim at goesOn
    split at goesOn
    · exact (Option.some.inj goesOn).symm
    · exact (Option.some.inj goesOn).symm

theorem Asked.call_new {started : Start × Client} {link : Link} (asked : Asked client started)
    (goesOn : started.1.call? = some future) (linked : client.link? future.receiver = some link)
    (sound : link.association.table.Sound) :
    future.slot.generation = link.association.table.nextGeneration := by
  cases asked with
  | nowhere nobody stops => cases nobody.symm.trans goesOn
  | @somewhere receiver _ at_receiver there of begun =>
    obtain ⟨start, after⟩ := started
    have here : future.receiver = receiver := by
      cases start with
      | ended outcome => exact of future goesOn
      | running work timeout => exact (Work.receiver_of_call goesOn).symm.trans of
    rw [here] at linked
    obtain ⟨behind, -, began⟩ := begun link linked sound
    cases began with
    | refused fails => cases fails.nobody.symm.trans goesOn
    | withdrawn registered works gone fails => cases fails.nobody.symm.trans goesOn
    | left registered works goes leaves =>
      obtain ⟨-, own, -⟩ := leaves.held future goesOn
      exact congrArg Slot.generation own
    | running registered works at_receiver own =>
      exact congrArg Slot.generation ((Work.slot_of_call goesOn).symm.trans own)

end Client

/-! ## What a move leaves of the calls -/

namespace Desk

variable {desk : Desk} {client : Client} {held : List Future} {future : Future} {move : Move}

/-- The call is one of those, but that its result may have been read. -/
def Has (desk : Desk) (future : Future) : Prop :=
  ∃ call ∈ desk.calls, future.ready = call.ready

theorem mem_calls : future ∈ desk.calls ↔
    (∃ task ∈ desk.client.tasks, task.work.call? = some future) ∨ future ∈ desk.held := by
  rw [calls, List.mem_append, List.mem_filterMap]

theorem has_of_mem (mem : future ∈ desk.calls) : desk.Has future := ⟨future, mem, rfl⟩

theorem has_of_fewer {after : Desk} (mem : future ∈ after.calls)
    (tasks : after.client.tasks ⊆ desk.client.tasks) (held : after.held ⊆ desk.held) :
    desk.Has future := by
  refine has_of_mem (mem_calls.mpr ?_)
  rcases mem_calls.mp mem with ⟨task, mem, of⟩ | mem
  · exact .inl ⟨task, tasks mem, of⟩
  · exact .inr (held mem)

theorem has_of_same {after : Desk} (mem : future ∈ after.calls)
    (tasks : after.client.tasks = desk.client.tasks) (held : after.held ⊆ desk.held) :
    desk.Has future :=
  has_of_fewer mem (by rw [tasks]; exact List.Subset.refl _) held

theorem calls_takeUp {started : Start × Client} (mem : future ∈ (takeUp held started).2.calls) :
    future ∈ calls ⟨started.2, held⟩ ∨
      ∃ call, started.1.call? = some call ∧ future.ready = call.ready := by
  obtain ⟨start, client⟩ := started
  cases start with
  | ended outcome =>
    rcases mem_calls.mp mem with there | mem
    · exact .inl (mem_calls.mpr (.inl there))
    · rcases List.mem_append.mp mem with mem | mem
      · exact .inl (mem_calls.mpr (.inr mem))
      · exact .inr ⟨future, Option.mem_toList.mp mem, rfl⟩
  | running work timeout =>
    have same : (client.look work (client.now + timeout)).2.tasks = client.tasks :=
      (client.look_at work _).tasks
    rcases client.takeUp_running work timeout with ⟨outcome, ended, taken⟩ | ⟨-, taken⟩
    · rw [takeUp, taken, keep] at mem
      rcases mem_calls.mp mem with there | mem
      · exact .inl (mem_calls.mpr (.inl (same ▸ there)))
      · rcases List.mem_append.mp mem with mem | mem
        · exact .inl (mem_calls.mpr (.inr mem))
        · exact .inr (Client.future_look ended (Option.mem_toList.mp mem))
    · rw [takeUp, taken, keep, TakenUp.future?, Option.toList_none, List.append_nil] at mem
      rcases mem_calls.mp mem with ⟨task, mem, of⟩ | mem
      · rcases List.mem_append.mp mem with mem | mem
        · exact .inl (mem_calls.mpr (.inl ⟨task, same ▸ mem, of⟩))
        · rw [List.mem_singleton.mp mem] at of
          exact .inr ⟨future, of, rfl⟩
      · exact .inl (mem_calls.mpr (.inr mem))

theorem has_look {number : Nat} (mem : future ∈ (desk.look number).2.calls) : desk.Has future := by
  cases found : desk.client.tasks.find? (·.number = number) with
  | none =>
    rw [look_of_gone found] at mem
    exact has_of_mem mem
  | some task =>
    have same := (desk.client.look_at task.work task.deadline).tasks
    cases looked : desk.client.look task.work task.deadline with
    | mk result after =>
      rw [looked] at same
      cases result with
      | none =>
        rw [look_of_waits found looked] at mem
        exact has_of_same mem same (List.Subset.refl _)
      | some outcome =>
        rw [look_of_ended found looked] at mem
        rcases mem_calls.mp mem with ⟨own, mem, of⟩ | mem
        · have old : own ∈ after.tasks := (List.mem_filter.mp mem).1
          exact has_of_mem (mem_calls.mpr (.inl ⟨own, same ▸ old, of⟩))
        · rcases List.mem_append.mp mem with mem | mem
          · exact has_of_mem (mem_calls.mpr (.inr mem))
          · have ended : (desk.client.look task.work task.deadline).1 = some outcome := by rw [looked]
            obtain ⟨call, of, same⟩ := Client.future_look ended (Option.mem_toList.mp mem)
            exact ⟨call, mem_calls.mpr (.inl ⟨task, List.mem_of_find?_eq_some found, of⟩), same⟩

theorem has_onHeld (place : Nat) {f : Future → Option TakenUp × Desk}
    (mem : future ∈ (desk.onHeld place f).2.calls)
    (spec : ∀ call, desk.held[place]? = some call → future ∈ (f call).2.calls → desk.Has future) :
    desk.Has future := by
  unfold onHeld at mem
  split at mem
  · exact has_of_mem mem
  · next call found => exact spec call found mem

theorem has_abort {number : Nat} (mem : future ∈ (desk.act (.abort number)).2.calls) :
    desk.Has future := by
  refine has_of_fewer mem ?_ (List.Subset.refl _)
  change (desk.client.abort number).tasks ⊆ _
  unfold Client.abort
  split
  · exact List.Subset.refl _
  · next task found =>
    have same := (Client.stop_at (desk.client.withoutTask number) task.work).tasks
    change ((desk.client.withoutTask number).stop task.work).tasks ⊆ _
    rw [same]
    exact List.filter_subset_self _

theorem has_claim {place timeout : Nat} (mem : future ∈ (desk.act (.claim place timeout)).2.calls) :
    desk.Has future := by
  refine has_onHeld place mem fun call found mem => ?_
  rcases calls_takeUp mem with mem | ⟨own, goesOn, same⟩
  · exact has_of_same mem (desk.client.claim_at call timeout).tasks List.eraseIdx_subset
  · obtain rfl := Client.call_claim goesOn
    exact ⟨own, mem_calls.mpr (.inr (List.mem_of_getElem? found)), same⟩

/-- A call that somebody has behind a move was there before, or it is the one that the move asked
for, under a registration that is new. -/
theorem Ordered.calls_act (ordered : desk.Ordered) (mem : future ∈ (desk.act move).2.calls) :
    desk.Has future ∨ ∀ link, desk.client.link? future.receiver = some link →
      future.slot.generation = link.association.table.nextGeneration := by
  cases move with
  | request request =>
    have asked := desk.client.asked_start request
    rcases calls_takeUp mem with mem | ⟨call, goesOn, same⟩
    · exact .inl (has_of_same mem asked.tasks (List.Subset.refl _))
    · refine .inr fun link linked => ?_
      obtain ⟨here, slot⟩ := Future.of_ready same
      rw [here] at linked
      rw [slot]
      exact asked.call_new goesOn linked (ordered.fit.fits _ link linked).sound
  | claim place timeout => exact .inl (has_claim mem)
  | look number => exact .inl (has_look mem)
  | abort number => exact .inl (has_abort mem)
  | cancel place =>
    refine .inl (has_onHeld place mem fun call found mem => ?_)
    exact has_of_same mem (desk.client.cancel_at call).tasks (List.Subset.refl _)
  | drop place =>
    refine .inl (has_onHeld place mem fun call found mem => ?_)
    exact has_of_same mem (desk.client.drop_at call).tasks List.eraseIdx_subset
  | link receiver turn =>
    refine .inl (has_of_same mem ?_ (List.Subset.refl _))
    rcases desk.client.onLink_cases receiver fun link registry => turn.apply link registry with
      ⟨-, same⟩ | ⟨link, -, at_receiver, -⟩
    · exact congrArg Client.tasks same
    · exact at_receiver.tasks
  | join endpoint =>
    obtain ⟨joined, put, -⟩ := desk.client.joined_join endpoint
    exact .inl (has_of_same mem put.tasks (List.Subset.refl _))
  | elsewhere receiver endpoint => exact .inl (has_of_mem mem)
  | leave receiver => exact .inl (has_of_mem mem)
  | announce registry => exact .inl (has_of_mem mem)
  | advance span => exact .inl (has_of_mem mem)

theorem Ordered.call_old (ordered : desk.Ordered) (mem : future ∈ desk.calls) {link : Link}
    (linked : desk.client.link? future.receiver = some link) :
    future.slot.generation < link.association.table.nextGeneration := by
  have fits := ordered.fit.fits _ link linked
  have old : ∀ place ∈ desk.places, place.receiver = future.receiver →
      place.slot.generation < link.association.table.nextGeneration :=
    fun place mem here => fits.sound.generation_lt (fits.stands place mem here).hasSlot
  rcases mem_calls.mp mem with ⟨task, mem, of⟩ | mem
  · rw [← Work.slot_of_call of]
    exact old task.work.place (List.mem_append_left _ (List.mem_map.mpr ⟨task, mem, rfl⟩))
      (Work.receiver_of_call of)
  · exact old future.place (List.mem_append_right _ (List.mem_map_of_mem mem)) rfl

/-! ## One call over a course -/

/-- The call was registered, and whoever has its slot has it. -/
structure Bears (desk : Desk) (call : Future) : Prop where
  calls : ∀ future ∈ desk.calls, future.receiver = call.receiver → future.slot = call.slot →
    future.ready = call.ready
  known : ∃ link, desk.client.link? call.receiver = some link ∧
    call.slot.generation < link.association.table.nextGeneration

theorem Ordered.bears_act (ordered : desk.Ordered) (allowed : desk.Allowed move) {call : Future}
    (bears : desk.Bears call) : (desk.act move).2.Bears call := by
  obtain ⟨calls, link, linked, old⟩ := bears
  refine ⟨fun future mem here own => ?_, ?_⟩
  · rcases ordered.calls_act mem with ⟨earlier, mem, same⟩ | fresh
    · obtain ⟨receiver, slot⟩ := Future.of_ready same
      exact same.trans (calls earlier mem (receiver.symm.trans here) (slot.symm.trans own))
    · rw [here, own] at fresh
      exact absurd (fresh link linked) (Nat.ne_of_lt old)
  · obtain ⟨behind, left, stretch⟩ := (ordered.follows_act allowed).grows.leads _ link linked
    exact ⟨behind, left, Nat.lt_of_lt_of_le old stretch.elder.next_le⟩

namespace Remote

variable {proxy : Proxy} {method : Method} {arguments : List Value} {receiver : ReceiverId}
  {endpoint : Endpoint} {link : Link} {seen : Invocation} {noted : Journal} {id : UInt16}
  {frame : Bytes}

variable (remote : desk.Remote proxy method arguments receiver endpoint link)
  (sends : endpoint.Sends link (.ofCall proxy.locator method arguments receiver)
    desk.client.journal seen noted id frame)

include remote sends

theorem calls_act (mode : Mode)
    (mem : future ∈ (desk.act (.request (.call proxy method arguments mode))).2.calls) :
    future ∈ desk.calls ∨ future.ready = (endpoint.calling link desk.client.config.invocationTimeout
      (.ofCall proxy.locator method arguments receiver) seen id).ready := by
  have asked : desk.client.Asked (desk.client.dispatch proxy method arguments mode) :=
    desk.client.asked_start (.call proxy method arguments mode)
  have started := Site.startCall_of_sends remote.on sends desk.client.config.invocationTimeout mode
  have begun : (desk.client.dispatch proxy method arguments mode).1 = (Site.startCall
      ⟨endpoint, desk.client.journal, desk.client.events⟩ desk.client.config.invocationTimeout
      (.ofCall proxy.locator method arguments receiver) mode).1 := by
    rw [Client.dispatch_of_remote remote.unanswered remote.resolved,
      Client.visit_of_there remote.there]
  rw [started] at begun
  rw [act_call] at mem
  rcases calls_takeUp mem with mem | ⟨call, goesOn, same⟩
  · rcases mem_calls.mp mem with there | held
    · exact .inl (mem_calls.mpr (.inl (asked.tasks ▸ there)))
    · exact .inl (mem_calls.mpr (.inr held))
  · rw [begun] at goesOn
    refine .inr ?_
    cases mode with
    | sync =>
      obtain rfl := Option.some.inj goesOn
      exact same
    | async => rw [same, Site.future_detach goesOn]

theorem registers (ordered : desk.Ordered) (mode : Mode) : ∃ behind,
    (desk.act (.request (.call proxy method arguments mode))).2.client.link? receiver = some behind ∧
      behind.association.table.nextGeneration = link.association.table.nextGeneration + 1 := by
  obtain ⟨table, linked, -⟩ := remote.link_act sends mode
  obtain ⟨behind, left, touches⟩ := ordered.touches
    (show desk.Allowed (.request (.call proxy method arguments mode)) from trivial)
    remote.link_of_remote
  refine ⟨behind, left, ?_⟩
  have queued : behind.outbound = link.outbound ++ [frame] := by
    rw [← Option.some.inj (linked.symm.trans left)]
    rfl
  -- a message joined the queue, so the request registered and was sent
  cases touches with
  | same => simp at queued
  | worked worker here works => cases worker
  | withdrawn registered works gone => simp [Link.withTable] at queued
  | sent registered works isOpen => exact works.next

end Remote

end Desk

/-- From its request on whoever has the slot of a call that was sent has that call. -/
theorem Course.bears {config : Config} {first between : List Turn} {desk : Desk} {asked : Turn}
    {call : Future} (course : Course config (first ++ asked :: between) desk)
    (begun : asked.after.Bears call) : desk.Bears call := by
  refine course.keeps begun ?_
  exact fun later _ ordered allowed bears => ordered.bears_act allowed bears

end Farcall
