import Farcall.Proofs.Client.Calls
import Farcall.Proofs.Client.Ending
import Farcall.Proofs.Client.Provenance
import Farcall.Proofs.Client.Touches

set_option autoImplicit false

/-!
# Callers that wait

A task stays until it is looked at or aborted, and time only goes forward. So a caller that waits for
its reply goes on waiting while there is time, whatever else is done at its client, as long as no
message is about its call and its channel stands.
-/

namespace Farcall

/-! ## Tasks -/

namespace Desk

variable {desk : Desk} {move : Move} {task : Task}

theorem mem_tasks_takeUp {started : Start × Client} (held : List Future)
    (mem : task ∈ started.2.tasks) : task ∈ (takeUp held started).2.client.tasks := by
  obtain ⟨start, client⟩ := started
  cases start with
  | ended outcome => exact mem
  | running work timeout =>
    have kept : (client.look work (client.now + timeout)).2.tasks = client.tasks :=
      (client.look_at work _).tasks
    rcases client.takeUp_running work timeout with ⟨outcome, -, taken⟩ | ⟨-, taken⟩
    · rw [takeUp, taken, keep, kept]
      exact mem
    · rw [takeUp, taken, keep]
      refine List.mem_append_left _ ?_
      rw [kept]
      exact mem

theorem mem_tasks_look (number : Nat) (mem : task ∈ desk.client.tasks)
    (other : task.number ≠ number) : task ∈ (desk.look number).2.client.tasks := by
  cases found : desk.client.tasks.find? (·.number = number) with
  | none =>
    rw [look_of_gone found]
    exact mem
  | some own =>
    have kept : (desk.client.look own.work own.deadline).2.tasks = desk.client.tasks :=
      (desk.client.look_at own.work _).tasks
    cases given : desk.client.look own.work own.deadline with
    | mk result after =>
      rw [given] at kept
      cases result with
      | none =>
        rw [look_of_waits found given, kept]
        exact mem
      | some outcome =>
        rw [look_of_ended found given]
        refine List.mem_filter.mpr ⟨?_, by simpa using other⟩
        rw [kept]
        exact mem

theorem mem_tasks_abort (number : Nat) (mem : task ∈ desk.client.tasks)
    (other : task.number ≠ number) : task ∈ (desk.client.abort number).tasks := by
  unfold Client.abort
  split
  · exact mem
  · next own found =>
    have kept := (Client.stop_at (desk.client.withoutTask number) own.work).tasks
    change task ∈ ((desk.client.withoutTask number).stop own.work).tasks
    rw [kept]
    exact List.mem_filter.mpr ⟨mem, by simpa using other⟩

theorem onHeld_keeps (P : Desk → Prop) (place : Nat) {f : Future → Option TakenUp × Desk}
    (was : P desk) (spec : ∀ future, desk.held[place]? = some future → P (f future).2) :
    P (desk.onHeld place f).2 := by
  unfold onHeld
  split
  · exact was
  · next future found => exact spec future found

theorem mem_tasks_act (mem : task ∈ desk.client.tasks)
    (spared : move ≠ .look task.number ∧ move ≠ .abort task.number) :
    task ∈ (desk.act move).2.client.tasks := by
  cases move with
  | request request =>
    refine mem_tasks_takeUp desk.held ?_
    rw [(desk.client.asked_start request).tasks]
    exact mem
  | claim place timeout =>
    refine onHeld_keeps (fun desk => task ∈ desk.client.tasks) place mem fun future _ => ?_
    refine mem_tasks_takeUp _ ?_
    rw [(desk.client.claim_at future timeout).tasks]
    exact mem
  | look number =>
    refine mem_tasks_look number mem ?_
    rintro rfl
    exact spared.1 rfl
  | abort number =>
    refine mem_tasks_abort number mem ?_
    rintro rfl
    exact spared.2 rfl
  | cancel place =>
    refine onHeld_keeps (fun desk => task ∈ desk.client.tasks) place mem fun future _ => ?_
    rw [(desk.client.cancel_at future).tasks]
    exact mem
  | drop place =>
    refine onHeld_keeps (fun desk => task ∈ desk.client.tasks) place mem fun future _ => ?_
    rw [(desk.client.drop_at future).tasks]
    exact mem
  | link receiver turn =>
    rcases desk.client.onLink_cases receiver fun link registry => turn.apply link registry with
      ⟨-, same⟩ | ⟨link, -, at_receiver, -⟩
    · rw [act, same]
      exact mem
    · rw [act, at_receiver.tasks]
      exact mem
  | join endpoint =>
    obtain ⟨joined, put, -⟩ := desk.client.joined_join endpoint
    rw [act, put.tasks]
    exact mem
  | elsewhere receiver endpoint => exact mem
  | leave receiver => exact mem
  | announce registry => exact mem
  | advance span => exact mem

end Desk

/-! ## Time -/

namespace Client

variable {client : Client} {receiver : ReceiverId}

theorem now_visit {α : Type} (client : Client) (receiver : ReceiverId) (dflt : α)
    (act : Site → α × Site) : (client.visit receiver dflt act).2.now = client.now := by
  cases there : client.endpoint? receiver with
  | none => rw [visit_of_absent there]
  | some endpoint =>
    rw [visit_of_there there]
    rfl

theorem now_startAt (client : Client) (module : ModuleId)
    (start : ReceiverId → Site → Start × Site) :
    (client.startAt module start).2.now = client.now := by
  unfold startAt
  split
  · rfl
  · exact now_visit ..

theorem now_start (client : Client) (request : Request) :
    (request.start client).2.now = client.now := by
  cases request with
  | call proxy method arguments mode =>
    change (client.dispatch proxy method arguments mode).2.now = client.now
    unfold dispatch
    split
    · rfl
    · exact now_startAt ..
  | callAlone proxy method arguments => rfl
  | session module bean view => exact now_startAt ..
  | step receiver step onePhase transaction => exact now_visit ..

theorem now_abort (client : Client) (number : Nat) : (client.abort number).now = client.now := by
  unfold abort
  split
  · rfl
  · exact now_visit ..

theorem now_onLink (client : Client) (receiver : ReceiverId) (f : Link → Registry → Link.Pumped) :
    (client.onLink receiver f).now = client.now := by
  unfold onLink
  split
  · rfl
  · split <;> rfl

theorem now_join (client : Client) (endpoint : Endpoint) :
    (client.join endpoint).2.now = client.now := by
  simp only [join, associate]
  split <;> rfl

end Client

namespace Desk

variable {desk : Desk}

theorem now_takeUp (held : List Future) (started : Start × Client) :
    (takeUp held started).2.client.now = started.2.now := by
  obtain ⟨start, client⟩ := started
  cases start with
  | ended outcome => rfl
  | running work timeout =>
    have kept : (client.look work (client.now + timeout)).2.now = client.now := Client.now_visit ..
    rcases client.takeUp_running work timeout with ⟨outcome, -, taken⟩ | ⟨-, taken⟩
    · rw [takeUp, taken, keep, kept]
    · rw [takeUp, taken, keep]
      exact kept

theorem now_look (desk : Desk) (number : Nat) : (desk.look number).2.client.now = desk.client.now := by
  unfold Desk.look
  split
  · rfl
  · next task found =>
    have kept : (desk.client.look task.work task.deadline).2.now = desk.client.now :=
      Client.now_visit ..
    split
    · next after given => rw [← kept, given]
    · next outcome after given => rw [← kept, given]; rfl

theorem now_act (desk : Desk) (move : Move) :
    desk.client.now ≤ (desk.act move).2.client.now := by
  cases move with
  | request request => exact Nat.le_of_eq ((now_takeUp ..).trans (desk.client.now_start request)).symm
  | claim place timeout =>
    refine onHeld_keeps (fun after => desk.client.now ≤ after.client.now) place (Nat.le_refl _) ?_
    intro future _
    exact Nat.le_of_eq ((now_takeUp ..).trans (Client.now_visit ..)).symm
  | look number => exact Nat.le_of_eq (desk.now_look number).symm
  | abort number => exact Nat.le_of_eq (desk.client.now_abort number).symm
  | cancel place =>
    refine onHeld_keeps (fun after => desk.client.now ≤ after.client.now) place (Nat.le_refl _) ?_
    exact fun future _ => Nat.le_of_eq (Client.now_visit ..).symm
  | drop place =>
    refine onHeld_keeps (fun after => desk.client.now ≤ after.client.now) place (Nat.le_refl _) ?_
    exact fun future _ => Nat.le_of_eq (Client.now_visit ..).symm
  | link receiver turn => exact Nat.le_of_eq (Client.now_onLink ..).symm
  | join endpoint => exact Nat.le_of_eq (Client.now_join ..).symm
  | elsewhere receiver endpoint => exact Nat.le_refl _
  | leave receiver => exact Nat.le_refl _
  | announce registry => exact Nat.le_refl _
  | advance span => exact Nat.le_add_right ..

end Desk

/-! ## Whoever waits -/

/-- A move brings no message about a call, and it does not close the channel. -/
def Move.Spares (receiver : ReceiverId) (id : UInt16) : Move → Prop
  | .link other (.receive message) => other = receiver → calledId? message ≠ some id
  | .link other (.close _) => other ≠ receiver
  | _ => True

namespace Desk

variable {desk : Desk} {move : Move} {receiver : ReceiverId} {link behind : Link} {task : Task}
  {slot : Slot} {signals : Signals} {hold : Hold}

theorem Ordered.worker_apart (ordered : desk.Ordered) {place : Place}
    (worker : desk.worker? move = some place)
    (linked : desk.client.link? place.receiver = some link) (mem : task ∈ desk.client.tasks)
    (here : task.work.receiver = place.receiver)
    (spared : move ≠ .look task.number ∧ move ≠ .abort task.number) :
    task.work.slot.generation ≠ place.slot.generation := by
  have among : ∀ rest, desk.places.Perm (place :: rest) → task.work.place ∈ rest →
      task.work.slot.generation ≠ place.slot.generation :=
    fun rest same mem => ((ordered.fit.perm same).fits _ link linked).apart mem here
  have other : ∀ (number : Nat) own, number ≠ task.number →
      desk.client.tasks.find? (·.number = number) = some own → own.work.place = place →
      task.work.slot.generation ≠ place.slot.generation := by
    rintro number own apart found rfl
    refine among _ (ordered.perm_found found) (List.mem_append_left _ (List.mem_map_of_mem ?_))
    exact List.mem_filter.mpr ⟨mem, by simpa using Ne.symm apart⟩
  have held : ∀ number : Nat, desk.held[number]?.map Future.place = some place →
      task.work.slot.generation ≠ place.slot.generation := by
    intro number worker
    obtain ⟨future, found, rfl⟩ := Option.map_eq_some_iff.mp worker
    exact among _ (perm_held found) (List.mem_append_left _ (List.mem_map_of_mem mem))
  cases move with
  | look number =>
    obtain ⟨own, found, same⟩ := Option.map_eq_some_iff.mp worker
    exact other number own (fun same => spared.1 (same ▸ rfl)) found same
  | abort number =>
    obtain ⟨own, found, same⟩ := Option.map_eq_some_iff.mp worker
    exact other number own (fun same => spared.2 (same ▸ rfl)) found same
  | claim number timeout => exact held number worker
  | drop number => exact held number worker
  | _ => cases worker

/-- A call that nothing has arrived for is left alone by all moves that are not about it. -/
theorem Touches.pends (touches : desk.Touches receiver link move behind)
    (sound : link.association.table.Sound)
    (pends : link.association.table.Pends slot signals hold)
    (apart : ∀ place, desk.worker? move = some place → place.receiver = receiver →
      slot.generation ≠ place.slot.generation)
    (spares : move.Spares receiver slot.id) (allowed : desk.Allowed move)
    (linked : desk.client.link? receiver = some link) :
    behind.association.table.Pends slot signals hold := by
  have entered : ∀ {id : UInt16} {table : Table LazyResult},
      link.association.table.register.1 = .ok (link.association.table.enter id).1 →
      Table.Works (link.association.table.enter id).1 (link.association.table.enter id).2 table →
      table.Pends slot signals hold := by
    intro id table registered works
    -- another call takes an id of its own, so it is not the box of this one that it fills
    have new : slot.generation ≠ link.association.table.nextGeneration :=
      Nat.ne_of_lt (sound.fresh _ _ pends.entry)
    exact (pends.within (Table.within_enter (Table.register_of_ok registered).2) new).within
      works.within new
  cases touches with
  | same => exact pends
  | worked worker here works => exact pends.within works.within (apart _ worker here)
  | withdrawn registered works gone => exact entered registered works
  | sent registered works isOpen => exact entered registered works
  | told => exact pends
  | @turned turn =>
    cases turn with
    | receive message =>
      exact Association.pends_process sound.toCoupled pends _ (spares rfl)
    | close reason => exact absurd rfl spares
    | carry carried =>
      have same : carried.association = link.association := (allowed link linked).1
      rw [LinkTurn.apply, same]
      exact pends

structure Awaits (desk : Desk) (task : Task) (call : Future) (link : Link) : Prop where
  mem : task ∈ desk.client.tasks
  work : task.work = .reply call
  linked : desk.client.link? call.receiver = some link
  pends : link.association.table.Pends call.slot .awaited .slot

variable {call : Future}

theorem Ordered.awaits_look (ordered : desk.Ordered) (awaits : desk.Awaits task call link)
    (time : desk.client.now < task.deadline) :
    (desk.act (.look task.number)).1 = some (.waits task.number) ∧
      ∃ behind, (desk.act (.look task.number)).2.Awaits task call behind := by
  obtain ⟨mem, work, linked, pends⟩ := awaits
  have looked := Client.look_of_pends call linked pends rfl task.deadline
  rw [← work] at looked
  rcases looked with ⟨-, waits, left⟩ | ⟨late, -, -⟩
  · have given := look_of_waits (ordered.find_of_mem mem) (Prod.ext waits rfl)
    rw [act, given]
    exact ⟨rfl, _, by rw [left.tasks]; exact mem, work, left.link, pends.resignal .attend⟩
  · exact absurd time (Nat.not_lt_of_le late)

theorem Ordered.awaits_act (ordered : desk.Ordered) (allowed : desk.Allowed move)
    (awaits : desk.Awaits task call link) (spares : move.Spares call.receiver call.slot.id)
    (lasts : move ≠ .abort task.number) (time : desk.client.now < task.deadline) :
    ∃ behind, (desk.act move).2.Awaits task call behind := by
  by_cases looks : move = .look task.number
  · rw [looks]
    exact (ordered.awaits_look awaits time).2
  · obtain ⟨mem, work, linked, pends⟩ := awaits
    obtain ⟨behind, found, touches⟩ := ordered.touches allowed linked
    have sound := (ordered.fit.fits _ link linked).sound
    refine ⟨behind, mem_tasks_act mem ⟨looks, lasts⟩, work, found, ?_⟩
    refine touches.pends sound pends ?_ spares allowed linked
    intro place worker here
    have apart := ordered.worker_apart worker (here ▸ linked) mem (by rw [work, here]; rfl)
      ⟨looks, lasts⟩
    rwa [work] at apart

end Desk

namespace Course

variable {config : Config} {first between : List Turn} {desk : Desk} {asked : Turn} {task : Task}
  {call : Future} {link : Link}

/-- Before its time is over a caller waits, whatever else goes on. -/
theorem awaits (course : Course config (first ++ asked :: between) desk)
    (begun : asked.after.Awaits task call link)
    (spares : ∀ turn ∈ between, turn.move.Spares call.receiver call.slot.id ∧
      turn.move ≠ .abort task.number)
    (time : desk.client.now < task.deadline) : ∃ behind, desk.Awaits task call behind := by
  -- what is early enough in the end was so at every turn before
  refine course.keeps (fun _ => ⟨link, begun⟩) ?_ time
  intro later mem ordered allowed awaits time
  have earlier := Nat.lt_of_le_of_lt (later.before.now_act later.move) time
  obtain ⟨middle, awaits⟩ := awaits earlier
  obtain ⟨spared, lasts⟩ := spares later mem
  exact ordered.awaits_act allowed awaits spared lasts earlier

theorem mem_tasks (course : Course config (first ++ asked :: between) desk)
    (mem : task ∈ asked.after.client.tasks)
    (spared : ∀ turn ∈ between, turn.move ≠ .look task.number ∧ turn.move ≠ .abort task.number) :
    task ∈ desk.client.tasks :=
  course.keeps mem fun later mem _ _ there => Desk.mem_tasks_act there (spared later mem)

end Course

end Farcall
