import Farcall.Proofs.Channel.Routes
import Farcall.Proofs.Client.Order
import Mathlib.Data.List.Induction
import Mathlib.Data.List.Nodup

set_option autoImplicit false

/-!
# What stands behind every course

Behind every turn the tables of all links fit the places of a desk: its tasks and the calls that are
held. Tasks and receivers have numbers of their own, so that a number stands for the same work as long
as the work goes on, and links stay.
-/

namespace Farcall

/-! ## Numbers -/

namespace Client

variable {client before after : Client} {receiver : ReceiverId}

structure Numbered (client : Client) : Prop where
  tasks : (client.tasks.map (·.number)).Nodup
  older : ∀ task ∈ client.tasks, task.number < client.nextTask
  receivers : ∀ n : Nat, (client.endpoints[n]?).isSome → n < client.directory.nextNumber

theorem Numbered.at (numbered : before.Numbered) (at_receiver : At receiver before after) :
    after.Numbered := by
  refine ⟨?_, ?_, ?_⟩
  · rw [at_receiver.tasks]
    exact numbered.tasks
  · rw [at_receiver.tasks, at_receiver.nextTask]
    exact numbered.older
  · intro n there
    rw [at_receiver.known] at there
    rw [at_receiver.numbers]
    exact numbered.receivers n there

/-- Time only adds: links stay, operations of one kind lead on, and a task that is there under an
old number was there before. -/
structure Grows (kind : Op LazyResult → Prop) (before after : Client) : Prop where
  leads : Leads kind before after
  nextTask : before.nextTask ≤ after.nextTask
  tasks : ∀ task ∈ after.tasks, task.number < before.nextTask → task ∈ before.tasks

variable {kind : Op LazyResult → Prop}

theorem Grows.refl (kind : Op LazyResult → Prop) (client : Client) : Grows kind client client :=
  ⟨.refl kind client, Nat.le_refl _, fun _ mem _ => mem⟩

theorem Grows.trans {between : Client} (h : Grows kind before between)
    (h' : Grows kind between after) : Grows kind before after :=
  ⟨h.leads.trans h'.leads, Nat.le_trans h.nextTask h'.nextTask, fun task mem old =>
    h.tasks task (h'.tasks task mem (Nat.lt_of_lt_of_le old h.nextTask)) old⟩

theorem Grows.mono {other : Op LazyResult → Prop} (h : Grows kind before after)
    (wider : ∀ op, kind op → other op) : Grows other before after :=
  ⟨h.leads.mono wider, h.nextTask, h.tasks⟩

theorem Grows.linked (h : Grows kind before after) (there : (before.link? receiver).isSome) :
    (after.link? receiver).isSome := by
  obtain ⟨link, linked⟩ := Option.isSome_iff_exists.mp there
  obtain ⟨behind, found, -⟩ := h.leads receiver link linked
  rw [found]
  rfl

theorem Grows.find_task (h : Grows kind before after) (numbered : before.Numbered) {task : Task}
    (mem : task ∈ before.tasks) :
    after.tasks.find? (·.number = task.number) = none ∨
      after.tasks.find? (·.number = task.number) = some task := by
  cases found : after.tasks.find? (·.number = task.number) with
  | none => exact .inl rfl
  | some there =>
    have own : there.number = task.number := by simpa using List.find?_some found
    have old : there ∈ before.tasks := by
      refine h.tasks there (List.mem_of_find?_eq_some found) ?_
      rw [own]
      exact numbered.older task mem
    obtain rfl := List.inj_on_of_nodup_map numbered.tasks old mem own
    exact .inr rfl

theorem At.grows (at_receiver : At receiver before after) (leads : Leads kind before after) :
    Grows kind before after :=
  ⟨leads, Nat.le_of_eq at_receiver.nextTask.symm, fun _ mem _ => at_receiver.tasks ▸ mem⟩

theorem Asked.grows {started : Start × Client} (asked : Asked client started)
    (leads : Leads kind client started.2) : Grows kind client started.2 := by
  cases asked with
  | nowhere nobody stops => exact .refl kind client
  | somewhere at_receiver there of begun => exact at_receiver.grows leads

theorem Asked.numbered {started : Start × Client} (asked : Asked client started)
    (numbered : client.Numbered) : started.2.Numbered := by
  cases asked with
  | nowhere nobody stops => exact numbered
  | somewhere at_receiver there of begun => exact numbered.at at_receiver

theorem Asked.tasks {started : Start × Client} (asked : Asked client started) :
    started.2.tasks = client.tasks := by
  cases asked with
  | nowhere nobody stops => rfl
  | somewhere at_receiver there of begun => exact at_receiver.tasks

def withTask (client : Client) (work : Work) (deadline : Nat) : Client :=
  { client with
    tasks := client.tasks ++ [⟨client.nextTask, work, deadline⟩]
    nextTask := client.nextTask + 1 }

theorem Numbered.withTask (numbered : client.Numbered) (work : Work) (deadline : Nat) :
    (client.withTask work deadline).Numbered := by
  refine ⟨?_, ?_, numbered.receivers⟩
  · simp only [Client.withTask, List.map_append]
    rw [List.nodup_append]
    refine ⟨numbered.tasks, List.nodup_singleton _, ?_⟩
    intro number mem number' mem' same
    obtain ⟨task, found, rfl⟩ := List.mem_map.mp mem
    have old := numbered.older task found
    rw [same, List.mem_singleton.mp mem'] at old
    exact Nat.lt_irrefl _ old
  · intro task mem
    rcases List.mem_append.mp mem with mem | mem
    · exact Nat.lt_succ_of_lt (numbered.older task mem)
    · rw [List.mem_singleton.mp mem]
      exact Nat.lt_succ_self _

theorem grows_withTask (client : Client) (work : Work) (deadline : Nat) :
    Grows kind client (client.withTask work deadline) := by
  refine ⟨.refl kind client, Nat.le_succ _, ?_⟩
  intro task mem old
  rcases List.mem_append.mp mem with mem | mem
  · exact mem
  · rw [List.mem_singleton.mp mem] at old
    exact absurd old (Nat.lt_irrefl _)

def withoutTask (client : Client) (number : Nat) : Client :=
  { client with tasks := client.tasks.filter (·.number ≠ number) }

theorem Numbered.withoutTask (numbered : client.Numbered) (number : Nat) :
    (client.withoutTask number).Numbered := by
  refine ⟨?_, fun task mem => numbered.older task (List.mem_filter.mp mem).1, numbered.receivers⟩
  exact numbered.tasks.sublist (List.filter_sublist.map _)

theorem grows_withoutTask (client : Client) (number : Nat) :
    Grows kind client (client.withoutTask number) :=
  ⟨.refl kind client, Nat.le_refl _, fun _ mem _ => (List.mem_filter.mp mem).1⟩

/-- Work gets a look at once, and becomes a task if it has to wait. -/
theorem takeUp_running (client : Client) (work : Work) (timeout : Nat) :
    (∃ outcome, (client.look work (client.now + timeout)).1 = some outcome ∧
      client.takeUp (.running work timeout) =
        (.ended outcome, (client.look work (client.now + timeout)).2)) ∨
    (client.look work (client.now + timeout)).1 = none ∧
      client.takeUp (.running work timeout) =
        (.waits (client.look work (client.now + timeout)).2.nextTask,
          (client.look work (client.now + timeout)).2.withTask work (client.now + timeout)) := by
  simp only [takeUp]
  cases client.look work (client.now + timeout) with
  | mk result after =>
    cases result with
    | none => exact .inr ⟨rfl, rfl⟩
    | some outcome => exact .inl ⟨outcome, rfl, rfl⟩

end Client

theorem perm_of_find {tasks : List Task} {number : Nat} {task : Task}
    (nodup : (tasks.map (·.number)).Nodup)
    (found : tasks.find? (·.number = number) = some task) :
    tasks.Perm (task :: tasks.filter (·.number ≠ number)) := by
  induction tasks with
  | nil => cases found
  | cons first rest ih =>
    rw [List.map_cons, List.nodup_cons] at nodup
    rw [List.find?_cons] at found
    by_cases own : first.number = number
    · have others : rest.filter (·.number ≠ number) = rest := by
        refine List.filter_eq_self.mpr fun other mem => ?_
        have apart : other.number ≠ number := by
          intro same
          exact nodup.1 (own ▸ same ▸ List.mem_map_of_mem mem)
        simpa using apart
      simp only [own, decide_true, Option.some.injEq] at found
      rw [← found, List.filter_cons_of_neg (by simpa using own), others]
    · simp only [own, decide_false] at found
      rw [List.filter_cons_of_pos (by simpa using own)]
      exact ((ih nodup.2 found).cons first).trans (.swap task first _)

/-! ## Links -/

/-- What a message does to the table, if anything, no slot does; and only an answer brings a
result, which is what the channel left of it. -/
theorem Association.process_table (association : Association) (registry : Registry)
    (input : Input) :
    (association.process registry input).association.table = association.table ∨
      ∃ op : Op LazyResult, op.slot? = none ∧ association.table.Allowed op ∧
        (association.process registry input).association.table =
          (association.table.perform op).2 ∧
        (op.Mute ∨ ∃ kind id rest, Route.decoder.run input = (.ok (.answer kind id), rest) ∧
          op = .fulfill id (.answer kind rest)) := by
  rcases association.table_process registry input with
    same | ⟨kind, id, rest, given, answered⟩ | ⟨id, rest, given, signalled⟩
  · exact .inl same
  · exact .inr ⟨.fulfill id (.answer kind rest), rfl, trivial, answered,
      .inr ⟨kind, id, rest, given, rfl⟩⟩
  · exact .inr ⟨.proceedAsync id, rfl, trivial, signalled, .inl rfl⟩

/-- Only a message from the host brings results. -/
def LinkTurn.Kind : LinkTurn → Op LazyResult → Prop
  | receive _ => fun _ => True
  | close _ => Op.Mute
  | carry _ => Op.Mute

theorem Fits.process {places : List Place} {receiver : ReceiverId} {association : Association}
    (fits : Fits places receiver association.table) (registry : Registry) (input : Input) :
    Table.Stretch (fun _ => True) association.table
        (association.process registry input).association.table ∧
      Fits places receiver (association.process registry input).association.table := by
  rcases association.process_table registry input with same | given
  · exact ⟨same ▸ .refl, same ▸ fits⟩
  · obtain ⟨op, nobody, allowed, performed, -⟩ := given
    have behind := fits.perform op allowed nobody
    have stretch : Table.Stretch (fun _ => True) _ _ := .single trivial allowed
    rw [← performed] at behind stretch
    exact ⟨stretch, behind⟩

theorem Fits.turn {places : List Place} {receiver : ReceiverId} {link : Link}
    (fits : Fits places receiver link.association.table) (registry : Registry) (turn : LinkTurn)
    (allowed : ∀ carried, turn = .carry carried → carried.association = link.association) :
    Table.Stretch turn.Kind link.association.table
        (turn.apply link registry).link.association.table ∧
      Fits places receiver (turn.apply link registry).link.association.table := by
  cases turn with
  | receive message => exact fits.process registry (.ofBytes message)
  | close reason =>
    have swept : link.association.table.Allowed (.failAll reason) := trivial
    have mute : (Op.failAll reason : Op LazyResult).Mute := rfl
    exact ⟨.single mute swept, fits.perform (.failAll reason) swept rfl⟩
  | carry carried =>
    have same : carried.association = link.association := allowed carried rfl
    rw [← same] at fits ⊢
    exact ⟨.refl, fits⟩

namespace Client

variable {client : Client} {receiver : ReceiverId} {places : List Place}

theorem onLink_cases (client : Client) (receiver : ReceiverId) (f : Link → Registry → Link.Pumped) :
    client.link? receiver = none ∧ client.onLink receiver f = client ∨
      ∃ link, client.link? receiver = some link ∧ At receiver client (client.onLink receiver f) ∧
        (client.onLink receiver f).link? receiver = some (f link client.registry).link := by
  unfold onLink
  split
  · next absent => exact .inl ⟨by rw [link?, absent]; rfl, rfl⟩
  · next endpoint there =>
    split
    · next off => exact .inl ⟨by rw [link?, there]; exact off, rfl⟩
    · next link found =>
      have same := endpoints_withEndpoint client receiver
        (endpoint.withLink (f link client.registry).link)
      have linked : client.link? receiver = some link := by rw [link?, there]; exact found
      refine .inr ⟨link, linked, at_of_endpoints there same ?_ rfl rfl rfl, ?_⟩
      · rw [found]
        rfl
      · exact (link_of_endpoints same receiver).trans (if_pos rfl)

structure Turned (client : Client) (receiver : ReceiverId) (pumped : Link.Pumped) (after : Client) :
    Prop where
  link : after.link? receiver = some pumped.link
  registry : after.registry = pumped.registry
  journal : after.journal = client.journal
  tasks : after.tasks = client.tasks

theorem onLink_of_link {link : Link} (client : Client) (f : Link → Registry → Link.Pumped)
    (linked : client.link? receiver = some link) :
    client.Turned receiver (f link client.registry) (client.onLink receiver f) := by
  obtain ⟨endpoint, there, found⟩ := Option.bind_eq_some_iff.mp linked
  have same := endpoints_withEndpoint client receiver
    (endpoint.withLink (f link client.registry).link)
  simp only [onLink, there, found]
  exact ⟨(link_of_endpoints same receiver).trans (if_pos rfl), rfl, rfl, rfl⟩

theorem there_of_link {link : Link} (linked : client.link? receiver = some link) :
    (client.endpoint? receiver).isSome := by
  obtain ⟨endpoint, there, -⟩ := Option.bind_eq_some_iff.mp linked
  rw [there]
  rfl

theorem cancel_at (client : Client) (future : Future) :
    At future.receiver client (client.cancelHeld future).2 := by
  refine visit_at fun b site linked => ?_
  have cancelled := linked.cancelCall future.slot.id
  dsimp only
  split
  · exact cancelled.withTable _
  · exact cancelled

def Cancelled (id : UInt16) (link : Link) (confirmed : Bool) (behind : Link) : Prop :=
  confirmed = false ∧ (behind = link ∨
    ∃ message, (Message.cancel id true).encode = .ok message ∧ behind = Site.queueing link message)

theorem cancel_on {future : Future} {link : Link} (linked : client.link? future.receiver = some link) :
    ∃ behind, (client.cancelHeld future).2.link? future.receiver = some behind ∧
      Cancelled future.slot.id link (client.cancelHeld future).1 behind := by
  refine visit_on linked fun site on => ?_
  obtain ⟨never, told⟩ := Site.cancelCall_spec on future.slot.id
  dsimp only
  rw [never]
  rcases told with quiet | ⟨message, written, told⟩
  · exact ⟨link, quiet, rfl, .inl rfl⟩
  · exact ⟨_, told, rfl, .inr ⟨message, written, rfl⟩⟩

theorem cancel_fit {future : Future} (fit : client.Fit places)
    (there : (client.endpoint? future.receiver).isSome) :
    Arrives Op.Mute client (client.cancelHeld future).2 places := by
  refine fit.keep (cancel_at client future) there ?_
  intro link linked fits
  obtain ⟨behind, found, -, same⟩ := cancel_on linked
  refine ⟨behind, found, ?_⟩
  rcases same with rfl | ⟨message, -, rfl⟩
  · exact ⟨.refl, fits⟩
  · exact ⟨.refl, fits⟩

end Client

/-! ## Receivers that join -/

namespace Client

variable {before after : Client} {endpoint : Endpoint} {places : List Place}
  {kind : Op LazyResult → Prop}

structure Joined (before : Client) (endpoint : Endpoint) (after : Client) : Prop where
  put : ∀ n : Nat, after.endpoints[n]? =
    if before.directory.nextNumber = n then some endpoint else before.endpoints[n]?
  tasks : after.tasks = before.tasks
  nextTask : after.nextTask = before.nextTask
  numbers : after.directory.nextNumber = before.directory.nextNumber + 1

theorem joined_join (client : Client) (endpoint : Endpoint) : ∃ joined,
    client.Joined joined (client.join endpoint).2 ∧ ∀ link, joined.link? = some link →
      ∃ old, endpoint.link? = some old ∧ link.association.table = old.association.table := by
  have put := endpoints_withEndpoint { client with directory := (client.directory.join ()).2 }
    ⟨client.directory.nextNumber⟩
  simp only [join, associate, Directory.join] at put ⊢
  split
  · exact ⟨endpoint, ⟨put endpoint, rfl, rfl, rfl⟩, fun link linked => ⟨link, linked, rfl⟩⟩
  · exact ⟨endpoint, ⟨put endpoint, rfl, rfl, rfl⟩, fun link linked => ⟨link, linked, rfl⟩⟩
  · next link linked =>
    refine ⟨_, ⟨put _, rfl, rfl, rfl⟩, ?_⟩
    intro link' linked'
    refine ⟨link, by rw [Endpoint.link?, linked], ?_⟩
    rw [← Option.some.inj linked']
    rfl

theorem Joined.link (joined : before.Joined endpoint after) (receiver : ReceiverId) :
    after.link? receiver =
      if ⟨before.directory.nextNumber⟩ = receiver then endpoint.link? else before.link? receiver :=
  @link_of_endpoints _ _ ⟨before.directory.nextNumber⟩ _ joined.put receiver

theorem Numbered.not_there (numbered : before.Numbered) :
    ¬ (before.endpoint? ⟨before.directory.nextNumber⟩).isSome :=
  fun there => Nat.lt_irrefl _ (numbered.receivers _ there)

theorem Joined.numbered (joined : before.Joined endpoint after) (numbered : before.Numbered) :
    after.Numbered := by
  refine ⟨?_, ?_, ?_⟩
  · rw [joined.tasks]
    exact numbered.tasks
  · rw [joined.tasks, joined.nextTask]
    exact numbered.older
  · intro n there
    rw [joined.put] at there
    rw [joined.numbers]
    split at there
    · next own => exact own ▸ Nat.lt_succ_self _
    · exact Nat.lt_succ_of_lt (numbered.receivers n there)

theorem Joined.grows (joined : before.Joined endpoint after) (numbered : before.Numbered) :
    Grows kind before after := by
  refine ⟨?_, Nat.le_of_eq joined.nextTask.symm, ?_⟩
  · intro receiver link linked
    refine ⟨link, ?_, .refl⟩
    rw [joined.link, if_neg]
    · exact linked
    · intro own
      exact absurd (there_of_link linked) (own ▸ numbered.not_there)
  · intro task mem _
    rwa [joined.tasks] at mem

theorem Joined.fit (joined : before.Joined endpoint after) (numbered : before.Numbered)
    (fresh : ∀ link, endpoint.link? = some link →
      ∃ limit trace, Run limit trace link.association.table)
    (fit : before.Fit places) : after.Fit places := by
  refine ⟨?_, ?_⟩
  · intro receiver link linked
    rw [joined.link] at linked
    split at linked
    · next own =>
      have nobody : ∀ place ∈ places, place.receiver ≠ receiver := by
        rintro place mem rfl
        exact numbered.not_there (own ▸ fit.known place mem)
      have none : slotsAt receiver places = [] := by
        rw [slotsAt, List.map_eq_nil_iff, List.filter_eq_nil_iff]
        exact fun place mem here => nobody place mem (by simpa using here)
      refine ⟨fresh link linked, fun place mem here => absurd here (nobody place mem), ?_⟩
      rw [none]
      exact List.nodup_nil
    · exact fit.fits receiver link linked
  · intro place mem
    rw [endpoint?, joined.put]
    split
    · rfl
    · exact fit.known place mem

theorem at_of_same {client : Client} (receiver : ReceiverId)
    (endpoints : after.endpoints = client.endpoints) (tasks : after.tasks = client.tasks)
    (nextTask : after.nextTask = client.nextTask)
    (numbers : after.directory.nextNumber = client.directory.nextNumber) :
    At receiver client after := by
  have links : ∀ other, after.link? other = client.link? other := by
    intro other
    rw [link?, link?, endpoint?, endpoint?, endpoints]
  exact ⟨fun other _ => links other, by rw [links], tasks, nextTask, numbers,
    fun n => by rw [endpoints]⟩

theorem Fit.congr (fit : before.Fit places) (endpoints : after.endpoints = before.endpoints) :
    after.Fit places := by
  refine ⟨?_, ?_⟩
  · intro receiver link linked
    rw [link?, endpoint?, endpoints] at linked
    exact fit.fits receiver link linked
  · intro place mem
    rw [endpoint?, endpoints]
    exact fit.known place mem

theorem leads_of_same (endpoints : after.endpoints = before.endpoints) : Leads kind before after := by
  intro receiver link linked
  refine ⟨link, ?_, .refl⟩
  rwa [link?, endpoint?, endpoints]

end Client

/-! ## Desks -/

namespace Desk

def places (desk : Desk) : List Place :=
  desk.client.tasks.map (·.work.place) ++ desk.held.map Future.place

structure Ordered (desk : Desk) : Prop where
  fit : desk.client.Fit desk.places
  numbered : desk.client.Numbered

structure Follows (kind : Op LazyResult → Prop) (before : Client) (desk : Desk) : Prop where
  ordered : desk.Ordered
  grows : Client.Grows kind before desk.client

variable {desk : Desk} {client : Client} {held : List Future} {kind : Op LazyResult → Prop}

theorem ordered_fresh (config : Config) : Ordered ⟨.ofConfig config, []⟩ := by
  have nothing : ∀ n : Nat, (Client.ofConfig config).endpoints[n]? = none := by
    intro n
    simp [Client.ofConfig]
  refine ⟨⟨?_, ?_⟩, ?_, ?_, ?_⟩
  · intro receiver link linked
    rw [Client.link?, Client.endpoint?, nothing] at linked
    cases linked
  · intro place mem
    cases mem
  · exact List.nodup_nil
  · intro task mem
    cases mem
  · intro n there
    rw [nothing] at there
    cases there

theorem perm_keep (client : Client) (held : List Future) (outcome : Outcome) :
    (outcome.places ++ places ⟨client, held⟩).Perm
      (places ⟨client, held ++ outcome.future?.toList⟩) := by
  simp only [places, Outcome.places, List.map_append]
  exact List.perm_append_comm.trans (by rw [List.append_assoc])

theorem perm_task (client : Client) (held : List Future) (work : Work) (deadline : Nat) :
    (work.place :: places ⟨client, held⟩).Perm
      (places ⟨client.withTask work deadline, held⟩) := by
  simp only [places, Client.withTask, List.map_append, List.map_singleton, List.append_assoc]
  exact List.perm_middle.symm

theorem places_of_tasks {after : Client} (held : List Future) (same : after.tasks = client.tasks) :
    places ⟨after, held⟩ = places ⟨client, held⟩ := by
  rw [places, places, same]

theorem follows_takeUp {started : Start × Client} (numbered : started.2.Numbered)
    (fit : started.2.Fit (started.1.places ++ places ⟨started.2, held⟩)) :
    Follows Op.Mute started.2 (takeUp held started).2 := by
  obtain ⟨start, client⟩ := started
  cases start with
  | ended outcome => exact ⟨⟨fit.perm (perm_keep client held outcome), numbered⟩, .refl _ client⟩
  | running work timeout =>
    have at_receiver := client.look_at work (client.now + timeout)
    have own : client.Fit (work.place :: places ⟨client, held⟩) := fit
    obtain ⟨behind, leads⟩ := Client.look_fit own (client.now + timeout)
    rw [← places_of_tasks held at_receiver.tasks] at behind
    have numbered := numbered.at at_receiver
    have grows := at_receiver.grows leads
    rcases client.takeUp_running work timeout with ⟨outcome, ended, taken⟩ | ⟨waits, taken⟩
    · rw [ended] at behind
      rw [takeUp, taken]
      exact ⟨⟨behind.perm (perm_keep _ held outcome), numbered⟩, grows⟩
    · rw [waits] at behind
      rw [takeUp, taken, keep, TakenUp.future?, Option.toList_none, List.append_nil]
      refine ⟨⟨?_, numbered.withTask _ _⟩, grows.trans (Client.grows_withTask _ _ _)⟩
      have same := perm_task (client.look work (client.now + timeout)).2 held work
        (client.now + timeout)
      exact (behind.perm same).congr rfl

variable {after : Client} {receiver : ReceiverId}

theorem Ordered.follows (ordered : desk.Ordered) : Follows kind desk.client desk :=
  ⟨ordered, .refl kind desk.client⟩

theorem Ordered.follows_at (ordered : desk.Ordered)
    (at_receiver : Client.At receiver desk.client after)
    (arrives : Client.Arrives kind desk.client after (places ⟨desk.client, held⟩)) :
    Follows kind desk.client ⟨after, held⟩ := by
  have fit := arrives.fit
  rw [← places_of_tasks held at_receiver.tasks] at fit
  exact ⟨⟨fit, ordered.numbered.at at_receiver⟩, at_receiver.grows arrives.leads⟩

theorem perm_held {place : Nat} {future : Future} (found : desk.held[place]? = some future) :
    desk.places.Perm (future.place :: places ⟨desk.client, desk.held.eraseIdx place⟩) := by
  obtain ⟨inside, rfl⟩ := List.getElem?_eq_some_iff.mp found
  have taken := (List.getElem_cons_eraseIdx_perm inside).map Future.place
  exact (taken.symm.append_left _).trans List.perm_middle

theorem Ordered.follows_onHeld (ordered : desk.Ordered) (place : Nat)
    {f : Future → Option TakenUp × Desk}
    (spec : ∀ future,
      desk.client.Fit (future.place :: places ⟨desk.client, desk.held.eraseIdx place⟩) →
      desk.held[place]? = some future → Follows kind desk.client (f future).2) :
    Follows kind desk.client (desk.onHeld place f).2 := by
  unfold onHeld
  split
  · exact ordered.follows
  · next future found => exact spec future (ordered.fit.perm (perm_held found)) found

theorem Ordered.follows_request (ordered : desk.Ordered) (request : Request) :
    Follows Op.Mute desk.client (takeUp desk.held (request.start desk.client)).2 := by
  have asked := desk.client.asked_start request
  obtain ⟨fit, leads⟩ := asked.fit ordered.fit
  rw [show desk.places = places ⟨(request.start desk.client).2, desk.held⟩ from
    (places_of_tasks desk.held asked.tasks).symm] at fit
  have taken := follows_takeUp (asked.numbered ordered.numbered) fit
  exact ⟨taken.ordered, (asked.grows leads).trans taken.grows⟩

theorem Ordered.follows_claim (ordered : desk.Ordered) (place timeout : Nat) :
    Follows Op.Mute desk.client (desk.act (.claim place timeout)).2 := by
  refine ordered.follows_onHeld place fun future fit found => ?_
  have at_receiver := desk.client.claim_at future timeout
  obtain ⟨behind, leads⟩ := Client.claim_fit fit timeout
  rw [← places_of_tasks _ at_receiver.tasks] at behind
  have taken := follows_takeUp (ordered.numbered.at at_receiver) behind
  exact ⟨taken.ordered, (at_receiver.grows leads).trans taken.grows⟩

theorem look_of_gone {number : Nat} (gone : desk.client.tasks.find? (·.number = number) = none) :
    desk.look number = (none, desk) := by
  simp only [Desk.look, gone]

theorem look_of_waits {number : Nat} {task : Task}
    (found : desk.client.tasks.find? (·.number = number) = some task)
    (waits : desk.client.look task.work task.deadline = (none, after)) :
    desk.look number = (some (.waits number), ⟨after, desk.held⟩) := by
  simp only [Desk.look, found, waits]

theorem look_of_ended {number : Nat} {task : Task} {outcome : Outcome}
    (found : desk.client.tasks.find? (·.number = number) = some task)
    (ended : desk.client.look task.work task.deadline = (some outcome, after)) :
    desk.look number = keep desk.held (.ended outcome, after.withoutTask number) := by
  simp only [Desk.look, found, ended]
  rfl

theorem Ordered.perm_found (ordered : desk.Ordered) {number : Nat} {task : Task}
    (found : desk.client.tasks.find? (·.number = number) = some task) :
    desk.places.Perm (task.work.place :: places ⟨desk.client.withoutTask number, desk.held⟩) :=
  ((perm_of_find ordered.numbered.tasks found).map _).append_right _

theorem Ordered.follows_look (ordered : desk.Ordered) (number : Nat) :
    Follows Op.Mute desk.client (desk.look number).2 := by
  cases found : desk.client.tasks.find? (·.number = number) with
  | none =>
    rw [look_of_gone found]
    exact ordered.follows
  | some task =>
    have at_receiver := desk.client.look_at task.work task.deadline
    have own := ordered.perm_found found
    obtain ⟨fit, leads⟩ := Client.look_fit (ordered.fit.perm own) task.deadline
    have numbered := ordered.numbered.at at_receiver
    cases given : desk.client.look task.work task.deadline with
    | mk result after =>
      rw [given] at fit leads at_receiver numbered
      cases result with
      | none =>
        rw [look_of_waits found given]
        exact ordered.follows_at at_receiver ⟨fit.perm own.symm, leads⟩
      | some outcome =>
        have same : (after.withoutTask number).tasks = (desk.client.withoutTask number).tasks := by
          rw [Client.withoutTask, Client.withoutTask, show after.tasks = _ from at_receiver.tasks]
        have kept := fit.perm (perm_keep (desk.client.withoutTask number) desk.held outcome)
        rw [← places_of_tasks _ same] at kept
        rw [look_of_ended found given]
        exact ⟨⟨kept.congr rfl, numbered.withoutTask number⟩,
          (at_receiver.grows leads).trans (after.grows_withoutTask number)⟩

theorem Ordered.follows_abort (ordered : desk.Ordered) (number : Nat) :
    Follows Op.Mute desk.client ⟨desk.client.abort number, desk.held⟩ := by
  unfold Client.abort
  split
  · exact ordered.follows
  · next task found =>
    have fit := ordered.fit.perm (ordered.perm_found found)
    have rest : Ordered ⟨desk.client.withoutTask number, desk.held⟩ :=
      ⟨fit.tail.congr rfl, ordered.numbered.withoutTask number⟩
    have own : (desk.client.withoutTask number).Fit (task.work.place :: _) := fit.congr rfl
    have taken := rest.follows_at (Client.stop_at _ task.work) (Client.stop_fit own)
    exact ⟨taken.ordered, (desk.client.grows_withoutTask number).trans taken.grows⟩

theorem Ordered.follows_onLink (ordered : desk.Ordered) (receiver : ReceiverId)
    {f : Link → Registry → Link.Pumped}
    (spec : ∀ link, desk.client.link? receiver = some link →
      Fits desk.places receiver link.association.table →
      Table.Stretch kind link.association.table (f link desk.client.registry).link.association.table ∧
        Fits desk.places receiver (f link desk.client.registry).link.association.table) :
    Follows kind desk.client ⟨desk.client.onLink receiver f, desk.held⟩ := by
  rcases desk.client.onLink_cases receiver f with ⟨-, same⟩ | ⟨link, linked, at_receiver, found⟩
  · rw [same]
    exact ordered.follows
  · refine ordered.follows_at at_receiver ?_
    refine ordered.fit.keep at_receiver (Client.there_of_link linked) ?_
    intro link' linked' fits
    obtain rfl := Option.some.inj (linked.symm.trans linked')
    exact ⟨_, found, spec link linked fits⟩

theorem Ordered.follows_link (ordered : desk.Ordered) (receiver : ReceiverId) (turn : LinkTurn)
    (allowed : desk.Allowed (.link receiver turn)) :
    Follows turn.Kind desk.client (desk.act (.link receiver turn)).2 := by
  refine ordered.follows_onLink receiver fun link linked fits => fits.turn _ turn ?_
  rintro carried rfl
  exact (allowed link linked).1

theorem Ordered.follows_elsewhere (ordered : desk.Ordered) (receiver : ReceiverId)
    (endpoint : Endpoint) (allowed : desk.Allowed (.elsewhere receiver endpoint)) :
    Follows kind desk.client (desk.act (.elsewhere receiver endpoint)).2 := by
  obtain ⟨off, before, there, none⟩ := allowed
  have at_receiver : Client.At receiver desk.client (desk.client.withEndpoint receiver endpoint) := by
    refine Client.at_of_endpoints there (Client.endpoints_withEndpoint _ _ _) ?_ rfl rfl rfl
    rw [off, none]
  refine ordered.follows_at at_receiver ?_
  refine ordered.fit.keep at_receiver (by rw [there]; rfl) ?_
  intro link linked
  rw [Client.link?, there, Option.bind_some, none] at linked
  cases linked

theorem Ordered.follows_join (ordered : desk.Ordered) (endpoint : Endpoint)
    (allowed : desk.Allowed (.join endpoint)) :
    Follows kind desk.client (desk.act (.join endpoint)).2 := by
  obtain ⟨joined, put, link_of⟩ := desk.client.joined_join endpoint
  have fit : (desk.client.join endpoint).2.Fit desk.places := by
    refine put.fit ordered.numbered (fun link linked => ?_) ordered.fit
    obtain ⟨old, had, same⟩ := link_of link linked
    rw [same]
    exact (allowed old had).1
  rw [← places_of_tasks desk.held put.tasks] at fit
  exact ⟨⟨fit, put.numbered ordered.numbered⟩, put.grows ordered.numbered⟩

theorem Ordered.follows_same (ordered : desk.Ordered) {after : Client}
    (endpoints : after.endpoints = desk.client.endpoints) (tasks : after.tasks = desk.client.tasks)
    (nextTask : after.nextTask = desk.client.nextTask)
    (numbers : after.directory.nextNumber = desk.client.directory.nextNumber) :
    Follows kind desk.client ⟨after, desk.held⟩ :=
  ordered.follows_at (Client.at_of_same ⟨0⟩ endpoints tasks nextTask numbers)
    ⟨ordered.fit.congr endpoints, Client.leads_of_same endpoints⟩

end Desk

/-- What a move does to tables: nothing brings results but a message from a host. -/
def Move.Kind : Move → Op LazyResult → Prop
  | link _ turn => turn.Kind
  | _ => Op.Mute

namespace Desk

variable {desk : Desk}

/-- Every move leaves a desk in order. -/
theorem Ordered.follows_act (ordered : desk.Ordered) {move : Move} (allowed : desk.Allowed move) :
    Follows move.Kind desk.client (desk.act move).2 := by
  cases move with
  | request request => exact ordered.follows_request request
  | claim place timeout => exact ordered.follows_claim place timeout
  | look task => exact ordered.follows_look task
  | abort task => exact ordered.follows_abort task
  | cancel place =>
    refine ordered.follows_onHeld place fun future fit found => ?_
    refine ordered.follows_at (desk.client.cancel_at future) (Client.cancel_fit ordered.fit ?_)
    exact fit.known future.place (List.mem_cons_self ..)
  | drop place =>
    refine ordered.follows_onHeld place fun future fit found => ?_
    exact ordered.follows_at (desk.client.drop_at future) (Client.drop_fit fit)
  | link receiver turn => exact ordered.follows_link receiver turn allowed
  | elsewhere receiver endpoint => exact ordered.follows_elsewhere receiver endpoint allowed
  | join endpoint => exact ordered.follows_join endpoint allowed
  | leave receiver => exact ordered.follows_same rfl rfl rfl rfl
  | announce registry => exact ordered.follows_same rfl rfl rfl rfl
  | advance span => exact ordered.follows_same rfl rfl rfl rfl

end Desk

/-! ## Courses -/

namespace Course

variable {config : Config} {turns : List Turn} {desk : Desk}

theorem ordered (course : Course config turns desk) : desk.Ordered := by
  induction course with
  | start => exact Desk.ordered_fresh config
  | turn course allowed ih => exact (ih.follows_act allowed).ordered

/-- What is so behind a turn, and what every later turn keeps, is so in the end. -/
@[elab_as_elim]
theorem keeps {P : Desk → Prop} {first between : List Turn} {turn : Turn}
    (course : Course config (first ++ turn :: between) desk) (start : P turn.after)
    (step : ∀ later ∈ between, later.before.Ordered → later.before.Allowed later.move →
      P later.before → P later.after) : P desk := by
  induction between using List.reverseRecOn generalizing desk with
  | nil =>
    obtain ⟨-, -, rfl⟩ := course.of_last
    exact start
  | append_singleton between last ih =>
    rw [show first ++ turn :: (between ++ [last]) = (first ++ turn :: between) ++ [last] by simp]
      at course
    obtain ⟨begun, allowed, rfl⟩ := course.of_last
    have before := ih begun fun later mem => step later (List.mem_append_left _ mem)
    exact step last (by simp) begun.ordered allowed before

theorem grows (course : Course config turns desk) {first : List Turn} {turn : Turn}
    (part : first ++ [turn] <+: turns) :
    Client.Grows (fun _ => True) turn.after.client desk.client := by
  obtain ⟨between, rfl⟩ := part
  rw [List.append_assoc, List.singleton_append] at course
  refine course.keeps (.refl _ _) ?_
  intro later _ ordered allowed grown
  have grows := (ordered.follows_act allowed).grows
  exact grown.trans (grows.mono fun _ _ => trivial)

theorem find_task (course : Course config turns desk) {first : List Turn} {turn : Turn} {task : Task}
    (part : first ++ [turn] <+: turns) (mem : task ∈ turn.after.client.tasks) :
    desk.client.tasks.find? (·.number = task.number) = none ∨
      desk.client.tasks.find? (·.number = task.number) = some task := by
  obtain ⟨begun, allowed⟩ := course.of_prefix part
  have numbered : turn.after.client.Numbered := (begun.ordered.follows_act allowed).ordered.numbered
  exact (course.grows part).find_task numbered mem

end Course

end Farcall
