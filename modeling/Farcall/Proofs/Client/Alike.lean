import Farcall.Proofs.Client.Invariant

set_option autoImplicit false

/-!
# Clients that are alike

How the map of the endpoints is laid out inside is of no account: two clients that find the same
endpoint under every number do the same on every move, and are alike behind it.
-/

namespace Farcall

namespace Client

/-- The same client, but for how its map is laid out. -/
inductive Same (client : Client) : Client → Prop
  | intro (endpoints : Std.TreeMap Nat Endpoint)
      (found : ∀ n : Nat, client.endpoints[n]? = endpoints[n]?) :
      Same client { client with endpoints }

variable {client other : Client}

theorem Same.refl (client : Client) : client.Same client := .intro client.endpoints fun _ => rfl

theorem Same.trans {last : Client} (h : client.Same other) (h' : other.Same last) :
    client.Same last := by
  obtain ⟨endpoints, found⟩ := h
  obtain ⟨endpoints', found'⟩ := h'
  exact .intro endpoints' fun n => (found n).trans (found' n)

theorem Same.endpoint (same : client.Same other) (receiver : ReceiverId) :
    client.endpoint? receiver = other.endpoint? receiver := by
  obtain ⟨endpoints, found⟩ := same
  exact found receiver.number

theorem Same.tasks (same : client.Same other) : client.tasks = other.tasks := by
  obtain ⟨endpoints, found⟩ := same
  rfl

theorem Same.link (same : client.Same other) (receiver : ReceiverId) :
    client.link? receiver = other.link? receiver := by
  rw [link?, link?, same.endpoint]

theorem Same.withEndpoint (same : client.Same other) (receiver : ReceiverId) (endpoint : Endpoint) :
    (client.withEndpoint receiver endpoint).Same (other.withEndpoint receiver endpoint) := by
  obtain ⟨endpoints, found⟩ := same
  refine .intro _ fun n => ?_
  simp only [Client.withEndpoint, Std.TreeMap.getElem?_insert]
  split
  · rfl
  · exact found n

structure Agree {α : Type} (given given' : α × Client) : Prop where
  result : given.1 = given'.1
  same : given.2.Same given'.2

theorem Same.visit {α : Type} (same : client.Same other) (receiver : ReceiverId) (dflt : α)
    (act : Site → α × Site) :
    Agree (client.visit receiver dflt act) (other.visit receiver dflt act) := by
  have there := same.endpoint receiver
  obtain ⟨endpoints, found⟩ := same
  cases own : client.endpoint? receiver with
  | none =>
    rw [visit_of_absent own, visit_of_absent (there.symm.trans own)]
    exact ⟨rfl, .intro endpoints found⟩
  | some endpoint =>
    rw [visit_of_there own, visit_of_there (there.symm.trans own)]
    refine ⟨rfl, .intro _ fun n => ?_⟩
    simp only [Client.withEndpoint, Std.TreeMap.getElem?_insert]
    split
    · rfl
    · exact found n

theorem Same.look (same : client.Same other) (work : Work) (deadline : Nat) :
    Agree (client.look work deadline) (other.look work deadline) := by
  have now : client.now = other.now := by
    obtain ⟨endpoints, found⟩ := same
    rfl
  rw [Client.look, Client.look, now]
  exact same.visit work.receiver none _

theorem Same.takeUp (same : client.Same other) (start : Start) :
    Agree (client.takeUp start) (other.takeUp start) := by
  cases start with
  | ended outcome => exact ⟨rfl, same⟩
  | running work timeout =>
    obtain ⟨endpoints, found⟩ := same
    obtain ⟨result, behind⟩ := (Same.intro endpoints found).look work (client.now + timeout)
    simp only [Client.takeUp]
    cases first : client.look work (client.now + timeout) with
    | mk given after =>
      cases second : Client.look { client with endpoints } work (client.now + timeout) with
      | mk given' after' =>
        rw [first, second] at result behind
        obtain rfl : given = given' := result
        cases given with
        | some outcome => exact ⟨rfl, behind⟩
        | none =>
          obtain ⟨endpoints, found⟩ := behind
          exact ⟨rfl, .intro endpoints found⟩

theorem Same.startAt (same : client.Same other) (module : ModuleId)
    (start : ReceiverId → Site → Start × Site) :
    Agree (client.startAt module start) (other.startAt module start) := by
  have resolved : client.resolve module = other.resolve module := by
    obtain ⟨endpoints, found⟩ := same
    rfl
  rw [Client.startAt, Client.startAt, ← resolved]
  cases client.resolve module with
  | error e => exact ⟨rfl, same⟩
  | ok receiver => exact same.visit receiver _ _

theorem Same.start (same : client.Same other) (request : Request) :
    Agree (request.start client) (request.start other) := by
  cases request with
  | call proxy method arguments mode =>
    change Agree (client.dispatch proxy method arguments mode)
      (other.dispatch proxy method arguments mode)
    unfold dispatch
    split
    · exact ⟨rfl, same⟩
    · obtain ⟨endpoints, found⟩ := same
      exact (Same.intro endpoints found).startAt _ _
  | callAlone proxy method arguments => exact ⟨rfl, same⟩
  | session module bean view =>
    obtain ⟨endpoints, found⟩ := same
    exact (Same.intro endpoints found).startAt _ _
  | step receiver step onePhase transaction =>
    obtain ⟨endpoints, found⟩ := same
    exact (Same.intro endpoints found).visit receiver (.ended (.failed (.unknownReceiver receiver)))
      fun site => site.startTransaction client.config.transactionTimeout receiver step onePhase
        transaction

theorem Same.abort (same : client.Same other) (number : Nat) :
    (client.abort number).Same (other.abort number) := by
  have whole := same
  obtain ⟨endpoints, found⟩ := same
  unfold Client.abort
  dsimp only
  split
  · exact whole
  · next task there =>
    have rest : Same { client with tasks := client.tasks.filter (·.number ≠ number) }
        { client with tasks := client.tasks.filter (·.number ≠ number), endpoints } :=
      .intro endpoints found
    exact (rest.visit task.work.receiver () _).same

theorem Same.onLink (same : client.Same other) (receiver : ReceiverId)
    (f : Link → Registry → Link.Pumped) :
    (client.onLink receiver f).Same (other.onLink receiver f) := by
  have there := same.endpoint receiver
  obtain ⟨endpoints, found⟩ := same
  unfold Client.onLink
  rw [← there]
  split
  · exact .intro endpoints found
  · split
    · exact .intro endpoints found
    · refine .intro _ fun n => ?_
      simp only [Client.withEndpoint, Client.withRegistry, Std.TreeMap.getElem?_insert]
      split
      · rfl
      · exact found n

theorem Same.join (same : client.Same other) (endpoint : Endpoint) :
    (client.join endpoint).2.Same (other.join endpoint).2 := by
  obtain ⟨endpoints, found⟩ := same
  unfold Client.join Client.associate
  dsimp only
  split
  all_goals
    refine .intro _ fun n => ?_
    simp only [Client.withEndpoint, Client.withRegistry, Std.TreeMap.getElem?_insert]
    split
    · rfl
    · exact found n

theorem Same.claim (same : client.Same other) (future : Future) (timeout : Nat) :
    Agree (client.claim future timeout) (other.claim future timeout) :=
  same.visit future.receiver _ _

end Client

structure Desk.Alike (desk other : Desk) : Prop where
  client : desk.client.Same other.client
  held : desk.held = other.held

structure Desk.Agree (given given' : Option TakenUp × Desk) : Prop where
  result : given.1 = given'.1
  alike : given.2.Alike given'.2

namespace Desk

variable {desk other : Desk} {move : Move}

theorem Alike.refl (desk : Desk) : desk.Alike desk := ⟨.refl _, rfl⟩

theorem Alike.trans {last : Desk} (h : desk.Alike other) (h' : other.Alike last) :
    desk.Alike last :=
  ⟨h.client.trans h'.client, h.held.trans h'.held⟩

theorem agree_keep (held : List Future) {given given' : TakenUp × Client}
    (agree : Client.Agree given given') : Agree (keep held given) (keep held given') := by
  obtain ⟨result, same⟩ := agree
  refine ⟨congrArg some result, same, ?_⟩
  simp only [keep, result]

theorem agree_takeUp (held : List Future) {started started' : Start × Client}
    (agree : Client.Agree started started') : Agree (takeUp held started) (takeUp held started') := by
  obtain ⟨result, same⟩ := agree
  rw [takeUp, takeUp, ← result]
  exact agree_keep held (same.takeUp started.1)

theorem Alike.onHeld (alike : desk.Alike other) (place : Nat) {f g : Future → Option TakenUp × Desk}
    (agree : ∀ future, Agree (f future) (g future)) :
    Agree (desk.onHeld place f) (other.onHeld place g) := by
  rw [Desk.onHeld, Desk.onHeld, ← alike.held]
  cases desk.held[place]? with
  | none => exact ⟨rfl, alike⟩
  | some future => exact agree future

theorem Alike.look (alike : desk.Alike other) (number : Nat) :
    Agree (desk.look number) (other.look number) := by
  have tasks := alike.client.tasks
  cases there : desk.client.tasks.find? (·.number = number) with
  | none =>
    rw [look_of_gone there, look_of_gone (tasks ▸ there)]
    exact ⟨rfl, alike⟩
  | some task =>
    obtain ⟨result, same⟩ := alike.client.look task.work task.deadline
    cases first : desk.client.look task.work task.deadline with
    | mk given after =>
      cases second : other.client.look task.work task.deadline with
      | mk given' after' =>
        rw [first, second] at result same
        obtain rfl : given = given' := result
        cases given with
        | none =>
          rw [look_of_waits there first, look_of_waits (tasks ▸ there) second]
          exact ⟨rfl, same, alike.held⟩
        | some outcome =>
          rw [look_of_ended there first, look_of_ended (tasks ▸ there) second, ← alike.held]
          obtain ⟨endpoints, found⟩ := same
          exact agree_keep desk.held ⟨rfl, .intro endpoints found⟩

/-- Desks that are alike do the same on every move. -/
theorem Alike.act (alike : desk.Alike other) (move : Move) :
    Agree (desk.act move) (other.act move) := by
  obtain ⟨client, held⟩ := desk
  obtain ⟨client', held'⟩ := other
  obtain ⟨same, rfl⟩ : client.Same client' ∧ held = held' := ⟨alike.client, alike.held⟩
  cases move with
  | request request => exact agree_takeUp held (same.start request)
  | claim place timeout =>
    exact alike.onHeld place fun future =>
      agree_takeUp (held.eraseIdx place) (same.claim future timeout)
  | look number => exact alike.look number
  | abort number => exact ⟨rfl, same.abort number, rfl⟩
  | cancel place =>
    exact alike.onHeld place fun future => ⟨rfl, (same.visit future.receiver false _).same, rfl⟩
  | drop place =>
    exact alike.onHeld place fun future => ⟨rfl, (same.visit future.receiver () _).same, rfl⟩
  | link receiver turn =>
    exact ⟨rfl, same.onLink receiver fun link registry => turn.apply link registry, rfl⟩
  | elsewhere receiver endpoint => exact ⟨rfl, same.withEndpoint receiver endpoint, rfl⟩
  | join endpoint => exact ⟨rfl, same.join endpoint, rfl⟩
  | leave receiver =>
    obtain ⟨endpoints, found⟩ := same
    exact ⟨rfl, .intro endpoints found, rfl⟩
  | announce registry =>
    obtain ⟨endpoints, found⟩ := same
    exact ⟨rfl, .intro endpoints found, rfl⟩
  | advance span =>
    obtain ⟨endpoints, found⟩ := same
    exact ⟨rfl, .intro endpoints found, rfl⟩

theorem Alike.allowed (alike : desk.Alike other) (allowed : other.Allowed move) :
    desk.Allowed move := by
  cases move with
  | link receiver turn =>
    cases turn with
    | carry link =>
      intro before there
      exact allowed before ((alike.client.link receiver).symm.trans there)
    | receive message => trivial
    | close reason => trivial
  | elsewhere receiver endpoint =>
    obtain ⟨off, before, there, unlinked⟩ := allowed
    exact ⟨off, before, (alike.client.endpoint receiver).trans there, unlinked⟩
  | join endpoint => exact allowed
  | request _ | claim _ _ | look _ | abort _ | cancel _ | drop _ | leave _ | announce _ | advance _ =>
    trivial

end Desk

end Farcall
