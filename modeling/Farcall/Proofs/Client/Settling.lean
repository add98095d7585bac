import Farcall.Proofs.Client.Alike

set_option autoImplicit false

/-!
# Settling is a course

A client that is settled lets its links run and then looks at its tasks in order. All of that is made
of moves, so a client that came out of a course and is settled still is one that comes out of a
course, and what holds of every course holds of it.
-/

namespace Farcall

/-! ## Runs of a link -/

def Link.Carries (link after : Link) : Prop :=
  after.association = link.association ∧ after.outbound <:+ link.outbound

def LinkTurn.Fair (link : Link) : LinkTurn → Prop
  | carry after => link.Carries after
  | _ => True

namespace Link

namespace Pumped

def turn (p : Pumped) (turn : LinkTurn) : Pumped :=
  let after := turn.apply p.link p.registry
  { after with events := after.events ++ p.events }

inductive Turns : Pumped → Pumped → Prop
  | refl (p : Pumped) : Turns p p
  | next {p q : Pumped} (turn : LinkTurn) (fair : turn.Fair p.link) (rest : Turns (p.turn turn) q) :
      Turns p q

theorem Turns.trans {p q r : Pumped} (h : Turns p q) (h' : Turns q r) : Turns p r := by
  induction h with
  | refl p => exact h'
  | next turn fair rest ih => exact .next turn fair (ih h')

theorem turns_carry {p : Pumped} {link : Link} (carries : p.link.Carries link) :
    Turns p { p with link } :=
  .next (.carry link) carries (.refl _)

theorem turns_receive (message : Bytes) (p : Pumped) : Turns p (receive message p) := by
  have same : p.turn (.receive message) = receive message p := by
    simp [turn, LinkTurn.apply, receive]
  exact .next (.receive message) trivial (same ▸ .refl _)

theorem turns_close (reason : String) (p : Pumped) :
    Turns p { p with link := (p.link.close reason).2 } :=
  .next (.close reason) trivial (.refl _)

end Pumped

open Pumped (Turns)

theorem Carries.refl (link : Link) : link.Carries link := ⟨rfl, List.suffix_refl _⟩

theorem send_same {link after : Link} {message : Bytes} (sent : link.send message = .ok after) :
    after.association = link.association := by
  unfold send at sent
  split at sent
  · cases sent
  · split at sent
    · cases sent
      rfl
    · cases sent

theorem write_cases (messages : List Bytes) (link : Link) :
    ∃ after : Link, after.association = link.association ∧ after.outbound = [] ∧
      (write messages link = after ∨ ∃ reason, write messages link = (after.close reason).2) := by
  induction messages generalizing link with
  | nil => exact ⟨{ link with outbound := [] }, rfl, rfl, .inl rfl⟩
  | cons message rest ih =>
    rw [write]
    cases sent : link.send message with
    | ok next =>
      obtain ⟨after, same, empty, written⟩ := ih next
      exact ⟨after, same.trans (send_same sent), empty, written⟩
    | error e =>
      exact ⟨{ link with outbound := [], writerStopped := true }, rfl, rfl,
        .inr ⟨"send failed: " ++ e.message, rfl⟩⟩

theorem runWriter_turns (p : Pumped) : Turns p { p with link := p.link.runWriter } := by
  unfold runWriter
  split
  · exact .refl p
  · obtain ⟨after, same, empty, written⟩ := write_cases p.link.outbound p.link
    have carried : Turns p { p with link := after } :=
      Pumped.turns_carry ⟨same, empty ▸ List.nil_suffix⟩
    rcases written with written | ⟨reason, written⟩
    · rwa [written]
    · rw [written]
      exact carried.trans (Pumped.turns_close reason _)

theorem beginReceive_carries {link after : Link} (begun : link.beginReceive = .ok after) :
    link.Carries after := by
  unfold beginReceive at begun
  split at begun
  · cases begun
    exact .refl link
  · split at begun
    · cases begun
    · cases begun
      exact ⟨rfl, List.suffix_refl _⟩

theorem stopPump_turns {p : Pumped} {link : Link} (carries : p.link.Carries link) (reason : String)
    (messages : List Bytes) :
    Turns p { p with link := { link.stopPump reason with fromHost := messages } } := by
  have carried : Turns p { p with link := { link with pumpStopped := true, fromHost := messages } } :=
    Pumped.turns_carry carries
  exact carried.trans (Pumped.turns_close reason _)

theorem pump_turns (messages : List Bytes) (p : Pumped) : Turns p (pump messages p) := by
  induction messages generalizing p with
  | nil =>
    rw [pump]
    cases begun : p.link.beginReceive with
    | error e => exact stopPump_turns (.refl _) e.message []
    | ok link =>
      have carries := beginReceive_carries begun
      dsimp only
      split
      · exact Pumped.turns_carry carries
      · exact stopPump_turns carries "stream closed" []
  | cons message rest ih =>
    rw [pump]
    cases begun : p.link.beginReceive with
    | error e => exact stopPump_turns (.refl _) e.message (message :: rest)
    | ok link =>
      have carried : Turns p { p with link } := Pumped.turns_carry (beginReceive_carries begun)
      exact (carried.trans (Pumped.turns_receive message _)).trans (ih _)

/-- All that a link does while it runs is made of turns. -/
theorem run_turns (link : Link) (registry : Registry) :
    Turns ⟨link, registry, []⟩ (link.run registry) := by
  have written := runWriter_turns ⟨link, registry, []⟩
  unfold run runPump
  split
  · exact written
  · exact written.trans (pump_turns _ _)

end Link

/-! ## Clients whose links run -/

namespace Client

variable {client : Client} {receiver : ReceiverId} {endpoint : Endpoint}

def putLink (client : Client) (receiver : ReceiverId) (endpoint : Endpoint) (p : Link.Pumped) :
    Client :=
  { (client.withEndpoint receiver (endpoint.withLink p.link)).withRegistry p.registry with
    events := p.events ++ client.events }

theorem endpoint_putLink (p : Link.Pumped) :
    (client.putLink receiver endpoint p).endpoint? receiver = some (endpoint.withLink p.link) :=
  Std.TreeMap.getElem?_insert_self

theorem link_putLink (p : Link.Pumped) :
    (client.putLink receiver endpoint p).link? receiver = some p.link := by
  rw [link?, endpoint_putLink]
  rfl

theorem putLink_putLink (client : Client) (receiver : ReceiverId) (endpoint : Endpoint)
    (p q : Link.Pumped) :
    ((client.putLink receiver endpoint p).putLink receiver (endpoint.withLink p.link) q).Same
      (client.putLink receiver endpoint { q with events := q.events ++ p.events }) := by
  have events : q.events ++ (p.events ++ client.events) = q.events ++ p.events ++ client.events :=
    (List.append_assoc ..).symm
  unfold putLink
  rw [events]
  refine .intro _ fun n => ?_
  simp only [withEndpoint, withRegistry, Std.TreeMap.getElem?_insert]
  split <;> rfl

theorem onLink_putLink (p : Link.Pumped) (turn : LinkTurn) :
    ((client.putLink receiver endpoint p).onLink receiver fun link registry =>
      turn.apply link registry).Same (client.putLink receiver endpoint (p.turn turn)) := by
  have put := client.putLink_putLink receiver endpoint p (turn.apply p.link p.registry)
  unfold onLink
  rw [endpoint_putLink]
  exact put

theorem same_putLink (there : client.endpoint? receiver = some endpoint) {link : Link}
    (linked : endpoint.link? = some link) :
    client.Same (client.putLink receiver endpoint ⟨link, client.registry, []⟩) := by
  have own : endpoint.withLink link = endpoint := by
    rw [Endpoint.withLink, ← Endpoint.kind_of_link linked]
  refine .intro _ fun n => ?_
  simp only [own, withEndpoint, withRegistry, Std.TreeMap.getElem?_insert]
  split
  · next here =>
    rw [← Std.LawfulEqCmp.eq_of_compare here]
    exact there
  · rfl

theorem tasks_runLink (client : Client) (receiver : ReceiverId) :
    (client.runLink receiver).tasks = client.tasks := by
  unfold runLink
  split
  · rfl
  · split <;> rfl

theorem tasks_runLinks (client : Client) : client.runLinks.tasks = client.tasks := by
  unfold runLinks
  generalize client.endpoints.keys = numbers
  induction numbers generalizing client with
  | nil => rfl
  | cons number rest ih => exact (ih _).trans (tasks_runLink client ⟨number⟩)

def withTasks (client : Client) (tasks : List Task) : Client := { client with tasks }

theorem others_of_distinct {kept rest : List Task} {task : Task}
    (distinct : ((kept ++ task :: rest).map (·.number)).Nodup) :
    ∀ other ∈ kept ++ rest, other.number ≠ task.number := by
  rw [List.map_append, List.map_cons, List.nodup_middle, ← List.map_append] at distinct
  intro other mem same
  exact (List.nodup_cons.mp distinct).1 (same ▸ List.mem_map_of_mem mem)

theorem find_of_distinct {kept rest : List Task} {task : Task}
    (distinct : ((kept ++ task :: rest).map (·.number)).Nodup) :
    (kept ++ task :: rest).find? (·.number = task.number) = some task := by
  refine List.find?_eq_some_iff_append.mpr ⟨by simp, kept, rest, rfl, fun other mem => ?_⟩
  simpa using others_of_distinct distinct other (List.mem_append_left rest mem)

theorem withoutTask_of_distinct (client : Client) {kept rest : List Task} {task : Task}
    (distinct : ((kept ++ task :: rest).map (·.number)).Nodup) :
    (client.withTasks (kept ++ task :: rest)).withoutTask task.number =
      client.withTasks (kept ++ rest) := by
  have left : (kept ++ task :: rest).filter (·.number ≠ task.number) = kept ++ rest := by
    rw [List.filter_append, List.filter_cons_of_neg (by simp), ← List.filter_append]
    refine List.filter_eq_self.mpr fun other mem => ?_
    simpa using others_of_distinct distinct other mem
  rw [withoutTask, withTasks, left]
  rfl

theorem look_withTasks (client : Client) (tasks : List Task) (work : Work) (deadline : Nat) :
    (client.withTasks tasks).look work deadline =
      ((client.look work deadline).1, (client.look work deadline).2.withTasks tasks) := by
  rw [look, look]
  cases there : client.endpoint? work.receiver with
  | none => rw [visit_of_absent there]; exact visit_of_absent there
  | some endpoint => rw [visit_of_there there]; exact visit_of_there there

end Client

/-! ## Where courses lead -/

def Reached (config : Config) (desk : Desk) : Prop :=
  ∃ turns last, Course config turns last ∧ last.Alike desk

namespace Reached

variable {config : Config} {desk other : Desk} {client : Client} {held : List Future}

theorem alike (reached : Reached config desk) (same : desk.Alike other) : Reached config other := by
  obtain ⟨turns, last, course, at_last⟩ := reached
  exact ⟨turns, last, course, at_last.trans same⟩

theorem start (config : Config) : Reached config ⟨.ofConfig config, []⟩ :=
  ⟨[], _, .start, .refl _⟩

theorem act (reached : Reached config desk) (move : Move) (allowed : desk.Allowed move) :
    Reached config (desk.act move).2 := by
  obtain ⟨turns, last, course, alike⟩ := reached
  exact ⟨_, _, course.turn (alike.allowed allowed), (alike.act move).alike⟩

theorem turns {receiver : ReceiverId} {endpoint : Endpoint} {p q : Link.Pumped}
    (reached : Reached config ⟨client.putLink receiver endpoint p, held⟩)
    (turns : Link.Pumped.Turns p q) :
    Reached config ⟨client.putLink receiver endpoint q, held⟩ := by
  induction turns with
  | refl p => exact reached
  | @next p q turn fair rest ih =>
    have allowed : Desk.Allowed ⟨client.putLink receiver endpoint p, held⟩ (.link receiver turn) := by
      cases turn with
      | carry link =>
        intro before there
        obtain rfl : p.link = before := Option.some.inj ((Client.link_putLink _).symm.trans there)
        exact fair
      | receive message => trivial
      | close reason => trivial
    exact ih ((reached.act (.link receiver turn) allowed).alike ⟨Client.onLink_putLink p turn, rfl⟩)

theorem runLink (reached : Reached config ⟨client, held⟩) (receiver : ReceiverId) :
    Reached config ⟨client.runLink receiver, held⟩ := by
  unfold Client.runLink
  split
  · exact reached
  · next endpoint there =>
    split
    · exact reached
    · next link linked =>
      have put : Reached config ⟨client.putLink receiver endpoint ⟨link, client.registry, []⟩, held⟩ :=
        reached.alike ⟨Client.same_putLink there linked, rfl⟩
      exact put.turns (link.run_turns client.registry)

theorem runLinks (reached : Reached config ⟨client, held⟩) :
    Reached config ⟨client.runLinks, held⟩ := by
  unfold Client.runLinks
  generalize client.endpoints.keys = numbers
  induction numbers generalizing client with
  | nil => exact reached
  | cons number rest ih => exact ih (reached.runLink ⟨number⟩)

theorem distinct (reached : Reached config desk) : (desk.client.tasks.map (·.number)).Nodup := by
  obtain ⟨turns, last, course, alike⟩ := reached
  rw [← alike.client.tasks]
  exact course.ordered.numbered.tasks

/-- Looking at the tasks in order is made of looks. Those before have been kept. -/
theorem lookAtAll (kept rest : List Task)
    (reached : Reached config ⟨client.withTasks (kept ++ rest), held⟩) :
    Reached config ⟨(Client.lookAtAll rest client).2.withTasks
        (kept ++ (Client.lookAtAll rest client).2.tasks),
      held ++ (Client.lookAtAll rest client).1.flatMap (·.2.future?.toList)⟩ := by
  -- the client that looks has all tasks still, the desk only those that go on and the rest
  induction rest generalizing kept client held with
  | nil => simpa [Client.lookAtAll, Client.withTasks] using reached
  | cons task rest ih =>
    have distinct := reached.distinct
    have there := Client.find_of_distinct distinct
    have next := reached.act (.look task.number) trivial
    have looked := client.look_withTasks (kept ++ task :: rest) task.work task.deadline
    rw [Client.lookAtAll]
    cases given : client.look task.work task.deadline with
    | mk result after =>
      rw [given] at looked
      cases result with
      | none =>
        rw [Desk.act, Desk.look_of_waits there looked, List.append_cons] at next
        simpa [Client.withTasks] using ih (kept ++ [task]) next
      | some outcome =>
        rw [Desk.act, Desk.look_of_ended there looked, after.withoutTask_of_distinct distinct] at next
        simpa [Client.withTasks, TakenUp.future?] using ih kept next

/-- Settling a client is a course of its own. -/
theorem settle (reached : Reached config ⟨client, held⟩) :
    Reached config ⟨client.settle.2, held ++ client.settle.1.flatMap (·.2.future?.toList)⟩ := by
  have ran : Reached config ⟨client.runLinks.withTasks ([] ++ client.tasks), held⟩ := by
    rw [List.nil_append, ← Client.tasks_runLinks]
    exact reached.runLinks
  exact ran.lookAtAll

end Reached

end Farcall
