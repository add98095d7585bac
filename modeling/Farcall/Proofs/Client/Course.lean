import Farcall.Client.Core
import Farcall.Proofs.Correlation.Run

set_option autoImplicit false

/-!
# Courses of a client

All that can become of a client, one turn after the other: its callers ask for something, hold calls,
claim, cancel and drop them; work is looked at or broken off; messages of any bytes come from the
hosts, channels are closed, and the transport takes messages away. Receivers that have no link do as
they like. In which order all this comes is left open, so whatever a host and a scheduler can do is a
course.
-/

namespace Farcall

inductive Request where
  | call (proxy : Proxy) (method : Method) (arguments : List Value) (mode : Mode)
  | callAlone (proxy : Proxy) (method : Method) (arguments : List Value)
  | session (module : ModuleId) (bean view : String)
  | step (receiver : ReceiverId) (step : TxStep) (onePhase : Bool) (transaction : TransactionId)

inductive LinkTurn where
  | receive (message : Bytes)
  | close (reason : String)
  /-- The transport moves messages on, or stops. -/
  | carry (link : Link)

inductive Move where
  | request (request : Request)
  | claim (place : Nat) (timeout : Nat)
  | look (task : Nat)
  | abort (task : Nat)
  | cancel (place : Nat)
  | drop (place : Nat)
  | link (receiver : ReceiverId) (turn : LinkTurn)
  /-- A receiver without a link changes. -/
  | elsewhere (receiver : ReceiverId) (endpoint : Endpoint)
  | join (endpoint : Endpoint)
  | leave (receiver : ReceiverId)
  | announce (registry : Registry)
  | advance (span : Nat)

def Request.start (client : Client) : Request → Start × Client
  | .call proxy method arguments mode => client.dispatch proxy method arguments mode
  | .callAlone proxy method arguments => (Client.dispatchAlone proxy method arguments, client)
  | .session module bean view => client.createSession module bean view
  | .step receiver kind onePhase transaction => client.drive receiver kind onePhase transaction

def LinkTurn.apply (link : Link) (registry : Registry) : LinkTurn → Link.Pumped
  | receive message => Link.receive message ⟨link, registry, []⟩
  | close reason => ⟨(link.close reason).2, registry, []⟩
  | carry link => ⟨link, registry, []⟩

namespace Client

def link? (client : Client) (receiver : ReceiverId) : Option Link :=
  (client.endpoint? receiver).bind (·.link?)

def onLink (client : Client) (receiver : ReceiverId) (f : Link → Registry → Link.Pumped) : Client :=
  match client.endpoint? receiver with
  | none => client
  | some endpoint =>
    match endpoint.link? with
    | none => client
    | some link =>
      let after := f link client.registry
      { (client.withEndpoint receiver (endpoint.withLink after.link)).withRegistry after.registry with
        events := after.events ++ client.events }

end Client

def TakenUp.future? : TakenUp → Option Future
  | ended outcome => outcome.future?
  | waits _ => none

/-- A client, and the calls that its callers hold. -/
structure Desk where
  client : Client
  held : List Future

namespace Desk

/-- What something came to, while some calls are held; what comes with its outcome is held too. -/
def keep (held : List Future) (result : TakenUp × Client) : Option TakenUp × Desk :=
  (some result.1, ⟨result.2, held ++ result.1.future?.toList⟩)

def takeUp (held : List Future) (started : Start × Client) : Option TakenUp × Desk :=
  keep held (started.2.takeUp started.1)

def look (desk : Desk) (number : Nat) : Option TakenUp × Desk :=
  match desk.client.tasks.find? (·.number = number) with
  | none => (none, desk)
  | some task =>
    match desk.client.look task.work task.deadline with
    | (none, client) => (some (.waits number), ⟨client, desk.held⟩)
    | (some outcome, client) =>
      keep desk.held (.ended outcome,
        { client with tasks := client.tasks.filter (·.number ≠ number) })

def onHeld (desk : Desk) (place : Nat) (f : Future → Option TakenUp × Desk) :
    Option TakenUp × Desk :=
  match desk.held[place]? with
  | none => (none, desk)
  | some future => f future

def act (desk : Desk) : Move → Option TakenUp × Desk
  | .request request => takeUp desk.held (request.start desk.client)
  | .claim place timeout => desk.onHeld place fun future =>
    takeUp (desk.held.eraseIdx place) (desk.client.claim future timeout)
  | .look number => desk.look number
  | .abort number => (none, { desk with client := desk.client.abort number })
  | .cancel place => desk.onHeld place fun future =>
    (none, { desk with client := (desk.client.cancelHeld future).2 })
  | .drop place => desk.onHeld place fun future =>
    (none, ⟨desk.client.dropHeld future, desk.held.eraseIdx place⟩)
  | .link receiver turn =>
    (none, { desk with
      client := desk.client.onLink receiver fun link registry => turn.apply link registry })
  | .elsewhere receiver endpoint =>
    (none, { desk with client := desk.client.withEndpoint receiver endpoint })
  | .join endpoint => (none, { desk with client := (desk.client.join endpoint).2 })
  | .leave receiver => (none, { desk with client := (desk.client.leave receiver).2 })
  | .announce registry => (none, { desk with client := desk.client.withRegistry registry })
  | .advance span => (none, { desk with client := desk.client.advance span })

/-- The transport takes messages away and adds none, and it leaves the channel alone. A receiver
joins with a table that nobody has used. -/
def Allowed (desk : Desk) : Move → Prop
  | .link receiver (.carry link) => ∀ before, desk.client.link? receiver = some before →
    link.association = before.association ∧ link.outbound <:+ before.outbound
  | .elsewhere receiver endpoint => endpoint.link? = none ∧
    ∃ before, desk.client.endpoint? receiver = some before ∧ before.link? = none
  | .join endpoint => ∀ link, endpoint.link? = some link →
    (∃ limit trace, Run limit trace link.association.table) ∧
      link.association.table.nextGeneration = 0
  | _ => True

end Desk

/-- A move, and the desk that it met. -/
structure Turn where
  before : Desk
  move : Move

namespace Turn

def result (turn : Turn) : Option TakenUp := (turn.before.act turn.move).1

def after (turn : Turn) : Desk := (turn.before.act turn.move).2

end Turn

/-- The courses of a fresh client: the turns, first one first, and the desk at the end. -/
inductive Course (config : Config) : List Turn → Desk → Prop
  | start : Course config [] ⟨.ofConfig config, []⟩
  | turn {turns : List Turn} {desk : Desk} {move : Move} (course : Course config turns desk)
      (allowed : desk.Allowed move) :
      Course config (turns ++ [⟨desk, move⟩]) (desk.act move).2

namespace Course

variable {config : Config} {turns : List Turn} {desk : Desk}

theorem next {turn : Turn} (course : Course config turns turn.before)
    (allowed : turn.before.Allowed turn.move) : Course config (turns ++ [turn]) turn.after :=
  course.turn allowed

theorem joins (config : Config) (name : String) (limit : Nat) :
    let joined : Turn :=
      ⟨⟨.ofConfig config, []⟩, .join ⟨name, .linked (.named name limit none none), []⟩⟩
    Course config [joined] joined.after := by
  intro joined
  change Course config ([] ++ [joined]) joined.after
  refine Course.next .start ?_
  intro link linked
  obtain rfl := Option.some.inj linked
  exact ⟨⟨limit, [], .start⟩, rfl⟩

theorem of_prefix (course : Course config turns desk) {first : List Turn} {turn : Turn}
    (part : first ++ [turn] <+: turns) :
    Course config first turn.before ∧ turn.before.Allowed turn.move := by
  induction course with
  | start => simp at part
  | @turn turns desk move course allowed ih =>
    rcases List.prefix_concat_iff.mp part with whole | earlier
    · obtain ⟨rfl, same⟩ := List.append_inj' whole rfl
      obtain rfl := List.singleton_inj.mp same
      exact ⟨course, allowed⟩
    · exact ih earlier

theorem of_last {turn : Turn} (course : Course config (turns ++ [turn]) desk) :
    Course config turns turn.before ∧ turn.before.Allowed turn.move ∧ desk = turn.after := by
  generalize whole : turns ++ [turn] = all at course
  cases course with
  | start => simp at whole
  | turn course allowed =>
    obtain ⟨rfl, same⟩ := List.append_inj' whole rfl
    obtain rfl := List.singleton_inj.mp same
    exact ⟨course, allowed, rfl⟩

end Course

end Farcall
