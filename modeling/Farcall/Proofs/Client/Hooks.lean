import Farcall.Proofs.Client.Alike
import Farcall.Proofs.Client.Awaiting
import Farcall.Proofs.Client.Completion
import Farcall.Proofs.Correlation.Claims

set_option autoImplicit false

/-!
# What interceptors see

Interceptors are shown an invocation one after the other, until one of them stops it. They are handed
a result in reverse order, and only a result that somebody claimed: a wait that fails, a call that
goes on and a caller that still waits are nothing to them. What an interceptor does with what it sees
is left open.
-/

namespace Farcall

namespace Interceptor

/-- Interceptors let an invocation pass. Each sees what the one before made of it, and finds the
journal as that one left it. -/
inductive Passes : List Interceptor → Invocation → Journal → Invocation → Journal → Prop
  | nil (invocation : Invocation) (journal : Journal) :
      Passes [] invocation journal invocation journal
  | cons {i : Interceptor} {rest : List Interceptor} {invocation given seen : Invocation}
      {journal noted last : Journal} (lets : i.before invocation journal = (.ok given, noted))
      (others : Passes rest given noted seen last) : Passes (i :: rest) invocation journal seen last

/-- Interceptors are handed a result, the last one first. Each hands on what it makes of it. -/
inductive Returns (context : Invocation) :
    List Interceptor → CallResult → Journal → CallResult → Journal → Prop
  | nil (result : CallResult) (journal : Journal) : Returns context [] result journal result journal
  | cons {i : Interceptor} {rest : List Interceptor} {result given last : CallResult}
      {journal noted final : Journal} (others : Returns context rest result journal given noted)
      (hands : i.after context given noted = (last, final)) :
      Returns context (i :: rest) result journal last final

theorem beforeSend_cases (interceptors : List Interceptor) (invocation : Invocation)
    (journal : Journal) :
    (∃ seen noted, Passes interceptors invocation journal seen noted ∧
      beforeSend interceptors invocation journal = (.ok seen, noted)) ∨
    ∃ front i back seen noted e last, interceptors = front ++ i :: back ∧
      Passes front invocation journal seen noted ∧ i.before seen noted = (.error e, last) ∧
      beforeSend interceptors invocation journal = (.error e, last) := by
  induction interceptors generalizing invocation journal with
  | nil => exact .inl ⟨_, _, .nil invocation journal, rfl⟩
  | cons i rest ih =>
    rw [beforeSend]
    cases given : i.before invocation journal with
    | mk result noted =>
      cases result with
      | error e => exact .inr ⟨[], i, rest, _, _, e, noted, rfl, .nil invocation journal, given, rfl⟩
      | ok shown =>
        rcases ih shown noted with ⟨seen, last, passes, sent⟩ |
          ⟨front, stopper, back, seen, last, e, final, rfl, passes, stops, sent⟩
        · exact .inl ⟨seen, last, .cons given passes, sent⟩
        · exact .inr ⟨i :: front, stopper, back, seen, last, e, final, rfl, .cons given passes, stops,
            sent⟩

theorem returns_afterResult (interceptors : List Interceptor) (context : Invocation)
    (result : CallResult) (journal : Journal) :
    Returns context interceptors result journal
      (afterResult interceptors context result journal).1
      (afterResult interceptors context result journal).2 := by
  induction interceptors with
  | nil => exact .nil result journal
  | cons i rest ih => exact .cons ih rfl

end Interceptor

/-! ## What a look tells them -/

/-- A wait is over: the call has its result or its failure, or it is given up. -/
def Outcome.Final (outcome : Outcome) : Prop :=
  outcome = .discarded ∨ outcome.result?.isSome = true

/-- What the interceptors of a call hear of it when its caller looks into its box, and what comes of
that look. They hear of nothing but a result. -/
inductive Future.Hears (call : Future) (journal : Journal) :
    Option (Delivery LazyResult) → Option Outcome → Journal → Prop
  | handed {result : LazyResult} {outcome : Outcome} {given : CallResult} {noted : Journal}
      (gives : outcome.result? = some given)
      (returns : Interceptor.Returns call.ready.invocation call.interceptors result.read.1 journal
        given noted) : Hears call journal (some (.result result)) (some outcome) noted
  | failed {e : InvocationError} {outcome : Outcome} (gives : outcome.result? = some (.error e)) :
      Hears call journal (some (.failed e)) (some outcome) journal
  | refused {e : InvocationError} {outcome : Outcome}
      (late : e = .timeout call.slot.id ∨ e = .correlation (.alreadyClaimed call.slot.id))
      (gives : outcome.result? = some (.error e)) : Hears call journal none (some outcome) journal
  | goesOn {outcome : Outcome} (goes : outcome.GoesOn) : Hears call journal none (some outcome) journal
  | waits : Hears call journal none none journal

theorem Future.hears_arrived {call : Future} {journal : Journal} {outcome : Outcome}
    (d : Delivery LazyResult) (gives : outcome.result? = some (call.receive journal d.toExcept).1) :
    call.Hears journal (some d) (some outcome) (call.receive journal d.toExcept).2 := by
  cases d with
  | result r =>
    exact .handed gives
      (Interceptor.returns_afterResult call.interceptors call.ready.invocation r.read.1 journal)
  | failed e => exact .failed gives

namespace Site

variable {site : Site} {link : Link} {work : Work} {call : Future} {hold : Hold}

theorem not_read_expire (table : Table LazyResult) (slot : Slot) :
    ¬ (table.expire slot).2.Read slot.generation := by
  have final : (table.giveUp slot true).1.answer.Final := trivial
  exact Table.not_read_of_giveUp final

structure Heard (call : Future) (link : Link) (site : Site) (looked : Option Outcome × Site) : Prop where
  hears : call.Hears site.journal (link.association.table.arrival? call.slot) looked.1 looked.2.journal
  leaves : ∃ table, looked.2.On (link.withTable table) ∧
    ∀ outcome, looked.1 = some outcome → outcome.Final → ¬ table.Read call.slot.generation

theorem heard_of_arrived {d : Delivery LazyResult} (on : site.On link)
    (of : work.call? = some call) (held : link.association.table.holder? call.slot = some hold)
    (arrived : link.association.table.arrival? call.slot = some d) (late : Bool) :
    Heard call link site (site.look work late) := by
  obtain ⟨outcome, ended, gives, noted⟩ := result_of_arrived of
    (by rw [on.table_eq]; exact arrived) late
  obtain ⟨table, left, -, unread⟩ := spent_of_arrived on of held arrived late
  refine ⟨?_, table, left, fun _ _ _ => unread⟩
  rw [arrived, ended, noted]
  exact Future.hears_arrived d gives

theorem expire_fst (table : Table LazyResult) (slot : Slot) :
    (table.expire slot).1 = .timeout slot.id := rfl

theorem heard_detach (on : site.On link) (empty : link.association.table.arrival? call.slot = none) :
    Heard call link site (some (site.detach call).1, (site.detach call).2) := by
  by_cases unit : call.returns = .unit
  · have given : site.detach call = (.discarded, site.discardSlot call.slot) := by
      rw [detach, unit]
    rw [given]
    refine ⟨by rw [empty]; exact .goesOn trivial, _, on.discardSlot call.slot, fun _ _ _ => ?_⟩
    exact Table.not_read_discard _ call.slot
  · rw [detach_of_result unit]
    refine ⟨by rw [empty]; exact .goesOn trivial, _, on, ?_⟩
    intro outcome given final
    rw [← Option.some.inj given] at final
    rcases final with discarded | ended
    · cases discarded
    · cases ended

theorem heard_reply (on : site.On link) (empty : link.association.table.arrival? call.slot = none)
    (owned : link.association.table.owns call.slot = true) (late : Bool) :
    Heard call link site (site.lookForReply call late) := by
  rw [lookForReply_of_empty site (by rw [on.table_eq]; exact empty)
    (by rw [on.table_eq]; exact owned), on.table_eq]
  split
  · have left := on.withTable ((link.association.table.attend call.slot).useSignal call.slot).2
    have still := (Table.arrival_useSignal (link.association.table.attend call.slot) call.slot
      call.slot).trans ((Table.arrival_attend _ _ _).trans empty)
    obtain ⟨hears, leaves⟩ := heard_detach left still
    refine ⟨?_, leaves⟩
    rw [show (link.withTable _).association.table.arrival? call.slot = none from still] at hears
    rw [empty]
    exact hears
  · split
    · have expired := (on.withTable
        ((link.association.table.attend call.slot).expire call.slot).2).dropSlot call.slot
      refine ⟨?_, _, expired, fun _ _ _ => Table.not_read_drop _ call.slot⟩
      rw [empty]
      exact .refused (.inl (expire_fst _ call.slot)) rfl
    · exact ⟨by rw [empty]; exact .waits, _, on.withTable _, fun _ given => by cases given⟩

theorem heard_claim (on : site.On link) (empty : link.association.table.arrival? call.slot = none)
    (owned : link.association.table.owns call.slot = true) (late : Bool) :
    Heard call link site (site.lookForClaim call late) := by
  rw [lookForClaim_of_empty site (by rw [on.table_eq]; exact empty)
    (by rw [on.table_eq]; exact owned), on.table_eq]
  split
  · have expired := on.withTable (link.association.table.expire call.slot).2
    refine ⟨?_, _, expired, fun _ _ _ => not_read_expire _ call.slot⟩
    rw [empty]
    exact .refused (.inl (expire_fst _ call.slot)) rfl
  · exact ⟨by rw [empty]; exact .waits, link.association.table, on, fun _ given => by cases given⟩

theorem heard_look (on : site.On link) (c : link.association.table.Coupled)
    (of : work.call? = some call) (held : link.association.table.holder? call.slot = some hold)
    (reads : hold ≠ .gone) (late : Bool) : Heard call link site (site.look work late) := by
  cases arrived : link.association.table.arrival? call.slot with
  | some d => exact heard_of_arrived on of held arrived late
  | none =>
    have owned := Table.owns_of_read c ⟨hold, held⟩ (Table.read_of_holder held reads) arrived
    cases work with
    | reply own =>
      obtain rfl := Option.some.inj of
      exact heard_reply on arrived owned late
    | claiming own =>
      obtain rfl := Option.some.inj of
      exact heard_claim on arrived owned late
    | _ => cases of

end Site

theorem Table.arrival_of_gone {table : Table LazyResult} (c : table.Coupled) {slot : Slot}
    (gone : table.holder? slot = some .gone) : table.arrival? slot = none := by
  obtain ⟨box, at_g, -, hold⟩ := Table.box_of_holder gone
  rw [arrival?, at_g]
  exact c.spent _ box at_g hold

structure Client.Heard (client : Client) (call : Future) (link : Link) (outcome? : Option Outcome)
    (after : Client) : Prop where
  hears : call.Hears client.journal (link.association.table.arrival? call.slot) outcome? after.journal
  leaves : ∃ behind, after.link? call.receiver = some behind ∧ ∀ outcome, outcome? = some outcome →
    outcome.Final → ¬ behind.association.table.Read call.slot.generation

namespace Client

variable {client : Client} {link : Link} {work : Work} {call : Future} {hold : Hold}

theorem Heard.behind {before after : Client} {earlier : Link} {outcome? : Option Outcome}
    (heard : client.Heard call link outcome? after) (journal : client.journal = before.journal)
    (same : link.association.table.arrival? call.slot =
      earlier.association.table.arrival? call.slot) : before.Heard call earlier outcome? after := by
  obtain ⟨hears, leaves⟩ := heard
  rw [journal, same] at hears
  exact ⟨hears, leaves⟩

theorem heard_look (linked : client.link? call.receiver = some link)
    (c : link.association.table.Coupled) (of : work.call? = some call)
    (held : link.association.table.holder? call.slot = some hold) (reads : hold ≠ .gone)
    (deadline : Nat) :
    client.Heard call link (client.look work deadline).1 (client.look work deadline).2 := by
  rw [← Work.receiver_of_call of] at linked
  obtain ⟨site, on, same, given, left⟩ := client.look_linked work deadline linked
  obtain ⟨hears, table, leaves, final⟩ :=
    Site.heard_look on c of held reads (decide (deadline ≤ client.now))
  have left := left _ leaves
  rw [← given] at hears final
  rw [← left.journal, same] at hears
  refine ⟨hears, link.withTable table, ?_, final⟩
  rw [← Work.receiver_of_call of]
  exact left.link

theorem claim_of_gone (linked : client.link? call.receiver = some link)
    (gone : link.association.table.holder? call.slot = some .gone) (timeout : Nat) :
    (client.claim call timeout).1 =
        .ended (.claimed (.error (.correlation (.alreadyClaimed call.slot.id))) call) ∧
      client.Left call.receiver link client.journal (client.claim call timeout).2 := by
  obtain ⟨site, on, noted, result, left⟩ := visit_linked
    (.ended (.failed (.unknownReceiver call.receiver)))
    (fun site : Site => site.startClaim timeout call) linked
  have started : site.startClaim timeout call =
      (.ended (.claimed (.error (.correlation (.alreadyClaimed call.slot.id))) call), site) := by
    rw [Site.startClaim, on.table_eq, Table.beginWait_of_gone gone, ← on.table_eq]
    exact congrArg (Prod.mk _) site.withTable_self
  rw [started] at result left
  rw [← noted]
  exact ⟨result, left _ on⟩

end Client

/-! ## What a turn tells them -/

def TakenUp.outcome? : TakenUp → Option Outcome
  | ended outcome => some outcome
  | waits _ => none

namespace Turn

def outcome? (turn : Turn) : Option Outcome := turn.result.bind (·.outcome?)

/-- The call whose result is looked for: by the task that waits for it, or by the caller who held
the call and claims it. -/
def sought? (turn : Turn) : Option Future :=
  match turn.move with
  | .look number => (turn.before.client.tasks.find? (·.number = number)).bind (·.work.call?)
  | .claim place _ => turn.before.held[place]?
  | _ => none

end Turn

namespace Desk

variable {desk : Desk} {link : Link} {call : Future} {move : Move}

theorem heard_takeUp {client : Client} {work : Work} {timeout : Nat}
    (heard : client.Heard call link (client.look work (client.now + timeout)).1
      (client.look work (client.now + timeout)).2) (held : List Future) :
    client.Heard call link ((takeUp held (.running work timeout, client)).1.bind (·.outcome?))
      (takeUp held (.running work timeout, client)).2.client := by
  rcases client.takeUp_running work timeout with ⟨outcome, ended, taken⟩ | ⟨waits, taken⟩
  · rw [takeUp, taken]
    rw [ended] at heard
    exact heard
  · rw [takeUp, taken]
    rw [waits] at heard
    exact ⟨heard.hears, heard.leaves⟩

theorem Ordered.heard_look (ordered : desk.Ordered) {number : Nat}
    (sought : Turn.sought? ⟨desk, .look number⟩ = some call)
    (linked : desk.client.link? call.receiver = some link) :
    desk.client.Heard call link (Turn.outcome? ⟨desk, .look number⟩)
      (Turn.after ⟨desk, .look number⟩).client := by
  obtain ⟨task, found, of⟩ := Option.bind_eq_some_iff.mp sought
  have fits := (ordered.fit.perm (ordered.perm_found found)).fits _ link linked
  have held := fits.stands task.work.place (List.mem_cons_self ..) (Work.receiver_of_call of)
  have held : link.association.table.holder? task.work.slot = some task.work.hold := held
  rw [Work.slot_of_call of] at held
  have reads : task.work.hold ≠ .gone := by
    cases task.work <;> exact nofun
  have heard := Client.heard_look linked fits.sound.toCoupled of held reads task.deadline
  change desk.client.Heard call link ((desk.look number).1.bind (·.outcome?)) (desk.look number).2.client
  cases looked : desk.client.look task.work task.deadline with
  | mk result after =>
    rw [looked] at heard
    cases result with
    | none =>
      rw [look_of_waits found looked]
      exact heard
    | some outcome =>
      rw [look_of_ended found looked]
      exact ⟨heard.hears, heard.leaves⟩

theorem Ordered.heard_claim (ordered : desk.Ordered) {place timeout : Nat}
    (sought : Turn.sought? ⟨desk, .claim place timeout⟩ = some call)
    (linked : desk.client.link? call.receiver = some link) :
    desk.client.Heard call link (Turn.outcome? ⟨desk, .claim place timeout⟩)
      (Turn.after ⟨desk, .claim place timeout⟩).client := by
  have found : desk.held[place]? = some call := sought
  have fits := (ordered.fit.perm (perm_held found)).fits _ link linked
  have kept : link.association.table.Kept call.slot :=
    fits.stands call.place (List.mem_cons_self ..) rfl
  have acted : desk.act (.claim place timeout) =
      takeUp (desk.held.eraseIdx place) (desk.client.claim call timeout) := by
    rw [act, onHeld, found]
  rw [Turn.outcome?, Turn.result, Turn.after]
  dsimp only
  rw [acted]
  rcases kept with held | ⟨gone, -⟩
  · obtain ⟨started, begun⟩ := Client.claim_of_held linked held timeout
    obtain ⟨waits, waiting⟩ := Table.beginWait_of_held held
    have sound : (link.association.table.perform (.beginWait call.slot)).2.Sound :=
      fits.sound.perform (.inl held)
    rw [Table.perform, waits] at sound
    have of : (Work.claiming call).call? = some call := rfl
    have heard := Client.heard_look begun.link sound.toCoupled of waiting (by decide)
      ((desk.client.claim call timeout).2.now + timeout)
    rw [show desk.client.claim call timeout = (.running (.claiming call) timeout, _) from
      Prod.ext started rfl]
    have same := Table.arrival_setHold link.association.table call.slot call.slot .wait
    exact (heard_takeUp heard _).behind begun.journal same
  · obtain ⟨started, begun⟩ := Client.claim_of_gone linked gone timeout
    rw [takeUp, started]
    refine ⟨?_, link, begun.link, fun _ _ _ => Table.not_read_of_gone gone⟩
    rw [Table.arrival_of_gone fits.sound.toCoupled gone]
    have noted : (desk.client.claim call timeout).2.journal = desk.client.journal := begun.journal
    change call.Hears _ none _ (desk.client.claim call timeout).2.journal
    rw [noted]
    exact .refused (.inr rfl) rfl

theorem Ordered.heard (ordered : desk.Ordered) (sought : Turn.sought? ⟨desk, move⟩ = some call)
    (linked : desk.client.link? call.receiver = some link) :
    desk.client.Heard call link (Turn.outcome? ⟨desk, move⟩) (Turn.after ⟨desk, move⟩).client := by
  cases move with
  | look number => exact ordered.heard_look sought linked
  | claim place timeout => exact ordered.heard_claim sought linked
  | _ => cases sought

end Desk

/-! ## Turns that tell them nothing -/

theorem Site.journal_lookOnce (site : Site) (slot : Slot) (late : Bool) :
    (site.lookOnce slot late).2.journal = site.journal := by
  have looked : (site.lookFor slot late).2.journal = site.journal := by
    unfold Site.lookFor
    split
    · rfl
    · split <;> rfl
  unfold Site.lookOnce
  split
  · next given => rwa [given] at looked
  · next given =>
    rw [given] at looked
    exact looked
  · next given =>
    rw [given] at looked
    exact looked

theorem Site.journal_enqueue (site : Site) (bytes : Bytes) :
    (site.enqueue bytes).2.journal = site.journal := by
  unfold Site.enqueue
  split <;> rfl

theorem Site.journal_cancelCall (site : Site) (id : UInt16) :
    (site.cancelCall id).2.journal = site.journal := by
  unfold Site.cancelCall
  split
  · rfl
  · rfl
  · split
    · rfl
    · next bytes _ => exact site.journal_enqueue bytes

namespace Client

theorem journal_visit {α : Type} (client : Client) (receiver : ReceiverId) (dflt : α)
    {act : Site → α × Site} (keeps : ∀ site, (act site).2.journal = site.journal) :
    (client.visit receiver dflt act).2.journal = client.journal := by
  unfold visit
  split
  · rfl
  · exact keeps _

theorem journal_look {work : Work} (none : work.call? = none) (client : Client) (deadline : Nat) :
    (client.look work deadline).2.journal = client.journal := by
  refine client.journal_visit work.receiver Option.none fun site => ?_
  cases work with
  | opening receiver slot module bean view => exact site.journal_lookOnce slot _
  | stepping receiver slot step => exact site.journal_lookOnce slot _
  | _ => cases none

theorem journal_abort (client : Client) (number : Nat) :
    (client.abort number).journal = client.journal := by
  unfold abort
  split
  · rfl
  · refine journal_visit _ _ () fun site => ?_
    next task _ => cases task.work <;> rfl

theorem journal_cancelHeld (client : Client) (future : Future) :
    (client.cancelHeld future).2.journal = client.journal := by
  refine client.journal_visit future.receiver false fun site => ?_
  have told := site.journal_cancelCall future.slot.id
  dsimp only
  split
  · exact told
  · exact told

theorem journal_onLink (client : Client) (receiver : ReceiverId)
    (f : Link → Registry → Link.Pumped) : (client.onLink receiver f).journal = client.journal := by
  unfold onLink
  split
  · rfl
  · split <;> rfl

end Client

/-- A turn in which no result is looked for, no receiver joins and nothing is asked for tells
interceptors nothing. -/
theorem Desk.journal_act (desk : Desk) {move : Move} (nothing : Turn.sought? ⟨desk, move⟩ = none)
    (asks : ∀ request, move ≠ .request request) (joins : ∀ endpoint, move ≠ .join endpoint) :
    (desk.act move).2.client.journal = desk.client.journal := by
  cases move with
  | request request => exact absurd rfl (asks request)
  | join endpoint => exact absurd rfl (joins endpoint)
  | look number =>
    cases found : desk.client.tasks.find? (·.number = number) with
    | none =>
      rw [act, look_of_gone found]
    | some task =>
      have other : (desk.client.tasks.find? (·.number = number)).bind (·.work.call?) = none := nothing
      rw [found, Option.bind_some] at other
      have same := Client.journal_look other desk.client task.deadline
      cases looked : desk.client.look task.work task.deadline with
      | mk result after =>
        rw [looked] at same
        cases result with
        | none =>
          rw [act, look_of_waits found looked]
          exact same
        | some outcome =>
          rw [act, look_of_ended found looked]
          exact same
  | claim place timeout =>
    have found : desk.held[place]? = none := nothing
    rw [act, onHeld, found]
  | abort number => exact desk.client.journal_abort number
  | cancel place =>
    refine onHeld_keeps (fun after => after.client.journal = desk.client.journal) place rfl ?_
    exact fun future _ => desk.client.journal_cancelHeld future
  | drop place =>
    refine onHeld_keeps (fun after => after.client.journal = desk.client.journal) place rfl ?_
    exact fun future _ => desk.client.journal_visit future.receiver () fun _ => rfl
  | link receiver turn => exact desk.client.journal_onLink receiver _
  | elsewhere receiver endpoint => rfl
  | leave receiver => rfl
  | announce registry => rfl
  | advance span => rfl

end Farcall
