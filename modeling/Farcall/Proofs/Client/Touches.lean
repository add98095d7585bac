import Farcall.Proofs.Client.Invariant

set_option autoImplicit false

/-!
# What a move does to a link

A move does one of a few things to each link of a client: nothing; operations by the slot of one task
or of one held call; a registration, and operations by the slot that it gave; a message to the host;
or what the turn of the link itself is. Everything that is to be said of links over a course is said
case by case of these.
-/

namespace Farcall

namespace Desk

/-- The place of the task or of the held call that a move is about. -/
def worker? (desk : Desk) : Move → Option Place
  | .look number | .abort number =>
    (desk.client.tasks.find? (·.number = number)).map (·.work.place)
  | .claim place _ | .drop place => desk.held[place]?.map Future.place
  | _ => none

inductive Touches (desk : Desk) (receiver : ReceiverId) (link : Link) : Move → Link → Prop
  | same {move : Move} : Touches desk receiver link move link
  | worked {move : Move} {place : Place} {table : Table LazyResult}
      (worker : desk.worker? move = some place) (here : place.receiver = receiver)
      (works : Table.Works place.slot link.association.table table) :
      Touches desk receiver link move (link.withTable table)
  | withdrawn {request : Request} {id : UInt16} {table : Table LazyResult}
      (registered : link.association.table.register.1 = .ok (link.association.table.enter id).1)
      (works : Table.Works (link.association.table.enter id).1
        (link.association.table.enter id).2 table)
      (gone : ¬ table.HasEntry link.association.table.nextGeneration) :
      Touches desk receiver link (.request request) (link.withTable table)
  | sent {request : Request} {id : UInt16} {table : Table LazyResult} {message : Bytes}
      (registered : link.association.table.register.1 = .ok (link.association.table.enter id).1)
      (works : Table.Works (link.association.table.enter id).1
        (link.association.table.enter id).2 table)
      (isOpen : link.association.closed = false) :
      Touches desk receiver link (.request request)
        (Site.queueing (link.withTable table) message)
  | told {place : Nat} {message : Bytes} :
      Touches desk receiver link (.cancel place) (Site.queueing link message)
  | turned {turn : LinkTurn} :
      Touches desk receiver link (.link receiver turn)
        (turn.apply link desk.client.registry).link

variable {desk : Desk} {client after : Client} {held : List Future} {receiver : ReceiverId}
  {link : Link} {move : Move}

def TouchesAt (desk : Desk) (receiver : ReceiverId) (link : Link) (move : Move) (client : Client) :
    Prop :=
  ∃ behind, client.link? receiver = some behind ∧ Touches desk receiver link move behind

theorem touchesAt_of_elsewhere {other : ReceiverId} (at_other : Client.At other client after)
    (apart : receiver ≠ other) (touches : desk.TouchesAt receiver link move client) :
    desk.TouchesAt receiver link move after := by
  obtain ⟨behind, found, given⟩ := touches
  exact ⟨behind, (at_other.elsewhere receiver apart).trans found, given⟩

theorem touchesAt_takeUp {start : Start} {mid : Link} {rest : List Place}
    (fit : client.Fit (start.places ++ rest)) (linked : client.link? receiver = some mid)
    (touches : Touches desk receiver link move mid)
    (further : ∀ work timeout, start = .running work timeout → work.receiver = receiver →
      ∀ table, Table.Works work.slot mid.association.table table →
        Touches desk receiver link move (mid.withTable table)) :
    desk.TouchesAt receiver link move (takeUp held (start, client)).2.client := by
  cases start with
  | ended outcome => exact ⟨mid, linked, touches⟩
  | running work timeout =>
    have looked : desk.TouchesAt receiver link move
        (client.look work (client.now + timeout)).2 := by
      by_cases here : receiver = work.receiver
      · subst here
        obtain ⟨last, found, looked⟩ :=
          Client.look_on (fit.fits _ mid linked) linked (client.now + timeout)
        obtain ⟨table, works, rfl⟩ := looked.works
        exact ⟨_, found, further work timeout rfl rfl table works⟩
      · exact touchesAt_of_elsewhere (client.look_at work _) here ⟨mid, linked, touches⟩
    rcases client.takeUp_running work timeout with ⟨outcome, ended, taken⟩ | ⟨waits, taken⟩
    · rw [takeUp, taken]
      exact looked
    · rw [takeUp, taken]
      exact looked

/-! ## Tasks and held calls -/

theorem Ordered.touches_look (ordered : desk.Ordered)
    (linked : desk.client.link? receiver = some link) (number : Nat) :
    desk.TouchesAt receiver link (.look number) (desk.look number).2.client := by
  cases found : desk.client.tasks.find? (·.number = number) with
  | none =>
    rw [look_of_gone found]
    exact ⟨link, linked, .same⟩
  | some task =>
    have worker : desk.worker? (.look number) = some task.work.place := by
      rw [worker?, found]
      rfl
    have touched : desk.TouchesAt receiver link (.look number)
        (desk.client.look task.work task.deadline).2 := by
      by_cases here : receiver = task.work.receiver
      · subst here
        have fits := (ordered.fit.perm (ordered.perm_found found)).fits _ link linked
        obtain ⟨behind, left, looked⟩ := Client.look_on fits linked task.deadline
        obtain ⟨table, works, rfl⟩ := looked.works
        exact ⟨_, left, .worked worker rfl works⟩
      · exact touchesAt_of_elsewhere (desk.client.look_at task.work task.deadline) here
          ⟨link, linked, .same⟩
    cases given : desk.client.look task.work task.deadline with
    | mk result after =>
      rw [given] at touched
      cases result with
      | none =>
        rw [look_of_waits found given]
        exact touched
      | some outcome =>
        rw [look_of_ended found given]
        exact touched

theorem touches_visit (place : Place) {act : Site → Unit × Site}
    (worker : desk.worker? move = some place)
    (linked : client.link? receiver = some link)
    (keeps : ∀ (b : Bool) (site : Site), site.Linked b → (act site).2.Linked b)
    (spec : ∀ site : Site, place.receiver = receiver → site.On link →
      ∃ table, (act site).2.Worked place.slot link table) :
    desk.TouchesAt receiver link move (client.visit place.receiver () act).2 := by
  by_cases here : receiver = place.receiver
  · rw [← here]
    refine Client.visit_on (P := fun _ behind => Touches desk receiver link move behind) linked ?_
    intro site on
    obtain ⟨table, worked⟩ := spec site here.symm on
    exact ⟨_, worked.on, .worked worker here.symm worked.works⟩
  · exact touchesAt_of_elsewhere (Client.visit_at keeps) here ⟨link, linked, .same⟩

theorem Ordered.touches_abort (ordered : desk.Ordered)
    (linked : desk.client.link? receiver = some link) (number : Nat) :
    desk.TouchesAt receiver link (.abort number) (desk.client.abort number) := by
  unfold Client.abort
  split
  · exact ⟨link, linked, .same⟩
  · next task found =>
    have worker : desk.worker? (.abort number) = some task.work.place := by
      rw [worker?, found]
      rfl
    have fit := ordered.fit.perm (ordered.perm_found found)
    have linked : (desk.client.withoutTask number).link? receiver = some link := linked
    refine touches_visit task.work.place worker linked
      (fun _ _ linked => linked.stop task.work) ?_
    intro site here on
    exact Site.stop_spec task.work on
      ((fit.fits receiver link linked).stands task.work.place (List.mem_cons_self ..) here)

theorem Ordered.touches_claim (ordered : desk.Ordered)
    (linked : desk.client.link? receiver = some link) (place timeout : Nat) :
    desk.TouchesAt receiver link (.claim place timeout)
      (desk.act (.claim place timeout)).2.client := by
  rw [act]
  unfold onHeld
  split
  · exact ⟨link, linked, .same⟩
  · next future found =>
    have worker : desk.worker? (.claim place timeout) = some future.place := by
      rw [worker?, found]
      rfl
    have fit := ordered.fit.perm (perm_held found)
    obtain ⟨behind, -⟩ := Client.claim_fit fit timeout
    have at_receiver := desk.client.claim_at future timeout
    have of := desk.client.claim_of future timeout
    have begun : receiver = future.receiver → ∃ mid,
        (desk.client.claim future timeout).2.link? future.receiver = some mid ∧
          Site.Claimed future link (desk.client.claim future timeout).1 mid := by
      rintro rfl
      have stands := (fit.fits _ link linked).stands future.place (List.mem_cons_self ..) rfl
      exact Client.visit_on linked fun _ on =>
        Site.startClaim_spec on (Table.Kept.idle stands) timeout
    dsimp only
    generalize desk.client.claim future timeout = started at behind at_receiver of begun
    obtain ⟨start, client⟩ := started
    by_cases here : receiver = future.receiver
    · subst here
      obtain ⟨mid, left, claimed⟩ := begun rfl
      refine touchesAt_takeUp behind left ?_ ?_
      · cases claimed with
        | refused gone => exact .same
        | running works waiting => exact .worked worker rfl works
      · rintro work wait rfl at_work table works
        cases claimed with
        | running works' waiting => exact .worked worker rfl (works'.trans works)
    · refine touchesAt_takeUp behind ((at_receiver.elsewhere receiver here).trans linked) .same ?_
      rintro work wait rfl at_work
      exact absurd (at_work.symm.trans of) here

theorem Ordered.touches_request (ordered : desk.Ordered)
    (linked : desk.client.link? receiver = some link) (request : Request) :
    desk.TouchesAt receiver link (.request request)
      (takeUp desk.held (request.start desk.client)).2.client := by
  have asked := desk.client.asked_start request
  obtain ⟨fit, -⟩ := asked.fit ordered.fit
  generalize request.start desk.client = started at asked fit
  cases asked with
  | nowhere nobody stops => exact ⟨link, linked, .same⟩
  | @somewhere other started at_receiver there of begun =>
    obtain ⟨start, client⟩ := started
    by_cases here : receiver = other
    · subst here
      obtain ⟨mid, left, began⟩ := begun link linked (ordered.fit.fits receiver link linked).sound
      refine touchesAt_takeUp fit left ?_ ?_
      · cases began with
        | refused fails => exact .same
        | withdrawn registered works gone fails => exact .withdrawn registered works gone
        | left registered works goesOn leaves isOpen => exact .sent registered works isOpen
        | running registered works at_work own held isOpen => exact .sent registered works isOpen
      · rintro work timeout rfl at_work table works
        cases began with
        | running registered works' at_work own held isOpen =>
          rw [own] at works
          exact .sent registered (works'.trans works) isOpen
    · refine touchesAt_takeUp fit ((at_receiver.elsewhere receiver here).trans linked) .same ?_
      rintro work timeout rfl at_work
      exact absurd (at_work.symm.trans of) here

/-! ## All moves -/

/-- Whatever a move does to a link is one of these things. -/
theorem Ordered.touches (ordered : desk.Ordered) (allowed : desk.Allowed move)
    (linked : desk.client.link? receiver = some link) :
    desk.TouchesAt receiver link move (desk.act move).2.client := by
  cases move with
  | request request => exact ordered.touches_request linked request
  | claim place timeout => exact ordered.touches_claim linked place timeout
  | look number => exact ordered.touches_look linked number
  | abort number => exact ordered.touches_abort linked number
  | cancel place =>
    rw [act]
    unfold onHeld
    split
    · exact ⟨link, linked, .same⟩
    · next future found =>
      by_cases here : receiver = future.receiver
      · subst here
        obtain ⟨behind, left, -, told⟩ := Client.cancel_on linked
        refine ⟨behind, left, ?_⟩
        rcases told with rfl | ⟨message, -, rfl⟩
        · exact .same
        · exact .told
      · exact touchesAt_of_elsewhere (desk.client.cancel_at future) here ⟨link, linked, .same⟩
  | drop place =>
    rw [act]
    unfold onHeld
    split
    · exact ⟨link, linked, .same⟩
    · next future found =>
      have worker : desk.worker? (.drop place) = some future.place := by
        rw [worker?, found]
        rfl
      have fit := ordered.fit.perm (perm_held found)
      refine touches_visit future.place worker linked
        (fun _ _ linked => linked.dropSlot future.slot) ?_
      intro site here on
      have stands :=
        (fit.fits receiver link linked).stands future.place (List.mem_cons_self ..) here
      exact ⟨_, (on.worked future.slot).dropSlot (Table.Kept.idle stands)⟩
  | link other turn =>
    rcases desk.client.onLink_cases other fun link registry => turn.apply link registry with
      ⟨-, same⟩ | ⟨found, linked', at_receiver, left⟩
    · rw [act, same]
      exact ⟨link, linked, .same⟩
    · by_cases here : receiver = other
      · subst here
        obtain rfl := Option.some.inj (linked.symm.trans linked')
        exact ⟨_, left, .turned⟩
      · exact touchesAt_of_elsewhere at_receiver here ⟨link, linked, .same⟩
  | elsewhere other endpoint =>
    obtain ⟨-, before, there, none⟩ := allowed
    have apart : receiver ≠ other := by
      rintro rfl
      rw [Client.link?, there, Option.bind_some, none] at linked
      cases linked
    have links := Client.link_of_endpoints (Client.endpoints_withEndpoint desk.client other endpoint)
      receiver
    rw [if_neg (Ne.symm apart)] at links
    exact ⟨link, links.trans linked, .same⟩
  | join endpoint =>
    obtain ⟨joined, put, -⟩ := desk.client.joined_join endpoint
    have links := put.link receiver
    rw [if_neg] at links
    · exact ⟨link, links.trans linked, .same⟩
    · intro own
      exact absurd (Client.there_of_link linked) (own ▸ ordered.numbered.not_there)
  | leave other => exact ⟨link, linked, .same⟩
  | announce registry => exact ⟨link, linked, .same⟩
  | advance span => exact ⟨link, linked, .same⟩

end Desk

end Farcall
