import Farcall.Proofs.Client.Bearers
import Farcall.Proofs.Client.Hooks

set_option autoImplicit false

/-!
# Interceptors around a call

The interceptors of a receiver see each call that goes through it, one after the other, before
anything is registered for the call. If all let it pass and it is sent, they are handed its result in
reverse order, once at most: when somebody claims it, whether that is the caller that waits or one
that was let go. A call that is given up, and a wait that fails, are never shown to them.
-/

namespace Farcall

/-! ## Calls that are stopped -/

/-- One of the interceptors stops a call. Those before it have let the invocation pass, those behind
it do not see it, and nothing becomes of the call but its error and what was noted. -/
inductive Turn.Stopped (turn : Turn) (shown : Invocation) : List Interceptor → Prop
  | stops {front back : List Interceptor} {i : Interceptor} {seen : Invocation}
      {noted last : Journal} {e : InvocationError}
      (passes : Interceptor.Passes front shown turn.before.client.journal seen noted)
      (stops : i.before seen noted = (.error e, last))
      (fails : turn.result = some (.ended (.failed e)))
      (unsent : Desk.Alike
        { turn.before with client := { turn.before.client with journal := last } } turn.after) :
      Stopped turn shown (front ++ i :: back)

theorem Client.same_withEndpoint {client : Client} {receiver : ReceiverId} {endpoint : Endpoint}
    (there : client.endpoint? receiver = some endpoint) :
    client.Same (client.withEndpoint receiver endpoint) := by
  refine .intro _ fun n => ?_
  rw [Std.TreeMap.getElem?_insert]
  split
  · next here =>
    rw [← Std.LawfulEqCmp.eq_of_compare here]
    exact there
  · rfl

theorem Site.journal_post (site : Site) (write : UInt16 → Except InvocationError Message) :
    (site.post write).2.journal = site.journal := by
  have registered : site.register.2.journal = site.journal := by
    unfold register
    split <;> rfl
  unfold post
  split
  · next given => rwa [given] at registered
  · next slot after given =>
    rw [given] at registered
    dsimp only
    split
    · exact registered
    · next bytes written =>
      have enqueued := after.journal_enqueue bytes
      split
      · next refused =>
        rw [refused] at enqueued
        exact enqueued.trans registered
      · next queued =>
        rw [queued] at enqueued
        exact enqueued.trans registered

namespace Desk.Remote

variable {desk : Desk} {proxy : Proxy} {method : Method} {arguments : List Value}
  {receiver : ReceiverId} {endpoint : Endpoint} {link : Link} {seen : Invocation} {noted : Journal}

theorem alike_of_stopped {e : InvocationError} {last : Journal}
    (remote : desk.Remote proxy method arguments receiver endpoint link)
    (stopped : Interceptor.beforeSend endpoint.interceptors
      (endpoint.shown (.ofCall proxy.locator method arguments receiver)) desk.client.journal =
        (.error e, last)) (mode : Mode) :
    (desk.act (.request (.call proxy method arguments mode))).1 = some (.ended (.failed e)) ∧
      Desk.Alike { desk with client := { desk.client with journal := last } }
        (desk.act (.request (.call proxy method arguments mode))).2 := by
  let site : Site := ⟨endpoint, desk.client.journal, desk.client.events⟩
  rw [remote.act_failed (site.startCall_of_stopped stopped _ mode)]
  have there : ({ desk.client with journal := last } : Client).endpoint? receiver = some endpoint :=
    remote.there
  exact ⟨rfl, Client.same_withEndpoint there, rfl⟩

theorem journal_of_unposted
    (remote : desk.Remote proxy method arguments receiver endpoint link)
    (passed : Interceptor.beforeSend endpoint.interceptors
      (endpoint.shown (.ofCall proxy.locator method arguments receiver)) desk.client.journal =
        (.ok seen, noted))
    (unposted : ∀ id frame, ¬ Site.Posts link (Site.requestFor seen) id frame) (mode : Mode) :
    (∃ e, (desk.act (.request (.call proxy method arguments mode))).1 = some (.ended (.failed e))) ∧
      (desk.act (.request (.call proxy method arguments mode))).2.client.journal = noted := by
  have on : Site.On ⟨endpoint, noted, desk.client.events⟩ link := remote.linked
  rcases Site.posts_or_fails on (Site.requestFor seen) with ⟨id, frame, posts⟩ | ⟨e, after, failed⟩
  · exact absurd posts (unposted id frame)
  · have kept := Site.journal_post ⟨endpoint, noted, desk.client.events⟩ (Site.requestFor seen)
    rw [failed] at kept
    rw [remote.act_failed (Site.startCall_of_unposted remote.on passed failed _ mode)]
    exact ⟨⟨e, rfl⟩, kept⟩

end Desk.Remote

theorem Turn.Stopped.fails {turn : Turn} {shown : Invocation} {interceptors : List Interceptor}
    (stopped : turn.Stopped shown interceptors) : ∃ e, turn.result = some (.ended (.failed e)) := by
  cases stopped with
  | stops passes stops fails unsent => exact ⟨_, fails⟩

/-! ## Calls that are sent -/

theorem Future.Hears.congr {call future : Future} {journal noted : Journal}
    {lies : Option (Delivery LazyResult)} {outcome? : Option Outcome}
    (hears : future.Hears journal lies outcome? noted) (same : future.ready = call.ready) :
    call.Hears journal lies outcome? noted := by
  have interceptors : future.interceptors = call.interceptors := (Future.mk.inj same).2.2.2.1
  have slot : future.slot = call.slot := (Future.of_ready same).2
  cases hears with
  | handed gives returns =>
    rw [same, interceptors] at returns
    exact .handed gives returns
  | failed gives => exact .failed gives
  | refused late gives => exact .refused (slot ▸ late) gives
  | goesOn goes => exact .goesOn goes
  | waits => exact .waits

namespace Desk

variable {desk : Desk} {move : Move} {call future : Future}

def lies? (desk : Desk) (call : Future) : Option (Delivery LazyResult) :=
  (desk.client.link? call.receiver).bind fun link => link.association.table.arrival? call.slot

def Spent (desk : Desk) (call : Future) : Prop :=
  ∃ link, desk.client.link? call.receiver = some link ∧
    call.slot.generation < link.association.table.nextGeneration ∧
    ¬ link.association.table.Read call.slot.generation

theorem Ordered.spent_act (ordered : desk.Ordered) (allowed : desk.Allowed move)
    (spent : desk.Spent call) : (desk.act move).2.Spent call := by
  obtain ⟨link, linked, old, unread⟩ := spent
  obtain ⟨behind, left, stretch⟩ := (ordered.follows_act allowed).grows.leads _ link linked
  exact ⟨behind, left, Nat.lt_of_lt_of_le old stretch.elder.next_le,
    fun read => unread (stretch.elder.readers _ old read)⟩

theorem Ordered.lies_of_spent (ordered : desk.Ordered) (spent : desk.Spent call) :
    desk.lies? call = none := by
  obtain ⟨link, linked, -, unread⟩ := spent
  have c := (ordered.fit.fits _ link linked).sound.toCoupled
  rw [lies?, linked, Option.bind_some]
  cases arrived : link.association.table.arrival? call.slot with
  | none => rfl
  | some d =>
    obtain ⟨box, at_g, full⟩ := Option.bind_eq_some_iff.mp arrived
    refine absurd ⟨box, at_g, fun gone => ?_⟩ unread
    rw [c.spent _ box at_g gone] at full
    cases full

theorem mem_of_sought (sought : Turn.sought? ⟨desk, move⟩ = some future) : future ∈ desk.calls := by
  cases move with
  | look number =>
    obtain ⟨task, found, of⟩ := Option.bind_eq_some_iff.mp sought
    exact mem_calls.mpr (.inl ⟨task, List.mem_of_find?_eq_some found, of⟩)
  | claim place timeout => exact mem_calls.mpr (.inr (List.mem_of_getElem? sought))
  | _ => cases sought

end Desk

def Turn.Seeks (turn : Turn) (call : Future) : Prop :=
  ∃ future, turn.sought? = some future ∧ future.receiver = call.receiver ∧ future.slot = call.slot

def Turn.Ends (turn : Turn) : Prop := ∃ outcome, turn.outcome? = some outcome ∧ outcome.Final

theorem Desk.Ordered.seeks {desk : Desk} {move : Move} {call : Future} (ordered : desk.Ordered)
    (allowed : desk.Allowed move) (bears : desk.Bears call) (seeks : Turn.Seeks ⟨desk, move⟩ call) :
    call.Hears desk.client.journal (desk.lies? call) (Turn.outcome? ⟨desk, move⟩)
        (Turn.after ⟨desk, move⟩).client.journal ∧
      (Turn.Ends ⟨desk, move⟩ → (Turn.after ⟨desk, move⟩).Spent call) := by
  obtain ⟨future, sought, here, own⟩ := seeks
  have same := bears.calls future (mem_of_sought sought) here own
  obtain ⟨-, link, linked, old⟩ := id bears
  have heard := ordered.heard sought (here ▸ linked)
  refine ⟨?_, fun ⟨outcome, given, final⟩ => ?_⟩
  · rw [lies?, linked, Option.bind_some, ← own]
    exact heard.hears.congr same
  · obtain ⟨behind, left, unread⟩ := heard.leaves
    rw [here] at left
    rw [own] at unread
    obtain ⟨-, other, grown, known⟩ := ordered.bears_act allowed bears
    obtain rfl := Option.some.inj (grown.symm.trans left)
    exact ⟨_, left, known, unread outcome given final⟩

/-- How the interceptors of a call that was sent hear of it. -/
structure Future.Hooked (call : Future) (asked : Turn) (later : List Turn) : Prop where
  named : call.ready.invocation.correlationId = some call.slot.id
  ready : call.ready.invocation.state = .ready
  borne : ∀ future ∈ asked.after.calls, future ∈ asked.before.calls ∨ future.ready = call.ready
  /-- Whoever looks for the result lets them hear of it if it is there, and of nothing else. -/
  hears : ∀ turn ∈ later, turn.Seeks call → call.Hears turn.before.client.journal
    (turn.before.lies? call) turn.outcome? turn.after.client.journal
  /-- Once a wait is over, or the call was given up, there is nothing more to hear of. -/
  past : asked.Ends → ∀ other ∈ later, other.before.lies? call = none
  once : ∀ earlier turn rest, later = earlier ++ turn :: rest → turn.Seeks call → turn.Ends →
    ∀ other ∈ rest, other.before.lies? call = none
  /-- Nothing is heard in other turns, but for what is asked for there and for who joins. -/
  others : ∀ turn ∈ later, turn.sought? = none → (∀ request, turn.move ≠ .request request) →
    (∀ endpoint, turn.move ≠ .join endpoint) → turn.after.client.journal = turn.before.client.journal

namespace Desk.Remote

variable {desk : Desk} {proxy : Proxy} {method : Method} {arguments : List Value}
  {receiver : ReceiverId} {endpoint : Endpoint} {link : Link} {seen : Invocation} {noted : Journal}
  {id : UInt16} {frame : Bytes}

variable (remote : desk.Remote proxy method arguments receiver endpoint link)
  (sends : endpoint.Sends link (.ofCall proxy.locator method arguments receiver)
    desk.client.journal seen noted id frame)

include remote sends

theorem leaves_act (sound : link.association.table.Sound) (mode : Mode) : ∃ behind,
    (desk.act (.request (.call proxy method arguments mode))).2.client.link? receiver = some behind ∧
      ∀ outcome, (desk.act (.request (.call proxy method arguments mode))).1.bind (·.outcome?) =
        some outcome → outcome.Final →
        ¬ behind.association.table.Read (link.association.table.enter id).1.generation := by
  have registered : link.association.table.register.1 = .ok (link.association.table.enter id).1 :=
    congrArg Prod.fst sends.posts.registered
  have entered : (link.association.table.enter id).2.Sound :=
    (Site.stretch_enter registered .refl).sound sound
  have started := Site.startCall_of_sends remote.on sends desk.client.config.invocationTimeout mode
  have on := Site.on_posted ⟨endpoint, noted, desk.client.events⟩ link id frame
  let call := endpoint.calling link desk.client.config.invocationTimeout
    (.ofCall proxy.locator method arguments receiver) seen id
  cases mode with
  | sync =>
    have of : (Work.reply call).call? = some call := rfl
    have held : (link.association.table.enter id).2.holder? call.slot = some .slot :=
      Table.holder_enter_self link.association.table id
    obtain ⟨begun, left, started⟩ := remote.dispatched started on
    rw [act_call, started]
    have looked := Client.heard_look left.link entered.toCoupled of held (by decide)
      (begun.now + desk.client.config.invocationTimeout)
    exact (heard_takeUp looked desk.held).leaves
  | async =>
    have empty : (link.association.table.enter id).2.arrival? call.slot = none :=
      (Table.pends_enter link.association.table id).empty
    obtain ⟨-, table, on, final⟩ := Site.heard_detach on empty
    obtain ⟨begun, left, started⟩ := remote.dispatched started on
    rw [act_call, started]
    exact ⟨_, left.link, final⟩

theorem bears_act (ordered : desk.Ordered) (mode : Mode) :
    (desk.act (.request (.call proxy method arguments mode))).2.Bears
      (endpoint.calling link desk.client.config.invocationTimeout
        (.ofCall proxy.locator method arguments receiver) seen id) := by
  refine ⟨fun future mem here own => ?_, ?_⟩
  · rcases remote.calls_act sends mode mem with there | same
    · -- the registration is new, so whoever had a call before has another slot
      have linked : desk.client.link? future.receiver = some link := here.symm ▸ remote.link_of_remote
      have old := ordered.call_old there linked
      rw [own] at old
      exact absurd old (Nat.lt_irrefl _)
    · exact same
  · obtain ⟨behind, left, next⟩ := remote.registers sends ordered mode
    exact ⟨behind, left, next ▸ Nat.lt_succ_self _⟩

theorem spent_act (ordered : desk.Ordered) (mode : Mode)
    (ends : Turn.Ends ⟨desk, .request (.call proxy method arguments mode)⟩) :
    (desk.act (.request (.call proxy method arguments mode))).2.Spent
      (endpoint.calling link desk.client.config.invocationTimeout
        (.ofCall proxy.locator method arguments receiver) seen id) := by
  obtain ⟨outcome, given, final⟩ := ends
  have sound := (ordered.fit.fits _ link remote.link_of_remote).sound
  obtain ⟨behind, left, unread⟩ := remote.leaves_act sends sound mode
  obtain ⟨-, other, linked, old⟩ := remote.bears_act sends ordered mode
  obtain rfl := Option.some.inj (linked.symm.trans left)
  exact ⟨_, left, old, unread outcome given final⟩

end Desk.Remote

namespace Course

variable {config : Config} {first later : List Turn} {desk : Desk} {turn asked other : Turn}
  {call : Future}

theorem spent (course : Course config (first ++ turn :: later) desk)
    (spent : turn.after.Spent call) : desk.Spent call := by
  refine course.keeps spent ?_
  exact fun other _ ordered allowed spent => ordered.spent_act allowed spent

theorem of_later (course : Course config (first ++ turn :: later) desk) (mem : other ∈ later) :
    ∃ between, Course config (first ++ turn :: between) other.before ∧
      other.before.Allowed other.move := by
  obtain ⟨between, rest, rfl⟩ := List.append_of_mem mem
  exact ⟨between, course.of_prefix ⟨rest, by simp⟩⟩

theorem hooked (course : Course config (first ++ asked :: later) desk)
    (begun : asked.after.Bears call) (spent : asked.Ends → asked.after.Spent call)
    (borne : ∀ future ∈ asked.after.calls, future ∈ asked.before.calls ∨ future.ready = call.ready)
    (named : call.ready.invocation.correlationId = some call.slot.id) : call.Hooked asked later where
  named := named
  ready := rfl
  borne := borne
  hears turn mem seeks := by
    obtain ⟨between, course, allowed⟩ := course.of_later mem
    exact (course.ordered.seeks allowed (course.bears begun) seeks).1
  past ends other mem := by
    obtain ⟨between, course, -⟩ := course.of_later mem
    exact course.ordered.lies_of_spent (course.spent (spent ends))
  once := by
    rintro earlier turn rest rfl seeks ends other mem
    have mid : turn ∈ earlier ++ turn :: rest := List.mem_append_right _ (List.mem_cons_self ..)
    obtain ⟨between, begins, allowed⟩ := course.of_later mid
    have left := (begins.ordered.seeks allowed (begins.bears begun) seeks).2 ends
    rw [← List.cons_append, ← List.append_assoc] at course
    obtain ⟨_, behind, -⟩ := course.of_later mem
    exact behind.ordered.lies_of_spent (behind.spent left)
  others turn _ nothing asks joins := turn.before.journal_act nothing asks joins

/-- For a receiver whose interceptors do whatever they like, and a call of any mode. -/
theorem interceptors_hear {proxy : Proxy} {method : Method} {arguments : List Value} {mode : Mode}
    {receiver : ReceiverId} {endpoint : Endpoint} {link : Link}
    (course : Course config (first ++ asked :: later) desk)
    (asks : asked.move = .request (.call proxy method arguments mode))
    (remote : asked.before.Remote proxy method arguments receiver endpoint link) :
    let invocation := Invocation.ofCall proxy.locator method arguments receiver
    asked.Stopped (endpoint.shown invocation) endpoint.interceptors ∨
    ∃ seen, Interceptor.Passes endpoint.interceptors (endpoint.shown invocation)
        asked.before.client.journal seen asked.after.client.journal ∧
      ((∀ id frame, ¬ Site.Posts link (Site.requestFor seen) id frame) ∧
          (∃ e, asked.result = some (.ended (.failed e))) ∨
        ∃ id frame, Site.Posts link (Site.requestFor seen) id frame ∧
          (endpoint.calling link asked.before.client.config.invocationTimeout invocation seen id).Hooked
            asked later) := by
  intro invocation
  have part : first ++ [asked] <+: first ++ asked :: later := ⟨later, by simp⟩
  have ordered := (course.of_prefix part).1.ordered
  obtain ⟨before, move⟩ := asked
  dsimp only at asks remote ordered
  subst asks
  rcases Interceptor.beforeSend_cases endpoint.interceptors (endpoint.shown invocation)
      before.client.journal with ⟨seen, noted, passes, passed⟩ |
    ⟨front, i, back, seen, noted, e, last, split, passes, stops, stopped⟩
  · right
    by_cases posted : ∃ id frame, Site.Posts link (Site.requestFor seen) id frame
    · obtain ⟨id, frame, posts⟩ := posted
      have sends : endpoint.Sends link invocation before.client.journal seen noted id frame :=
        ⟨passed, posts⟩
      obtain ⟨-, -, kept⟩ := remote.link_act sends mode
      refine ⟨seen, kept ▸ passes, .inr ⟨id, frame, posts, ?_⟩⟩
      exact course.hooked (remote.bears_act sends ordered mode) (remote.spent_act sends ordered mode)
        (fun _ => remote.calls_act sends mode) rfl
    · have unposted : ∀ id frame, ¬ Site.Posts link (Site.requestFor seen) id frame :=
        fun id frame posts => posted ⟨id, frame, posts⟩
      obtain ⟨fails, kept⟩ := remote.journal_of_unposted passed unposted mode
      exact ⟨seen, kept ▸ passes, .inl ⟨unposted, fails⟩⟩
  · left
    obtain ⟨fails, unsent⟩ := remote.alike_of_stopped stopped mode
    rw [split]
    exact .stops passes stops fails unsent

end Course

/-! ## A sum that is scaled twice -/

namespace ScaledSum

def scales (label : String) : Interceptor :=
  .rewriting ⟨label, none, none, none, some 10, none, none⟩

def outer : Interceptor := scales "outer"

def inner : Interceptor := scales "inner"

def joined : Turn := ⟨⟨.ofConfig .default, []⟩,
  .join ⟨"host", .linked (.named "host" 4 none none), [outer, inner]⟩⟩

def opened : Turn :=
  ⟨joined.after, .announce ((Registry.empty.add ⟨1⟩).2.register ⟨1⟩ OneSum.module).2⟩

def asked : Turn := ⟨opened.after, OneSum.call .sync⟩

def answered : Turn := ⟨asked.after, .link ⟨1⟩ (.receive (OneSum.answer 1 3))⟩

def looked : Turn := ⟨answered.after, .look 0⟩

theorem runs : Course .default ([joined, opened] ++ asked :: [answered, looked]) looked.after := by
  have joins : Course .default ([] ++ [joined]) joined.after := by
    refine Course.next .start ?_
    intro link linked
    obtain rfl := Option.some.inj linked
    exact ⟨⟨4, [], .start⟩, rfl⟩
  have opens : Course .default ([joined] ++ [opened]) opened.after := joins.next trivial
  have asks : Course .default ([joined, opened] ++ [asked]) asked.after := opens.next trivial
  have answers : Course .default ([joined, opened] ++ [asked] ++ [answered]) answered.after :=
    asks.next trivial
  rw [List.append_cons, List.append_cons]
  exact answers.next trivial

theorem remote : asked.before.Remote OneSum.sums OneSum.add [.int 1, .int 2] ⟨1⟩
    ⟨"host", .linked OneSum.host, [outer, inner]⟩ OneSum.host :=
  ⟨rfl, rfl, rfl, rfl⟩

/-- The caller of a scaled sum looks when its answer came, and the interceptors hear of it. -/
theorem interceptors_hear_of_sum : looked.outcome? = some (.value (.int 300)) ∧
    ∃ call : Future, call.Hooked asked [answered, looked] ∧ looked.Seeks call ∧
      call.interceptors = [outer, inner] := by
  refine ⟨rfl, ?_⟩
  have waits : asked.result = some (.waits 0) := rfl
  rcases runs.interceptors_hear rfl remote with
    stopped | ⟨seen, -, ⟨-, e, fails⟩ | ⟨id, frame, posts, hooked⟩⟩
  · obtain ⟨e, fails⟩ := stopped.fails
    rw [waits] at fails
    cases fails
  · rw [waits] at fails
    cases fails
  · have slot : (⟨1, 0⟩ : Slot) = (OneSum.host.association.table.enter id).1 :=
      Except.ok.inj (congrArg Prod.fst posts.registered)
    exact ⟨_, hooked, ⟨_, rfl, rfl, slot⟩, rfl⟩

end ScaledSum

end Farcall
