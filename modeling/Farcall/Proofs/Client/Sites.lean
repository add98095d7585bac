import Farcall.Client.Work
import Farcall.Proofs.Correlation.Slots

set_option autoImplicit false

/-!
# What work does at an endpoint

Whatever a call does at an endpoint with a link, it does by its own slot, one operation of the table
after the other (`Worked`). Nothing else of the link changes, but that a request joins the outbound
queue. What becomes of the slot is said along with it, by the way the work ends.
-/

namespace Farcall

namespace Work

def slot : Work → Slot
  | reply call => call.slot
  | opening _ slot _ _ _ => slot
  | stepping _ slot _ => slot
  | claiming future => future.slot

def hold : Work → Hold
  | reply _ => .slot
  | _ => .wait

end Work

variable {site : Site} {link : Link} {table : Table LazyResult} {slot : Slot}

/-! ## Sites with a link -/

namespace Endpoint

theorem link_withTable (endpoint : Endpoint) (table : Table LazyResult) :
    (endpoint.withTable table).link? = endpoint.link?.map (·.withTable table) := by
  unfold withTable link?
  cases endpoint.kind <;> rfl

theorem kind_of_link {endpoint : Endpoint} (linked : endpoint.link? = some link) :
    endpoint.kind = .linked link := by
  unfold link? at linked
  split at linked
  · next found => rw [found, Option.some.inj linked]
  · cases linked

end Endpoint

namespace Site

def On (site : Site) (link : Link) : Prop := site.endpoint.link? = some link

theorem On.table_eq (on : site.On link) : site.table = link.association.table := by
  rw [table, Endpoint.table, Endpoint.kind_of_link on]

theorem On.withTable (on : site.On link) (table : Table LazyResult) :
    (site.withTable table).On (link.withTable table) := by
  change (site.endpoint.withTable table).link? = _
  rw [Endpoint.link_withTable, on, Option.map_some]

/-- At the site with this link one slot did all that was done, and it left this table. -/
structure Worked (slot : Slot) (link : Link) (table : Table LazyResult) (site : Site) : Prop where
  on : site.On (link.withTable table)
  works : Table.Works slot link.association.table table

theorem On.worked (on : site.On link) (slot : Slot) :
    site.Worked slot link link.association.table :=
  ⟨on, .refl⟩

theorem Worked.perform (worked : site.Worked slot link table) (op : Op LazyResult)
    (by_slot : op.slot? = some slot) (allowed : table.Allowed op) :
    (site.withTable (table.perform op).2).Worked slot link (table.perform op).2 :=
  ⟨worked.on.withTable _, worked.works.step by_slot allowed⟩

theorem Worked.congr {after : Site} (worked : site.Worked slot link table)
    (same : after.endpoint = site.endpoint) : after.Worked slot link table := by
  refine ⟨?_, worked.works⟩
  rw [On, same]
  exact worked.on

theorem Worked.dropSlot (worked : site.Worked slot link table) (idle : table.Idle slot) :
    (site.dropSlot slot).Worked slot link (table.perform (.drop slot)).2 := by
  refine (worked.perform (.drop slot) rfl idle).congr ?_
  rw [Site.dropSlot, worked.on.table_eq]
  rfl

theorem Worked.discardSlot (worked : site.Worked slot link table) (idle : table.Idle slot) :
    (site.discardSlot slot).Worked slot link (table.perform (.discard slot)).2 := by
  refine (worked.perform (.discard slot) rfl idle).congr ?_
  rw [Site.discardSlot, worked.on.table_eq]
  rfl

theorem Worked.dropSlot_of_ended (worked : site.Worked slot link table) (sound : table.Sound)
    (ended : ¬ table.HasEntry slot.generation ∧ table.holder? slot = some .gone) :
    ∃ after, (site.dropSlot slot).Worked slot link after ∧ ¬ after.HasEntry slot.generation := by
  have idle : table.Idle slot := .inr ended.2
  have old := sound.generation_lt ⟨_, ended.2⟩
  exact ⟨_, worked.dropSlot idle, Table.not_hasEntry_perform (.drop slot) idle old ended.1⟩

end Site

/-! ## Outcomes -/

namespace Outcome

def GoesOn : Outcome → Prop
  | pending _ | discarded => True
  | _ => False

def Fails : Outcome → Prop
  | failed _ | stepFailed _ => True
  | _ => False

theorem Fails.not_goesOn {outcome : Outcome} (fails : outcome.Fails) : ¬ outcome.GoesOn := by
  cases outcome <;> first | exact id | exact fails.elim

theorem Fails.nobody {outcome : Outcome} (fails : outcome.Fails) : outcome.future? = none := by
  cases outcome <;> first | rfl | exact fails.elim

/-- What an outcome leaves of a slot: an entry only if the call goes on, and the slot with whoever
holds the call then. -/
structure Leaves (outcome : Outcome) (receiver : ReceiverId) (slot : Slot)
    (table : Table LazyResult) : Prop where
  cleared : ¬ outcome.GoesOn → ¬ table.HasEntry slot.generation
  held : ∀ future, outcome.future? = some future →
    future.receiver = receiver ∧ future.slot = slot ∧ table.Kept slot

theorem leaves_of_cleared {outcome : Outcome} {receiver : ReceiverId}
    (nobody : outcome.future? = none) (cleared : ¬ table.HasEntry slot.generation) :
    outcome.Leaves receiver slot table := by
  refine ⟨fun _ => cleared, ?_⟩
  intro future held
  rw [nobody] at held
  cases held

theorem future_ofResult (result : CallResult) : (ofResult result).future? = none := by
  cases result <;> rfl

theorem future_ofSession (module : ModuleId) (bean view : String) (result : CallResult) :
    (ofSession module bean view result).future? = none := by
  cases result with
  | error e => rfl
  | ok v => cases v <;> rfl

theorem future_ofStep (result : Except XaError (Option Vote)) : (ofStep result).future? = none := by
  cases result <;> rfl

end Outcome

/-! ## Looks -/

namespace Site

theorem lookFor_spec (on : site.On link) (sound : link.association.table.Sound)
    (waiting : link.association.table.Waiting slot) (late : Bool) :
    ((site.lookFor slot late).1 = none ∧ (site.lookFor slot late).2.On link) ∨
      ∃ result table, (site.lookFor slot late).1 = some result ∧
        (site.lookFor slot late).2.Worked slot link table ∧
        ¬ table.HasEntry slot.generation ∧ table.holder? slot = some .gone := by
  have done := (on.worked slot).perform (.look slot late) rfl waiting
  rw [lookFor, on.table_eq]
  cases found : link.association.table.claim slot with
  | mk result after =>
    cases result with
    | some result =>
      have ended := Table.ended_of_claim sound.toCoupled waiting found
      rw [Table.perform, Table.lookOn_of_some found] at done
      exact .inr ⟨result, after, rfl, done, ended⟩
    | none =>
      obtain ⟨rfl, -⟩ := Table.of_claim_none found
      rw [Table.perform, Table.lookOn_of_none found] at done
      cases late with
      | false => exact .inl ⟨rfl, done.on⟩
      | true => exact .inr ⟨_, _, rfl, done, Table.ended_of_expire sound.toCoupled waiting⟩

theorem lookOnce_spec (on : site.On link) (sound : link.association.table.Sound)
    (waiting : link.association.table.Waiting slot) (late : Bool) :
    ((site.lookOnce slot late).1 = none ∧ (site.lookOnce slot late).2.On link) ∨
      ∃ result table, (site.lookOnce slot late).1 = some result ∧
        (site.lookOnce slot late).2.Worked slot link table ∧ ¬ table.HasEntry slot.generation := by
  have looked := lookFor_spec on sound waiting late
  rw [lookOnce]
  cases found : site.lookFor slot late with
  | mk result after =>
    rw [found] at looked
    rcases looked with ⟨rfl, on⟩ | ⟨given, table, rfl, worked, ended⟩
    · exact .inl ⟨rfl, on⟩
    · have sound := worked.works.sound sound
      cases given with
      | error e =>
        obtain ⟨last, dropped, gone⟩ := worked.dropSlot_of_ended sound ended
        exact .inr ⟨_, last, rfl, dropped, gone⟩
      | ok result =>
        have read : (after.readResult result).2.Worked slot link table := worked.congr rfl
        obtain ⟨last, dropped, gone⟩ := read.dropSlot_of_ended sound ended
        exact .inr ⟨_, last, rfl, dropped, gone⟩

theorem detach_spec (call : Future) (worked : site.Worked call.slot link table)
    (held : table.holder? call.slot = some .slot) :
    (site.detach call).1.GoesOn ∧ ∃ after, (site.detach call).2.Worked call.slot link after ∧
      (site.detach call).1.Leaves call.receiver call.slot after := by
  unfold detach
  split
  · refine ⟨trivial, _, worked.discardSlot (.inl held), ?_, ?_⟩
    · exact fun stops => absurd trivial stops
    · intro future given
      cases given
  · refine ⟨trivial, _, worked, ?_, ?_⟩
    · exact fun stops => absurd trivial stops
    · intro future given
      obtain rfl := Option.some.inj given
      exact ⟨rfl, rfl, .inl held⟩
  · refine ⟨trivial, _, worked, ?_, ?_⟩
    · exact fun stops => absurd trivial stops
    · intro future given
      obtain rfl := Option.some.inj given
      exact ⟨rfl, rfl, .inl held⟩

/-- What a look at work leaves of the link: the wait goes on, or the outcome says what is left. -/
inductive Looked (work : Work) (link : Link) : Option Outcome → Link → Prop where
  | waits {table : Table LazyResult}
      (works : Table.Works work.slot link.association.table table)
      (attends : table = link.association.table ∨
        table = link.association.table.attend work.slot) :
      Looked work link none (link.withTable table)
  | ended {outcome : Outcome} {table : Table LazyResult}
      (works : Table.Works work.slot link.association.table table)
      (leaves : outcome.Leaves work.receiver work.slot table) :
      Looked work link (some outcome) (link.withTable table)

theorem Looked.works {work : Work} {link behind : Link} {result : Option Outcome}
    (looked : Looked work link result behind) : ∃ table,
      Table.Works work.slot link.association.table table ∧ behind = link.withTable table := by
  cases looked with
  | waits works => exact ⟨_, works, rfl⟩
  | ended works => exact ⟨_, works, rfl⟩

def Gives {α : Type} (P : α → Link → Prop) (given : α × Site) : Prop :=
  ∃ link, given.2.On link ∧ P given.1 link

theorem looked_of_ended {work : Work} {outcome : Outcome} (worked : site.Worked work.slot link table)
    (sound : table.Sound)
    (ended : ¬ table.HasEntry work.slot.generation ∧ table.holder? work.slot = some .gone)
    (nobody : outcome.future? = none) :
    Gives (Looked work link) (some outcome, site.dropSlot work.slot) := by
  obtain ⟨last, dropped, gone⟩ := worked.dropSlot_of_ended sound ended
  exact ⟨_, dropped.on, .ended dropped.works (Outcome.leaves_of_cleared nobody gone)⟩

theorem looked_of_on (work : Work) (link : Link) : Looked work link none link :=
  show Looked work link none (link.withTable link.association.table) from .waits .refl (.inl rfl)

theorem lookForReply_spec {call : Future} (on : site.On link)
    (sound : link.association.table.Sound)
    (held : link.association.table.holder? call.slot = some .slot) (late : Bool) :
    Gives (Looked (.reply call) link) (site.lookForReply call late) := by
  have unclaimed := Table.unclaimed_of_held held
  have done := (on.worked call.slot).perform (.lookOrProceed call.slot late) rfl (.inl held)
  have attended := (Table.holder_attend _ call.slot call.slot).trans held
  have sound_attended : (link.association.table.attend call.slot).Sound :=
    sound.changes (Table.changes_resignal _ _ _)
  rw [lookForReply, on.table_eq]
  cases found : (link.association.table.attend call.slot).claim call.slot with
  | mk result after =>
    cases result with
    | some result =>
      have ended := Table.ended_of_claim sound_attended.toCoupled attended found
      rw [Table.perform, Table.lookOrProceed_of_some unclaimed found] at done
      rw [Table.claimOrProceed_of_some found]
      have sound := done.works.sound sound
      cases result with
      | error e => exact looked_of_ended done sound ended rfl
      | ok result =>
        have read : ((site.withTable after).finishCall call result).2.Worked call.slot link after :=
          done.congr rfl
        exact looked_of_ended read sound ended (Outcome.future_ofResult _)
    | none =>
      obtain ⟨rfl, -⟩ := Table.of_claim_none found
      cases used : (link.association.table.attend call.slot).useSignal call.slot with
      | mk told proceeded =>
        cases told with
        | true =>
          have kept := Table.holder_useSignal (link.association.table.attend call.slot) call.slot
            call.slot
          rw [used, attended] at kept
          rw [Table.perform, Table.lookOrProceed_of_signal unclaimed found used] at done
          rw [Table.claimOrProceed_of_signal found used]
          obtain ⟨-, last, detached, leaves⟩ := detach_spec call done kept
          exact ⟨_, detached.on, .ended detached.works leaves⟩
        | false =>
          obtain rfl := Table.of_useSignal_false used
          rw [Table.perform, Table.lookOrProceed_of_none unclaimed found used] at done
          rw [Table.claimOrProceed_of_none found used]
          cases late with
          | false => exact ⟨_, done.on, .waits done.works (.inr rfl)⟩
          | true =>
            have ended := Table.ended_of_expire sound_attended.toCoupled attended
            exact looked_of_ended done (done.works.sound sound) ended rfl

theorem lookForClaim_spec {future : Future} (on : site.On link)
    (sound : link.association.table.Sound)
    (waiting : link.association.table.Waiting future.slot) (late : Bool) :
    Gives (Looked (.claiming future) link) (site.lookForClaim future late) := by
  have looked := lookFor_spec on sound waiting late
  rw [lookForClaim]
  cases found : site.lookFor future.slot late with
  | mk result after =>
    rw [found] at looked
    rcases looked with ⟨rfl, on⟩ | ⟨given, table, rfl, worked, gone, held⟩
    · exact ⟨link, on, looked_of_on _ link⟩
    · have kept : ∀ result : CallResult, ∀ held : Future, held = future ∨ held = future.ready →
          (Outcome.claimed result held).Leaves future.receiver future.slot table := by
        intro result same own
        refine ⟨fun _ => gone, ?_⟩
        intro given claimed
        obtain rfl := Option.some.inj claimed
        rcases own with rfl | rfl
        · exact ⟨rfl, rfl, .inr ⟨held, gone⟩⟩
        · exact ⟨rfl, rfl, .inr ⟨held, gone⟩⟩
      cases given with
      | error e => exact ⟨_, worked.on, .ended worked.works (kept _ _ (.inl rfl))⟩
      | ok result => exact ⟨_, worked.on, .ended worked.works (kept _ _ (.inr rfl))⟩

theorem looked_of_once (work : Work) {ending : CallResult → Outcome} (on : site.On link)
    (sound : link.association.table.Sound)
    (waiting : link.association.table.Waiting work.slot) (late : Bool)
    (nobody : ∀ result, (ending result).future? = none) :
    Gives (Looked work link)
      ((site.lookOnce work.slot late).1.map ending, (site.lookOnce work.slot late).2) := by
  have looked := lookOnce_spec on sound waiting late
  cases found : site.lookOnce work.slot late with
  | mk result after =>
    rw [found] at looked
    rcases looked with ⟨rfl, on⟩ | ⟨given, table, rfl, worked, gone⟩
    · exact ⟨link, on, looked_of_on _ link⟩
    · exact ⟨_, worked.on, .ended worked.works (Outcome.leaves_of_cleared (nobody given) gone)⟩

theorem look_spec (work : Work) (on : site.On link) (sound : link.association.table.Sound)
    (held : link.association.table.holder? work.slot = some work.hold) (late : Bool) :
    Gives (Looked work link) (site.look work late) := by
  cases work with
  | reply call => exact lookForReply_spec on sound held late
  | opening receiver slot module bean view =>
    exact looked_of_once _ on sound held late (Outcome.future_ofSession module bean view)
  | stepping receiver slot step =>
    exact looked_of_once _ on sound held late fun result => Outcome.future_ofStep (stepOutcome step result)
  | claiming future => exact lookForClaim_spec on sound held late

/-! ## Breaking off -/

theorem stop_spec (work : Work) (on : site.On link)
    (held : link.association.table.holder? work.slot = some work.hold) :
    ∃ table, (site.stop work).Worked work.slot link table := by
  have broken : ∀ slot, link.association.table.Waiting slot →
      ∃ table, (site.breakOff slot).Worked slot link table := by
    intro slot waiting
    have done := (on.worked slot).perform (.breakOff slot) rfl waiting
    have gone := Table.holder_spend waiting
    refine ⟨_, Worked.dropSlot (done.congr ?_) (.inr gone)⟩
    rw [on.table_eq]
    rfl
  cases work with
  | reply call => exact ⟨_, (on.worked call.slot).dropSlot (.inl held)⟩
  | opening receiver slot module bean view => exact broken slot held
  | stepping receiver slot step => exact broken slot held
  | claiming future => exact broken future.slot held

/-! ## Starting -/

def entered (link : Link) (id : UInt16) : Link := link.withTable (link.association.table.enter id).2

def queueing (link : Link) (message : Bytes) : Link :=
  { link with outbound := link.outbound ++ [message] }

/-- What posting a request does: it is refused, it is withdrawn before it was queued, or it is
queued. -/
inductive Posted (link : Link) : Except InvocationError Slot × Site → Prop where
  | refused {e : InvocationError} {after : Site} (on : after.On link) : Posted link (.error e, after)
  | withdrawn {id : UInt16} {e : InvocationError} {table : Table LazyResult} {after : Site}
      (registered : link.association.table.register.1 = .ok (link.association.table.enter id).1)
      (worked : after.Worked (link.association.table.enter id).1 (entered link id) table)
      (gone : ¬ table.HasEntry link.association.table.nextGeneration) :
      Posted link (.error e, after)
  | queued {id : UInt16} {message : Bytes} {after : Site}
      (registered : link.association.table.register.1 = .ok (link.association.table.enter id).1)
      (on : after.On (queueing (entered link id) message))
      (isOpen : link.association.closed = false) :
      Posted link (.ok (link.association.table.enter id).1, after)

theorem enqueue_of_open (link : Link) (isOpen : link.association.closed = false)
    (writes : link.writerStopped = false) (message : Bytes) :
    link.enqueue message = (.ok (), queueing link message) := by
  rw [Link.enqueue, if_neg (by rw [isOpen]; decide), if_neg (by rw [writes]; decide)]
  rfl

theorem enqueue_of_shut (link : Link)
    (shut : ¬ (link.association.closed = false ∧ link.writerStopped = false)) (message : Bytes) :
    ∃ reason, link.enqueue message = (.error (.channelClosed reason), link) := by
  unfold Link.enqueue
  split
  · exact ⟨_, rfl⟩
  · next isOpen =>
    split
    · exact ⟨_, rfl⟩
    · next writes =>
      exact absurd ⟨Bool.eq_false_iff.mpr isOpen, Bool.eq_false_iff.mpr writes⟩ shut

theorem enqueue_spec (on : site.On link) (message : Bytes) :
    (∃ e after, site.enqueue message = (.error e, after) ∧ after.On link) ∨
      link.association.closed = false ∧
        ∃ after, site.enqueue message = (.ok (), after) ∧ after.On (queueing link message) := by
  have linked : site.endpoint.link? = some link := on
  have given : site.enqueue message =
      ((link.enqueue message).1, site.withLink (link.enqueue message).2) := by
    simp only [enqueue, linked]
  by_cases ready : link.association.closed = false ∧ link.writerStopped = false
  · rw [given, enqueue_of_open link ready.1 ready.2]
    exact .inr ⟨ready.1, _, rfl, rfl⟩
  · obtain ⟨reason, refused⟩ := enqueue_of_shut link ready message
    rw [given, refused]
    exact .inl ⟨.channelClosed reason, _, rfl, rfl⟩

theorem withdrawn_spec {id : UInt16} (on : site.On (entered link id))
    (sound : (entered link id).association.table.Sound) :
    ∃ table, (site.dropSlot (link.association.table.enter id).1).Worked
        (link.association.table.enter id).1 (entered link id) table ∧
      ¬ table.HasEntry link.association.table.nextGeneration := by
  have held := Table.holder_enter_self link.association.table id
  exact ⟨_, (on.worked _).dropSlot (.inl held), Table.not_hasEntry_of_held sound.toCoupled held⟩

theorem post_spec (on : site.On link) (sound : link.association.table.Sound)
    (write : UInt16 → Except InvocationError Message) : Posted link (site.post write) := by
  have behind := sound.perform (show link.association.table.Allowed .register from trivial)
  rw [post, register, on.table_eq]
  rw [Table.perform] at behind
  rcases Table.register_cases link.association.table with ⟨e, refused⟩ | ⟨id, -, registered⟩
  · rw [refused]
    exact .refused (on.withTable link.association.table)
  · have entered := on.withTable (link.association.table.enter id).2
    rw [registered] at behind ⊢
    dsimp only
    split
    · next e failed =>
      obtain ⟨table, worked, gone⟩ := withdrawn_spec entered behind
      exact .withdrawn (congrArg Prod.fst registered) worked gone
    · next bytes written =>
      rcases enqueue_spec entered bytes with ⟨e, after, given, on⟩ | ⟨isOpen, after, given, on⟩
      · rw [given]
        obtain ⟨table, worked, gone⟩ := withdrawn_spec on behind
        exact .withdrawn (congrArg Prod.fst registered) worked gone
      · rw [given]
        exact .queued (congrArg Prod.fst registered) on isOpen

/-- How something starts at a site with a link: it fails before anything is queued, without a slot
or with one that is withdrawn; or its request is queued, and the call goes on without its caller or
there is work to wait for. -/
inductive Begun (receiver : ReceiverId) (link : Link) : Start → Link → Prop where
  | refused {outcome : Outcome} (fails : outcome.Fails) :
      Begun receiver link (.ended outcome) link
  | withdrawn {id : UInt16} {outcome : Outcome} {table : Table LazyResult}
      (registered : link.association.table.register.1 = .ok (link.association.table.enter id).1)
      (works : Table.Works (link.association.table.enter id).1
        (link.association.table.enter id).2 table)
      (gone : ¬ table.HasEntry link.association.table.nextGeneration) (fails : outcome.Fails) :
      Begun receiver link (.ended outcome) (link.withTable table)
  | left {id : UInt16} {message : Bytes} {outcome : Outcome} {table : Table LazyResult}
      (registered : link.association.table.register.1 = .ok (link.association.table.enter id).1)
      (works : Table.Works (link.association.table.enter id).1
        (link.association.table.enter id).2 table)
      (goesOn : outcome.GoesOn)
      (leaves : outcome.Leaves receiver (link.association.table.enter id).1 table)
      (isOpen : link.association.closed = false) :
      Begun receiver link (.ended outcome) (queueing (link.withTable table) message)
  | running {id : UInt16} {message : Bytes} {work : Work} {timeout : Nat}
      {table : Table LazyResult}
      (registered : link.association.table.register.1 = .ok (link.association.table.enter id).1)
      (works : Table.Works (link.association.table.enter id).1
        (link.association.table.enter id).2 table)
      (at_receiver : work.receiver = receiver)
      (own : work.slot = (link.association.table.enter id).1)
      (held : table.holder? work.slot = some work.hold)
      (isOpen : link.association.closed = false) :
      Begun receiver link (.running work timeout) (queueing (link.withTable table) message)

theorem startCall_spec (on : site.On link) (sound : link.association.table.Sound) (timeout : Nat)
    (invocation : Invocation) (mode : Mode) :
    Gives (Begun invocation.receiver link) (site.startCall timeout invocation mode) := by
  unfold startCall
  dsimp only
  split
  · exact ⟨link, on, .refused trivial⟩
  · next invocation' journal allowed =>
    have seen : Site.On { site with journal } link := on
    have posted := post_spec seen sound (requestFor invocation')
    rw [send, Endpoint.kind_of_link seen]
    cases given : Site.post { site with journal } (requestFor invocation') with
    | mk result after =>
      rw [given] at posted
      cases posted with
      | refused on => exact ⟨link, on, .refused trivial⟩
      | withdrawn registered worked gone =>
        exact ⟨_, worked.on, .withdrawn registered worked.works gone trivial⟩
      | @queued id message _ registered on isOpen =>
        have held := Table.holder_enter_self link.association.table id
        cases mode with
        | sync => exact ⟨_, on, .running registered .refl rfl rfl held isOpen⟩
        | async =>
          obtain ⟨goesOn, table, worked, leaves⟩ := detach_spec
            ⟨invocation.receiver, _, _, site.endpoint.interceptors, timeout, invocation.method.returns⟩
            (on.worked _) held
          exact ⟨_, worked.on, .left registered worked.works goesOn leaves isOpen⟩

theorem beginWait_spec (on : site.On link)
    (held : link.association.table.holder? slot = some .slot) :
    ∃ table, (site.beginWait slot).Worked slot link table ∧ table.holder? slot = some .wait := by
  obtain ⟨begun, waits⟩ := Table.beginWait_of_held held
  have done := (on.worked slot).perform (.beginWait slot) rfl (.inl held)
  rw [Table.perform, begun] at done
  rw [beginWait, on.table_eq, begun]
  exact ⟨_, done, waits⟩

theorem verify_on (on : site.On link) (registry : Registry) (module : ModuleId) (bean : String) :
    (site.verify registry module bean).2 = site := by
  simp only [verify, Endpoint.kind_of_link on]
  cases link.association.receiver with
  | none => rfl
  | some receiver =>
    dsimp only
    split <;> rfl

theorem startSession_spec (on : site.On link) (sound : link.association.table.Sound)
    (timeout : Nat) (registry : Registry) (receiver : ReceiverId) (module : ModuleId)
    (bean view : String) :
    Gives (Begun receiver link) (site.startSession timeout registry receiver module bean view) := by
  have posted := post_spec on sound (openingRequest site.endpoint module bean)
  rw [startSession]
  cases checked : site.verify registry module bean with
  | mk result verified =>
    have same := verify_on on registry module bean
    rw [checked] at same
    rw [show verified = site from same]
    cases result with
    | error e => exact ⟨link, on, .refused trivial⟩
    | ok done =>
      simp only [openSession, Endpoint.kind_of_link on]
      cases given : site.post (openingRequest site.endpoint module bean) with
      | mk result after =>
        rw [given] at posted
        cases posted with
        | refused on => exact ⟨link, on, .refused trivial⟩
        | withdrawn registered worked gone =>
          exact ⟨_, worked.on, .withdrawn registered worked.works gone trivial⟩
        | @queued id message _ registered on isOpen =>
          obtain ⟨table, worked, waits⟩ :=
            beginWait_spec on (Table.holder_enter_self link.association.table id)
          exact ⟨_, worked.on, .running registered worked.works rfl rfl waits isOpen⟩

theorem startTransaction_spec (on : site.On link) (sound : link.association.table.Sound)
    (timeout : Nat) (receiver : ReceiverId) (step : TxStep) (onePhase : Bool)
    (transaction : TransactionId) :
    Gives (Begun receiver link)
      (site.startTransaction timeout receiver step onePhase transaction) := by
  have posted := post_spec on sound fun id => .ok (.txRequest ⟨id, txKind step onePhase, transaction⟩)
  simp only [startTransaction, startStep, Endpoint.kind_of_link on]
  cases given : site.post fun id => .ok (.txRequest ⟨id, txKind step onePhase, transaction⟩) with
  | mk result after =>
    rw [given] at posted
    cases posted with
    | refused on => exact ⟨link, on, .refused trivial⟩
    | withdrawn registered worked gone =>
      exact ⟨_, worked.on, .withdrawn registered worked.works gone trivial⟩
    | @queued id message _ registered on isOpen =>
      obtain ⟨table, worked, waits⟩ :=
        beginWait_spec on (Table.holder_enter_self link.association.table id)
      exact ⟨_, worked.on, .running registered worked.works rfl rfl waits isOpen⟩

inductive Claimed (future : Future) (link : Link) : Start → Link → Prop where
  | refused {e : InvocationError} (gone : link.association.table.Idle future.slot) :
      Claimed future link (.ended (.claimed (.error e) future)) link
  | running {timeout : Nat} {table : Table LazyResult}
      (works : Table.Works future.slot link.association.table table)
      (held : table.Waiting future.slot) :
      Claimed future link (.running (.claiming future) timeout) (link.withTable table)

theorem startClaim_spec {future : Future} (on : site.On link)
    (idle : link.association.table.Idle future.slot) (timeout : Nat) :
    Gives (Claimed future link) (site.startClaim timeout future) := by
  have done := (on.worked future.slot).perform (.beginWait future.slot) rfl idle
  rw [startClaim, on.table_eq]
  rcases idle with held | gone
  · obtain ⟨begun, waits⟩ := Table.beginWait_of_held held
    rw [Table.perform, begun] at done
    rw [begun]
    exact ⟨_, done.on, .running done.works waits⟩
  · rw [Table.beginWait_of_gone gone]
    exact ⟨link, on.withTable link.association.table, .refused (.inr gone)⟩

theorem cancelCall_spec (on : site.On link) (id : UInt16) :
    (site.cancelCall id).1 = false ∧ ((site.cancelCall id).2.On link ∨
      ∃ message, (Message.cancel id true).encode = .ok message ∧
        (site.cancelCall id).2.On (queueing link message)) := by
  simp only [cancelCall, Endpoint.kind_of_link on]
  split
  · exact ⟨rfl, .inl on⟩
  · next bytes written =>
    rcases enqueue_spec on bytes with ⟨e, after, given, on⟩ | ⟨-, after, given, on⟩
    · rw [given]
      exact ⟨rfl, .inl on⟩
    · rw [given]
      exact ⟨rfl, .inr ⟨bytes, written, on⟩⟩

end Site

end Farcall
