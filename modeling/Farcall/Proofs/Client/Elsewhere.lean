import Farcall.Proofs.Client.Sites

set_option autoImplicit false

/-!
# What holds at any endpoint

Nothing that is done at an endpoint gives it a link or takes its link away, and what comes of work
belongs to the receiver that the work was for. So receivers that have no link do not disturb those
that have one.
-/

namespace Farcall

variable {site : Site}

namespace Outcome

def Of (receiver : ReceiverId) (outcome : Outcome) : Prop :=
  ∀ future, outcome.future? = some future → future.receiver = receiver

theorem of_nobody {outcome : Outcome} (receiver : ReceiverId) (nobody : outcome.future? = none) :
    outcome.Of receiver := by
  intro future held
  rw [nobody] at held
  cases held

theorem of_held {outcome : Outcome} {held : Future} (same : outcome.future? = some held) :
    outcome.Of held.receiver := by
  intro future given
  rw [same] at given
  rw [Option.some.inj given]

end Outcome

def Start.Of (receiver : ReceiverId) : Start → Prop
  | ended outcome => outcome.Of receiver
  | running work _ => work.receiver = receiver

namespace Site

/-! ## Whom work belongs to -/

theorem detach_of (site : Site) (call : Future) : (site.detach call).1.Of call.receiver := by
  unfold detach
  split
  · exact Outcome.of_nobody _ rfl
  · exact Outcome.of_held rfl
  · exact Outcome.of_held rfl

theorem lookForReply_of {call : Future} {late : Bool} {outcome : Outcome}
    (ended : (site.lookForReply call late).1 = some outcome) : outcome.Of call.receiver := by
  unfold lookForReply at ended
  split at ended
  · rw [← Option.some.inj ended]
    exact Outcome.of_nobody _ (Outcome.future_ofResult _)
  · rw [← Option.some.inj ended]
    exact detach_of _ call
  · rw [← Option.some.inj ended]
    exact Outcome.of_nobody _ rfl
  · split at ended
    · rw [← Option.some.inj ended]
      exact Outcome.of_nobody _ rfl
    · cases ended

theorem lookForClaim_of {future : Future} {late : Bool} {outcome : Outcome}
    (ended : (site.lookForClaim future late).1 = some outcome) : outcome.Of future.receiver := by
  unfold lookForClaim at ended
  split at ended
  · cases ended
  · rw [← Option.some.inj ended]
    exact Outcome.of_held rfl
  · have ready : future.ready.receiver = future.receiver := rfl
    rw [← Option.some.inj ended, ← ready]
    exact Outcome.of_held rfl

theorem look_of {work : Work} {late : Bool} {outcome : Outcome}
    (ended : (site.look work late).1 = some outcome) : outcome.Of work.receiver := by
  cases work with
  | reply call => exact lookForReply_of ended
  | opening receiver slot module bean view =>
    obtain ⟨result, -, rfl⟩ := Option.map_eq_some_iff.mp ended
    exact Outcome.of_nobody _ (Outcome.future_ofSession _ _ _ _)
  | stepping receiver slot step =>
    obtain ⟨result, -, rfl⟩ := Option.map_eq_some_iff.mp ended
    exact Outcome.of_nobody _ (Outcome.future_ofStep _)
  | claiming future => exact lookForClaim_of ended

theorem startCall_of (site : Site) (timeout : Nat) (invocation : Invocation) (mode : Mode) :
    (site.startCall timeout invocation mode).1.Of invocation.receiver := by
  unfold startCall
  dsimp only
  split
  · exact Outcome.of_nobody _ rfl
  · split
    · exact Outcome.of_nobody _ rfl
    · split
      · rfl
      · exact detach_of _ _

theorem startSession_of (site : Site) (timeout : Nat) (registry : Registry) (receiver : ReceiverId)
    (module : ModuleId) (bean view : String) :
    (site.startSession timeout registry receiver module bean view).1.Of receiver := by
  unfold startSession
  split
  · exact Outcome.of_nobody _ rfl
  · split
    · exact Outcome.of_nobody _ rfl
    · exact Outcome.of_nobody _ rfl
    · rfl

theorem startTransaction_of (site : Site) (timeout : Nat) (receiver : ReceiverId) (step : TxStep)
    (onePhase : Bool) (transaction : TransactionId) :
    (site.startTransaction timeout receiver step onePhase transaction).1.Of receiver := by
  unfold startTransaction
  split
  · exact Outcome.of_nobody _ (Outcome.future_ofStep _)
  · rfl

theorem startClaim_of (site : Site) (timeout : Nat) (future : Future) :
    (site.startClaim timeout future).1.Of future.receiver := by
  unfold startClaim
  split
  · exact Outcome.of_held rfl
  · rfl

/-! ## Links come and go with nothing -/

def Linked (b : Bool) (site : Site) : Prop := site.endpoint.link?.isSome = b

variable {b : Bool}

theorem Linked.withTable (linked : site.Linked b) (table : Table LazyResult) :
    (site.withTable table).Linked b := by
  change (site.endpoint.withTable table).link?.isSome = b
  rw [Endpoint.link_withTable, Option.isSome_map]
  exact linked

theorem Linked.congr {after : Site} (linked : site.Linked b)
    (same : after.endpoint = site.endpoint) : after.Linked b := by
  rw [Linked, same]
  exact linked

theorem Linked.dropSlot (linked : site.Linked b) (slot : Slot) : (site.dropSlot slot).Linked b :=
  (linked.withTable (site.table.drop slot).2).congr rfl

theorem Linked.breakOff (linked : site.Linked b) (slot : Slot) : (site.breakOff slot).Linked b :=
  Linked.dropSlot ((linked.withTable (site.table.breakOff slot).2).congr rfl) slot

theorem Linked.stop (linked : site.Linked b) (work : Work) : (site.stop work).Linked b := by
  cases work with
  | reply call => exact linked.dropSlot call.slot
  | opening receiver slot => exact linked.breakOff slot
  | stepping receiver slot => exact linked.breakOff slot
  | claiming future => exact linked.breakOff future.slot

theorem Linked.register (linked : site.Linked b) : site.register.2.Linked b := by
  unfold Site.register
  split
  · next found => exact linked.withTable _
  · next found => exact linked.withTable _

theorem Linked.detach (linked : site.Linked b) (call : Future) : (site.detach call).2.Linked b := by
  unfold Site.detach
  split
  · exact (linked.withTable (site.table.discard call.slot).2).congr rfl
  · exact linked
  · exact linked

theorem Linked.lookFor (linked : site.Linked b) (slot : Slot) (late : Bool) :
    (site.lookFor slot late).2.Linked b := by
  unfold Site.lookFor
  split
  · exact linked.withTable _
  · split
    · exact linked.withTable _
    · exact linked.withTable _

theorem Linked.lookOnce (linked : site.Linked b) (slot : Slot) (late : Bool) :
    (site.lookOnce slot late).2.Linked b := by
  have looked := linked.lookFor slot late
  unfold Site.lookOnce
  split
  · next given => rwa [given] at looked
  · next given =>
    rw [given] at looked
    exact looked.dropSlot slot
  · next result after given =>
    rw [given] at looked
    have read : (after.readResult result).2.Linked b := looked
    exact read.dropSlot slot

theorem Linked.lookForReply (linked : site.Linked b) (call : Future) (late : Bool) :
    (site.lookForReply call late).2.Linked b := by
  unfold Site.lookForReply
  split
  · next result table given =>
    have read : ((site.withTable table).finishCall call result).2.Linked b := linked.withTable table
    exact read.dropSlot call.slot
  · exact (linked.withTable _).detach call
  · exact (linked.withTable _).dropSlot _
  · split
    · exact (linked.withTable _).dropSlot _
    · exact linked.withTable _

theorem Linked.lookForClaim (linked : site.Linked b) (future : Future) (late : Bool) :
    (site.lookForClaim future late).2.Linked b := by
  have looked := linked.lookFor future.slot late
  unfold Site.lookForClaim
  split
  · next given => rwa [given] at looked
  · next given => rwa [given] at looked
  · next result after given =>
    rw [given] at looked
    exact looked.congr rfl

theorem Linked.look (linked : site.Linked b) (work : Work) (late : Bool) :
    (site.look work late).2.Linked b := by
  cases work with
  | reply call => exact linked.lookForReply call late
  | opening receiver slot => exact linked.lookOnce slot late
  | stepping receiver slot => exact linked.lookOnce slot late
  | claiming future => exact linked.lookForClaim future late

theorem Linked.enqueue (linked : site.Linked b) (message : Bytes) :
    (site.enqueue message).2.Linked b := by
  unfold Site.enqueue
  split
  · exact linked
  · next link found =>
    rw [Linked, found] at linked
    exact linked

theorem Linked.post (linked : site.Linked b) (write : UInt16 → Except InvocationError Message) :
    (site.post write).2.Linked b := by
  have registered := linked.register
  unfold Site.post
  split
  · next given => rwa [given] at registered
  · next slot after given =>
    rw [given] at registered
    dsimp only
    split
    · exact registered.dropSlot slot
    · next bytes written =>
      have queued := registered.enqueue bytes
      split
      · next given =>
        rw [given] at queued
        exact queued.dropSlot slot
      · next given => rwa [given] at queued

theorem Linked.replyAs (linked : site.Linked b) (plan : Plan) (id : UInt16) :
    (site.replyAs plan id).Linked b := by
  unfold Site.replyAs
  split
  · exact linked
  · exact linked
  · exact linked.withTable _
  · exact (linked.withTable _).congr rfl
  · exact ((linked.withTable _).withTable _).congr rfl
  · exact linked.withTable _

theorem Linked.send (linked : site.Linked b) (invocation : Invocation) :
    (site.send invocation).2.Linked b := by
  have registered := linked.register
  unfold Site.send
  split
  · split
    · next given => rwa [given] at registered
    · next given => rwa [given] at registered
  · unfold Site.sendPlanned
    split
    · exact linked
    · split
      · next given => rwa [given] at registered
      · next slot after given =>
        rw [given] at registered
        have noted : (after.note (.sent slot.id { invocation with correlationId := some slot.id }
          (invocation.arguments.getD []))).Linked b := registered
        exact noted.replyAs _ slot.id
  · have posted := linked.post (requestFor invocation)
    split
    · next given => rwa [given] at posted
    · next given => rwa [given] at posted

theorem Linked.startCall (linked : site.Linked b) (timeout : Nat) (invocation : Invocation) (mode : Mode) :
    (site.startCall timeout invocation mode).2.Linked b := by
  unfold Site.startCall
  dsimp only
  split
  · exact linked
  · next invocation' journal allowed =>
    have seen : Site.Linked b { site with journal } := linked
    have sent := seen.send invocation'
    split
    · next given => rwa [given] at sent
    · next given =>
      rw [given] at sent
      split
      · exact sent
      · exact sent.detach _

theorem Linked.verify (linked : site.Linked b) (registry : Registry) (module : ModuleId) (bean : String) :
    (site.verify registry module bean).2.Linked b := by
  unfold Site.verify
  split
  · exact linked
  · exact linked
  · split
    · split <;> exact linked
    · exact linked

theorem Linked.openSession (linked : site.Linked b) (module : ModuleId) (bean : String) :
    (site.openSession module bean).2.Linked b := by
  have posted := linked.post (openingRequest site.endpoint module bean)
  unfold Site.openSession
  split
  · exact linked
  · exact linked
  · split
    · next given => rwa [given] at posted
    · next given => rwa [given] at posted

theorem Linked.startSession (linked : site.Linked b) (timeout : Nat) (registry : Registry)
    (receiver : ReceiverId) (module : ModuleId) (bean view : String) :
    (site.startSession timeout registry receiver module bean view).2.Linked b := by
  have verified := linked.verify registry module bean
  unfold Site.startSession
  split
  · next given => rwa [given] at verified
  · next after given =>
    rw [given] at verified
    have opened := verified.openSession module bean
    split
    · next given => rwa [given] at opened
    · next given => rwa [given] at opened
    · next given =>
      rw [given] at opened
      exact opened.withTable _

theorem Linked.startTransaction (linked : site.Linked b) (timeout : Nat) (receiver : ReceiverId)
    (step : TxStep) (onePhase : Bool) (transaction : TransactionId) :
    (site.startTransaction timeout receiver step onePhase transaction).2.Linked b := by
  have posted := linked.post fun id => .ok (.txRequest ⟨id, txKind step onePhase, transaction⟩)
  have stepped : (site.startStep step onePhase transaction).2.Linked b := by
    unfold Site.startStep
    split
    · exact linked
    · exact linked
    · split
      · next given => rwa [given] at posted
      · next given => rwa [given] at posted
  unfold Site.startTransaction
  split
  · next given => rwa [given] at stepped
  · next given =>
    rw [given] at stepped
    exact stepped.withTable _

theorem Linked.startClaim (linked : site.Linked b) (timeout : Nat) (future : Future) :
    (site.startClaim timeout future).2.Linked b := by
  unfold Site.startClaim
  split
  · exact linked.withTable _
  · exact linked.withTable _

theorem Linked.cancelCall (linked : site.Linked b) (id : UInt16) :
    (site.cancelCall id).2.Linked b := by
  unfold Site.cancelCall
  split
  · exact linked
  · exact linked
  · split
    · exact linked
    · exact linked.enqueue _

end Site

end Farcall
