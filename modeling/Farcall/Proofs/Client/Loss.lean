import Farcall.Proofs.Client.Ending
import Farcall.Proofs.Client.Provenance
import Farcall.Proofs.Client.Touches

set_option autoImplicit false

/-!
# Lost channels

Closing a channel fails all that waits on it, once and for good: whoever waited gets the reason, from
the wait under way or from the next one, unless something had arrived before; and whatever happens
from then on, nothing is taken up on the channel again and nothing is queued for the host.
-/

namespace Farcall

/-- What the next wait of a slot finds once the channel is closed. -/
inductive Table.Due (table : Table LazyResult) (reason : String) (slot : Slot) :
    Delivery LazyResult → Prop
  | pending (owned : table.owns slot = true) : Due table reason slot (.failed (.channelClosed reason))
  | arrived {d : Delivery LazyResult} (there : table.arrival? slot = some d) : Due table reason slot d

def Request.Reaches (client : Client) (receiver : ReceiverId) : Request → Prop
  | .call proxy method arguments _ =>
    proxy.answer? method arguments = none ∧ client.resolve proxy.locator.module = .ok receiver
  | .callAlone _ _ _ => False
  | .session module _ _ => client.resolve module = .ok receiver
  | .step other _ _ _ => other = receiver

/-- What is so at a desk behind the closing of a channel, which `before` stands in front of. -/
structure ChannelLost (before : Desk) (receiver : ReceiverId) (link : Link) (reason : String)
    (desk : Desk) : Prop where
  counted : (link.close reason).1 = link.association.table.outstanding ∧
    link.association.table.outstanding = link.association.table.entries.size
  nothing_waits : ∃ behind, desk.client.link? receiver = some behind ∧
    behind.association.closed = true ∧ behind.association.table.outstanding = 0 ∧
    ∀ id : UInt16, behind.association.table.entries[id]? = none
  /-- The call that a caller held could still be claimed, if its entry stood. -/
  unclaimed : ∀ future ∈ before.held, future.receiver = receiver →
    link.association.table.owns future.slot = true →
    link.association.table.claimed future.slot = false
  waits_end : ∀ task ∈ desk.client.tasks, task.work.receiver = receiver →
    ∀ d, link.association.table.Due reason task.work.slot d →
      (desk.act (.look task.number)).1 =
        some (.ended (task.work.ending desk.client.journal d.toExcept))
  claims_end : ∀ (place : Nat) future behind, desk.held[place]? = some future →
    future.receiver = receiver → desk.client.link? receiver = some behind →
    behind.association.table.claimed future.slot = false →
    ∀ d, link.association.table.Due reason future.slot d → ∀ timeout,
      (desk.act (.claim place timeout)).1 =
        some (.ended ((Work.claiming future).ending desk.client.journal d.toExcept))
  refuses : ∀ request : Request, request.Reaches desk.client receiver →
    ∃ outcome behind after, (desk.act (.request request)).1 = some (.ended outcome) ∧
      outcome.Fails ∧ desk.client.link? receiver = some behind ∧
      (desk.act (.request request)).2.client.link? receiver = some after ∧
      after.outbound = behind.outbound

/-! ## Closed links -/

theorem Association.vacant_process {association : Association} (vacant : association.table.Vacant)
    (registry : Registry) (input : Input) :
    (association.process registry input).association.table.Vacant := by
  rcases association.table_process registry input with
    same | ⟨kind, id, rest, -, answered⟩ | ⟨id, rest, -, signalled⟩
  · rw [same]
    exact vacant
  · rw [answered, Table.fulfill_of_none (vacant id)]
    exact vacant
  · rw [signalled, Table.proceedAsync_of_none (vacant id)]
    exact vacant

namespace Link

structure Shut (link : Link) : Prop where
  closed : link.association.closed = true
  vacant : link.association.table.Vacant

variable {link : Link} {table : Table LazyResult}

theorem shut_close (link : Link) (reason : String) : (link.close reason).2.Shut :=
  ⟨rfl, Table.vacant_failAll _ reason⟩

theorem Shut.worked {slot : Slot} (shut : link.Shut) (sound : link.association.table.Sound)
    (works : Table.Works slot link.association.table table) : (link.withTable table).Shut :=
  ⟨shut.closed, shut.vacant.of_elder works.elder works.next (works.sound sound).toCoupled⟩

theorem Shut.withdrawn {id : UInt16} (shut : link.Shut) (sound : link.association.table.Sound)
    (registered : link.association.table.register.1 = .ok (link.association.table.enter id).1)
    (works : Table.Works (link.association.table.enter id).1
      (link.association.table.enter id).2 table)
    (gone : ¬ table.HasEntry link.association.table.nextGeneration) :
    (link.withTable table).Shut := by
  refine ⟨shut.closed, ?_⟩
  intro k
  change table.entries[k]? = none
  have entered := sound.perform (show link.association.table.Allowed .register from trivial)
  rw [Table.perform, (Table.register_of_ok registered).1] at entered
  cases found : table.entries[k]? with
  | none => rfl
  | some entry =>
    have stands : table.HasEntry entry.generation := ⟨k, entry, found, rfl⟩
    have new := (works.sound entered).fresh k entry found
    have known : entry.generation < (link.association.table.enter id).2.nextGeneration := by
      rwa [works.next] at new
    obtain ⟨k', entry', found', same⟩ := works.elder.entries _ known stands
    rw [Table.enter_entry] at found'
    split at found'
    · rw [← same, ← Option.some.inj found'] at stands
      exact absurd stands gone
    · rw [shut.vacant] at found'
      cases found'

theorem Shut.turn (shut : link.Shut) (registry : Registry) (turn : LinkTurn)
    (allowed : ∀ carried, turn = .carry carried → carried.association = link.association) :
    (turn.apply link registry).link.Shut := by
  cases turn with
  | receive message =>
    exact ⟨(link.association.closed_process registry (.ofBytes message)).trans shut.closed,
      Association.vacant_process shut.vacant registry (.ofBytes message)⟩
  | close reason => exact link.shut_close reason
  | carry carried =>
    have same := allowed carried rfl
    exact ⟨by rw [LinkTurn.apply, same]; exact shut.closed,
      by rw [LinkTurn.apply, same]; exact shut.vacant⟩

end Link

namespace Desk

variable {desk : Desk} {move : Move} {receiver : ReceiverId} {link behind : Link}

theorem Touches.shut (touches : desk.Touches receiver link move behind) (shut : link.Shut)
    (sound : link.association.table.Sound) (allowed : desk.Allowed move)
    (linked : desk.client.link? receiver = some link) : behind.Shut := by
  cases touches with
  | same => exact shut
  | worked worker here works => exact shut.worked sound works
  | withdrawn registered works gone => exact shut.withdrawn sound registered works gone
  | sent registered works isOpen =>
    rw [shut.closed] at isOpen
    cases isOpen
  | told => exact ⟨shut.closed, shut.vacant⟩
  | @turned turn =>
    refine shut.turn _ turn ?_
    rintro carried rfl
    exact (allowed link linked).1

/-- A closed channel stays closed, and nothing is taken up on it again. -/
theorem Ordered.shut_act (ordered : desk.Ordered) (allowed : desk.Allowed move)
    (linked : desk.client.link? receiver = some link) (shut : link.Shut) :
    ∃ behind, (desk.act move).2.client.link? receiver = some behind ∧ behind.Shut := by
  obtain ⟨behind, found, touches⟩ := ordered.touches allowed linked
  exact ⟨behind, found,
    touches.shut shut (ordered.fit.fits receiver link linked).sound allowed linked⟩

end Desk

/-! ## Requests to a closed channel -/

theorem Request.begun_of_reaches {client : Client} {receiver : ReceiverId} {link : Link}
    {request : Request} (reaches : request.Reaches client receiver)
    (linked : client.link? receiver = some link) (sound : link.association.table.Sound) :
    ∃ behind, (request.start client).2.link? receiver = some behind ∧
      Site.Begun receiver link (request.start client).1 behind := by
  cases request with
  | call proxy method arguments mode =>
    obtain ⟨remote, resolved⟩ := reaches
    change ∃ behind, (client.dispatch proxy method arguments mode).2.link? receiver = some behind ∧
      Site.Begun receiver link (client.dispatch proxy method arguments mode).1 behind
    simp only [Client.dispatch, remote, Client.startAt, resolved]
    exact Client.visit_on linked fun _ on => Site.startCall_spec on sound _ _ _
  | callAlone proxy method arguments => exact reaches.elim
  | session module bean view =>
    have resolved : client.resolve module = .ok receiver := reaches
    change ∃ behind, (client.createSession module bean view).2.link? receiver = some behind ∧
      Site.Begun receiver link (client.createSession module bean view).1 behind
    simp only [Client.createSession, Client.startAt, resolved]
    exact Client.visit_on linked fun _ on => Site.startSession_spec on sound _ _ _ _ _ _
  | step other step onePhase transaction =>
    obtain rfl : other = receiver := reaches
    exact Client.visit_on linked fun _ on => Site.startTransaction_spec on sound _ _ _ _ _

/-- A request to a closed channel fails, and its host hears nothing of it. -/
theorem Desk.Ordered.refuses {desk : Desk} (ordered : desk.Ordered) {receiver : ReceiverId}
    {link : Link} (linked : desk.client.link? receiver = some link)
    (closed : link.association.closed = true) {request : Request}
    (reaches : request.Reaches desk.client receiver) :
    ∃ outcome after, (desk.act (.request request)).1 = some (.ended outcome) ∧ outcome.Fails ∧
      (desk.act (.request request)).2.client.link? receiver = some after ∧
      after.outbound = link.outbound := by
  obtain ⟨behind, left, begun⟩ :=
    request.begun_of_reaches reaches linked (ordered.fit.fits receiver link linked).sound
  rw [Desk.act]
  generalize request.start desk.client = started at left begun
  obtain ⟨start, client⟩ := started
  cases begun with
  | refused fails => exact ⟨_, link, rfl, fails, left, rfl⟩
  | withdrawn registered works gone fails => exact ⟨_, _, rfl, fails, left, rfl⟩
  | left registered works goesOn leaves isOpen =>
    rw [closed] at isOpen
    cases isOpen
  | running registered works here own held isOpen =>
    rw [closed] at isOpen
    cases isOpen

/-! ## Those who waited -/

namespace Table

variable {table : Table LazyResult} {slot : Slot} {d : Delivery LazyResult} {reason : String}

theorem holder_of_read (c : table.Coupled) (read : table.Read slot.generation)
    (owned : table.owns slot = true) : ∃ hold, table.holder? slot = some hold ∧ hold ≠ .gone := by
  obtain ⟨box, at_g, there⟩ := read
  obtain ⟨entry, found, own⟩ := owns_iff.mp owned
  obtain ⟨-, same, -⟩ := c.awaited slot.id entry box found (own ▸ at_g)
  refine ⟨box.hold, ?_, there⟩
  have at_slot : table.box? slot = some box := at_g
  simp only [holder?, at_slot, same, ↓reduceIte]

theorem Due.arrives (due : table.Due reason slot d) (c : table.Coupled)
    (read : table.Read slot.generation) : (table.failAll reason).2.arrival? slot = some d := by
  cases due with
  | pending owned =>
    obtain ⟨hold, held, reads⟩ := holder_of_read c read owned
    exact arrival_failAll held reads owned reason
  | arrived there =>
    have same : (table.perform (.failAll reason)).2.boxes[slot.generation]? = _ :=
      box_of_no_entry (c.not_hasEntry_of_arrival there) (c.old_of_arrival there) rfl
    exact (arrival_congr same).trans there

theorem Due.old (due : table.Due reason slot d) (c : table.Coupled) :
    slot.generation < table.nextGeneration := by
  cases due with
  | pending owned =>
    obtain ⟨entry, found, own⟩ := owns_iff.mp owned
    exact own ▸ c.fresh slot.id entry found
  | arrived there => exact c.old_of_arrival there

end Table

namespace Course

variable {config : Config} {first later : List Turn} {desk : Desk} {closing : Turn}
  {receiver : ReceiverId} {link behind : Link} {reason : String}

theorem link_of_close (closes : closing.move = .link receiver (.close reason))
    (linked : closing.before.client.link? receiver = some link) :
    closing.after.client.link? receiver = some (link.close reason).2 := by
  rw [Turn.after, closes, Desk.act]
  exact (closing.before.client.onLink_of_link
    (fun link registry => LinkTurn.apply link registry (.close reason)) linked).link

theorem shut_from (course : Course config (first ++ closing :: later) desk)
    (closes : closing.move = .link receiver (.close reason))
    (linked : closing.before.client.link? receiver = some link) :
    ∃ behind, desk.client.link? receiver = some behind ∧ behind.Shut := by
  refine course.keeps ⟨_, link_of_close closes linked, link.shut_close reason⟩ ?_
  rintro turn - ordered allowed ⟨middle, found, shut⟩
  exact ordered.shut_act allowed found shut

theorem arrival_from (course : Course config (first ++ closing :: later) desk)
    (closes : closing.move = .link receiver (.close reason))
    (linked : closing.before.client.link? receiver = some link)
    (left : desk.client.link? receiver = some behind) {slot : Slot} {d : Delivery LazyResult}
    (due : link.association.table.Due reason slot d)
    (read : behind.association.table.Read slot.generation) :
    behind.association.table.arrival? slot = some d := by
  have part : first ++ [closing] <+: first ++ closing :: later := ⟨later, by simp⟩
  obtain ⟨begun, allowed⟩ := course.of_prefix part
  have sound := (begun.ordered.fit.fits receiver link linked).sound
  have swept : Table.Elder link.association.table (link.association.table.failAll reason).2 :=
    Table.elder_perform (show link.association.table.Allowed (.failAll reason) from trivial)
  obtain ⟨behind', left', stretch⟩ :=
    (course.grows part).leads receiver _ (link_of_close closes linked)
  obtain rfl := Option.some.inj (left.symm.trans left')
  have old := due.old sound.toCoupled
  have still := stretch.elder.readers _ (Nat.lt_of_lt_of_le old swept.next_le) read
  have there := due.arrives sound.toCoupled (swept.readers _ old still)
  exact stretch.arrival_lasts
    (sound.perform (show link.association.table.Allowed (.failAll reason) from trivial)) there read

/-- A channel that is closed is lost for good. -/
theorem channel_lost (course : Course config (first ++ closing :: later) desk)
    (closes : closing.move = .link receiver (.close reason))
    (linked : closing.before.client.link? receiver = some link) :
    ChannelLost closing.before receiver link reason desk := by
  obtain ⟨begun, -⟩ := course.of_prefix (⟨later, by simp⟩ : first ++ [closing] <+: _)
  have sound := (begun.ordered.fit.fits receiver link linked).sound
  have ordered := course.ordered
  obtain ⟨behind, left, shut⟩ := course.shut_from closes linked
  have fits := ordered.fit.fits receiver behind left
  refine ⟨⟨sound.outstanding.symm, sound.outstanding⟩, ⟨behind, left, shut.closed,
    fits.sound.outstanding_eq_zero_iff.mpr shut.vacant, shut.vacant⟩, ?_, ?_, ?_, ?_⟩
  · rintro future mem rfl owned
    have stands : link.association.table.Kept future.slot :=
      (begun.ordered.fit.fits _ link linked).stands future.place
        (List.mem_append_right _ (List.mem_map_of_mem mem)) rfl
    rcases stands with held | ⟨-, gone⟩
    · exact Table.unclaimed_of_held held
    · exact absurd (Table.hasEntry_of_owns owned) gone
  · rintro task mem rfl d due
    have held := fits.stands task.work.place
      (List.mem_append_left _ (List.mem_map_of_mem mem)) rfl
    have reads : task.work.hold ≠ .gone := by
      cases task.work <;> exact nofun
    have there := course.arrival_from closes linked left due (Table.read_of_holder held reads)
    exact ordered.act_look_of_arrived mem left there
  · rintro place future behind' found rfl left' open_claim d due timeout
    obtain rfl := Option.some.inj (left.symm.trans left')
    have stands : behind.association.table.Kept future.slot := fits.stands future.place
      (List.mem_append_right _ (List.mem_map_of_mem (List.mem_of_getElem? found))) rfl
    rcases stands with held | ⟨gone, -⟩
    · have there := course.arrival_from closes linked left due (Table.read_of_holder held nofun)
      exact Desk.act_claim_of_arrived found left held there timeout
    · cases (Table.claimed_of_gone gone).symm.trans open_claim
  · intro request reaches
    obtain ⟨outcome, after, ended, fails, found, quiet⟩ :=
      ordered.refuses left shut.closed reaches
    exact ⟨outcome, behind, after, ended, fails, left, found, quiet⟩

/-- A step waits when the channel is closed: the answer to it comes too late. -/
theorem channel_lost_of_commit :
    let joined : Turn :=
      ⟨⟨.ofConfig .default, []⟩, .join ⟨"host", .linked (.named "host" 4 none none), []⟩⟩
    let commit : Turn := ⟨joined.after, .request (.step ⟨1⟩ .commit false ⟨[7]⟩)⟩
    let closing : Turn := ⟨commit.after, .link ⟨1⟩ (.close "gone")⟩
    let late : Turn := ⟨closing.after, .link ⟨1⟩ (.receive [0x14, 0, 1, 0])⟩
    ∃ link, closing.before.client.link? ⟨1⟩ = some link ∧ (link.close "gone").1 = 1 ∧
      ChannelLost closing.before ⟨1⟩ link "gone" late.after ∧
      (late.after.act (.look 0)).1 = some (.ended (.stepFailed ⟨.rmFail, .commit⟩)) := by
  intro joined commit closing late
  have joins : Course .default [joined] joined.after := Course.joins .default "host" 4
  have commits : Course .default ([joined] ++ [commit]) commit.after := joins.next trivial
  have closes : Course .default ([joined, commit] ++ [closing]) closing.after :=
    commits.next trivial
  have ends : Course .default ([joined, commit] ++ [closing] ++ [late]) late.after :=
    closes.next trivial
  rw [List.append_assoc] at ends
  refine ⟨_, rfl, rfl, ends.channel_lost rfl rfl, rfl⟩

end Course

end Farcall
