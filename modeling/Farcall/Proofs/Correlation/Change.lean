import Farcall.Proofs.Correlation.Cases
import Mathlib.Logic.Relation

set_option autoImplicit false

/-!
# What operations change

The entries and boxes of a table change in a few ways only, and `Change` lists them. Every operation
makes such changes, one after the other; only breaking a wait off does something else. An invariant
is checked against the list once, and then holds behind every operation.
-/

namespace Farcall.Table

variable {ρ : Type}

/-- One change to the entries and boxes of a table. -/
inductive Change (table : Table ρ) : Table ρ → Prop where
  | count (f : Stats → Stats) : Change table (table.count f)
  | enter {id : UInt16} (free : table.entries[id]? = none)
      (room : table.outstanding < table.limit) : Change table (table.enter id).2
  | settle {id : UInt16} {entry : Entry} (found : table.entries[id]? = some entry)
      (d : Delivery ρ) : Change table ((table.without id).deliver entry.generation d).2
  | remove {id : UInt16} {entry : Entry} (found : table.entries[id]? = some entry)
      (marked : entry.discard = true) : Change table (table.without id)
  /-- Only the signal of a box, or who waits at it. -/
  | flag (generation : Nat) (f : Box ρ → Box ρ)
      (same : ∀ box, table.boxes[generation]? = some box → (f box).id = box.id ∧
        (f box).arrived = box.arrived ∧ ((f box).hold = .gone ↔ box.hold = .gone)) :
      Change table { table with boxes := table.boxes.modify generation f }
  | spend (slot : Slot) {hold : Hold} (held : table.holder? slot = some hold)
      (ended : table.arrival? slot ≠ none ∨ table.owns slot = false) :
      Change table (table.spend slot)
  | expire (slot : Slot) (owned : table.owns slot = true) :
      Change table ((table.spend slot).without slot.id)
  | giveUp (slot : Slot) (owned : table.owns slot = true) : Change table (table.givenUp slot)
  | abandon (slot : Slot) (owned : table.owns slot = true) :
      Change table ((table.without slot.id).closeBox slot)
  | close (slot : Slot) {hold : Hold} (held : table.holder? slot = some hold)
      (ended : hold = .gone ∨ table.owns slot = false) : Change table (table.closeBox slot)

abbrev Changes : Table ρ → Table ρ → Prop := Relation.ReflTransGen Change

theorem Change.changes {table after : Table ρ} (h : Change table after) : Changes table after :=
  .single h

theorem changes_register (table : Table ρ) : Changes table table.register.2 := by
  unfold register
  split
  · exact .refl
  · next room =>
    cases found : freeId table.entries idCount table.nextId with
    | none => exact .refl
    | some id => exact (Change.enter (freeId_eq_some found) (by omega)).changes

theorem changes_fulfill (table : Table ρ) (id : UInt16) (r : ρ) :
    Changes table (table.fulfill id r).2 := by
  cases found : table.entries[id]? with
  | none =>
    rw [fulfill_of_none found]
    dsimp only
    exact (Change.count _).changes
  | some entry =>
    by_cases marked : entry.discard = true
    · rw [fulfill_of_marked found marked]
      dsimp only
      exact (Change.remove found marked).changes.tail (.count _)
    · rw [fulfill_of_live found (by simpa using marked)]
      dsimp only
      exact (Change.settle found _).changes.tail (.count _)

theorem changes_fail (table : Table ρ) (id : UInt16) (e : InvocationError) :
    Changes table (table.fail id e).2 := by
  cases found : table.entries[id]? with
  | none =>
    rw [fail_of_none found]
    dsimp only
    exact (Change.count _).changes
  | some entry =>
    rw [fail_of_some found]
    dsimp only
    exact (Change.settle found _).changes.tail (.count _)

theorem changes_sever (reason : String) (table : Table ρ) (id : UInt16) :
    Changes table (sever reason table id) := by
  cases found : table.entries[id]? with
  | none =>
    rw [sever_of_none found]
  | some entry =>
    rw [sever_of_some found]
    exact (Change.settle found _).changes

theorem changes_failAll (table : Table ρ) (reason : String) :
    Changes table (table.failAll reason).2 :=
  failAll_keeps (Changes table) reason .refl
    fun after id before => before.trans (changes_sever reason after id)

theorem changes_resignal (table : Table ρ) (g : Nat) (f : Signals → Signals) :
    Changes table (table.resignal g f) :=
  (Change.flag g (fun box => { box with signals := f box.signals }) fun _ _ =>
    ⟨rfl, rfl, Iff.rfl⟩).changes

theorem changes_proceedAsync (table : Table ρ) (id : UInt16) :
    Changes table (table.proceedAsync id).2 := by
  cases found : table.entries[id]? with
  | none =>
    rw [proceedAsync_of_none found]
    dsimp only
    exact (Change.count _).changes
  | some entry =>
    rw [proceedAsync_of_some found]
    exact changes_resignal table _ _

theorem changes_beginWait (table : Table ρ) (slot : Slot) :
    Changes table (table.perform (.beginWait slot)).2 := by
  simp only [perform, beginWait]
  cases claimed : table.claimed slot with
  | true => exact .refl
  | false =>
    refine (Change.flag slot.generation _ ?_).changes
    intro box found
    have unclaimed : box.hold = .slot := by simpa [Table.claimed, box?, found] using claimed
    simp [unclaimed]

theorem changes_expire {table : Table ρ} {slot : Slot} {hold : Hold}
    (held : table.holder? slot = some hold) : Changes table (table.expire slot).2 := by
  cases owned : table.owns slot with
  | true =>
    rw [expire_of_owns owned]
    dsimp only
    exact (Change.expire slot owned).changes.tail (.count _)
  | false =>
    rw [expire_of_not_owns owned]
    exact (Change.spend slot held (.inr owned)).changes

theorem changes_giveUp {table : Table ρ} {slot : Slot} {hold : Hold}
    (held : table.holder? slot = some hold) (late : Bool) :
    Changes table (table.giveUp slot late).2 := by
  cases late with
  | false => exact .refl
  | true => exact changes_expire held

theorem changes_claim {table : Table ρ} {slot : Slot} {hold : Hold}
    (held : table.holder? slot = some hold) : Changes table (table.claim slot).2 := by
  cases arrived : table.arrival? slot with
  | some d =>
    rw [claim_of_arrived arrived]
    exact (Change.spend slot held (.inl (by simp [arrived]))).changes
  | none =>
    cases owned : table.owns slot with
    | true => rw [claim_of_empty arrived owned]
    | false =>
      rw [claim_of_severed arrived owned]
      exact (Change.spend slot held (.inr owned)).changes

theorem changes_lookOn {table : Table ρ} {slot : Slot} {hold : Hold}
    (held : table.holder? slot = some hold) (late : Bool) :
    Changes table (table.lookOn slot late).2 := by
  have first := changes_claim held
  cases found : table.claim slot with
  | mk result after =>
    rw [found] at first
    cases result with
    | some result =>
      rw [lookOn_of_some found]
      exact first
    | none =>
      obtain ⟨rfl, -⟩ := of_claim_none found
      rw [lookOn_of_none found]
      exact changes_giveUp held late

theorem changes_useSignal (table : Table ρ) (slot : Slot) :
    Changes table (table.useSignal slot).2 := by
  rcases table.useSignal_cases slot with ⟨-, same⟩ | ⟨stored, -, same⟩
  · rw [same]
  · rw [same]
    exact changes_resignal table _ _

theorem changes_lookOrProceed {table : Table ρ} {slot : Slot} {hold : Hold}
    (held : table.holder? slot = some hold) (late : Bool) :
    Changes table (table.lookOrProceed slot late).2 := by
  have attends : Changes table (table.attend slot) := changes_resignal table _ _
  rcases lookOrProceed_cases table slot late with ⟨-, same⟩ | ⟨-, same⟩ | ⟨-, -, same⟩
  · rw [same]
  · rw [same]
    exact attends.trans (changes_lookOn ((holder_attend table slot slot).trans held) late)
  · rw [same]
    exact attends.trans (changes_useSignal _ slot)

theorem changes_cancel (table : Table ρ) (slot : Slot) : Changes table (table.cancel slot).2 := by
  cases owned : table.owns slot with
  | false =>
    rw [cancel_of_not_owns owned]
  | true =>
    obtain ⟨entry, found, same⟩ := owns_iff.mp owned
    rw [cancel_of_owns owned, ← same]
    dsimp only
    exact (Change.settle found _).changes.tail (.count _)

theorem changes_discard {table : Table ρ} {slot : Slot} {hold : Hold}
    (held : table.holder? slot = some hold) : Changes table (table.discard slot).2 := by
  cases owned : table.owns slot with
  | true =>
    rw [discard_of_owns owned]
    exact (Change.giveUp slot owned).changes
  | false =>
    have closed : Changes table (table.closeBox slot) := (Change.close slot held (.inr owned)).changes
    cases unread : table.unread slot with
    | none =>
      rw [discard_of_read owned unread]
      exact closed
    | some d =>
      rw [discard_of_unread owned unread]
      dsimp only
      exact closed.tail (.count _)

theorem changes_drop {table : Table ρ} {slot : Slot} (idle : table.Idle slot) :
    Changes table (table.drop slot).2 := by
  rcases idle with held | gone
  · rw [drop, unclaimed_of_held held]
    cases owned : table.owns slot with
    | true =>
      rw [abandon_of_owns owned]
      exact (Change.abandon slot owned).changes
    | false =>
      rw [abandon_of_not_owns owned]
      exact (Change.close slot held (.inr owned)).changes
  · rw [drop, claimed_of_gone gone]
    exact (Change.close slot gone (.inl rfl)).changes

/-- All operations but one are sequences of changes. -/
theorem changes_perform {table : Table ρ} {op : Op ρ} (allowed : table.Allowed op)
    (kept : ∀ slot, op ≠ .breakOff slot) : Changes table (table.perform op).2 := by
  cases op with
  | register => exact changes_register table
  | fulfill id r => exact changes_fulfill table id r
  | fail id e => exact changes_fail table id e
  | failAll reason => exact changes_failAll table reason
  | proceedAsync id => exact changes_proceedAsync table id
  | beginWait slot => exact changes_beginWait table slot
  | look slot late => exact changes_lookOn allowed late
  | breakOff slot => exact absurd rfl (kept slot)
  | lookOrProceed slot late =>
    obtain ⟨hold, held⟩ := holder_of_idle allowed
    exact changes_lookOrProceed held late
  | letGo slot => exact changes_resignal table _ _
  | cancel slot => exact changes_cancel table slot
  | discard slot =>
    obtain ⟨hold, held⟩ := holder_of_idle allowed
    exact changes_discard held
  | drop slot => exact changes_drop allowed

end Farcall.Table
