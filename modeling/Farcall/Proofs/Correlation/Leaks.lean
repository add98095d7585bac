import Farcall.Proofs.Correlation.Allocation
import Farcall.Proofs.Correlation.Attendance

set_option autoImplicit false

/-!
# Entries that outlive their slots

A slot that is dropped takes its entry along as long as it has its box. A wait takes the box from
the slot; if it is broken off, neither it nor the slot removes the entry, and the entry stays until
something arrives for it. This is the only way in which an entry is left behind.
-/

namespace Farcall

variable {ρ : Type}

namespace Table

theorem drop_of_gone {table : Table ρ} {slot : Slot} (gone : table.holder? slot = some .gone) :
    (table.drop slot).2 = table.closeBox slot := by
  rw [drop, claimed_of_gone gone]
  rfl

theorem drop_of_held {table : Table ρ} {slot : Slot} (held : table.holder? slot = some .slot) :
    (table.drop slot).2 = (table.abandon slot).closeBox slot := by
  rw [drop, unclaimed_of_held held]
  rfl

theorem not_hasEntry_of_held {table : Table ρ} (c : table.Coupled) {slot : Slot}
    (held : table.holder? slot = some .slot) :
    ¬ (table.drop slot).2.HasEntry slot.generation := by
  rw [drop_of_held held]
  rintro ⟨id, entry, found, own⟩
  cases owned : table.owns slot with
  | true =>
    rw [abandon_of_owns owned] at found
    rw [closeBox_entries, without_entry] at found
    split at found
    · cases found
    · next other =>
      have here := (c.owns_of_entry held found own).1
      exact other (by simp [here])
  | false =>
    rw [abandon_of_not_owns owned] at found
    have standing := (c.owns_of_entry held found own).2
    rw [owned] at standing
    cases standing

theorem Coupled.hasEntry_iff {table : Table ρ} (c : table.Coupled) {slot : Slot} {hold : Hold}
    (held : table.holder? slot = some hold) :
    table.HasEntry slot.generation ↔ table.owns slot = true := by
  constructor
  · rintro ⟨id, entry, found, own⟩
    exact (c.owns_of_entry held found own).2
  · exact hasEntry_of_owns

theorem not_read_of_gone {table : Table ρ} {slot : Slot} (gone : table.holder? slot = some .gone) :
    ¬ table.Read slot.generation :=
  not_read_of_claimed (.inr gone) (claimed_of_gone gone)

theorem Counted.outstanding_eq_zero_iff {table : Table ρ} (h : table.Counted) :
    table.outstanding = 0 ↔ ∀ id : UInt16, table.entries[id]? = none := by
  rw [h.outstanding, ← beq_iff_eq, ← Std.TreeMap.isEmpty_eq_size_eq_zero,
    Std.TreeMap.isEmpty_iff_forall_contains]
  simp only [Std.TreeMap.contains_eq_isSome_getElem?, Option.isSome_eq_false_iff,
    Option.isNone_iff_eq_none]

end Table

namespace Run

variable {limit : Nat} {trace : List (Moment ρ)} {table : Table ρ}

/-- A live entry whose slot has no reader is one that a broken wait left. -/
theorem brokenOff_of_owns (run : Run limit trace table) {slot : Slot}
    (gone : table.holder? slot = some .gone) (owned : table.owns slot = true) :
    BrokenOff trace slot := by
  obtain ⟨entry, found, own⟩ := Table.owns_iff.mp owned
  obtain ⟨box, at_g, -⟩ := Table.box_of_holder gone
  have live := (run.sound.awaited slot.id entry box found (by rw [own]; exact at_g)).1
  rcases run.attended slot.id entry found live with read | broken
  · rw [own] at read
    exact absurd read (Table.not_read_of_gone gone)
  · rwa [own] at broken

/-- Dropping a slot leaves its entry standing exactly if a wait of the slot was broken off and
nothing came for the entry since. So once all slots are gone, and no call was given up, the table
is empty and its limit free again exactly if no slot of a broken wait has left its entry. -/
theorem leak_iff (run : Run limit trace table) :
    (∀ slot, table.Idle slot →
      ((table.drop slot).2.HasEntry slot.generation ↔
        BrokenOff trace slot ∧ table.owns slot = true)) ∧
    ((∀ slot, ¬ table.HasSlot slot) →
      (∀ (id : UInt16) entry, table.entries[id]? = some entry → entry.discard = false) →
      (table.outstanding = 0 ∧ table.Admits table.limit ↔
        ∀ slot, BrokenOff trace slot → table.owns slot = false)) := by
  have sound := run.sound
  constructor
  · intro slot idle
    rcases idle with held | gone
    · have taken := Table.not_hasEntry_of_held sound.toCoupled held
      have unbroken : ¬ BrokenOff trace slot :=
        fun broken => run.unread_of_broken broken (Table.read_of_holder held nofun)
      exact iff_of_false taken fun both => unbroken both.1
    · have same : (table.drop slot).2.HasEntry slot.generation ↔
          table.HasEntry slot.generation := by
        rw [Table.drop_of_gone gone]
        rfl
      rw [same, sound.toCoupled.hasEntry_iff gone]
      exact ⟨fun owned => ⟨run.brokenOff_of_owns gone owned, owned⟩, And.right⟩
  · intro alone unmarked
    rw [Table.admits_iff sound.toCounted, sound.toCounted.outstanding_eq_zero_iff]
    constructor
    · rintro ⟨empty, -⟩ slot -
      rw [Table.owns, empty]
    · intro lost
      have empty : ∀ id : UInt16, table.entries[id]? = none := by
        intro id
        cases found : table.entries[id]? with
        | none => rfl
        | some entry =>
          rcases run.attended id entry found (unmarked id entry found) with read | broken
          · obtain ⟨box, at_g, -⟩ := read
            refine absurd ⟨box.hold, ?_⟩ (alone ⟨box.id, entry.generation⟩)
            simp only [Table.holder?, Table.box?, at_g, ↓reduceIte]
          · have standing : table.owns ⟨id, entry.generation⟩ = true :=
              Table.owns_iff.mpr ⟨entry, found, rfl⟩
            rw [lost _ broken] at standing
            cases standing
      refine ⟨empty, ?_⟩
      rw [sound.toCounted.outstanding_eq_zero_iff.mpr empty]
      omega

theorem leak_iff_of_two_calls :
    let ops : List (Op String) := [.register, .register, .beginWait ⟨1, 0⟩, .look ⟨1, 0⟩ false,
      .breakOff ⟨1, 0⟩, .drop ⟨2, 1⟩]
    let trace := (Table.empty 2 : Table String).moments ops
    let table := (Table.empty 2 : Table String).performAll ops
    Run 2 trace table ∧
      (∀ slot, table.Idle slot →
        ((table.drop slot).2.HasEntry slot.generation ↔
          BrokenOff trace slot ∧ table.owns slot = true)) ∧
      ((∀ slot, ¬ table.HasSlot slot) →
        (∀ (id : UInt16) entry, table.entries[id]? = some entry → entry.discard = false) →
        (table.outstanding = 0 ∧ table.Admits table.limit ↔
          ∀ slot, BrokenOff trace slot → table.owns slot = false)) := by
  intro ops trace table
  have run : Run 2 trace table := Run.start.performAll ops (by decide)
  exact ⟨run, run.leak_iff⟩

/-- A wait that is broken off before anything arrived: the slot is dropped, its entry stays, and a
table for one call takes no other. -/
theorem entry_outlives_slot :
    let ops : List (Op String) := [.register, .beginWait ⟨1, 0⟩, .look ⟨1, 0⟩ false,
      .breakOff ⟨1, 0⟩]
    let start : Table String := .empty 1
    let table := start.performAll ops
    let after := (table.drop ⟨1, 0⟩).2
    Run 1 (start.moments ops) table ∧ table.Idle ⟨1, 0⟩ ∧ after.HasEntry 0 ∧
      after.boxes.isEmpty = true ∧ after.entries[(1 : UInt16)]? = some ⟨0, false⟩ ∧
      after.outstanding = 1 ∧ after.register.1 = .error (.exhausted 1) := by
  intro ops start table after
  have run : Run 1 (start.moments ops) table := Run.start.performAll ops (by decide)
  have entry : after.entries[(1 : UInt16)]? = some ⟨0, false⟩ := by decide
  have full : after.limit ≤ after.outstanding := by decide
  exact ⟨run, by decide, ⟨1, ⟨0, false⟩, entry, rfl⟩, by decide, entry, rfl,
    congrArg Prod.fst (Table.register_of_full full)⟩

end Run

end Farcall
