import Farcall.Proofs.Correlation.Leaks

set_option autoImplicit false

/-!
# Ids come round again

Ids are granted in a circle. Calls that come and go one by one take the cursor once around, and then
an id is granted again while the slot that had it first may still be there.
-/

namespace Farcall.Table

variable {ρ : Type}

/-- As many slots as there were before were taken in the order of their ids, and no entry is left. -/
structure Quiet (count : Nat) (table : Table ρ) : Prop where
  empty : ∀ id : UInt16, table.entries[id]? = none
  outstanding : table.outstanding = 0
  room : 1 ≤ table.limit
  nextId : table.nextId = UInt16.ofNat (count + 1)
  nextGeneration : table.nextGeneration = count

def quietSlot (count : Nat) : Slot := ⟨UInt16.ofNat (count + 1), count⟩

variable {table : Table ρ} {count : Nat}

theorem Quiet.register (quiet : Quiet count table) : table.register =
    (.ok (quietSlot count), (table.enter (UInt16.ofNat (count + 1))).2) := by
  have slot : (table.enter (UInt16.ofNat (count + 1))).1 = quietSlot count := by
    rw [enter, quiet.nextGeneration, quietSlot]
  have room : table.outstanding < table.limit := by
    have admits := quiet.room
    rw [quiet.outstanding]
    omega
  rw [register_of_free room (quiet.empty _), quiet.nextId, slot]

theorem Quiet.holder (quiet : Quiet count table) :
    (table.enter (UInt16.ofNat (count + 1))).2.holder? (quietSlot count) = some .slot := by
  simp only [holder?, box?, enter_box, quietSlot, quiet.nextGeneration, ↓reduceIte]

theorem Quiet.pass (quiet : Quiet count table) {after : Table ρ}
    (behind : after = ((table.enter (UInt16.ofNat (count + 1))).2.drop (quietSlot count)).2) :
    Quiet (count + 1) after ∧ ∀ g < count, after.boxes[g]? = table.boxes[g]? := by
  have own := enter_entry table (UInt16.ofNat (count + 1)) (quietSlot count).id
  rw [quietSlot, if_pos rfl] at own
  have owned := owns_iff.mpr ⟨_, own, quiet.nextGeneration⟩
  rw [drop_of_held quiet.holder, quietSlot, abandon_of_owns owned] at behind
  subst behind
  refine ⟨⟨?_, ?_, quiet.room, ?_, ?_⟩, ?_⟩
  · intro id
    rw [closeBox_entries, without_entry, enter_entry, quiet.empty]
    split <;> simp_all
  · change table.outstanding + 1 - 1 = 0
    rw [quiet.outstanding]
  · change UInt16.ofNat (count + 1) + 1 = _
    rw [UInt16.ofNat_add (count + 1) 1]
    rfl
  · change table.nextGeneration + 1 = _
    rw [quiet.nextGeneration]
  · intro g old
    rw [closeBox_box, if_neg (Nat.ne_of_gt old), without_boxes, enter_box, quiet.nextGeneration,
      if_neg (Nat.ne_of_gt old)]

def passes : Nat → Nat → List (Op ρ)
  | _, 0 => []
  | count, more + 1 => .register :: .drop (quietSlot count) :: passes (count + 1) more

theorem Quiet.passes (quiet : Quiet count table) (more : Nat) :
    table.AllowedAll (passes count more) ∧
      Quiet (count + more) (table.performAll (passes count more)) ∧
      ∀ g < count, (table.performAll (passes count more)).boxes[g]? = table.boxes[g]? := by
  induction more generalizing count table with
  | zero => exact ⟨trivial, quiet, fun _ _ => rfl⟩
  | succ more ih =>
    have registered : (table.perform .register).2 = (table.enter (UInt16.ofNat (count + 1))).2 := by
      simp only [perform, quiet.register]
    obtain ⟨next, older⟩ := quiet.pass rfl
    obtain ⟨allowed, last, old⟩ := ih next
    rw [Table.passes, performAll, performAll, AllowedAll, AllowedAll, registered]
    refine ⟨⟨trivial, .inl quiet.holder, allowed⟩, ?_, ?_⟩
    · rw [← Nat.add_assoc, Nat.add_right_comm]
      exact last
    · intro g before
      exact (old g (Nat.lt_succ_of_lt before)).trans (older g before)

end Farcall.Table

theorem Farcall.Run.passes {ρ : Type} {limit count : Nat} {trace : List (Moment ρ)}
    {table : Table ρ} (run : Run limit trace table) (quiet : Table.Quiet count table)
    (more : Nat) : ∃ trace after, Run limit trace after ∧ Table.Quiet (count + more) after ∧
      ∀ g < count, after.boxes[g]? = table.boxes[g]? := by
  obtain ⟨allowed, last, older⟩ := quiet.passes more
  exact ⟨_, _, run.performAll _ allowed, last, older⟩
