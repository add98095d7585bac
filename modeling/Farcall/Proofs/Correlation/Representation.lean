import Farcall.Proofs.Correlation.Attendance

set_option autoImplicit false

/-!
# The table stands for its slots

As long as every wait is kept up until it ends, the entries of a table are its slots that are still
to be answered, one for each, and the entries that were given up. The counter counts them.
-/

namespace Farcall

variable {ρ : Type}

/-- The slot is still to be answered: somebody reads its box, and nothing arrived there. -/
def Table.Expects (table : Table ρ) (slot : Slot) : Prop :=
  (table.holder? slot = some .slot ∨ table.holder? slot = some .wait) ∧
    table.arrival? slot = none

structure Consistent (trace : List (Moment ρ)) (table : Table ρ) : Prop where
  counted : table.outstanding = table.entries.size
  bounded : table.outstanding ≤ table.limit
  limit_pos : 1 ≤ table.limit
  limit_le : table.limit ≤ 65536
  /-- There is something to count down for every entry, also while all are being failed. -/
  countable : ∀ (reason : String) (ids : List UInt16) id, (ids.foldl (Table.sever reason) table).contains id = true →
    1 ≤ (ids.foldl (Table.sever reason) table).outstanding
  fresh : ∀ (id : UInt16) entry, table.entries[id]? = some entry →
    entry.generation < table.nextGeneration
  distinct : ∀ (id id' : UInt16) entry entry', table.entries[id]? = some entry →
    table.entries[id']? = some entry' → entry.generation = entry'.generation → id = id'
  /-- The live entries are the slots that are still to be answered. -/
  live : ∀ (id : UInt16) g, table.entries[id]? = some ⟨g, false⟩ ↔ table.Expects ⟨id, g⟩
  /-- No wait on the slot of a live entry gave its final answer. -/
  unanswered : ∀ (id : UInt16) g, table.entries[id]? = some ⟨g, false⟩ → ¬ Answered trace ⟨id, g⟩
  sole : ∀ (id : UInt16) g, table.entries[id]? = some ⟨g, false⟩ →
    ∀ slot, table.HasSlot slot → slot.generation = g → slot = ⟨id, g⟩
  marked : ∀ (id : UInt16) g, table.entries[id]? = some ⟨g, true⟩ →
    ∀ slot, table.HasSlot slot → slot.generation ≠ g

namespace Table

theorem Counted.pos_of_contains {table : Table ρ} (h : table.Counted) {id : UInt16}
    (present : table.contains id = true) : 1 ≤ table.outstanding := by
  have inhabited := Std.TreeMap.isEmpty_eq_false_of_contains present
  rw [Std.TreeMap.isEmpty_eq_size_eq_zero] at inhabited
  have nonempty : table.entries.size ≠ 0 := by simpa using inhabited
  have counted := h.outstanding
  omega

theorem Sound.sever {table : Table ρ} (h : table.Sound) (reason : String) (ids : List UInt16) :
    (ids.foldl (Table.sever reason) table).Sound := by
  induction ids generalizing table with
  | nil => exact h
  | cons id ids ih => exact ih (h.changes (changes_sever reason table id))

theorem Expects.box {table : Table ρ} {slot : Slot} (h : table.Expects slot) :
    ∃ box, table.boxes[slot.generation]? = some box ∧ box.id = slot.id ∧ box.hold ≠ .gone ∧
      box.arrived = none := by
  obtain ⟨held | held, empty⟩ := h
  all_goals
    obtain ⟨box, found, same, hold⟩ := box_of_holder held
    rw [arrival?, found, Option.bind_some] at empty
    exact ⟨box, found, same, by simp [hold], empty⟩

theorem expects_of_box {table : Table ρ} {slot : Slot} {box : Box ρ}
    (found : table.boxes[slot.generation]? = some box) (same : box.id = slot.id)
    (there : box.hold ≠ .gone) (empty : box.arrived = none) : table.Expects slot := by
  have held : table.holder? slot = some box.hold := by
    simp only [holder?, box?, found, same, ↓reduceIte]
  have arrival : table.arrival? slot = none := by
    simp only [arrival?, box?, found, Option.bind_some, empty]
  refine ⟨?_, arrival⟩
  rw [held]
  cases hold : box.hold with
  | slot => exact .inl rfl
  | wait => exact .inr rfl
  | gone => exact absurd hold there

end Table

/-- Behind every run of waits that are kept up, the table is consistent. -/
theorem Run.consistent {limit : Nat} {trace : List (Moment ρ)} {table : Table ρ}
    (run : Run limit trace table) (driven : Driven trace) : Consistent trace table := by
  have sound := run.sound
  have read : ∀ (id : UInt16) g, table.entries[id]? = some ⟨g, false⟩ → table.Read g := by
    intro id g found
    exact (run.attended id ⟨g, false⟩ found rfl).resolve_right (driven _)
  refine {
    counted := sound.outstanding
    bounded := sound.bounded
    limit_pos := sound.limit_pos
    limit_le := sound.limit_le
    countable := fun reason ids _ => (sound.sever reason ids).pos_of_contains
    fresh := sound.fresh
    distinct := sound.distinct
    live := ?_
    unanswered := ?_
    sole := ?_
    marked := ?_ }
  · intro id g
    constructor
    · intro found
      obtain ⟨box, at_g, there⟩ := read id g found
      obtain ⟨-, same, empty⟩ := sound.awaited id ⟨g, false⟩ box found at_g
      exact Table.expects_of_box at_g same there empty
    · intro expects
      obtain ⟨box, at_g, same, there, empty⟩ := expects.box
      have found := sound.expecting g box at_g there empty
      rwa [same] at found
  · intro id g found answered
    exact run.unread_of_answered answered (read id g found)
  · intro id g found slot ⟨hold, held⟩ own
    have here := (sound.toCoupled.owns_of_entry held found own.symm).1
    rw [here, ← own]
  · intro id g found slot ⟨hold, held⟩ own
    obtain ⟨box, at_g, -⟩ := Table.box_of_holder held
    rw [Table.box?, own] at at_g
    have live := (sound.awaited id ⟨g, true⟩ box found at_g).1
    cases live

/-- One slot had its result and is gone, one was given up, one is waited for. -/
theorem Run.consistent_of_three_calls :
    let ops : List (Op String) := [.register, .register, .fulfill 1 "early", .drop ⟨1, 0⟩,
      .register, .discard ⟨3, 2⟩, .beginWait ⟨2, 1⟩, .look ⟨2, 1⟩ false]
    let start : Table String := .empty 2
    Run 2 (start.moments ops) (start.performAll ops) ∧ Driven (start.moments ops) ∧
      Consistent (start.moments ops) (start.performAll ops) := by
  intro ops start
  have run : Run 2 (start.moments ops) (start.performAll ops) :=
    Run.start.performAll ops (by decide)
  have driven : Driven (start.moments ops) := by
    simp [Driven, BrokenOff, ops, Table.moments]
  exact ⟨run, driven, run.consistent driven⟩

end Farcall
