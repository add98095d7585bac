import Farcall.Proofs.Correlation.Change

set_option autoImplicit false

/-!
# The invariant of a correlation table

`Counted` says that the counter and the limit are right, `Coupled` that entries and boxes fit
together: an entry and a box of one generation belong to one id, a marked entry has no box, a box
that waits for its delivery has its entry, and a box that nobody reads is empty. Both hold behind
every run, whatever becomes of the waits. That a live entry also has a reader is another matter
(`Run.attended`).
-/

namespace Farcall.Table

variable {ρ : Type}

structure Counted (table : Table ρ) : Prop where
  outstanding : table.outstanding = table.entries.size
  bounded : table.outstanding ≤ table.limit
  limit_pos : 1 ≤ table.limit
  limit_le : table.limit ≤ idCount

structure Coupled (table : Table ρ) : Prop where
  fresh : ∀ (id : UInt16) entry, table.entries[id]? = some entry →
    entry.generation < table.nextGeneration
  distinct : ∀ (id id' : UInt16) entry entry', table.entries[id]? = some entry →
    table.entries[id']? = some entry' → entry.generation = entry'.generation → id = id'
  known : ∀ (g : Nat) box, table.boxes[g]? = some box → g < table.nextGeneration
  awaited : ∀ (id : UInt16) entry box, table.entries[id]? = some entry →
    table.boxes[entry.generation]? = some box →
    entry.discard = false ∧ box.id = id ∧ box.arrived = none
  spent : ∀ (g : Nat) box, table.boxes[g]? = some box → box.hold = .gone → box.arrived = none
  expecting : ∀ (g : Nat) box, table.boxes[g]? = some box → box.hold ≠ .gone →
    box.arrived = none → table.entries[box.id]? = some ⟨g, false⟩

/-! ## Counting -/

theorem contains_of_some {entries : Std.TreeMap UInt16 Entry} {id : UInt16} {entry : Entry}
    (found : entries[id]? = some entry) : entries.contains id = true := by
  rw [Std.TreeMap.contains_eq_isSome_getElem?, found]
  rfl

theorem size_erase_of_some {entries : Std.TreeMap UInt16 Entry} {id : UInt16} {entry : Entry}
    (found : entries[id]? = some entry) : (entries.erase id).size + 1 = entries.size := by
  have present := contains_of_some found
  have nonempty : entries.size ≠ 0 := by
    have inhabited := Std.TreeMap.isEmpty_eq_false_of_contains present
    simpa [Std.TreeMap.isEmpty_eq_size_eq_zero] using inhabited
  rw [Std.TreeMap.size_erase, if_pos present]
  omega

theorem Counted.without {table : Table ρ} (h : table.Counted) {id : UInt16} {entry : Entry}
    (found : table.entries[id]? = some entry) : (table.without id).Counted := by
  obtain ⟨outstanding, bounded, limit_pos, limit_le⟩ := h
  have size := size_erase_of_some found
  refine ⟨?_, ?_, limit_pos, limit_le⟩
  · change table.outstanding - 1 = (table.entries.erase id).size
    omega
  · change table.outstanding - 1 ≤ table.limit
    omega

theorem Counted.enter {table : Table ρ} (h : table.Counted) {id : UInt16}
    (free : table.entries[id]? = none) (room : table.outstanding < table.limit) :
    (table.enter id).2.Counted := by
  obtain ⟨outstanding, bounded, limit_pos, limit_le⟩ := h
  refine ⟨?_, room, limit_pos, limit_le⟩
  change table.outstanding + 1 = (table.entries.insert id _).size
  rw [Std.TreeMap.size_insert, Std.TreeMap.contains_eq_isSome_getElem?, free, outstanding]
  rfl

theorem Counted.givenUp {table : Table ρ} (h : table.Counted) {slot : Slot}
    (owned : table.owns slot = true) : (table.givenUp slot).Counted := by
  obtain ⟨outstanding, bounded, limit_pos, limit_le⟩ := h
  obtain ⟨entry, found, -⟩ := owns_iff.mp owned
  refine ⟨?_, bounded, limit_pos, limit_le⟩
  change table.outstanding = (table.entries.insert slot.id _).size
  rw [Std.TreeMap.size_insert, if_pos (contains_of_some found), outstanding]

theorem Counted.change {table after : Table ρ} (h : table.Counted) (change : Change table after) :
    after.Counted := by
  cases change with
  | count f => exact ⟨h.outstanding, h.bounded, h.limit_pos, h.limit_le⟩
  | enter free room => exact h.enter free room
  | settle found d =>
    rw [deliver_eq]
    obtain ⟨outstanding, bounded, limit_pos, limit_le⟩ := h.without found
    exact ⟨outstanding, bounded, limit_pos, limit_le⟩
  | remove found marked => exact h.without found
  | flag g f same => exact ⟨h.outstanding, h.bounded, h.limit_pos, h.limit_le⟩
  | spend slot held ended => exact ⟨h.outstanding, h.bounded, h.limit_pos, h.limit_le⟩
  | expire slot owned =>
    obtain ⟨entry, found, -⟩ := owns_iff.mp owned
    obtain ⟨outstanding, bounded, limit_pos, limit_le⟩ := h.without found
    exact ⟨outstanding, bounded, limit_pos, limit_le⟩
  | giveUp slot owned => exact h.givenUp owned
  | abandon slot owned =>
    obtain ⟨entry, found, -⟩ := owns_iff.mp owned
    obtain ⟨outstanding, bounded, limit_pos, limit_le⟩ := h.without found
    exact ⟨outstanding, bounded, limit_pos, limit_le⟩
  | close slot held ended => exact ⟨h.outstanding, h.bounded, h.limit_pos, h.limit_le⟩

/-! ## Coupling -/

theorem Coupled.of_removal {table after : Table ρ} (h : table.Coupled) {id : UInt16} {entry : Entry}
    (found : table.entries[id]? = some entry)
    (entries : ∀ k, after.entries[k]? = if id = k then none else table.entries[k]?)
    (next : after.nextGeneration = table.nextGeneration)
    (others : ∀ g, g ≠ entry.generation → after.boxes[g]? = table.boxes[g]?)
    (settled : ∀ box, after.boxes[entry.generation]? = some box →
      (box.hold = .gone ↔ box.arrived = none)) : after.Coupled := by
  obtain ⟨fresh, distinct, known, awaited, spent, expecting⟩ := h
  have kept : ∀ (k : UInt16) e, after.entries[k]? = some e →
      k ≠ id ∧ table.entries[k]? = some e := by
    intro k e at_k
    rw [entries] at at_k
    split at at_k
    · cases at_k
    · next other => exact ⟨fun same => other same.symm, at_k⟩
  refine ⟨?_, ?_, ?_, ?_, ?_, ?_⟩
  · intro k e at_k
    rw [next]
    exact fresh k e (kept k e at_k).2
  · intro k k' e e' at_k at_k' same
    exact distinct k k' e e' (kept k e at_k).2 (kept k' e' at_k').2 same
  · intro g box at_g
    rw [next]
    by_cases own : g = entry.generation
    · rw [own]
      exact fresh id entry found
    · exact known g box (others g own ▸ at_g)
  · intro k e box at_k at_g
    obtain ⟨other, before⟩ := kept k e at_k
    have foreign : e.generation ≠ entry.generation :=
      fun same => other (distinct k id e entry before found same)
    exact awaited k e box before (others _ foreign ▸ at_g)
  · intro g box at_g gone
    by_cases own : g = entry.generation
    · exact (settled box (own ▸ at_g)).mp gone
    · exact spent g box (others g own ▸ at_g) gone
  · intro g box at_g there empty
    by_cases own : g = entry.generation
    · exact absurd ((settled box (own ▸ at_g)).mpr empty) there
    · have before := expecting g box (others g own ▸ at_g) there empty
      rw [entries, if_neg, before]
      intro same
      rw [← same, found] at before
      exact own (congrArg Entry.generation (Option.some.inj before)).symm

theorem Coupled.of_box {table after : Table ρ} (h : table.Coupled) (g : Nat)
    (entries : after.entries = table.entries)
    (next : after.nextGeneration = table.nextGeneration)
    (others : ∀ k, k ≠ g → after.boxes[k]? = table.boxes[k]?)
    (kept : ∀ box', after.boxes[g]? = some box' → ∃ box, table.boxes[g]? = some box ∧
      box'.id = box.id ∧ (box'.hold = .gone → box'.arrived = none) ∧
      (box.arrived = none → box'.arrived = none) ∧
      (box'.hold ≠ .gone → box'.arrived = none → box.hold ≠ .gone ∧ box.arrived = none)) :
    after.Coupled := by
  obtain ⟨fresh, distinct, known, awaited, spent, expecting⟩ := h
  refine ⟨?_, ?_, ?_, ?_, ?_, ?_⟩
  · rw [entries, next]
    exact fresh
  · rw [entries]
    exact distinct
  · intro k box' at_k
    rw [next]
    by_cases own : k = g
    · subst k
      obtain ⟨box, before, -⟩ := kept box' at_k
      exact known g box before
    · exact known k box' (others k own ▸ at_k)
  · intro id entry box' found at_k
    rw [entries] at found
    by_cases own : entry.generation = g
    · rw [own] at at_k
      obtain ⟨box, before, same, -, empty, -⟩ := kept box' at_k
      obtain ⟨live, id_eq, arrived⟩ := awaited id entry box found (own ▸ before)
      exact ⟨live, same.trans id_eq, empty arrived⟩
    · exact awaited id entry box' found (others _ own ▸ at_k)
  · intro k box' at_k gone
    by_cases own : k = g
    · subst k
      obtain ⟨box, -, -, empty, -⟩ := kept box' at_k
      exact empty gone
    · exact spent k box' (others k own ▸ at_k) gone
  · intro k box' at_k there empty
    rw [entries]
    by_cases own : k = g
    · subst k
      obtain ⟨box, before, same, -, -, reads⟩ := kept box' at_k
      obtain ⟨there, empty⟩ := reads there empty
      rw [same]
      exact expecting g box before there empty
    · exact expecting k box' (others k own ▸ at_k) there empty

theorem Coupled.enter {table : Table ρ} (h : table.Coupled) {id : UInt16}
    (free : table.entries[id]? = none) : (table.enter id).2.Coupled := by
  obtain ⟨fresh, distinct, known, awaited, spent, expecting⟩ := h
  have entries := enter_entry table id
  have boxes := enter_box table id
  have next : (table.enter id).2.nextGeneration = table.nextGeneration + 1 := rfl
  refine ⟨?_, ?_, ?_, ?_, ?_, ?_⟩
  · intro k e at_k
    rw [entries] at at_k
    rw [next]
    split at at_k
    · rw [← Option.some.inj at_k]
      exact Nat.lt_succ_self _
    · exact Nat.lt_succ_of_lt (fresh k e at_k)
  · intro k k' e e' at_k at_k' same
    rw [entries] at at_k at_k'
    split at at_k <;> split at at_k'
    · next own own' => exact own.symm.trans own'
    · rw [← Option.some.inj at_k] at same
      exact absurd same.symm (Nat.ne_of_lt (fresh k' e' at_k'))
    · rw [← Option.some.inj at_k'] at same
      exact absurd same (Nat.ne_of_lt (fresh k e at_k))
    · exact distinct k k' e e' at_k at_k' same
  · intro g box at_g
    rw [boxes] at at_g
    rw [next]
    split at at_g
    · omega
    · exact Nat.lt_succ_of_lt (known g box at_g)
  · intro k e box at_k at_g
    rw [entries] at at_k
    rw [boxes] at at_g
    split at at_k
    · next own =>
      obtain rfl := Option.some.inj at_k
      rw [if_pos rfl] at at_g
      rw [← Option.some.inj at_g]
      exact ⟨rfl, own, rfl⟩
    · rw [if_neg (Nat.ne_of_gt (fresh k e at_k))] at at_g
      exact awaited k e box at_k at_g
  · intro g box at_g gone
    rw [boxes] at at_g
    split at at_g
    · rw [← Option.some.inj at_g]
    · exact spent g box at_g gone
  · intro g box at_g there empty
    rw [boxes] at at_g
    rw [entries]
    split at at_g
    · next own => rw [← Option.some.inj at_g, if_pos rfl, own]
    · have before := expecting g box at_g there empty
      rw [if_neg, before]
      intro same
      rw [← same, free] at before
      cases before

theorem Coupled.givenUp {table : Table ρ} (h : table.Coupled) {slot : Slot}
    (owned : table.owns slot = true) : (table.givenUp slot).Coupled := by
  obtain ⟨fresh, distinct, known, awaited, spent, expecting⟩ := h
  obtain ⟨entry, found, own⟩ := owns_iff.mp owned
  have entries := givenUp_entry table slot
  have boxes := givenUp_box table slot
  -- The marked entry keeps its generation, so no generation is new and none is doubled.
  have before : ∀ (k : UInt16) e, (table.givenUp slot).entries[k]? = some e →
      ∃ old, table.entries[k]? = some old ∧ old.generation = e.generation := by
    intro k e at_k
    rw [entries] at at_k
    split at at_k
    · next same =>
      rw [← Option.some.inj at_k, ← same]
      exact ⟨entry, found, own⟩
    · exact ⟨e, at_k, rfl⟩
  refine ⟨?_, ?_, ?_, ?_, ?_, ?_⟩
  · intro k e at_k
    obtain ⟨old, at_k, same⟩ := before k e at_k
    rw [← same]
    exact fresh k old at_k
  · intro k k' e e' at_k at_k' same
    obtain ⟨old, at_k, was⟩ := before k e at_k
    obtain ⟨old', at_k', was'⟩ := before k' e' at_k'
    exact distinct k k' old old' at_k at_k' (was.trans (same.trans was'.symm))
  · intro g box at_g
    rw [boxes] at at_g
    split at at_g
    · cases at_g
    · exact known g box at_g
  · intro k e box at_k at_g
    rw [entries] at at_k
    rw [boxes] at at_g
    split at at_g
    · cases at_g
    · next other =>
      split at at_k
      · rw [← Option.some.inj at_k] at other
        exact absurd rfl other
      · exact awaited k e box at_k at_g
  · intro g box at_g gone
    rw [boxes] at at_g
    split at at_g
    · cases at_g
    · exact spent g box at_g gone
  · intro g box at_g there empty
    rw [boxes] at at_g
    split at at_g
    · cases at_g
    · next other =>
      have old := expecting g box at_g there empty
      rw [entries, if_neg, old]
      intro same
      rw [← same, found] at old
      exact other (own.symm.trans (congrArg Entry.generation (Option.some.inj old)))

theorem Coupled.settle {table : Table ρ} (h : table.Coupled) {id : UInt16} {entry : Entry}
    (found : table.entries[id]? = some entry) (d : Delivery ρ) :
    ((table.without id).deliver entry.generation d).2.Coupled := by
  refine h.of_removal found ?_ ?_ ?_ ?_
  · intro k
    rw [deliver_eq]
    exact without_entry table id k
  · rw [deliver_eq]
    rfl
  · intro g other
    rw [deliver_box, if_neg (Ne.symm other)]
    rfl
  · intro box at_g
    rw [deliver_box, if_pos rfl] at at_g
    obtain ⟨old, before, rfl⟩ := Option.map_eq_some_iff.mp at_g
    by_cases gone : old.hold = .gone
    · have empty := h.spent entry.generation old before gone
      simp [Box.accept, gone, empty]
    · simp [Box.accept, gone]

theorem Coupled.spend {table : Table ρ} (h : table.Coupled) (slot : Slot) :
    (table.spend slot).Coupled := by
  refine h.of_box slot.generation rfl rfl ?_ ?_
  · intro k other
    rw [spend_box, if_neg (Ne.symm other)]
  · intro box' at_g
    rw [spend_box, if_pos rfl] at at_g
    obtain ⟨box, before, rfl⟩ := Option.map_eq_some_iff.mp at_g
    exact ⟨box, before, rfl, fun _ => rfl, fun _ => rfl, fun there _ => absurd rfl there⟩

theorem Coupled.closeBox {table : Table ρ} (h : table.Coupled) (slot : Slot) :
    (table.closeBox slot).Coupled := by
  refine h.of_box slot.generation rfl rfl ?_ ?_
  · intro k other
    rw [closeBox_box, if_neg (Ne.symm other)]
  · intro box' at_g
    rw [closeBox_box, if_pos rfl] at at_g
    cases at_g

theorem Coupled.expire {table : Table ρ} (h : table.Coupled) {slot : Slot}
    (owned : table.owns slot = true) : ((table.spend slot).without slot.id).Coupled := by
  obtain ⟨entry, found, own⟩ := owns_iff.mp owned
  refine (h.spend slot).of_removal found (without_entry _ slot.id) rfl (fun g _ => rfl) ?_
  · intro box at_g
    rw [own, without_boxes, spend_box, if_pos rfl] at at_g
    obtain ⟨old, -, rfl⟩ := Option.map_eq_some_iff.mp at_g
    simp

theorem Coupled.abandon {table : Table ρ} (h : table.Coupled) {slot : Slot}
    (owned : table.owns slot = true) : ((table.without slot.id).closeBox slot).Coupled := by
  obtain ⟨entry, found, own⟩ := owns_iff.mp owned
  refine (h.closeBox slot).of_removal found ?_ rfl (fun g _ => rfl) ?_
  · intro k
    rw [closeBox_entries, closeBox_entries]
    exact without_entry table slot.id k
  · intro box at_g
    rw [own, closeBox_box, if_pos rfl] at at_g
    cases at_g

theorem Coupled.change {table after : Table ρ} (h : table.Coupled) (change : Change table after) :
    after.Coupled := by
  cases change with
  | count f => exact ⟨h.fresh, h.distinct, h.known, h.awaited, h.spent, h.expecting⟩
  | enter free room => exact h.enter free
  | settle found d => exact h.settle found d
  | @remove id entry found marked =>
    refine h.of_removal found (without_entry table id) rfl (fun g _ => rfl) ?_
    · intro box at_g
      have live := (h.awaited id entry box found at_g).1
      rw [marked] at live
      cases live
  | flag g f same =>
    refine h.of_box g rfl rfl ?_ ?_
    · intro k other
      rw [modify_box, if_neg (Ne.symm other)]
    · intro box' at_g
      rw [modify_box, if_pos rfl] at at_g
      obtain ⟨box, before, rfl⟩ := Option.map_eq_some_iff.mp at_g
      obtain ⟨same_id, same_arrived, same_hold⟩ := same box before
      rw [same_arrived]
      refine ⟨box, before, same_id, ?_, id, ?_⟩
      · intro gone
        exact h.spent g box before (same_hold.mp gone)
      · intro there empty
        exact ⟨fun gone => there (same_hold.mpr gone), empty⟩
  | spend slot held ended => exact h.spend slot
  | expire slot owned => exact h.expire owned
  | giveUp slot owned => exact h.givenUp owned
  | abandon slot owned => exact h.abandon owned
  | close slot held ended => exact h.closeBox slot

/-! ## Runs -/

/-- What holds of a table behind every run. -/
structure Sound (table : Table ρ) : Prop extends Counted table, Coupled table

theorem Sound.changes {table after : Table ρ} (h : table.Sound) (changes : Changes table after) :
    after.Sound := by
  induction changes with
  | refl => exact h
  | tail _ change ih => exact ⟨ih.toCounted.change change, ih.toCoupled.change change⟩

theorem Sound.spend {table : Table ρ} (h : table.Sound) (slot : Slot) :
    (table.spend slot).Sound :=
  ⟨⟨h.outstanding, h.bounded, h.limit_pos, h.limit_le⟩, h.toCoupled.spend slot⟩

theorem Sound.empty (limit : Nat) : (empty limit : Table ρ).Sound := by
  refine ⟨⟨rfl, Nat.zero_le _, ?_, ?_⟩, ⟨?_, ?_, ?_, ?_, ?_, ?_⟩⟩
  · exact Nat.le_max_left _ _
  · simp only [Table.empty, clampLimit, idCount]
    omega
  all_goals simp [Table.empty]

theorem Sound.perform {table : Table ρ} (h : table.Sound) {op : Op ρ}
    (allowed : table.Allowed op) : (table.perform op).2.Sound := by
  by_cases broken : ∃ slot, op = .breakOff slot
  · obtain ⟨slot, rfl⟩ := broken
    exact h.spend slot
  · exact h.changes (changes_perform allowed fun slot same => broken ⟨slot, same⟩)

end Farcall.Table

namespace Farcall

variable {ρ : Type}

theorem Run.sound {limit : Nat} {trace : List (Moment ρ)} {table : Table ρ}
    (run : Run limit trace table) : table.Sound := by
  induction run with
  | start => exact Table.Sound.empty limit
  | step run allowed ih => exact ih.perform allowed

end Farcall
