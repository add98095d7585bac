import Farcall.Proofs.Correlation.Slots

set_option autoImplicit false

/-!
# How ids are granted

The search for an id goes on from the cursor, id after id, and has no bound of its own. It ends
because the counter is the number of entries: below the limit fewer ids are taken than there are, and
the search meets no id twice before it has met them all.
-/

namespace Farcall

variable {ρ : Type}

/-- The search from an id on, without a bound: behind so many ids that are taken it finds a free
one. -/
inductive Finds (entries : Std.TreeMap UInt16 Entry) : UInt16 → Nat → UInt16 → Prop
  | here {id : UInt16} (free : entries.contains id = false) : Finds entries id 0 id
  | on {id found : UInt16} {taken : Nat} (occupied : entries.contains id = true)
      (rest : Finds entries (id + 1) taken found) : Finds entries id (taken + 1) found

namespace Finds

variable {entries : Std.TreeMap UInt16 Entry} {start found : UInt16} {taken : Nat}

theorem of_freeId {fuel : Nat} (given : Table.freeId entries fuel start = some found) :
    ∃ taken, Finds entries start taken found := by
  induction fuel generalizing start with
  | zero => cases given
  | succ fuel ih =>
    rw [Table.freeId] at given
    split at given
    · next occupied =>
      obtain ⟨taken, rest⟩ := ih given
      exact ⟨taken + 1, .on occupied rest⟩
    · next free =>
      obtain rfl := Option.some.inj given
      exact ⟨0, .here (Bool.eq_false_iff.mpr free)⟩

theorem free (finds : Finds entries start taken found) : entries.contains found = false := by
  induction finds with
  | here free => exact free
  | on _ _ ih => exact ih

theorem found_eq (finds : Finds entries start taken found) :
    found = start + UInt16.ofNat taken := by
  induction finds with
  | @here id _ => exact (UInt16.add_zero id).symm
  | @on id found taken _ _ ih => rw [ih, Table.succ_add_ofNat]

theorem occupied (finds : Finds entries start taken found) :
    ∀ k < taken, entries.contains (start + UInt16.ofNat k) = true := by
  induction finds with
  | here _ => exact fun k none => absurd none (Nat.not_lt_zero k)
  | @on id found taken here _ ih =>
    intro k before
    cases k with
    | zero => simpa using here
    | succ k =>
      rw [← Table.succ_add_ofNat]
      exact ih k (Nat.lt_of_succ_lt_succ before)

theorem taken_lt (finds : Finds entries start taken found) : taken < idCount := by
  refine Nat.lt_of_not_le fun around => ?_
  have passed : taken - idCount < taken := by
    unfold idCount at around ⊢
    omega
  have same : UInt16.ofNat (taken - idCount) = UInt16.ofNat taken := by
    rw [← UInt16.toNat_inj, UInt16.toNat_ofNat', UInt16.toNat_ofNat']
    unfold idCount at around ⊢
    omega
  have again := finds.occupied _ passed
  rw [same, ← finds.found_eq, finds.free] at again
  cases again

theorem taken_le (finds : Finds entries start taken found) : taken ≤ entries.size :=
  Table.le_size_of_occupied (Nat.le_of_lt finds.taken_lt) finds.occupied

end Finds

/-- A slot was granted: its id was free, its generation is one that no slot of the run had, its entry
is the only one that is added, and the cursor stands behind its id. -/
structure Granted (trace : List (Moment ρ)) (table after : Table ρ) (slot : Slot) : Prop where
  free : table.entries[slot.id]? = none
  fresh : ∀ moment ∈ trace, ∀ earlier, moment.after.HasSlot earlier →
    earlier.generation < slot.generation
  unused : ∀ (id : UInt16) entry, table.entries[id]? = some entry →
    entry.generation < slot.generation
  entries : ∀ id : UInt16, after.entries[id]? =
    if slot.id = id then some ⟨slot.generation, false⟩ else table.entries[id]?
  boxes : ∀ g : Nat, after.boxes[g]? =
    if slot.generation = g then some ⟨slot.id, none, .idle false, .slot⟩ else table.boxes[g]?
  generation : slot.generation = table.nextGeneration
  nextGeneration : after.nextGeneration = table.nextGeneration + 1
  cursor : after.nextId = slot.id + 1
  outstanding : after.outstanding = table.outstanding + 1
  limit : after.limit = table.limit
  stats : after.stats = { table.stats with registered := table.stats.registered + 1 }

namespace Run

variable {limit : Nat} {trace : List (Moment ρ)} {table : Table ρ}

theorem generation_lt (run : Run limit trace table) {moment : Moment ρ} (mem : moment ∈ trace)
    {slot : Slot} (known : moment.after.HasSlot slot) : slot.generation < table.nextGeneration := by
  obtain ⟨⟨first, -, before⟩, allowed⟩ := run.earlier mem
  have old := (before.step allowed).sound.toCoupled.generation_lt known
  exact Nat.lt_of_lt_of_le old (run.elder mem).next_le

theorem granted (run : Run limit trace table) {id : UInt16} (free : table.entries[id]? = none) :
    Granted trace table (table.enter id).2 (table.enter id).1 where
  free := free
  fresh _ mem _ known := run.generation_lt mem known
  unused := run.sound.fresh
  entries := Table.enter_entry table id
  boxes := Table.enter_box table id
  generation := rfl
  nextGeneration := rfl
  cursor := rfl
  outstanding := rfl
  limit := rfl
  stats := rfl

/-- A registration is refused exactly if as many entries stand as the limit admits, and then it
changes nothing. Otherwise the search from the cursor on, which has no bound, ends at the first id
that is free, and the slot of this id is granted. -/
theorem register_grants (run : Run limit trace table) :
    ((∃ e, table.register.1 = .error e) ↔ table.entries.size = table.limit) ∧
      (table.entries.size = table.limit →
        table.register = (.error (.exhausted table.limit), table)) ∧
      (table.entries.size ≠ table.limit → ∃ taken slot after,
        table.register = (.ok slot, after) ∧ Finds table.entries table.nextId taken slot.id ∧
          slot.id = table.nextId + UInt16.ofNat taken ∧
          (∀ k < taken, table.contains (table.nextId + UInt16.ofNat k) = true) ∧
          taken ≤ table.entries.size ∧ Granted trace table after slot) := by
  have counted := run.sound.outstanding
  have bounded := run.sound.bounded
  have full : table.entries.size = table.limit →
      table.register = (.error (.exhausted table.limit), table) :=
    fun same => Table.register_of_full (by omega)
  have room : table.entries.size ≠ table.limit → ∃ id taken,
      table.register = (.ok (table.enter id).1, (table.enter id).2) ∧
        Finds table.entries table.nextId taken id := by
    intro other
    have fewer : table.entries.size < idCount := by
      have limit_le := run.sound.limit_le
      omega
    obtain ⟨id, found⟩ := Table.exists_freeId fewer table.nextId
    obtain ⟨taken, finds⟩ := Finds.of_freeId found
    refine ⟨id, taken, ?_, finds⟩
    rw [Table.register, if_neg (by omega), found]
  refine ⟨⟨?_, fun same => ⟨_, congrArg Prod.fst (full same)⟩⟩, full, ?_⟩
  · rintro ⟨e, refused⟩
    refine Decidable.byContradiction fun other => ?_
    obtain ⟨id, taken, registered, -⟩ := room other
    rw [registered] at refused
    cases refused
  · intro other
    obtain ⟨id, taken, registered, finds⟩ := room other
    have free : table.entries[id]? = none := by
      have absent := finds.free
      rwa [Std.TreeMap.contains_eq_isSome_getElem?, Option.isSome_eq_false_iff,
        Option.isNone_iff_eq_none] at absent
    exact ⟨taken, _, _, registered, finds, finds.found_eq, finds.occupied, finds.taken_le,
      run.granted free⟩

end Run

/-! ## All ids but one -/

namespace Table

/-- So many slots were taken, in the order of the ids, from a table that admits as many as there are
ids. -/
structure Crowded (count : Nat) (table : Table ρ) : Prop where
  entries : ∀ id : UInt16, table.entries[id]? =
    if (id - 1).toNat < count then some ⟨(id - 1).toNat, false⟩ else none
  outstanding : table.outstanding = count
  limit : table.limit = idCount
  nextId : table.nextId = UInt16.ofNat (count + 1)
  nextGeneration : table.nextGeneration = count

theorem Crowded.empty : Crowded 0 (Table.empty idCount : Table ρ) :=
  ⟨fun _ => by simp [Table.empty], rfl, rfl, rfl, rfl⟩

theorem eq_ofNat_iff {count : Nat} (small : count < idCount) (id : UInt16) :
    UInt16.ofNat (count + 1) = id ↔ (id - 1).toNat = count := by
  rw [← UInt16.toNat_inj, UInt16.toNat_ofNat', UInt16.toNat_sub]
  have bound := id.toNat_lt
  unfold idCount at small
  simp only [UInt16.toNat_one]
  omega

variable {table : Table ρ} {count : Nat}

theorem Crowded.register (crowded : Crowded count table) (room : count < idCount) :
    table.register = (.ok (table.enter (UInt16.ofNat (count + 1))).1,
      (table.enter (UInt16.ofNat (count + 1))).2) := by
  have free : table.entries[table.nextId]? = none := by
    rw [crowded.entries, crowded.nextId, (eq_ofNat_iff room _).mp rfl, if_neg (Nat.lt_irrefl count)]
  have below : table.outstanding < table.limit := by
    rw [crowded.outstanding, crowded.limit]
    exact room
  rw [register_of_free below free, crowded.nextId]

theorem Crowded.next (crowded : Crowded count table) (room : count < idCount) :
    Crowded (count + 1) (table.perform .register).2 := by
  rw [perform, crowded.register room]
  refine ⟨?_, ?_, crowded.limit, (UInt16.ofNat_add (count + 1) 1).symm, ?_⟩
  · intro id
    rw [enter_entry, crowded.nextGeneration, crowded.entries]
    by_cases own : UInt16.ofNat (count + 1) = id
    · have place := (eq_ofNat_iff room id).mp own
      rw [if_pos own, place, if_pos (Nat.lt_succ_self count)]
    · have place := mt (eq_ofNat_iff room id).mpr own
      have same : (id - 1).toNat < count + 1 ↔ (id - 1).toNat < count := by omega
      simp only [if_neg own, same]
  · exact congrArg (· + 1) crowded.outstanding
  · exact congrArg (· + 1) crowded.nextGeneration

theorem Crowded.fill (crowded : Crowded count table) (more : Nat) (room : count + more ≤ idCount) :
    table.AllowedAll (List.replicate more .register) ∧
      Crowded (count + more) (table.performAll (List.replicate more .register)) := by
  induction more generalizing count table with
  | zero => exact ⟨trivial, crowded⟩
  | succ more ih =>
    obtain ⟨allowed, last⟩ := ih (crowded.next (by omega)) (by omega)
    rw [Nat.add_right_comm] at last
    exact ⟨⟨trivial, allowed⟩, last⟩

theorem Crowded.reopen (crowded : Crowded 65535 table) :
    let slot : Slot := ⟨0, 65535⟩
    let full := (table.perform .register).2
    let after := (full.perform (.drop slot)).2
    full.holder? slot = some .slot ∧ (∀ id : UInt16, after.entries[id]? = none → id = 0) ∧
      after.outstanding = 65535 ∧ after.limit = 65536 ∧ after.nextId = 1 ∧
      after.nextGeneration = 65536 := by
  intro slot full after
  have whole : Crowded 65536 full := crowded.next (by decide)
  have granted : full = (table.enter 0).2 := by
    change table.register.2 = _
    rw [crowded.register (by decide)]
    rfl
  have own : (table.enter 0).1 = slot := by
    rw [enter, crowded.nextGeneration]
  have held : full.holder? slot = some .slot := by
    rw [granted, ← own]
    exact holder_enter_self table 0
  have owned : full.owns slot = true := by
    refine owns_iff.mpr ⟨⟨65535, false⟩, ?_, rfl⟩
    rw [whole.entries]
    rfl
  have behind : after = (full.without 0).closeBox slot := by
    change (full.drop slot).2 = _
    rw [drop_of_held held, abandon_of_owns owned]
  rw [behind]
  refine ⟨held, ?_, congrArg (· - 1) whole.outstanding, whole.limit, whole.nextId,
    whole.nextGeneration⟩
  intro id free
  rw [closeBox_entries, without_entry, whole.entries, if_pos (UInt16.toNat_lt _)] at free
  split at free
  · next zero => exact zero.symm
  · cases free

end Table

theorem Run.fill {limit count : Nat} {trace : List (Moment ρ)} {table : Table ρ}
    (run : Run limit trace table) (crowded : Table.Crowded count table) (more : Nat)
    (room : count + more ≤ idCount) :
    ∃ (trace : List (Moment ρ)) (after : Table ρ), Run limit trace after ∧
      Table.Crowded (count + more) after := by
  obtain ⟨allowed, last⟩ := crowded.fill more room
  exact ⟨_, _, run.performAll _ allowed, last⟩

/-- All ids were taken and the last one came free again: the search goes once around to find it. -/
theorem Run.register_grants_of_one_free : ∃ (trace : List (Moment String)) (table : Table String),
    Run 65536 trace table ∧ table.entries.size = 65535 ∧ table.limit = 65536 ∧ table.nextId = 1 ∧
      ∃ after, table.register = (.ok ⟨0, 65536⟩, after) ∧ Finds table.entries 1 65535 0 ∧
        after.nextId = 1 := by
  have fresh : Run 65536 ([] : List (Moment String)) (.empty idCount) := .start
  obtain ⟨_, table, run, crowded⟩ := fresh.fill .empty 65535 (by decide)
  obtain ⟨held, only, outstanding, limit, nextId, nextGeneration⟩ := crowded.reopen
  have all := run.step (show table.Allowed .register from trivial)
  have last := all.step (show Table.Allowed _ (.drop ⟨0, 65535⟩) from .inl held)
  have size := last.sound.outstanding.symm.trans outstanding
  obtain ⟨taken, slot, after, registered, finds, found, -, -, granted⟩ :=
    last.register_grants.2.2 (by omega)
  obtain ⟨id, generation⟩ := slot
  obtain rfl : id = 0 := only id granted.free
  obtain rfl : generation = 65536 := granted.generation.trans nextGeneration
  rw [nextId] at finds found
  obtain rfl : taken = 65535 := by
    have bound : taken < 65536 := finds.taken_lt
    have value := congrArg UInt16.toNat found
    simp only [UInt16.toNat_add, UInt16.toNat_ofNat', UInt16.toNat_zero, UInt16.toNat_one] at value
    omega
  exact ⟨_, _, last, size, limit, nextId, after, registered, finds, granted.cursor⟩

end Farcall
