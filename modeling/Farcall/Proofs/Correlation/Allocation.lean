import Farcall.Proofs.Correlation.Invariant

set_option autoImplicit false

/-!
# A free id always exists

Looking at as many ids as there are finds a free one, so a table below its limit never refuses a
registration: what it admits is what the limit leaves over.
-/

namespace Farcall.Table

variable {ρ : Type}

theorem succ_add_ofNat (id : UInt16) (k : Nat) :
    id + 1 + UInt16.ofNat k = id + UInt16.ofNat (k + 1) := by
  rw [UInt16.add_assoc, UInt16.add_comm 1, ← UInt16.ofNat_one, ← UInt16.ofNat_add]

theorem contains_of_freeId_eq_none {entries : Std.TreeMap UInt16 Entry} {fuel : Nat}
    {start : UInt16} (h : freeId entries fuel start = none) (k : Nat) (inside : k < fuel) :
    entries.contains (start + UInt16.ofNat k) = true := by
  induction fuel generalizing start k with
  | zero => omega
  | succ fuel ih =>
    rw [freeId] at h
    split at h
    · next taken =>
      cases k with
      | zero => simpa using taken
      | succ k =>
        have next := ih h k (by omega)
        rwa [succ_add_ofNat] at next
    · cases h

def sweep (start : UInt16) (count : Nat) : List UInt16 :=
  (List.range count).map fun k => start + UInt16.ofNat k

theorem nodup_sweep (start : UInt16) {count : Nat} (once : count ≤ idCount) :
    (sweep start count).Nodup := by
  unfold sweep List.Nodup
  rw [List.pairwise_map]
  refine List.nodup_range.imp_of_mem ?_
  intro a b mem_a mem_b other same
  have small_a : a < idCount := Nat.lt_of_lt_of_le (List.mem_range.mp mem_a) once
  have small_b : b < idCount := Nat.lt_of_lt_of_le (List.mem_range.mp mem_b) once
  have values := congrArg UInt16.toNat ((UInt16.add_right_inj start).mp same)
  rw [UInt16.toNat_ofNat_of_lt' small_a, UInt16.toNat_ofNat_of_lt' small_b] at values
  exact other values

/-- A search that meets only taken ids has met no more of them than there are entries. -/
theorem le_size_of_occupied {entries : Std.TreeMap UInt16 Entry} {start : UInt16} {count : Nat}
    (once : count ≤ idCount)
    (occupied : ∀ k < count, entries.contains (start + UInt16.ofNat k) = true) :
    count ≤ entries.size := by
  have taken : ∀ id ∈ sweep start count, id ∈ entries.keys := by
    intro id mem
    obtain ⟨k, inside, rfl⟩ := List.mem_map.mp mem
    rw [Std.TreeMap.mem_keys, Std.TreeMap.mem_iff_contains]
    exact occupied k (List.mem_range.mp inside)
  have many := (nodup_sweep start once).length_le_of_subset taken
  rwa [Std.TreeMap.length_keys, sweep, List.length_map, List.length_range] at many

theorem exists_freeId {entries : Std.TreeMap UInt16 Entry} (room : entries.size < idCount)
    (start : UInt16) : ∃ id, freeId entries idCount start = some id := by
  cases found : freeId entries idCount start with
  | some id => exact ⟨id, rfl⟩
  | none =>
    -- The search went once around, so there would be an entry for every id.
    have many := le_size_of_occupied (Nat.le_refl idCount) (contains_of_freeId_eq_none found)
    omega

theorem register_of_room {table : Table ρ} (h : table.Counted)
    (room : table.outstanding < table.limit) :
    ∃ id, table.entries[id]? = none ∧
      table.register = (.ok (table.enter id).1, (table.enter id).2) := by
  have fewer : table.entries.size < idCount := by
    have counted := h.outstanding
    have bounded := h.limit_le
    omega
  obtain ⟨id, found⟩ := exists_freeId fewer table.nextId
  refine ⟨id, freeId_eq_some found, ?_⟩
  rw [register, if_neg (by omega), found]

theorem register_of_full {table : Table ρ} (full : table.limit ≤ table.outstanding) :
    table.register = (.error (.exhausted table.limit), table) := by
  rw [register, if_pos full]

theorem register_of_free {table : Table ρ} (room : table.outstanding < table.limit)
    (free : table.entries[table.nextId]? = none) :
    table.register = (.ok (table.enter table.nextId).1, (table.enter table.nextId).2) := by
  have found : freeId table.entries idCount table.nextId = some table.nextId := by
    rw [idCount, freeId, Std.TreeMap.contains_eq_isSome_getElem?, free]
    rfl
  rw [register, if_neg (by omega), found]

def Admits (table : Table ρ) : Nat → Prop
  | 0 => True
  | count + 1 => (∃ slot, table.register.1 = .ok slot) ∧ table.register.2.Admits count

theorem admits_iff {table : Table ρ} (h : table.Counted) (count : Nat) :
    table.Admits count ↔ table.outstanding + count ≤ table.limit := by
  induction count generalizing table with
  | zero =>
    have bounded := h.bounded
    simp [Admits, bounded]
  | succ count ih =>
    by_cases room : table.outstanding < table.limit
    · obtain ⟨id, free, registered⟩ := register_of_room h room
      rw [Admits, registered, ih (h.enter free room)]
      change (∃ slot, Except.ok (table.enter id).1 = .ok slot) ∧
        table.outstanding + 1 + count ≤ table.limit ↔ _
      constructor
      · intro rest
        omega
      · intro rest
        exact ⟨⟨_, rfl⟩, by omega⟩
    · rw [Admits, register_of_full (by omega)]
      constructor
      · rintro ⟨⟨slot, refused⟩, -⟩
        cases refused
      · intro rest
        omega

end Farcall.Table
