import Farcall.Proofs.Correlation.Registration
import Farcall.Proofs.Correlation.Reuse

set_option autoImplicit false

/-!
# How soon an id is granted again

Answers are told apart by their ids alone, so an id that is granted again is a risk as long as an
answer to the slot before it may be on its way. The cursor only goes forward, and it passes an id
only when the id is granted or taken. So before an id comes round, every other id was granted, or its
entry stood all the while, and of these there are fewer than the limit admits.
-/

namespace Farcall

variable {ρ : Type}

def Moment.granted? (moment : Moment ρ) : Option Slot :=
  match moment.effect.answer with
  | .registered (.ok slot) => some slot
  | _ => none

def grants (trace : List (Moment ρ)) : List Slot := trace.filterMap Moment.granted?

theorem grants_snoc (trace : List (Moment ρ)) (moment : Moment ρ) :
    grants (trace ++ [moment]) = grants trace ++ moment.granted?.toList := by
  rw [grants, List.filterMap_append]
  cases granted : moment.granted? <;> simp [grants, granted]

namespace Table

variable {table after : Table ρ} {op : Op ρ}

/-! ## Without a registration -/

/-- Nothing is registered: the cursor stays, and no id is taken that was free. -/
structure Rests (before after : Table ρ) : Prop where
  cursor : after.nextId = before.nextId
  limit : after.limit = before.limit
  entries : ∀ id : UInt16, after.contains id = true → before.contains id = true

theorem Rests.refl (table : Table ρ) : Rests table table := ⟨rfl, rfl, fun _ taken => taken⟩

theorem Rests.trans {before : Table ρ} (h : Rests before table) (h' : Rests table after) :
    Rests before after :=
  ⟨h'.cursor.trans h.cursor, h'.limit.trans h.limit, fun id taken => h.entries id (h'.entries id taken)⟩

theorem Rests.of_erase {id : UInt16} (cursor : after.nextId = table.nextId)
    (limit : after.limit = table.limit) (entries : after.entries = table.entries.erase id) :
    Rests table after := by
  refine ⟨cursor, limit, ?_⟩
  intro k taken
  rw [contains, entries, Std.TreeMap.contains_erase] at taken
  exact (Bool.and_eq_true_iff.mp taken).2

theorem Change.rests (change : Change table after)
    (same : after.nextGeneration = table.nextGeneration) : Rests table after := by
  cases change with
  | enter free room => exact absurd same (Nat.succ_ne_self _)
  | settle found d =>
    rw [deliver_eq]
    exact .of_erase rfl rfl rfl
  | remove found marked => exact .of_erase rfl rfl rfl
  | expire slot owned => exact .of_erase rfl rfl rfl
  | giveUp slot owned =>
    obtain ⟨entry, found, -⟩ := owns_iff.mp owned
    refine ⟨rfl, rfl, ?_⟩
    intro k taken
    change (table.entries.insert slot.id _).contains k = true at taken
    rw [Std.TreeMap.contains_insert, Bool.or_eq_true_iff] at taken
    rcases taken with own | old
    · obtain rfl := Std.LawfulEqCmp.compare_eq_iff_eq.mp (beq_iff_eq.mp own)
      exact contains_of_some found
    · exact old
  | abandon slot owned => exact .of_erase rfl rfl rfl
  | _ => exact ⟨rfl, rfl, fun _ taken => taken⟩

theorem Changes.rests (changes : Changes table after)
    (same : after.nextGeneration = table.nextGeneration) : Rests table after := by
  induction changes with
  | refl => exact .refl table
  | @tail middle after earlier last ih =>
    have first := (Elder.of_changes earlier).next_le
    have second := last.elder.next_le
    exact (ih (by omega)).trans (last.rests (by omega))

theorem nextGeneration_perform (table : Table ρ) (other : op ≠ .register) :
    (table.perform op).2.nextGeneration = table.nextGeneration := by
  cases by_slot : op.slot? with
  | some slot => exact next_perform by_slot
  | none =>
    cases op with
    | register => exact absurd rfl other
    | fulfill id r =>
      cases found : table.entries[id]? with
      | none => rw [perform, fulfill_of_none found]; rfl
      | some entry =>
        cases marked : entry.discard with
        | true => rw [perform, fulfill_of_marked found marked]; rfl
        | false => rw [perform, fulfill_of_live found marked, deliver_eq]; rfl
    | fail id e =>
      cases found : table.entries[id]? with
      | none => rw [perform, fail_of_none found]; rfl
      | some entry => rw [perform, fail_of_some found, deliver_eq]; rfl
    | failAll reason =>
      refine failAll_keeps (fun after => after.nextGeneration = table.nextGeneration) reason rfl ?_
      intro after id same
      cases found : after.entries[id]? with
      | none => rwa [sever_of_none found]
      | some entry =>
        rw [sever_of_some found, deliver_eq]
        exact same
    | proceedAsync id =>
      cases found : table.entries[id]? with
      | none => rw [perform, proceedAsync_of_none found]; rfl
      | some entry => rw [perform, proceedAsync_of_some found]; rfl
    | _ => cases by_slot

theorem rests_perform (allowed : table.Allowed op) (other : op ≠ .register) :
    Rests table (table.perform op).2 := by
  by_cases broken : ∃ slot, op = .breakOff slot
  · obtain ⟨slot, rfl⟩ := broken
    exact ⟨rfl, rfl, fun _ taken => taken⟩
  · exact (changes_perform allowed fun slot same => broken ⟨slot, same⟩).rests
      (nextGeneration_perform table other)

theorem granted_of_other (table : Table ρ) (other : op ≠ .register) :
    (⟨table, op⟩ : Moment ρ).granted? = none := by
  have looked : ∀ (table : Table ρ) slot late,
      (⟨table, .look slot late⟩ : Moment ρ).granted? = none := by
    intro table slot late
    cases found : table.claim slot with
    | mk result after =>
      cases result <;> cases late <;>
        simp [Moment.granted?, Moment.effect, perform, lookOn, found, giveUp]
  cases op with
  | register => exact absurd rfl other
  | beginWait slot =>
    cases claimed : table.claimed slot <;>
      simp [Moment.granted?, Moment.effect, perform, beginWait, claimed]
  | look slot late => exact looked table slot late
  | lookOrProceed slot late =>
    have on := looked (table.attend slot) slot late
    unfold Moment.granted? Moment.effect at on ⊢
    simp only [perform] at on ⊢
    rcases lookOrProceed_cases table slot late with ⟨-, same⟩ | ⟨-, same⟩ | ⟨-, -, same⟩
    · rw [same]
    · rw [same]
      exact on
    · rw [same]
  | _ => rfl

end Table

namespace Run

variable {limit : Nat} {trace : List (Moment ρ)} {table : Table ρ}

/-- An operation grants the slot of the first id that is free from the cursor on, or it leaves the
cursor where it is. -/
theorem granted_cases (run : Run limit trace table) {op : Op ρ} (allowed : table.Allowed op) :
    ((⟨table, op⟩ : Moment ρ).granted? = none ∧ Table.Rests table (table.perform op).2) ∨
      ∃ slot taken, (⟨table, op⟩ : Moment ρ).granted? = some slot ∧
        Finds table.entries table.nextId taken slot.id ∧
        Granted trace table (table.perform op).2 slot := by
  by_cases registers : op = .register
  · subst registers
    obtain ⟨-, full, room⟩ := run.register_grants
    by_cases same : table.entries.size = table.limit
    · refine .inl ⟨?_, ?_⟩
      · rw [Moment.granted?, Moment.effect, Table.perform, full same]
      · rw [Table.perform, full same]
        exact .refl table
    · obtain ⟨taken, slot, after, registered, finds, -, -, -, granted⟩ := room same
      refine .inr ⟨slot, taken, ?_, finds, ?_⟩
      · rw [Moment.granted?, Moment.effect, Table.perform, registered]
      · rw [Table.perform, registered]
        exact granted
  · exact .inl ⟨Table.granted_of_other table registers, Table.rests_perform allowed registers⟩

theorem limit_eq (run : Run limit trace table) : table.limit = clampLimit limit := by
  induction run with
  | start => rfl
  | step run allowed ih =>
    rcases run.granted_cases allowed with ⟨-, rests⟩ | ⟨slot, taken, -, -, granted⟩
    · exact rests.limit.trans ih
    · exact granted.limit.trans ih

end Run

/-! ## What the cursor passes -/

/-- The id was taken when a table was met, or it is that of a slot that was granted since. -/
def Accounted (base : Table ρ) (granted : List Slot) (id : UInt16) : Prop :=
  base.contains id = true ∨ id ∈ granted.map Slot.id

/-- Since a table was met the cursor went forward by so many ids, and all of these are accounted for,
as are those that are taken now. -/
structure Swept (base table : Table ρ) (granted : List Slot) (passed : Nat) : Prop where
  cursor : table.nextId = base.nextId + UInt16.ofNat passed
  behind : ∀ k < passed, Accounted base granted (base.nextId + UInt16.ofNat k)
  taken : ∀ id : UInt16, table.contains id = true → Accounted base granted id

namespace Swept

variable {base table after : Table ρ} {granted : List Slot} {passed : Nat}

theorem refl (table : Table ρ) : Swept table table [] 0 :=
  ⟨(UInt16.add_zero _).symm, fun k none => absurd none (Nat.not_lt_zero k), fun _ taken => .inl taken⟩

theorem rest (swept : Swept base table granted passed) (rests : Table.Rests table after) :
    Swept base after granted passed :=
  ⟨rests.cursor.trans swept.cursor, swept.behind,
    fun id taken => swept.taken id (rests.entries id taken)⟩

theorem cursor_add (swept : Swept base table granted passed) (k : Nat) :
    table.nextId + UInt16.ofNat k = base.nextId + UInt16.ofNat (passed + k) := by
  rw [swept.cursor, UInt16.add_assoc, ← UInt16.ofNat_add]

theorem search (swept : Swept base table granted passed) {found : UInt16} {taken : Nat}
    (finds : Finds table.entries table.nextId taken found) :
    ∀ k < passed + taken, Accounted base granted (base.nextId + UInt16.ofNat k) := by
  intro k before
  by_cases old : k < passed
  · exact swept.behind k old
  · obtain ⟨more, rfl⟩ := Nat.exists_eq_add_of_le (Nat.le_of_not_lt old)
    rw [← swept.cursor_add]
    exact swept.taken _ (finds.occupied more (by omega))

theorem grant (swept : Swept base table granted passed) {trace : List (Moment ρ)} {slot : Slot}
    {taken : Nat} (finds : Finds table.entries table.nextId taken slot.id)
    (grants : Granted trace table after slot) :
    Swept base after (granted ++ [slot]) (passed + taken + 1) := by
  have older : ∀ id, Accounted base granted id → Accounted base (granted ++ [slot]) id := by
    intro id accounted
    refine accounted.imp_right fun mem => ?_
    rw [List.map_append]
    exact List.mem_append_left _ mem
  have own : Accounted base (granted ++ [slot]) slot.id := by
    refine .inr ?_
    rw [List.map_append]
    exact List.mem_append_right _ (List.mem_singleton.mpr rfl)
  have place : slot.id = base.nextId + UInt16.ofNat (passed + taken) := by
    rw [finds.found_eq, swept.cursor_add]
  refine ⟨?_, ?_, ?_⟩
  · rw [grants.cursor, place, UInt16.add_assoc, UInt16.ofNat_add (passed + taken) 1]
    rfl
  · intro k before
    rcases Nat.lt_succ_iff_lt_or_eq.mp before with old | rfl
    · exact older _ (swept.search finds k old)
    · exact place ▸ own
  · intro id stands
    rw [Table.contains, Std.TreeMap.contains_eq_isSome_getElem?, grants.entries] at stands
    split at stands
    · next same => exact same ▸ own
    · rw [← Std.TreeMap.contains_eq_isSome_getElem?] at stands
      exact older id (swept.taken id stands)

theorem length_le (once : passed ≤ idCount)
    (behind : ∀ k < passed, Accounted base granted (base.nextId + UInt16.ofNat k)) :
    passed ≤ base.entries.size + granted.length := by
  have inside : ∀ id ∈ Table.sweep base.nextId passed, id ∈ base.entries.keys ++ granted.map Slot.id := by
    intro id mem
    obtain ⟨k, before, rfl⟩ := List.mem_map.mp mem
    rw [List.mem_append, Std.TreeMap.mem_keys, Std.TreeMap.mem_iff_contains]
    exact behind k (List.mem_range.mp before)
  have many := (Table.nodup_sweep base.nextId once).length_le_of_subset inside
  rwa [List.length_append, Std.TreeMap.length_keys, List.length_map, Table.sweep, List.length_map,
    List.length_range] at many

end Swept

namespace Run

variable {limit : Nat} {earlier between : List (Moment ρ)} {base table : Table ρ}

theorem swept (first : Run limit earlier base) (run : Run limit (earlier ++ between) table) :
    ∃ passed, Swept base table (grants between) passed := by
  induction between using List.reverseRecOn generalizing table with
  | nil =>
    rw [List.append_nil] at run
    obtain rfl := first.table_eq run
    exact ⟨0, .refl base⟩
  | append_singleton between last ih =>
    rw [← List.append_assoc] at run
    obtain ⟨before, allowed, rfl⟩ := run.of_snoc
    obtain ⟨passed, swept⟩ := ih before
    rw [grants_snoc]
    rcases before.granted_cases allowed with ⟨nothing, rests⟩ | ⟨slot, taken, granted, finds, grants⟩
    · rw [nothing, Option.toList_none, List.append_nil]
      exact ⟨passed, swept.rest rests⟩
    · rw [granted]
      exact ⟨_, swept.grant finds grants⟩

end Run

/-- An id that comes round was passed by the cursor with all others. -/
theorem Table.once_around {id : UInt16} {steps : Nat} (same : id + 1 + UInt16.ofNat steps = id) :
    65535 ≤ steps := by
  have value := congrArg UInt16.toNat same
  have bound := id.toNat_lt
  rw [UInt16.toNat_add, UInt16.toNat_add, UInt16.toNat_ofNat', UInt16.toNat_one] at value
  omega

/-- Between two registrations that are granted the same id, so many others are granted as there are
ids above the limit, whatever else is done. -/
theorem Run.reuse_distance {limit : Nat} {earlier between later : List (Moment ρ)}
    {first second : Moment ρ} {table : Table ρ} {slot again : Slot}
    (run : Run limit (earlier ++ first :: between ++ second :: later) table)
    (granted : first.granted? = some slot) (regranted : second.granted? = some again)
    (same : slot.id = again.id) : 65536 - clampLimit limit ≤ (grants between).length := by
  obtain ⟨before_second, allowed_second⟩ := run.of_cons
  obtain ⟨before_first, allowed_first⟩ := before_second.of_cons
  have behind_first : Run limit (earlier ++ [first]) first.after := before_first.step allowed_first
  rw [List.append_cons] at before_second
  obtain ⟨own, -, granted', -, grants_first⟩ :=
    (before_first.granted_cases allowed_first).resolve_left fun ⟨nothing, _⟩ => by
      rw [granted] at nothing
      cases nothing
  obtain rfl : slot = own := Option.some.inj (granted.symm.trans granted')
  obtain ⟨own, taken, granted', finds, -⟩ :=
    (before_second.granted_cases allowed_second).resolve_left fun ⟨nothing, _⟩ => by
      rw [regranted] at nothing
      cases nothing
  obtain rfl : again = own := Option.some.inj (regranted.symm.trans granted')
  obtain ⟨passed, swept⟩ := Run.swept behind_first before_second
  have cursor : first.after.nextId = slot.id + 1 := grants_first.cursor
  have back : slot.id + 1 + UInt16.ofNat (passed + taken) = slot.id := by
    rw [← cursor, ← swept.cursor_add, ← finds.found_eq, same]
  have around := Table.once_around back
  have stands : first.after.contains slot.id = true :=
    Table.contains_of_some ((grants_first.entries slot.id).trans (if_pos rfl))
  -- of all ids the slot's own is taken behind its grant, and the cursor came past the others
  have all : ∀ k < 65536, Accounted first.after (grants between)
      (first.after.nextId + UInt16.ofNat k) := by
    intro k before
    by_cases last : k = 65535
    · have own : first.after.nextId + UInt16.ofNat k = slot.id := by
        rw [cursor, last, UInt16.add_assoc]
        exact UInt16.add_zero _
      rw [own]
      exact .inl stands
    · exact swept.search finds k (by omega)
  have many : 65536 ≤ first.after.entries.size + (grants between).length :=
    Swept.length_le (Nat.le_refl _) all
  have counted := behind_first.sound.outstanding
  have bounded := behind_first.sound.bounded
  rw [behind_first.limit_eq] at bounded
  omega

theorem Table.Quiet.granted {count : Nat} {table : Table ρ} (quiet : Table.Quiet count table) :
    (⟨table, .register⟩ : Moment ρ).granted? = some (Table.quietSlot count) := by
  rw [Moment.granted?, Moment.effect, Table.perform, quiet.register]

/-- One slot at a time, and the first id is granted again when all others were. -/
theorem Run.reuse_distance_of_one_slot : ∃ (between : List (Moment String)) (second : Moment String)
    (table : Table String) (slot again : Slot),
    Run 1 (⟨.empty 1, .register⟩ :: between ++ [second]) table ∧ slot.generation = 0 ∧
      (⟨.empty 1, .register⟩ : Moment String).granted? = some slot ∧ again.generation = 65536 ∧
      second.granted? = some again ∧ slot.id = again.id ∧ 65535 ≤ (grants between).length := by
  have quiet : Table.Quiet 0 (.empty 1 : Table String) := ⟨fun _ => rfl, rfl, Nat.le_refl 1, rfl, rfl⟩
  obtain ⟨allowed, last, -⟩ := quiet.passes 65536
  have passed := Run.start.performAll _ allowed
  have run := passed.step (show Table.Allowed _ .register from trivial)
  exact ⟨_, _, _, _, _, run, rfl, quiet.granted, rfl, last.granted, rfl,
    Run.reuse_distance run quiet.granted last.granted rfl⟩

end Farcall
