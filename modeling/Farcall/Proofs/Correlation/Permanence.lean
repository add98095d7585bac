import Farcall.Proofs.Correlation.Invariant

set_option autoImplicit false

/-!
# What is gone stays gone

Generations are given out once. So a box that lost its reader never gets another, be it that its
wait was broken off or that it gave its final answer, and no entry of a generation comes again.
-/

namespace Farcall.Table

variable {ρ : Type}

/-- Somebody has the reading end of the box of a generation. -/
def Read (table : Table ρ) (g : Nat) : Prop :=
  ∃ box, table.boxes[g]? = some box ∧ box.hold ≠ .gone

def HasEntry (table : Table ρ) (g : Nat) : Prop :=
  ∃ (id : UInt16) (entry : Entry), table.entries[id]? = some entry ∧ entry.generation = g

theorem read_of_holder {table : Table ρ} {slot : Slot} {hold : Hold}
    (held : table.holder? slot = some hold) (reads : hold ≠ .gone) : table.Read slot.generation := by
  obtain ⟨box, at_g, -, rfl⟩ := box_of_holder held
  exact ⟨box, at_g, reads⟩

theorem arrival_fulfill {table : Table ρ} {slot : Slot} {entry : Entry}
    (found : table.entries[slot.id]? = some entry) (live : entry.discard = false)
    (own : entry.generation = slot.generation) (read : table.Read slot.generation) (r : ρ) :
    (table.fulfill slot.id r).2.arrival? slot = some (.result r) := by
  obtain ⟨box, at_g, there⟩ := read
  rw [fulfill_of_live found live, own]
  change ((((table.without slot.id).deliver slot.generation (.result r)).2.boxes[slot.generation]?).bind
    (·.arrived)) = _
  rw [deliver_box, if_pos rfl, without_boxes, at_g, Option.map_some, Box.accept, if_neg there]
  rfl

theorem hasEntry_of_owns {table : Table ρ} {slot : Slot} (owned : table.owns slot = true) :
    table.HasEntry slot.generation := by
  obtain ⟨entry, found, own⟩ := owns_iff.mp owned
  exact ⟨slot.id, entry, found, own⟩

/-- What went away does not come back: who reads the box of a generation that is not new read it
before, and an entry of it stood before. -/
structure Elder (table after : Table ρ) : Prop where
  next_le : table.nextGeneration ≤ after.nextGeneration
  readers : ∀ g, g < table.nextGeneration → after.Read g → table.Read g
  entries : ∀ g, g < table.nextGeneration → after.HasEntry g → table.HasEntry g

theorem Elder.of_box {table after : Table ρ} (g : Nat)
    (next : after.nextGeneration = table.nextGeneration)
    (entries : ∀ k, after.HasEntry k → table.HasEntry k)
    (others : ∀ k, k ≠ g → after.boxes[k]? = table.boxes[k]?)
    (kept : after.Read g → table.Read g) : Elder table after := by
  refine ⟨Nat.le_of_eq next.symm, ?_, fun k _ => entries k⟩
  intro k _ ⟨box, at_k, there⟩
  by_cases own : k = g
  · subst k
    exact kept ⟨box, at_k, there⟩
  · exact ⟨box, (others k own).symm.trans at_k, there⟩

theorem hasEntry_of_without {table : Table ρ} {id : UInt16} {g : Nat}
    (stands : (table.without id).HasEntry g) : table.HasEntry g := by
  obtain ⟨k, entry, found, own⟩ := stands
  rw [without_entry] at found
  split at found
  · cases found
  · exact ⟨k, entry, found, own⟩

theorem not_read_spend (table : Table ρ) (slot : Slot) :
    ¬ (table.spend slot).Read slot.generation := by
  rintro ⟨box, at_g, there⟩
  rw [spend_box, if_pos rfl] at at_g
  obtain ⟨old, -, rfl⟩ := Option.map_eq_some_iff.mp at_g
  exact there rfl

theorem Elder.spend (table : Table ρ) (slot : Slot) : Elder table (table.spend slot) := by
  refine .of_box slot.generation rfl (fun _ stands => stands) ?_ ?_
  · intro k other
    rw [spend_box, if_neg (Ne.symm other)]
  · intro read
    exact absurd read (not_read_spend table slot)

theorem Elder.closeBox (table : Table ρ) (slot : Slot) : Elder table (table.closeBox slot) := by
  refine .of_box slot.generation rfl (fun _ stands => stands) ?_ ?_
  · intro k other
    rw [closeBox_box, if_neg (Ne.symm other)]
  · intro ⟨box, at_g, there⟩
    rw [closeBox_box, if_pos rfl] at at_g
    cases at_g

theorem Elder.without (table : Table ρ) (id : UInt16) : Elder table (table.without id) :=
  ⟨Nat.le_refl _, fun _ _ read => read, fun _ _ => hasEntry_of_without⟩

theorem Elder.refl (table : Table ρ) : Elder table table :=
  ⟨Nat.le_refl _, fun _ _ read => read, fun _ _ stands => stands⟩

theorem Elder.trans {first second third : Table ρ} (h : Elder first second)
    (h' : Elder second third) : Elder first third := by
  refine ⟨Nat.le_trans h.next_le h'.next_le, ?_, ?_⟩
  · intro g old read
    exact h.readers g old (h'.readers g (Nat.lt_of_lt_of_le old h.next_le) read)
  · intro g old stands
    exact h.entries g old (h'.entries g (Nat.lt_of_lt_of_le old h.next_le) stands)

theorem Change.elder {table after : Table ρ} (change : Change table after) :
    Elder table after := by
  cases change with
  | count f => exact ⟨Nat.le_refl _, fun _ _ read => read, fun _ _ stands => stands⟩
  | @enter id free room =>
    refine ⟨Nat.le_succ _, ?_, ?_⟩
    · rintro g old ⟨box, at_g, there⟩
      rw [enter_box, if_neg (Nat.ne_of_gt old)] at at_g
      exact ⟨box, at_g, there⟩
    · rintro g old ⟨k, entry, at_k, own⟩
      rw [enter_entry] at at_k
      split at at_k
      · rw [← Option.some.inj at_k] at own
        exact absurd own (Nat.ne_of_gt old)
      · exact ⟨k, entry, at_k, own⟩
  | @settle id entry found d =>
    refine .of_box entry.generation ?_ ?_ ?_ ?_
    · rw [deliver_eq]
      rfl
    · intro k stands
      rw [deliver_eq] at stands
      exact hasEntry_of_without stands
    · intro k other
      rw [deliver_box, if_neg (Ne.symm other)]
      rfl
    · rintro ⟨box, at_g, there⟩
      rw [deliver_box, if_pos rfl] at at_g
      obtain ⟨old, before, rfl⟩ := Option.map_eq_some_iff.mp at_g
      refine ⟨old, before, ?_⟩
      intro gone
      exact there (by simp [Box.accept, gone])
  | @remove id entry found marked => exact .without table id
  | flag g f same =>
    refine .of_box g rfl (fun _ stands => stands) ?_ ?_
    · intro k other
      rw [modify_box, if_neg (Ne.symm other)]
    · rintro ⟨box, at_g, there⟩
      rw [modify_box, if_pos rfl] at at_g
      obtain ⟨old, before, rfl⟩ := Option.map_eq_some_iff.mp at_g
      refine ⟨old, before, ?_⟩
      intro gone
      exact there ((same old before).2.2.mpr gone)
  | spend slot held ended => exact .spend table slot
  | expire slot owned => exact (Elder.spend table slot).trans (.without _ slot.id)
  | giveUp slot owned =>
    refine Elder.trans ?_ (.closeBox _ slot)
    refine ⟨Nat.le_refl _, fun _ _ read => read, ?_⟩
    rintro g - ⟨k, entry, at_k, own⟩
    rw [Std.TreeMap.getElem?_insert] at at_k
    split at at_k
    · rw [← Option.some.inj at_k] at own
      exact own ▸ hasEntry_of_owns owned
    · exact ⟨k, entry, at_k, own⟩
  | abandon slot owned => exact (Elder.without table slot.id).trans (.closeBox _ slot)
  | close slot held ended => exact .closeBox table slot

theorem Elder.of_changes {table after : Table ρ} (changes : Changes table after) :
    Elder table after := by
  induction changes with
  | refl => exact .refl table
  | tail _ change ih => exact ih.trans change.elder

theorem elder_perform {table : Table ρ} {op : Op ρ} (allowed : table.Allowed op) :
    Elder table (table.perform op).2 := by
  by_cases broken : ∃ slot, op = .breakOff slot
  · obtain ⟨slot, rfl⟩ := broken
    exact .spend table slot
  · exact .of_changes (changes_perform allowed fun slot same => broken ⟨slot, same⟩)

theorem not_read_of_claim {table after : Table ρ} {slot : Slot} {result : Except InvocationError ρ}
    (found : table.claim slot = (some result, after)) : ¬ after.Read slot.generation := by
  cases arrived : table.arrival? slot with
  | some d =>
    rw [claim_of_arrived arrived] at found
    rw [← (Prod.mk.inj found).2]
    exact not_read_spend table slot
  | none =>
    cases owned : table.owns slot with
    | true =>
      rw [claim_of_empty arrived owned] at found
      cases (Prod.mk.inj found).1
    | false =>
      rw [claim_of_severed arrived owned] at found
      rw [← (Prod.mk.inj found).2]
      exact not_read_spend table slot

theorem not_read_of_giveUp {table : Table ρ} {slot : Slot} {late : Bool}
    (final : (table.giveUp slot late).1.answer.Final) :
    ¬ (table.giveUp slot late).2.Read slot.generation := by
  cases late with
  | false => exact final.elim
  | true =>
    change ¬ (table.expire slot).2.Read slot.generation
    cases owned : table.owns slot with
    | true =>
      rw [expire_of_owns owned]
      exact not_read_spend table slot
    | false =>
      rw [expire_of_not_owns owned]
      exact not_read_spend table slot

theorem not_read_of_claimed {table : Table ρ} {slot : Slot} (idle : table.Idle slot)
    (claimed : table.claimed slot = true) : ¬ table.Read slot.generation := by
  obtain ⟨box, at_g, -, gone⟩ := box_of_holder (gone_of_claimed idle claimed)
  rintro ⟨box', at_g', there⟩
  rw [Table.box?, at_g'] at at_g
  exact there (Option.some.inj at_g ▸ gone)

theorem hasSlot_of_waiter {table : Table ρ} {op : Op ρ} {slot : Slot} (allowed : table.Allowed op)
    (waiter : op.waiter? = some slot) : table.HasSlot slot := by
  cases op with
  | beginWait own =>
    obtain rfl := Option.some.inj waiter
    exact holder_of_idle allowed
  | look own late =>
    obtain rfl := Option.some.inj waiter
    exact ⟨_, allowed⟩
  | lookOrProceed own late =>
    obtain rfl := Option.some.inj waiter
    exact holder_of_idle allowed
  | _ => cases waiter

theorem not_read_of_lookOn {table : Table ρ} {slot : Slot} {late : Bool}
    (final : (table.lookOn slot late).1.answer.Final) :
    ¬ (table.lookOn slot late).2.Read slot.generation := by
  cases found : table.claim slot with
  | mk result after =>
    cases result with
    | some result =>
      rw [lookOn_of_some found]
      exact not_read_of_claim found
    | none =>
      rw [lookOn_of_none found] at final ⊢
      exact not_read_of_giveUp final

theorem not_read_of_final {table : Table ρ} {op : Op ρ} {slot : Slot} (allowed : table.Allowed op)
    (waiter : op.waiter? = some slot) (final : (table.perform op).1.answer.Final) :
    ¬ (table.perform op).2.Read slot.generation := by
  cases op with
  | beginWait own =>
    obtain rfl := Option.some.inj waiter
    cases claimed : table.claimed own with
    | true =>
      simp only [perform, beginWait, claimed, ↓reduceIte]
      exact not_read_of_claimed allowed claimed
    | false =>
      simp only [perform, beginWait, claimed, Bool.false_eq_true, ↓reduceIte] at final
      exact final.elim
  | look own late =>
    obtain rfl := Option.some.inj waiter
    exact not_read_of_lookOn final
  | lookOrProceed own late =>
    obtain rfl := Option.some.inj waiter
    simp only [perform] at final ⊢
    rcases lookOrProceed_cases table own late with ⟨claimed, same⟩ | ⟨-, same⟩ | ⟨-, -, same⟩
    · rw [same]
      exact not_read_of_claimed allowed claimed
    · rw [same] at final ⊢
      exact not_read_of_lookOn final
    · rw [same] at final
      exact final.elim
  | _ => cases waiter

end Farcall.Table

namespace Farcall.Run

variable {ρ : Type} {limit : Nat} {trace : List (Moment ρ)} {table : Table ρ}

theorem elder (run : Run limit trace table) {moment : Moment ρ} (mem : moment ∈ trace) :
    Table.Elder moment.after table := by
  induction run with
  | start => cases mem
  | step run allowed ih =>
    rcases List.mem_append.mp mem with old | new
    · exact (ih old).trans (Table.elder_perform allowed)
    · obtain rfl := List.mem_singleton.mp new
      exact .refl _

/-- A box that lost its reader never gets another. -/
theorem stays_unread (run : Run limit trace table) {moment : Moment ρ} (mem : moment ∈ trace)
    {slot : Slot} (known : moment.before.HasSlot slot)
    (unread : ¬ moment.after.Read slot.generation) : ¬ table.Read slot.generation := by
  obtain ⟨⟨first, -, before⟩, allowed⟩ := run.earlier mem
  obtain ⟨hold, held⟩ := known
  obtain ⟨box, at_g, -⟩ := Table.box_of_holder held
  have old := before.sound.known slot.generation box at_g
  have grown : moment.before.nextGeneration ≤ moment.after.nextGeneration :=
    (Table.elder_perform allowed).next_le
  intro read
  exact unread ((run.elder mem).readers _ (Nat.lt_of_lt_of_le old grown) read)

theorem unread_of_broken (run : Run limit trace table) {slot : Slot}
    (broken : BrokenOff trace slot) : ¬ table.Read slot.generation := by
  obtain ⟨moment, mem, same⟩ := broken
  have allowed := (run.earlier mem).2
  rw [same] at allowed
  refine run.stays_unread mem ⟨_, allowed⟩ ?_
  rw [Moment.after, same]
  exact Table.not_read_spend _ slot

theorem unread_of_answered (run : Run limit trace table) {slot : Slot}
    (answered : Answered trace slot) : ¬ table.Read slot.generation := by
  obtain ⟨moment, mem, waiter, final⟩ := answered
  have allowed := (run.earlier mem).2
  exact run.stays_unread mem (Table.hasSlot_of_waiter allowed waiter)
    (Table.not_read_of_final allowed waiter final)

end Farcall.Run
