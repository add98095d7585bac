import Farcall.Proofs.Correlation.Permanence

set_option autoImplicit false

/-!
# Who reads a live entry

An entry that is not marked is there for a reader. Every operation sees to that, except that a wait
which is broken off takes the reader away and leaves the entry. So a live entry without a reader
tells of a broken wait.
-/

namespace Farcall.Table

variable {ρ : Type}

/-- Every live entry has its reader, apart from those of some slots. -/
def Attended (table : Table ρ) (except : Slot → Prop) : Prop :=
  ∀ (id : UInt16) entry, table.entries[id]? = some entry → entry.discard = false →
    table.Read entry.generation ∨ except ⟨id, entry.generation⟩

theorem Attended.of_removal {table after : Table ρ} {except : Slot → Prop}
    (h : table.Attended except) (c : table.Coupled) {id : UInt16} {entry : Entry}
    (found : table.entries[id]? = some entry)
    (entries : ∀ k, k ≠ id → after.entries[k]? = table.entries[k]?)
    (removed : ∀ e, after.entries[id]? = some e → e.discard = true)
    (others : ∀ g, g ≠ entry.generation → after.boxes[g]? = table.boxes[g]?) :
    after.Attended except := by
  intro k e at_k live
  have other : k ≠ id := by
    intro same
    subst k
    rw [removed e at_k] at live
    cases live
  rw [entries k other] at at_k
  have foreign : e.generation ≠ entry.generation :=
    fun same => other (c.distinct k id e entry at_k found same)
  rcases h k e at_k live with ⟨box, at_g, there⟩ | excepted
  · exact .inl ⟨box, (others _ foreign).trans at_g, there⟩
  · exact .inr excepted

theorem Attended.of_box {table after : Table ρ} {except : Slot → Prop}
    (h : table.Attended except) (g : Nat) (entries : after.entries = table.entries)
    (others : ∀ k, k ≠ g → after.boxes[k]? = table.boxes[k]?)
    (needless : ∀ (id : UInt16) entry, table.entries[id]? = some entry → entry.generation = g →
      table.Read g → after.Read g) : after.Attended except := by
  intro id entry found live
  rw [entries] at found
  rcases h id entry found live with reader | excepted
  · by_cases own : entry.generation = g
    · rw [own] at reader ⊢
      exact .inl (needless id entry found own reader)
    · obtain ⟨box, at_g, there⟩ := reader
      exact .inl ⟨box, (others _ own).trans at_g, there⟩
  · exact .inr excepted

theorem Attended.enter {table : Table ρ} {except : Slot → Prop} (h : table.Attended except)
    (c : table.Coupled) (id : UInt16) : (table.enter id).2.Attended except := by
  intro k e at_k live
  rw [enter_entry] at at_k
  unfold Read
  rw [enter_box]
  split at at_k
  · rw [← Option.some.inj at_k]
    exact .inl ⟨_, if_pos rfl, by simp⟩
  · have old := c.fresh k e at_k
    rw [if_neg (by omega)]
    exact h k e at_k live

theorem Coupled.owns_of_entry {table : Table ρ} (c : table.Coupled) {slot : Slot} {hold : Hold}
    (held : table.holder? slot = some hold) {id : UInt16} {entry : Entry}
    (found : table.entries[id]? = some entry) (own : entry.generation = slot.generation) :
    id = slot.id ∧ table.owns slot = true := by
  obtain ⟨box, at_g, same, -⟩ := box_of_holder held
  obtain ⟨-, was, -⟩ := c.awaited id entry box found (by rw [own]; exact at_g)
  have here : id = slot.id := was.symm.trans same
  exact ⟨here, owns_iff.mpr ⟨entry, here ▸ found, own⟩⟩

theorem Coupled.not_owns_of_arrival {table : Table ρ} (c : table.Coupled) {slot : Slot}
    (arrived : table.arrival? slot ≠ none) : table.owns slot = false := by
  cases owned : table.owns slot with
  | false => rfl
  | true =>
    obtain ⟨entry, found, own⟩ := owns_iff.mp owned
    cases at_g : table.box? slot with
    | none => simp [arrival?, at_g] at arrived
    | some box =>
      obtain ⟨-, -, empty⟩ := c.awaited _ entry box found (by rw [own]; exact at_g)
      simp [arrival?, at_g, empty] at arrived

theorem Attended.change {table after : Table ρ} {except : Slot → Prop}
    (h : table.Attended except) (c : table.Coupled) (change : Change table after) :
    after.Attended except := by
  cases change with
  | count f => exact h
  | enter free room => exact h.enter c _
  | @settle id entry found d =>
    refine h.of_removal c found ?_ ?_ ?_
    · intro k other
      rw [deliver_eq]
      simp [Ne.symm other]
    · intro e at_k
      rw [deliver_eq] at at_k
      simp at at_k
    · intro g other
      rw [deliver_box, if_neg (Ne.symm other)]
      rfl
  | @remove id entry found marked =>
    refine h.of_removal c found ?_ ?_ (fun g _ => rfl)
    · intro k other
      simp [Ne.symm other]
    · intro e at_k
      simp at at_k
  | flag g f same =>
    refine h.of_box g rfl ?_ ?_
    · intro k other
      simp [Ne.symm other]
    · intro id entry found own ⟨box, at_g, there⟩
      refine ⟨f box, by simp [at_g], ?_⟩
      intro gone
      exact there ((same box at_g).2.2.mp gone)
  | spend slot held ended =>
    -- A box is emptied only when its entry is gone, so no entry needs its reader.
    have lost : table.owns slot = false := ended.elim c.not_owns_of_arrival id
    refine h.of_box slot.generation rfl ?_ ?_
    · intro k other
      simp [Ne.symm other]
    · intro id entry found own reader
      have owned := (c.owns_of_entry held found own).2
      rw [lost] at owned
      cases owned
  | expire slot owned =>
    obtain ⟨entry, found, own⟩ := owns_iff.mp owned
    refine h.of_removal c found ?_ ?_ ?_
    · intro k other
      simp [Ne.symm other]
    · intro e at_k
      simp at at_k
    · intro g other
      rw [own] at other
      simp [Ne.symm other]
  | giveUp slot owned =>
    obtain ⟨entry, found, own⟩ := owns_iff.mp owned
    refine h.of_removal c found ?_ ?_ ?_
    · intro k other
      simp [Ne.symm other]
    · intro e at_k
      rw [givenUp_entry, if_pos rfl] at at_k
      rw [← Option.some.inj at_k]
    · intro g other
      rw [own] at other
      simp [Ne.symm other]
  | abandon slot owned =>
    obtain ⟨entry, found, own⟩ := owns_iff.mp owned
    refine h.of_removal c found ?_ ?_ ?_
    · intro k other
      simp [Ne.symm other]
    · intro e at_k
      simp at at_k
    · intro g other
      rw [own] at other
      simp [Ne.symm other]
  | @close slot hold held ended =>
    refine h.of_box slot.generation rfl ?_ ?_
    · intro k other
      simp [Ne.symm other]
    · intro id entry found own ⟨box, at_g, there⟩
      rcases ended with rfl | lost
      · obtain ⟨box', at_g', -, gone⟩ := box_of_holder held
        rw [Table.box?, at_g] at at_g'
        exact absurd (Option.some.inj at_g' ▸ gone) there
      · have owned := (c.owns_of_entry held found own).2
        rw [lost] at owned
        cases owned

/-! ## Runs -/

theorem Attended.changes {table after : Table ρ} {except : Slot → Prop}
    (h : table.Attended except) (sound : table.Sound) (changes : Changes table after) :
    after.Attended except := by
  induction changes with
  | refl => exact h
  | tail earlier change ih => exact ih.change (sound.changes earlier).toCoupled change

/-- A wait that is broken off leaves its entry without a reader. -/
theorem Attended.spend {table : Table ρ} {except : Slot → Prop} (h : table.Attended except)
    (c : table.Coupled) {slot : Slot} {hold : Hold} (held : table.holder? slot = some hold) :
    (table.spend slot).Attended fun other => except other ∨ other = slot := by
  intro id entry found live
  by_cases own : entry.generation = slot.generation
  · have here := (c.owns_of_entry held found own).1
    refine .inr (.inr ?_)
    rw [here, own]
  · rcases h id entry found live with ⟨box, at_g, there⟩ | excepted
    · refine .inl ⟨box, ?_, there⟩
      simp [Ne.symm own, at_g]
    · exact .inr (.inl excepted)

end Farcall.Table

namespace Farcall

variable {ρ : Type}

theorem brokenOff_append {trace : List (Moment ρ)} {moment : Moment ρ} {slot : Slot} :
    BrokenOff (trace ++ [moment]) slot ↔ BrokenOff trace slot ∨ moment.op = .breakOff slot := by
  simp [BrokenOff, or_and_right, exists_or]

namespace Run

variable {limit : Nat} {trace : List (Moment ρ)} {table : Table ρ}

/-- Only a broken wait leaves a live entry without a reader. -/
theorem attended (run : Run limit trace table) : table.Attended (BrokenOff trace) := by
  induction run with
  | start =>
    intro id entry found
    simp [Table.empty] at found
  | @step trace table op run allowed ih =>
    by_cases broken : ∃ slot, op = .breakOff slot
    · obtain ⟨slot, rfl⟩ := broken
      intro id entry found live
      rcases ih.spend run.sound.toCoupled allowed id entry found live with reader | either
      · exact .inl reader
      · refine .inr (brokenOff_append.mpr (either.imp_right ?_))
        rintro rfl
        rfl
    · have kept := Table.changes_perform allowed fun slot same => broken ⟨slot, same⟩
      intro id entry found live
      rcases ih.changes run.sound kept id entry found live with reader | before
      · exact .inl reader
      · exact .inr (brokenOff_append.mpr (.inl before))

end Run

end Farcall
