import Farcall.Proofs.Channel.Agreement
import Farcall.Proofs.Correlation.Delivery
import Farcall.Proofs.Correlation.Slots

set_option autoImplicit false

/-!
# Calls that nothing has arrived for

Until an answer comes, or the channel goes, the entry of a call is live and its box is empty. Messages
about other calls leave both as they are.
-/

namespace Farcall

namespace Table

variable {ρ : Type} {table after : Table ρ} {slot : Slot} {signals : Signals} {hold : Hold}

/-- The entry of a slot is live, and nothing has arrived in its box. -/
structure Pends (table : Table ρ) (slot : Slot) (signals : Signals) (hold : Hold) : Prop where
  entry : table.entries[slot.id]? = some ⟨slot.generation, false⟩
  box : table.boxes[slot.generation]? = some ⟨slot.id, none, signals, hold⟩

theorem pends_enter (table : Table ρ) (id : UInt16) :
    (table.enter id).2.Pends (table.enter id).1 (.idle false) .slot := by
  refine ⟨?_, ?_⟩
  · change (table.enter id).2.entries[id]? = _
    rw [enter_entry, if_pos rfl]
    rfl
  · change (table.enter id).2.boxes[table.nextGeneration]? = _
    rw [enter_box, if_pos rfl]
    rfl

namespace Pends

theorem owned (pends : table.Pends slot signals hold) : table.owns slot = true :=
  owns_iff.mpr ⟨_, pends.entry, rfl⟩

theorem owner (pends : table.Pends slot signals hold) : table.owner? slot.id = some slot :=
  owner_of_live pends.entry rfl

theorem empty (pends : table.Pends slot signals hold) : table.arrival? slot = none := by
  rw [arrival?, box?, pends.box]
  rfl

theorem held (pends : table.Pends slot signals hold) : table.holder? slot = some hold := by
  rw [holder?, box?, pends.box]
  simp only [↓reduceIte]

theorem read (pends : table.Pends slot signals hold) (reads : hold ≠ .gone) :
    table.Read slot.generation :=
  ⟨_, pends.box, reads⟩

theorem resignal (pends : table.Pends slot signals hold) (f : Signals → Signals) :
    (table.resignal slot.generation f).Pends slot (f signals) hold := by
  refine ⟨pends.entry, ?_⟩
  rw [resignal_box, if_pos rfl, pends.box]
  rfl

theorem told (pends : table.Pends slot signals hold) :
    ((table.attend slot).useSignal slot).1 = decide (0 < signals.size) := by
  have attended := (pends.resignal .attend).box
  rw [useSignal, box?, attend, attended]
  cases signals with
  | idle stored => cases stored <;> rfl
  | awaited => rfl
  | handed stored => simp [Signals.attend, Signals.size]

theorem within (pends : table.Pends slot signals hold) {g : Nat} (within : Within g table after)
    (other : slot.generation ≠ g) : after.Pends slot signals hold :=
  ⟨(within.entries _ _ other).mpr pends.entry, (within.boxes _ other).trans pends.box⟩

theorem confined (pends : table.Pends slot signals hold) (c : table.Coupled) {id : UInt16}
    (confined : Confined table after id) (other : id ≠ slot.id) :
    after.Pends slot signals hold := by
  refine ⟨(confined.entries _ (Ne.symm other)).trans pends.entry,
    (confined.boxes _ ?_).trans pends.box⟩
  intro entry found own
  exact other (c.distinct id slot.id entry _ found pends.entry own)

theorem proceed (pends : table.Pends slot signals hold) :
    (table.proceedAsync slot.id).2.Pends slot signals.raise hold := by
  rw [proceedAsync_of_some pends.entry]
  exact pends.resignal .raise

end Pends

end Table

/-! ## Messages -/

theorem Association.pends_process {association : Association} {slot : Slot} {signals : Signals}
    {hold : Hold} (c : association.table.Coupled)
    (pends : association.table.Pends slot signals hold) (registry : Registry) {message : Bytes}
    (other : calledId? message ≠ some slot.id) :
    (association.process registry (.ofBytes message)).association.table.Pends slot signals hold := by
  rcases association.table_process registry (.ofBytes message) with
    same | ⟨kind, id, rest, given, answered⟩ | ⟨id, rest, given, told⟩
  · rw [same]
    exact pends
  · have named := Route.named_of_run (Route.run_ofBytes given).1
    rw [answered]
    refine pends.confined c (Table.confined_fulfill _ id _) ?_
    rintro rfl
    exact other named.2
  · have named := Route.named_of_run (Route.run_ofBytes given).1
    rw [told]
    refine pends.confined c (Table.confined_proceedAsync _ id) ?_
    rintro rfl
    exact other named.2

/-- However a message comes, it is the answer to a call or leaves the call pending. -/
theorem Association.process_of_pends {association : Association} {slot : Slot} {signals : Signals}
    {hold : Hold} (c : association.table.Coupled)
    (pends : association.table.Pends slot signals hold) (reads : hold ≠ .gone)
    (registry : Registry) (input : Input) :
    (∃ kind rest, Route.decoder.run input = (.ok (.answer kind slot.id), rest) ∧
      (association.process registry input).association.table.arrival? slot =
        some (.result (.answer kind rest))) ∨
    (∀ kind rest, Route.decoder.run input ≠ (.ok (.answer kind slot.id), rest)) ∧
      ∃ signals, (association.process registry input).association.table.Pends slot signals hold := by
  rcases association.table_process registry input with
    same | ⟨kind, id, rest, given, answered⟩ | ⟨id, rest, given, told⟩
  · rw [same]
    refine .inr ⟨fun kind rest given => ?_, signals, pends⟩
    have answered : (association.process registry input).association.table =
        (association.table.fulfill slot.id (.answer kind rest)).2 := by
      rw [association.process_eq, given]
      rfl
    -- the answer would have gone into the box, which is still empty
    have arrived := Table.arrival_fulfill pends.entry rfl rfl (pends.read reads)
      (LazyResult.answer kind rest)
    rw [← answered, same, pends.empty] at arrived
    cases arrived
  · rw [answered]
    by_cases own : id = slot.id
    · subst own
      exact .inl ⟨kind, rest, given, Table.arrival_fulfill pends.entry rfl rfl (pends.read reads) _⟩
    · refine .inr ⟨fun kind' rest' given' => ?_, signals,
        pends.confined c (Table.confined_fulfill _ id _) own⟩
      rw [given] at given'
      cases given'
      exact own rfl
  · rw [told]
    refine .inr ⟨fun kind' rest' given' => ?_, ?_⟩
    · rw [given] at given'
      cases given'
    · by_cases own : id = slot.id
      · subst own
        exact ⟨signals.raise, pends.proceed⟩
      · exact ⟨signals, pends.confined c (Table.confined_proceedAsync _ id) own⟩

end Farcall
