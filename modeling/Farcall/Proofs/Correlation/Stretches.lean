import Farcall.Proofs.Correlation.Custody
import Farcall.Proofs.Correlation.Slots

set_option autoImplicit false

/-!
# Stretches of a run

A result gets into the box of a slot by the answer that brings it, and by nothing else. So a result
that lies there behind any stretch of operations that bring none was there at the beginning.
-/

namespace Farcall

variable {ρ : Type}

def Op.Mute (op : Op ρ) : Prop := op.given? = none

theorem Op.mute_of_slot {op : Op ρ} {slot : Slot} (by_slot : op.slot? = some slot) : op.Mute := by
  cases op with
  | fulfill id r => cases by_slot
  | _ => rfl

theorem Flow.back {before given returned discarded : Option ρ} {r : ρ}
    (flow : Flow before given returned discarded (some r)) (nothing : given = none) :
    before = some r := by
  cases flow with
  | keep => rfl
  | put => cases nothing

theorem Flow.front {before returned discarded after : Option ρ} {r : ρ}
    (flow : Flow before (some r) returned discarded after) : after = some r := by
  cases flow with
  | put => rfl

namespace Table

variable {table : Table ρ} {op : Op ρ} {k : Slot} {r : ρ}

/-! ## Where a result comes from -/

theorem unread_of_spend {slot : Slot} {hold : Hold} (held : table.holder? slot = some hold)
    (has : (table.spend slot).unread? k = some r) : table.unread? k = some r := by
  have flow := flow_spend held (.read (table.unread? slot)) k
  rw [has] at flow
  exact flow.back rfl

theorem unread_of_mute (sound : table.Sound) (allowed : table.Allowed op) (mute : op.Mute)
    (has : (table.perform op).2.unread? k = some r) : table.unread? k = some r := by
  have c := sound.toCoupled
  cases op with
  | register => exact (unread_register c k).symm.trans has
  | fulfill id r => cases mute
  | fail id e => exact (unread_fail c id e k).symm.trans has
  | failAll reason => exact (unread_failAll sound reason k).symm.trans has
  | proceedAsync id => exact (unread_proceedAsync table id k).symm.trans has
  | beginWait slot => exact (unread_beginWait table slot k).symm.trans has
  | look slot late =>
    have flow := flow_lookOn allowed late k
    rw [show (table.lookOn slot late).2.unread? k = some r from has] at flow
    exact flow.back rfl
  | breakOff slot => exact unread_of_spend allowed has
  | lookOrProceed slot late =>
    obtain ⟨hold, held⟩ := holder_of_idle allowed
    have flow := flow_lookOrProceed held late k
    rw [show (table.lookOrProceed slot late).2.unread? k = some r from has] at flow
    exact flow.back rfl
  | letGo slot => exact (unread_resignal table _ _ k).symm.trans has
  | cancel slot => exact (unread_cancel c slot k).symm.trans has
  | discard slot =>
    have flow := flow_discard c allowed k
    rw [show (table.discard slot).2.unread? k = some r from has] at flow
    exact flow.back rfl
  | drop slot =>
    have flow := flow_drop c allowed k
    rw [show (table.drop slot).2.unread? k = some r from has] at flow
    exact flow.back rfl

theorem unread_of_fulfill (c : table.Coupled) {id : UInt16} {given : ρ}
    (has : (table.fulfill id given).2.unread? k = some r) :
    table.unread? k = some r ∨ table.owner? id = some k ∧ given = r := by
  cases found : table.entries[id]? with
  | none =>
    rw [fulfill_of_none found] at has
    exact .inl has
  | some entry =>
    cases marked : entry.discard with
    | true =>
      rw [fulfill_of_marked found marked] at has
      exact .inl has
    | false =>
      rw [fulfill_of_live found marked] at has
      by_cases read : table.Read entry.generation
      · have flow := flow_deliver c found read (.result given) k
        rw [show ((table.without id).deliver entry.generation (.result given)).2.unread? k = some r
          from has] at flow
        by_cases own : (⟨id, entry.generation⟩ : Slot) = k
        · rw [if_pos own] at flow
          rw [owner_of_live found marked, own]
          exact .inr ⟨rfl, (Option.some.inj flow.front).symm⟩
        · rw [if_neg own] at flow
          exact .inl (flow.back rfl)
      · exact .inl ((unread_of_deserted read _ k).symm.trans has)

theorem of_owner {id : UInt16} (owner : table.owner? id = some k) : ∃ entry,
    table.entries[id]? = some entry ∧ entry.discard = false ∧ k = ⟨id, entry.generation⟩ := by
  cases found : table.entries[id]? with
  | none =>
    rw [owner_of_none found] at owner
    cases owner
  | some entry =>
    cases marked : entry.discard with
    | true =>
      rw [owner_of_marked found marked] at owner
      cases owner
    | false =>
      rw [owner_of_live found marked] at owner
      exact ⟨entry, rfl, marked, (Option.some.inj owner).symm⟩

theorem hasSlot_of_unread (has : table.unread? k = some r) : table.HasSlot k := by
  unfold unread? at has
  unfold HasSlot holder?
  cases found : table.box? k with
  | none =>
    rw [found] at has
    cases has
  | some box =>
    rw [found] at has
    by_cases same : box.id = k.id
    · exact ⟨box.hold, by simp only [same, ↓reduceIte]⟩
    · simp only [same, ↓reduceIte] at has
      cases has

/-! ## Stretches -/

/-- Operations of one kind, one after the other. -/
inductive Stretch (kind : Op ρ → Prop) (before : Table ρ) : Table ρ → Prop where
  | refl : Stretch kind before before
  | step {table : Table ρ} {op : Op ρ} (earlier : Stretch kind before table) (own : kind op)
      (allowed : table.Allowed op) : Stretch kind before (table.perform op).2

namespace Stretch

variable {kind : Op ρ → Prop} {before : Table ρ}

theorem single (own : kind op) (allowed : table.Allowed op) :
    Stretch kind table (table.perform op).2 :=
  .step .refl own allowed

theorem trans {after : Table ρ} (h : Stretch kind before table) (h' : Stretch kind table after) :
    Stretch kind before after := by
  induction h' with
  | refl => exact h
  | step _ own allowed ih => exact .step ih own allowed

theorem mono {other : Op ρ → Prop} (h : Stretch kind before table)
    (wider : ∀ op, kind op → other op) : Stretch other before table := by
  induction h with
  | refl => exact .refl
  | step _ own allowed ih => exact .step ih (wider _ own) allowed

theorem sound (h : Stretch kind before table) (sound : before.Sound) : table.Sound := by
  induction h with
  | refl => exact sound
  | step _ _ allowed ih => exact ih.perform allowed

theorem elder (h : Stretch kind before table) : Elder before table := by
  induction h with
  | refl => exact .refl before
  | step _ _ allowed ih => exact ih.trans (elder_perform allowed)

theorem unread_back (h : Stretch Op.Mute before table) (start : before.Sound)
    (has : table.unread? k = some r) : before.unread? k = some r := by
  induction h with
  | refl => exact has
  | step earlier mute allowed ih =>
    exact ih (unread_of_mute (earlier.sound start) allowed mute has)

end Stretch

theorem Works.stretch {slot : Slot} {before : Table ρ} (h : Works slot before table) :
    Stretch Op.Mute before table := by
  induction h with
  | refl => exact .refl
  | step _ by_slot allowed ih => exact .step ih (Op.mute_of_slot by_slot) allowed

end Table

theorem Run.stretch {limit : Nat} {earlier between : List (Moment ρ)} {base table : Table ρ}
    (first : Run limit earlier base) (run : Run limit (earlier ++ between) table) :
    Table.Stretch (fun _ => True) base table := by
  induction between using List.reverseRecOn generalizing table with
  | nil =>
    rw [List.append_nil] at run
    obtain rfl := first.table_eq run
    exact .refl
  | append_singleton between last ih =>
    rw [← List.append_assoc] at run
    obtain ⟨before, allowed, rfl⟩ := run.of_snoc
    exact (ih before).step trivial allowed

end Farcall
