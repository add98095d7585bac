import Farcall.Proofs.Correlation.Delivery

set_option autoImplicit false

/-!
# The fate of every result

As long as waits are kept up, each result has one fate. It is discarded where it arrives if nobody
has a right to it. Otherwise it comes to one slot, and is returned there, discarded there or still
there. This holds for results of any type, so also where each one is told apart by a number.
-/

namespace Farcall

variable {ρ : Type}

/-! ## What is given away -/

namespace Table

theorem giveUp_gives_nothing (table : Table ρ) (slot : Slot) (late : Bool) :
    (table.giveUp slot late).1.discarded = none ∧ (table.giveUp slot late).1.lost = none := by
  cases late <;> exact ⟨rfl, rfl⟩

theorem lookOn_gives_nothing (table : Table ρ) (slot : Slot) (late : Bool) :
    (table.lookOn slot late).1.discarded = none ∧ (table.lookOn slot late).1.lost = none := by
  unfold lookOn
  split
  · exact ⟨rfl, rfl⟩
  · exact giveUp_gives_nothing _ slot late

theorem lookOrProceed_gives_nothing (table : Table ρ) (slot : Slot) (late : Bool) :
    (table.lookOrProceed slot late).1.discarded = none ∧
      (table.lookOrProceed slot late).1.lost = none := by
  rcases lookOrProceed_cases table slot late with ⟨-, same⟩ | ⟨-, same⟩ | ⟨-, -, same⟩
  · rw [same]
    exact ⟨rfl, rfl⟩
  · rw [same]
    exact lookOn_gives_nothing _ slot late
  · rw [same]
    exact ⟨rfl, rfl⟩

theorem beginWait_gives_nothing (table : Table ρ) (slot : Slot) :
    (table.perform (.beginWait slot)).1.discarded = none ∧
      (table.perform (.beginWait slot)).1.lost = none := by
  cases claimed : table.claimed slot <;> simp [perform, beginWait, claimed]

theorem discard_eq_unread {table : Table ρ} (c : table.Coupled) {slot : Slot}
    (idle : table.Idle slot) : (table.discard slot).1 = table.unread? slot := by
  have flow := flow_discard c idle slot
  rw [if_pos rfl] at flow
  have closed : (table.discard slot).2.unread? slot = none := by
    unfold discard
    split
    · exact unread_closeBox _ slot
    · split <;> exact unread_closeBox _ slot
  rw [closed] at flow
  generalize (table.discard slot).1 = d at flow ⊢
  generalize table.unread? slot = content at flow ⊢
  cases flow <;> rfl

theorem drop_eq_unread {table : Table ρ} (c : table.Coupled) {slot : Slot}
    (idle : table.Idle slot) : (table.drop slot).1 = table.unread? slot := by
  have flow := flow_drop c idle slot
  rw [if_pos rfl] at flow
  have closed : (table.drop slot).2.unread? slot = none := by
    unfold drop
    split <;> exact unread_closeBox _ slot
  rw [closed] at flow
  generalize (table.drop slot).1 = d at flow ⊢
  generalize table.unread? slot = content at flow ⊢
  cases flow <;> rfl

theorem fulfill_eq_rejected {table : Table ρ} (read : table.AllRead) (id : UInt16) (r : ρ) :
    (table.fulfill id r).1.2 = if table.owner? id = none then some r else none := by
  cases found : table.entries[id]? with
  | none => rw [fulfill_of_none found, owner_of_none found, if_pos rfl]
  | some entry =>
    cases marked : entry.discard with
    | true => rw [fulfill_of_marked found marked, owner_of_marked found marked, if_pos rfl]
    | false =>
      have there : ∃ box, (table.without id).boxes[entry.generation]? = some box ∧
          box.hold ≠ .gone := read id entry found marked
      rw [fulfill_of_live found marked, owner_of_live found marked, deliver_rejected,
        if_pos there]
      rfl

end Table

namespace Moment

/-- Why a result is discarded: nobody has a right to it where it arrives, or it lies unread with a
slot that is given up or dropped. -/
def Rejects (moment : Moment ρ) (r : ρ) : Prop :=
  (∃ id, moment.op = .fulfill id r ∧ moment.before.owner? id = none) ∨
    ∃ slot, (moment.op = .discard slot ∨ moment.op = .drop slot) ∧
      moment.before.unread? slot = some r

variable {moment : Moment ρ}

theorem discarded_iff (c : moment.before.Coupled) (read : moment.before.AllRead)
    (allowed : moment.before.Allowed moment.op) (r : ρ) :
    moment.effect.discarded = some r ↔ moment.Rejects r := by
  obtain ⟨table, op⟩ := moment
  have nothing : ∀ effect : Effect ρ, effect.discarded = none →
      ¬ effect.discarded = some r := by
    intro effect absent present
    rw [absent] at present
    cases present
  unfold effect Rejects
  cases op with
  | fulfill id given =>
    have rejected := Table.fulfill_eq_rejected read id given
    change (table.fulfill id given).1.2 = some r ↔ _
    rw [rejected]
    cases owner : table.owner? id with
    | none =>
      constructor
      · intro same
        exact .inl ⟨id, by rw [Option.some.inj same], owner⟩
      · rintro (⟨id', same, -⟩ | ⟨slot, same | same, -⟩)
        · rw [(Op.fulfill.inj same).2]
          rfl
        · cases same
        · cases same
    | some slot => simp [owner]
  | discard slot =>
    change (table.discard slot).1 = some r ↔ _
    rw [Table.discard_eq_unread c allowed]
    simp
  | drop slot =>
    change (table.drop slot).1 = some r ↔ _
    rw [Table.drop_eq_unread c allowed]
    simp
  | look slot late =>
    simpa [Table.perform] using nothing _ (table.lookOn_gives_nothing slot late).1
  | lookOrProceed slot late =>
    simpa [Table.perform] using nothing _ (table.lookOrProceed_gives_nothing slot late).1
  | beginWait slot => simpa using nothing _ (table.beginWait_gives_nothing slot).1
  | _ => simp [Table.perform]

theorem lost_eq_none (kept : ∀ slot, moment.op ≠ .breakOff slot) : moment.effect.lost = none := by
  obtain ⟨table, op⟩ := moment
  cases op with
  | look slot late => exact (table.lookOn_gives_nothing slot late).2
  | lookOrProceed slot late => exact (table.lookOrProceed_gives_nothing slot late).2
  | beginWait slot => exact (table.beginWait_gives_nothing slot).2
  | breakOff slot => exact absurd rfl (kept slot)
  | _ => rfl

theorem waiter_of_returned {r : ρ} (returned : moment.effect.returned = some r) :
    ∃ slot, moment.op.waiter? = some slot := by
  obtain ⟨table, op⟩ := moment
  cases op with
  | look slot late => exact ⟨slot, rfl⟩
  | lookOrProceed slot late => exact ⟨slot, rfl⟩
  | beginWait slot => exact ⟨slot, rfl⟩
  | _ => simp [effect, Table.perform, Effect.returned] at returned

end Moment

/-! ## What comes to a slot in a run -/

theorem owner_eq_some {table : Table ρ} {id : UInt16} {slot : Slot}
    (owner : table.owner? id = some slot) :
    slot.id = id ∧ table.entries[id]? = some ⟨slot.generation, false⟩ := by
  cases found : table.entries[id]? with
  | none =>
    rw [Table.owner_of_none found] at owner
    cases owner
  | some entry =>
    obtain ⟨generation, discard⟩ := entry
    cases discard with
    | true =>
      rw [Table.owner_of_marked found rfl] at owner
      cases owner
    | false =>
      rw [Table.owner_of_live found rfl] at owner
      rw [← Option.some.inj owner]
      exact ⟨rfl, rfl⟩

theorem brings_eq_some {moment : Moment ρ} {slot : Slot} {r : ρ}
    (brings : moment.brings slot = some r) :
    moment.op = .fulfill slot.id r ∧ moment.before.owner? slot.id = some slot := by
  unfold Moment.brings at brings
  split at brings
  · next id r' op =>
    split at brings
    · next owner =>
      have same := (owner_eq_some owner).1
      rw [op, same, Option.some.inj brings]
      exact ⟨rfl, owner⟩
    · cases brings
  · cases brings

theorem not_hasEntry_of_fulfill {table : Table ρ} (c : table.Coupled) {slot : Slot}
    (owner : table.owner? slot.id = some slot) (r : ρ) :
    ¬ (table.fulfill slot.id r).2.HasEntry slot.generation := by
  have found := (owner_eq_some owner).2
  rw [Table.fulfill_of_live found rfl, Table.deliver_eq]
  rintro ⟨id, entry, at_id, own⟩
  change (table.without slot.id).entries[id]? = some entry at at_id
  rw [Table.without_entry] at at_id
  split at at_id
  · cases at_id
  · next other =>
    have same := c.distinct id slot.id entry ⟨slot.generation, false⟩ at_id found own
    exact other (by simp [same])

theorem brought_append (trace : List (Moment ρ)) (moment : Moment ρ) (slot : Slot) :
    brought (trace ++ [moment]) slot = brought trace slot ++ (moment.brings slot).toList := by
  cases brings : moment.brings slot <;> simp [brought, brings]

theorem returned_append (trace : List (Moment ρ)) (moment : Moment ρ) (slot : Slot) :
    returned (trace ++ [moment]) slot = returned trace slot ++ (moment.returns slot).toList := by
  cases returns : moment.returns slot <;> simp [returned, returns]

theorem discarded_append (trace : List (Moment ρ)) (moment : Moment ρ) (slot : Slot) :
    discarded (trace ++ [moment]) slot = discarded trace slot ++ (moment.discards slot).toList := by
  cases discards : moment.discards slot <;> simp [discarded, discards]

namespace Run

variable {limit : Nat} {trace : List (Moment ρ)} {table : Table ρ}

/-- Something is brought to a slot once at most, and then its entry is gone for good. -/
theorem brought_once (run : Run limit trace table) (slot : Slot) :
    brought trace slot = [] ∨ (∃ r, brought trace slot = [r]) ∧
      slot.generation < table.nextGeneration ∧ ¬ table.HasEntry slot.generation := by
  induction run with
  | start => exact .inl rfl
  | @step trace table op run allowed ih =>
    have elder := Table.elder_perform allowed
    rw [brought_append]
    cases brings : Moment.brings ⟨table, op⟩ slot with
    | none =>
      rw [Option.toList_none, List.append_nil]
      refine ih.imp_right ?_
      rintro ⟨single, old, gone⟩
      exact ⟨single, Nat.lt_of_lt_of_le old elder.next_le,
        fun stands => gone (elder.entries _ old stands)⟩
    | some r =>
      obtain ⟨fulfil, owner⟩ := brings_eq_some brings
      change op = .fulfill slot.id r at fulfil
      change table.owner? slot.id = some slot at owner
      have found := (owner_eq_some owner).2
      -- Had something come before, the entry that this delivery finds would be gone.
      have first : brought trace slot = [] := by
        rcases ih with first | ⟨-, -, gone⟩
        · exact first
        · exact absurd ⟨slot.id, _, found, rfl⟩ gone
      refine .inr ⟨⟨r, by rw [first]; rfl⟩, ?_, ?_⟩
      · exact Nat.lt_of_lt_of_le (run.sound.fresh slot.id _ found) elder.next_le
      · rw [fulfil]
        exact not_hasEntry_of_fulfill run.sound.toCoupled owner r

theorem allRead (run : Run limit trace table) (driven : Driven trace) : table.AllRead :=
  fun id entry found live => (run.attended id entry found live).resolve_right (driven _)

/-- What was brought to a slot is what it returned, what was discarded with it and what lies
unread. -/
theorem balance (run : Run limit trace table) (driven : Driven trace) (slot : Slot) :
    (brought trace slot).Perm
      (returned trace slot ++ discarded trace slot ++ (table.unread? slot).toList) := by
  induction run with
  | start =>
    have nothing : (Table.empty limit : Table ρ).unread? slot = none :=
      Table.unread_of_foreign (by simp [Table.empty])
    rw [nothing]
    exact .refl _
  | @step trace table op run allowed ih =>
    have before : Driven trace := driven.of_prefix (List.prefix_append _ _)
    have kept : ∀ other, op ≠ .breakOff other :=
      fun other now => driven other (brokenOff_append.mpr (.inr now))
    have balanced := ih before
    have flow := Moment.flow ⟨table, op⟩ run.sound (run.allRead before) allowed kept slot
    change Flow _ _ _ _ ((table.perform op).2.unread? slot) at flow
    change Flow (table.unread? slot) _ _ _ _ at flow
    rw [brought_append, returned_append, discarded_append]
    generalize Moment.brings ⟨table, op⟩ slot = b at flow ⊢
    generalize Moment.returns ⟨table, op⟩ slot = r at flow ⊢
    generalize Moment.discards ⟨table, op⟩ slot = d at flow ⊢
    generalize (table.perform op).2.unread? slot = behind at flow ⊢
    generalize table.unread? slot = content at flow balanced
    cases flow with
    | keep content =>
      simp only [Option.toList_none, List.append_nil]
      exact balanced
    | put r =>
      simp only [Option.toList_none, List.append_nil] at balanced ⊢
      exact balanced.append_right _
    | read content =>
      simp only [Option.toList_none, List.append_nil]
      refine balanced.trans ?_
      rw [List.append_assoc, List.append_assoc]
      exact List.perm_append_comm.append_left _
    | leave content =>
      simp only [Option.toList_none, List.append_nil]
      rw [← List.append_assoc]
      exact balanced

end Run

/-! ## Fates -/

inductive Fate (trace : List (Moment ρ)) (table : Table ρ) (slot : Slot) (r : ρ) : Prop
  | returned (once : returned trace slot = [r]) (kept : discarded trace slot = [])
      (read : table.unread? slot = none)
  | discarded (unreturned : returned trace slot = []) (once : discarded trace slot = [r])
      (left : table.unread? slot = none)
  | unread (unreturned : returned trace slot = []) (kept : discarded trace slot = [])
      (there : table.unread? slot = some r)

/-- Every result goes one way, and nothing is given away that did not come that way. -/
structure ExactDelivery (trace : List (Moment ρ)) (table : Table ρ) : Prop where
  /-- A result that nobody has a right to is discarded at once; any other is brought to the slot
  that has, which never gets another one. -/
  fate : ∀ moment ∈ trace, ∀ id r, moment.op = .fulfill id r →
    (moment.before.owner? id = none ∧ moment.effect.discarded = some r) ∨
      ∃ slot, moment.before.owner? id = some slot ∧ moment.effect.discarded = none ∧
        brought trace slot = [r] ∧ Fate trace table slot r
  own : ∀ moment ∈ trace, ∀ r, moment.effect.returned = some r →
    ∃ slot, moment.op.waiter? = some slot ∧ brought trace slot = [r]
  there : ∀ slot r, table.unread? slot = some r → brought trace slot = [r]
  discarded_iff : ∀ moment ∈ trace, ∀ r, moment.effect.discarded = some r ↔ moment.Rejects r
  nothing_lost : ∀ moment ∈ trace, moment.effect.lost = none

theorem fate_of_balance {trace : List (Moment ρ)} {table : Table ρ} {slot : Slot} {r : ρ}
    (balance : ([r] : List ρ).Perm
      (returned trace slot ++ discarded trace slot ++ (table.unread? slot).toList)) :
    Fate trace table slot r := by
  have single := List.singleton_perm.mp balance
  rcases List.append_eq_singleton_iff.mp single.symm with ⟨left, right⟩ | ⟨left, right⟩
  · obtain ⟨unreturned, kept⟩ := List.append_eq_nil_iff.mp left
    exact .unread unreturned kept (by simpa using right)
  · have empty : table.unread? slot = none := by simpa using right
    rcases List.append_eq_singleton_iff.mp left with ⟨unreturned, once⟩ | ⟨once, kept⟩
    · exact .discarded unreturned once empty
    · exact .returned once kept empty

theorem Run.brought_eq_singleton {limit : Nat} {trace : List (Moment ρ)} {table : Table ρ}
    (run : Run limit trace table) {slot : Slot} {r : ρ} (mem : r ∈ brought trace slot) :
    brought trace slot = [r] := by
  rcases run.brought_once slot with none | ⟨⟨r', single⟩, -⟩
  · rw [none] at mem
    cases mem
  · rw [single] at mem ⊢
    rw [List.mem_singleton.mp mem]

/-- Behind every run of waits that are kept up, results were delivered exactly. -/
theorem Run.exact_delivery {limit : Nat} {trace : List (Moment ρ)} {table : Table ρ}
    (run : Run limit trace table) (driven : Driven trace) : ExactDelivery trace table := by
  have kept : ∀ moment ∈ trace, ∀ slot, moment.op ≠ .breakOff slot :=
    fun moment mem slot broken => driven slot ⟨moment, mem, broken⟩
  have discarded_iff : ∀ moment ∈ trace, ∀ r,
      moment.effect.discarded = some r ↔ moment.Rejects r := by
    intro moment mem r
    obtain ⟨⟨first, shorter, before⟩, allowed⟩ := run.earlier mem
    have read := before.allRead (driven.of_prefix shorter)
    exact Moment.discarded_iff before.sound.toCoupled read allowed r
  refine ⟨?_, ?_, ?_, discarded_iff, fun moment mem => Moment.lost_eq_none (kept moment mem)⟩
  · intro moment mem id r op
    cases owner : moment.before.owner? id with
    | none => exact .inl ⟨rfl, (discarded_iff moment mem r).mpr (.inl ⟨id, op, owner⟩)⟩
    | some slot =>
      have brings : moment.brings slot = some r := by
        simp only [Moment.brings, op, owner, ↓reduceIte]
      have single : brought trace slot = [r] :=
        run.brought_eq_singleton (List.mem_filterMap.mpr ⟨moment, mem, brings⟩)
      refine .inr ⟨slot, rfl, ?_, single, fate_of_balance (single ▸ run.balance driven slot)⟩
      cases discarded : moment.effect.discarded with
      | none => rfl
      | some r' =>
        rcases (discarded_iff moment mem r').mp discarded with
          ⟨id', op', nobody⟩ | ⟨slot', op' | op', -⟩
        · rw [op] at op'
          rw [← (Op.fulfill.inj op').1, owner] at nobody
          cases nobody
        · rw [op] at op'
          cases op'
        · rw [op] at op'
          cases op'
  · intro moment mem r given
    obtain ⟨slot, waiter⟩ := Moment.waiter_of_returned given
    have returns : moment.returns slot = some r := by
      rw [Moment.returns, if_pos waiter, given]
    have mem_returned : r ∈ returned trace slot := List.mem_filterMap.mpr ⟨moment, mem, returns⟩
    refine ⟨slot, waiter, run.brought_eq_singleton ?_⟩
    rw [(run.balance driven slot).mem_iff]
    exact List.mem_append_left _ (List.mem_append_left _ mem_returned)
  · intro slot r there
    refine run.brought_eq_singleton ?_
    rw [(run.balance driven slot).mem_iff, there]
    exact List.mem_append_right _ (List.mem_singleton_self r)

/-- One result is returned, one is discarded with its slot, one lies unread and one comes late. -/
theorem Run.exact_delivery_of_four_results :
    let ops : List (Op String) := [.register, .register, .register, .fulfill 1 "returned",
      .beginWait ⟨1, 0⟩, .look ⟨1, 0⟩ false, .fulfill 2 "dropped", .drop ⟨2, 1⟩,
      .fulfill 3 "unread", .fulfill 2 "late"]
    let trace := (Table.empty 3 : Table String).moments ops
    let table := (Table.empty 3 : Table String).performAll ops
    Run 3 trace table ∧ Driven trace ∧ ExactDelivery trace table ∧
      returned trace ⟨1, 0⟩ = ["returned"] ∧ discarded trace ⟨2, 1⟩ = ["dropped"] ∧
      table.unread? ⟨3, 2⟩ = some "unread" := by
  intro ops trace table
  have run : Run 3 trace table := Run.start.performAll ops (by decide)
  have driven : Driven trace := by
    simp [Driven, BrokenOff, trace, ops, Table.moments]
  exact ⟨run, driven, run.exact_delivery driven, by decide, by decide, by decide⟩

end Farcall
