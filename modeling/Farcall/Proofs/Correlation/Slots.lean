import Farcall.Proofs.Correlation.Leaks

set_option autoImplicit false

/-!
# What a slot does to a table

A slot reaches its own entry and its own box, and nothing else. So whatever is done by one slot, one
operation after the other (`Works`), leaves the registrations of all others as they are (`Within`),
and slots that exist are told apart by their generations.
-/

namespace Farcall

variable {ρ : Type}

def Op.slot? : Op ρ → Option Slot
  | register | fulfill _ _ | fail _ _ | failAll _ | proceedAsync _ => none
  | beginWait slot | look slot _ | breakOff slot | lookOrProceed slot _ | letGo slot
  | cancel slot | discard slot | drop slot => some slot

namespace Table

variable {table : Table ρ} {slot : Slot} {op : Op ρ}

theorem hasSlot_of_slot (by_slot : op.slot? = some slot) (allowed : table.Allowed op) :
    table.HasSlot slot := by
  cases op with
  | look own late =>
    obtain rfl := Option.some.inj by_slot
    exact ⟨_, allowed⟩
  | breakOff own =>
    obtain rfl := Option.some.inj by_slot
    exact ⟨_, allowed⟩
  | beginWait own | lookOrProceed own | letGo own | cancel own | discard own | drop own =>
    obtain rfl := Option.some.inj by_slot
    exact holder_of_idle allowed
  | _ => cases by_slot

theorem eq_of_generation {other : Slot} (known : table.HasSlot slot) (known' : table.HasSlot other)
    (same : slot.generation = other.generation) : slot = other := by
  obtain ⟨hold, held⟩ := known
  obtain ⟨hold', held'⟩ := known'
  obtain ⟨box, found, id, -⟩ := box_of_holder held
  obtain ⟨box', found', id', -⟩ := box_of_holder held'
  rw [box?, same] at found
  rw [box?, found] at found'
  cases slot
  cases other
  rw [Option.some.inj found', id'] at id
  exact congr (congrArg Slot.mk id.symm) same

theorem Coupled.generation_lt (c : table.Coupled) (known : table.HasSlot slot) :
    slot.generation < table.nextGeneration := by
  obtain ⟨hold, held⟩ := known
  obtain ⟨box, found, -⟩ := box_of_holder held
  exact c.known _ box found

/-! ## One registration and the others -/

/-- The tables differ in one registration at most. -/
structure Within (g : Nat) (before after : Table ρ) : Prop where
  entries : ∀ (id : UInt16) entry, entry.generation ≠ g →
    (after.entries[id]? = some entry ↔ before.entries[id]? = some entry)
  boxes : ∀ k : Nat, k ≠ g → after.boxes[k]? = before.boxes[k]?

theorem Within.refl (g : Nat) (table : Table ρ) : Within g table table :=
  ⟨fun _ _ _ => Iff.rfl, fun _ _ => rfl⟩

theorem Within.trans {g : Nat} {before after : Table ρ} (h : Within g before table)
    (h' : Within g table after) : Within g before after :=
  ⟨fun id entry other => (h'.entries id entry other).trans (h.entries id entry other),
    fun k other => (h'.boxes k other).trans (h.boxes k other)⟩

theorem within_without {id : UInt16} {entry : Entry} (found : table.entries[id]? = some entry) :
    Within entry.generation table (table.without id) := by
  refine ⟨?_, fun _ _ => rfl⟩
  intro k e other
  rw [without_entry]
  split
  · next same =>
    rw [← same, found]
    constructor
    · intro absent
      cases absent
    · intro own
      exact absurd (congrArg Entry.generation (Option.some.inj own)).symm other
  · exact Iff.rfl

theorem within_modify (table : Table ρ) (g : Nat) (f : Box ρ → Box ρ) :
    Within g table { table with boxes := table.boxes.modify g f } := by
  refine ⟨fun _ _ _ => Iff.rfl, ?_⟩
  intro k other
  rw [modify_box, if_neg (Ne.symm other)]

theorem within_closeBox (table : Table ρ) (slot : Slot) :
    Within slot.generation table (table.closeBox slot) := by
  refine ⟨fun _ _ _ => Iff.rfl, ?_⟩
  intro k other
  rw [closeBox_box, if_neg (Ne.symm other)]

theorem within_count (g : Nat) (table : Table ρ) (f : Stats → Stats) :
    Within g table (table.count f) :=
  ⟨fun _ _ _ => Iff.rfl, fun _ _ => rfl⟩

theorem within_deliver (table : Table ρ) (g : Nat) (d : Delivery ρ) :
    Within g table (table.deliver g d).2 := by
  refine ⟨?_, ?_⟩
  · intro id entry _
    rw [deliver_eq]
  · intro k other
    rw [deliver_box, if_neg (Ne.symm other)]

theorem within_owned (owned : table.owns slot = true) :
    Within slot.generation table (table.without slot.id) := by
  obtain ⟨entry, found, own⟩ := owns_iff.mp owned
  exact own ▸ within_without found

theorem within_givenUp (owned : table.owns slot = true) :
    Within slot.generation table (table.givenUp slot) := by
  obtain ⟨entry, found, own⟩ := owns_iff.mp owned
  refine ⟨?_, ?_⟩
  · intro k e other
    rw [givenUp_entry]
    split
    · next same =>
      rw [← same, found]
      constructor
      · intro marked
        exact absurd (congrArg Entry.generation (Option.some.inj marked)).symm other
      · intro live
        exact absurd ((congrArg Entry.generation (Option.some.inj live)).symm.trans own) other
    · exact Iff.rfl
  · intro k other
    rw [givenUp_box, if_neg (Ne.symm other)]

theorem within_enter {id : UInt16} (free : table.entries[id]? = none) :
    Within table.nextGeneration table (table.enter id).2 := by
  refine ⟨?_, ?_⟩
  · intro k e other
    rw [enter_entry]
    split
    · next same =>
      rw [← same, free]
      constructor
      · intro new
        exact absurd (congrArg Entry.generation (Option.some.inj new)).symm other
      · intro absent
        cases absent
    · exact Iff.rfl
  · intro k other
    rw [enter_box, if_neg (Ne.symm other)]

theorem within_expire (table : Table ρ) (slot : Slot) :
    Within slot.generation table (table.expire slot).2 := by
  have spent : Within slot.generation table (table.spend slot) := within_modify table _ _
  cases owned : table.owns slot with
  | false =>
    rw [expire_of_not_owns owned]
    exact spent
  | true =>
    have still : (table.spend slot).owns slot = true := owned
    rw [expire_of_owns owned]
    dsimp only
    exact (spent.trans (within_owned still)).trans (within_count _ _ _)

theorem within_lookOn (table : Table ρ) (slot : Slot) (late : Bool) :
    Within slot.generation table (table.lookOn slot late).2 := by
  cases arrived : table.arrival? slot with
  | some d =>
    rw [lookOn_of_some (claim_of_arrived arrived)]
    exact within_modify table _ _
  | none =>
    cases owned : table.owns slot with
    | false =>
      rw [lookOn_of_some (claim_of_severed arrived owned)]
      exact within_modify table _ _
    | true =>
      rw [lookOn_of_none (claim_of_empty arrived owned)]
      cases late with
      | false => exact .refl _ table
      | true => exact within_expire table slot

theorem within_useSignal (table : Table ρ) (slot : Slot) :
    Within slot.generation table (table.useSignal slot).2 := by
  rcases table.useSignal_cases slot with ⟨-, same⟩ | ⟨stored, -, same⟩
  · rw [same]
    exact .refl _ table
  · rw [same]
    exact within_modify table _ _

theorem within_beginWait (table : Table ρ) (slot : Slot) :
    Within slot.generation table (table.perform (.beginWait slot)).2 := by
  cases claimed : table.claimed slot with
  | true =>
    simp only [perform, beginWait, claimed, ↓reduceIte]
    exact .refl _ table
  | false =>
    simp only [perform, beginWait, claimed, Bool.false_eq_true, ↓reduceIte]
    exact within_modify table _ _

theorem within_discard (table : Table ρ) (slot : Slot) :
    Within slot.generation table (table.discard slot).2 := by
  cases owned : table.owns slot with
  | true =>
    rw [discard_of_owns owned]
    exact within_givenUp owned
  | false =>
    cases unread : table.unread slot with
    | none =>
      rw [discard_of_read owned unread]
      exact within_closeBox table slot
    | some d =>
      rw [discard_of_unread owned unread]
      dsimp only
      exact (within_closeBox table slot).trans (within_count _ _ _)

theorem within_drop (table : Table ρ) (slot : Slot) :
    Within slot.generation table (table.drop slot).2 := by
  unfold drop
  split
  · exact within_closeBox table slot
  · refine Within.trans ?_ (within_closeBox _ slot)
    cases owned : table.owns slot with
    | true =>
      rw [abandon_of_owns owned]
      exact within_owned owned
    | false =>
      rw [abandon_of_not_owns owned]
      exact .refl _ table

theorem within_cancel (table : Table ρ) (slot : Slot) :
    Within slot.generation table (table.cancel slot).2 := by
  cases owned : table.owns slot with
  | false =>
    rw [cancel_of_not_owns owned]
    exact .refl _ table
  | true =>
    rw [cancel_of_owns owned]
    dsimp only
    exact ((within_owned owned).trans (within_deliver _ _ _)).trans (within_count _ _ _)

/-- A slot reaches no registration but its own. -/
theorem within_perform (by_slot : op.slot? = some slot) :
    Within slot.generation table (table.perform op).2 := by
  cases op with
  | beginWait own =>
    obtain rfl := Option.some.inj by_slot
    exact within_beginWait table own
  | look own late =>
    obtain rfl := Option.some.inj by_slot
    exact within_lookOn table own late
  | breakOff own =>
    obtain rfl := Option.some.inj by_slot
    exact within_modify table _ _
  | lookOrProceed own late =>
    obtain rfl := Option.some.inj by_slot
    rcases lookOrProceed_cases table own late with ⟨-, same⟩ | ⟨-, same⟩ | ⟨-, -, same⟩
    · rw [perform, same]
      exact .refl _ table
    · rw [perform, same]
      exact (within_modify table _ _).trans (within_lookOn _ own late)
    · rw [perform, same]
      exact (within_modify table _ _).trans (within_useSignal _ own)
  | letGo own =>
    obtain rfl := Option.some.inj by_slot
    exact within_modify table _ _
  | cancel own =>
    obtain rfl := Option.some.inj by_slot
    exact within_cancel table own
  | discard own =>
    obtain rfl := Option.some.inj by_slot
    exact within_discard table own
  | drop own =>
    obtain rfl := Option.some.inj by_slot
    exact within_drop table own
  | _ => cases by_slot

/-! ## Who holds what -/

theorem holder_congr {after : Table ρ} {k : Slot}
    (same : after.boxes[k.generation]? = table.boxes[k.generation]?) :
    after.holder? k = table.holder? k := by
  rw [holder?, holder?, box?, box?, same]

theorem holder_of_modify {after : Table ρ} {g : Nat} (f : Box ρ → Box ρ)
    (boxes : ∀ k : Nat,
      after.boxes[k]? = if g = k then (table.boxes[k]?).map f else table.boxes[k]?)
    (same : ∀ box, (f box).id = box.id ∧ (f box).hold = box.hold) (k : Slot) :
    after.holder? k = table.holder? k := by
  by_cases own : g = k.generation
  · rw [holder?, holder?, box?, box?, boxes, if_pos own]
    cases table.boxes[k.generation]? with
    | none => rfl
    | some box => simp only [Option.map_some, (same box).1, (same box).2]
  · refine holder_congr ?_
    rw [boxes, if_neg own]

theorem holder_deliver (table : Table ρ) (g : Nat) (d : Delivery ρ) (k : Slot) :
    (table.deliver g d).2.holder? k = table.holder? k := by
  refine holder_of_modify (Box.accept d) (fun k => deliver_box table g k d) ?_ k
  intro box
  unfold Box.accept
  split <;> exact ⟨rfl, rfl⟩

theorem holder_fulfill (table : Table ρ) (id : UInt16) (r : ρ) (k : Slot) :
    (table.fulfill id r).2.holder? k = table.holder? k := by
  cases found : table.entries[id]? with
  | none =>
    rw [fulfill_of_none found]
    rfl
  | some entry =>
    cases marked : entry.discard with
    | true =>
      rw [fulfill_of_marked found marked]
      rfl
    | false =>
      rw [fulfill_of_live found marked]
      exact holder_deliver _ _ _ k

theorem holder_fail (table : Table ρ) (id : UInt16) (e : InvocationError) (k : Slot) :
    (table.fail id e).2.holder? k = table.holder? k := by
  cases found : table.entries[id]? with
  | none =>
    rw [fail_of_none found]
    rfl
  | some entry =>
    rw [fail_of_some found]
    exact holder_deliver _ _ _ k

theorem holder_failAll (table : Table ρ) (reason : String) (k : Slot) :
    (table.failAll reason).2.holder? k = table.holder? k := by
  refine failAll_keeps (fun after => after.holder? k = table.holder? k) reason rfl ?_
  intro after id same
  cases found : after.entries[id]? with
  | none => rwa [sever_of_none found]
  | some entry =>
    rw [sever_of_some found, holder_deliver]
    exact same

theorem holder_proceedAsync (table : Table ρ) (id : UInt16) (k : Slot) :
    (table.proceedAsync id).2.holder? k = table.holder? k := by
  cases found : table.entries[id]? with
  | none =>
    rw [proceedAsync_of_none found]
    rfl
  | some entry =>
    rw [proceedAsync_of_some found]
    exact holder_resignal table _ _ k

theorem holder_enter (c : table.Coupled) (id : UInt16) {k : Slot} (known : table.HasSlot k) :
    (table.enter id).2.holder? k = table.holder? k := by
  have old := c.generation_lt known
  refine holder_congr ?_
  rw [enter_box, if_neg (Nat.ne_of_gt old)]

theorem holder_register (c : table.Coupled) {k : Slot} (known : table.HasSlot k) :
    table.register.2.holder? k = table.holder? k := by
  unfold register
  split
  · rfl
  · split
    · rfl
    · exact holder_enter c _ known

theorem holder_perform (c : table.Coupled) (allowed : table.Allowed op) {k : Slot}
    (known : table.HasSlot k) (other : op.slot? ≠ some k) :
    (table.perform op).2.holder? k = table.holder? k := by
  cases by_slot : op.slot? with
  | some own =>
    have apart : k.generation ≠ own.generation := by
      intro same
      rw [by_slot, eq_of_generation known (hasSlot_of_slot by_slot allowed) same] at other
      exact other rfl
    exact holder_congr ((within_perform by_slot).boxes _ apart)
  | none =>
    cases op with
    | register => exact holder_register c known
    | fulfill id r => exact holder_fulfill table id r k
    | fail id e => exact holder_fail table id e k
    | failAll reason => exact holder_failAll table reason k
    | proceedAsync id => exact holder_proceedAsync table id k
    | _ => cases by_slot

/-! ## What stays as it is -/

theorem register_cases (table : Table ρ) :
    (∃ e, table.register = (.error e, table)) ∨ ∃ id, table.entries[id]? = none ∧
      table.register = (.ok (table.enter id).1, (table.enter id).2) := by
  unfold register
  split
  · exact .inl ⟨_, rfl⟩
  · cases found : freeId table.entries idCount table.nextId with
    | none => exact .inl ⟨_, rfl⟩
    | some id => exact .inr ⟨id, freeId_eq_some found, rfl⟩

theorem register_of_ok {id : UInt16} (registered : table.register.1 = .ok (table.enter id).1) :
    table.register.2 = (table.enter id).2 ∧ table.entries[id]? = none := by
  rcases register_cases table with ⟨e, refused⟩ | ⟨given, free, entered⟩
  · rw [refused] at registered
    cases registered
  · rw [entered] at registered ⊢
    obtain rfl : given = id := congrArg Slot.id (Except.ok.inj registered)
    exact ⟨rfl, free⟩

theorem holder_enter_self (table : Table ρ) (id : UInt16) :
    (table.enter id).2.holder? (table.enter id).1 = some .slot := by
  have box : (table.enter id).2.boxes[table.nextGeneration]? = some ⟨id, none, .idle false, .slot⟩ := by
    rw [enter_box, if_pos rfl]
  simp only [holder?, box?, enter] at box ⊢
  simp only [box, ↓reduceIte]

theorem next_lookOn (table : Table ρ) (slot : Slot) (late : Bool) :
    (table.lookOn slot late).2.nextGeneration = table.nextGeneration := by
  cases arrived : table.arrival? slot with
  | some d =>
    rw [lookOn_of_some (claim_of_arrived arrived)]
    rfl
  | none =>
    cases owned : table.owns slot with
    | false =>
      rw [lookOn_of_some (claim_of_severed arrived owned)]
      rfl
    | true =>
      rw [lookOn_of_none (claim_of_empty arrived owned)]
      cases late with
      | false => rfl
      | true =>
        simp only [giveUp, ↓reduceIte, expire_of_owns owned]
        rfl

theorem next_useSignal (table : Table ρ) (slot : Slot) :
    (table.useSignal slot).2.nextGeneration = table.nextGeneration := by
  rcases table.useSignal_cases slot with ⟨-, same⟩ | ⟨stored, -, same⟩
  · rw [same]
  · rw [same]
    rfl

theorem next_perform (by_slot : op.slot? = some slot) :
    (table.perform op).2.nextGeneration = table.nextGeneration := by
  cases op with
  | beginWait own =>
    cases claimed : table.claimed own <;> simp [perform, beginWait, claimed, setHold]
  | look own late => exact next_lookOn table own late
  | breakOff own => rfl
  | lookOrProceed own late =>
    rcases lookOrProceed_cases table own late with ⟨-, same⟩ | ⟨-, same⟩ | ⟨-, -, same⟩
    · rw [perform, same]
    · rw [perform, same]
      exact next_lookOn _ own late
    · rw [perform, same]
      exact next_useSignal _ own
  | letGo own => rfl
  | cancel own =>
    cases owned : table.owns own with
    | false => rw [perform, cancel_of_not_owns owned]
    | true =>
      rw [perform, cancel_of_owns owned, deliver_eq]
      rfl
  | discard own =>
    cases owned : table.owns own with
    | true =>
      rw [perform, discard_of_owns owned]
      rfl
    | false =>
      cases unread : table.unread own with
      | none =>
        rw [perform, discard_of_read owned unread]
        rfl
      | some d =>
        rw [perform, discard_of_unread owned unread]
        rfl
  | drop own =>
    rw [perform, drop]
    split
    · rfl
    · cases owned : table.owns own with
      | true =>
        rw [abandon_of_owns owned]
        rfl
      | false =>
        rw [abandon_of_not_owns owned]
        rfl
  | _ => cases by_slot

/-! ## Works -/

/-- Operations of one slot, one after the other. -/
inductive Works (slot : Slot) (before : Table ρ) : Table ρ → Prop where
  | refl : Works slot before before
  | step {table : Table ρ} {op : Op ρ} (earlier : Works slot before table)
      (by_slot : op.slot? = some slot) (allowed : table.Allowed op) :
      Works slot before (table.perform op).2

theorem Works.trans {before after : Table ρ} (h : Works slot before table)
    (h' : Works slot table after) : Works slot before after := by
  induction h' with
  | refl => exact h
  | step _ by_slot allowed ih => exact .step ih by_slot allowed

theorem Works.within {before : Table ρ} (h : Works slot before table) :
    Within slot.generation before table := by
  induction h with
  | refl => exact .refl _ _
  | step _ by_slot _ ih => exact ih.trans (within_perform by_slot)

theorem Works.next {before : Table ρ} (h : Works slot before table) :
    table.nextGeneration = before.nextGeneration := by
  induction h with
  | refl => rfl
  | step _ by_slot _ ih => exact (next_perform by_slot).trans ih

theorem Works.run {before : Table ρ} (h : Works slot before table) {limit : Nat}
    {trace : List (Moment ρ)} (run : Run limit trace before) : ∃ trace, Run limit trace table := by
  induction h with
  | refl => exact ⟨trace, run⟩
  | step _ _ allowed ih =>
    obtain ⟨longer, run⟩ := ih
    exact ⟨_, run.step allowed⟩

theorem Works.sound {before : Table ρ} (h : Works slot before table) (sound : before.Sound) :
    table.Sound := by
  induction h with
  | refl => exact sound
  | step _ _ allowed ih => exact ih.perform allowed

theorem Works.elder {before : Table ρ} (h : Works slot before table) : Elder before table := by
  induction h with
  | refl => exact .refl before
  | step _ _ allowed ih => exact ih.trans (elder_perform allowed)

theorem Works.holder {before : Table ρ} (h : Works slot before table) {k : Slot}
    (apart : k.generation ≠ slot.generation) : table.holder? k = before.holder? k :=
  holder_congr (h.within.boxes _ apart)

/-- No wait on the slot is under way, and it has no entry any more once its result was read. -/
def Kept (table : Table ρ) (slot : Slot) : Prop :=
  table.holder? slot = some .slot ∨
    table.holder? slot = some .gone ∧ ¬ table.HasEntry slot.generation

theorem Kept.idle (kept : table.Kept slot) : table.Idle slot := kept.imp_right And.left

/-! ## How a wait ends -/

theorem not_hasEntry_of_not_owns (c : table.Coupled) {hold : Hold}
    (held : table.holder? slot = some hold) (lost : table.owns slot = false) :
    ¬ table.HasEntry slot.generation := by
  rw [c.hasEntry_iff held, lost]
  exact Bool.false_ne_true

theorem holder_spend {hold : Hold} (held : table.holder? slot = some hold) :
    (table.spend slot).holder? slot = some .gone := by
  obtain ⟨box, found, same, -⟩ := box_of_holder held
  rw [box?] at found
  rw [holder?, box?, spend_box, if_pos rfl, found]
  simp only [Option.map_some, same, ↓reduceIte]

theorem beginWait_of_held (held : table.holder? slot = some .slot) :
    table.beginWait slot = (.ok (), table.setHold slot .wait) ∧
      (table.setHold slot .wait).holder? slot = some .wait := by
  obtain ⟨box, found, same, -⟩ := box_of_holder held
  refine ⟨?_, ?_⟩
  · rw [beginWait, unclaimed_of_held held]
    rfl
  · rw [box?] at found
    rw [holder?, box?, setHold, modify_box, if_pos rfl, found]
    simp only [Option.map_some, same, ↓reduceIte]

theorem beginWait_of_gone (gone : table.holder? slot = some .gone) :
    table.beginWait slot = (.error (.correlation (.alreadyClaimed slot.id)), table) := by
  rw [beginWait, claimed_of_gone gone]
  rfl

theorem claimOrProceed_of_some {after : Table ρ} {result : Except InvocationError ρ}
    (found : (table.attend slot).claim slot = (some result, after)) :
    table.claimOrProceed slot = (some (result.map .ready), after) := by
  cases result <;> simp only [claimOrProceed, found, Except.map]

theorem claimOrProceed_of_arrived {d : Delivery ρ} (arrived : table.arrival? slot = some d) :
    table.claimOrProceed slot =
      (some (d.toExcept.map .ready), (table.attend slot).spend slot) :=
  claimOrProceed_of_some (claim_of_arrived ((arrival_attend table slot slot).trans arrived))

theorem claimOrProceed_of_signal {after proceeded : Table ρ}
    (empty : (table.attend slot).claim slot = (none, after))
    (signal : after.useSignal slot = (true, proceeded)) :
    table.claimOrProceed slot = (some (.ok .proceedAsync), proceeded) := by
  simp only [claimOrProceed, empty, signal]

theorem claimOrProceed_of_none {after quiet : Table ρ}
    (empty : (table.attend slot).claim slot = (none, after))
    (signal : after.useSignal slot = (false, quiet)) :
    table.claimOrProceed slot = (none, quiet) := by
  simp only [claimOrProceed, empty, signal]

theorem holder_useSignal (table : Table ρ) (slot k : Slot) :
    (table.useSignal slot).2.holder? k = table.holder? k := by
  rcases table.useSignal_cases slot with ⟨-, same⟩ | ⟨stored, -, same⟩
  · rw [same]
  · rw [same]
    exact holder_resignal table _ _ k

theorem ended_of_claim (c : table.Coupled) {hold : Hold} (held : table.holder? slot = some hold)
    {result : Except InvocationError ρ} {after : Table ρ}
    (found : table.claim slot = (some result, after)) :
    ¬ after.HasEntry slot.generation ∧ after.holder? slot = some .gone := by
  cases arrived : table.arrival? slot with
  | some d =>
    have lost := c.not_owns_of_arrival (by rw [arrived]; exact Option.some_ne_none d)
    rw [claim_of_arrived arrived] at found
    have gone := not_hasEntry_of_not_owns c held lost
    rw [← (Prod.mk.inj found).2]
    exact ⟨gone, holder_spend held⟩
  | none =>
    cases owned : table.owns slot with
    | true =>
      rw [claim_of_empty arrived owned] at found
      cases (Prod.mk.inj found).1
    | false =>
      rw [claim_of_severed arrived owned] at found
      have gone := not_hasEntry_of_not_owns c held owned
      rw [← (Prod.mk.inj found).2]
      exact ⟨gone, holder_spend held⟩

theorem ended_of_expire (c : table.Coupled) {hold : Hold} (held : table.holder? slot = some hold) :
    ¬ (table.expire slot).2.HasEntry slot.generation ∧
      (table.expire slot).2.holder? slot = some .gone := by
  cases owned : table.owns slot with
  | false =>
    have gone := not_hasEntry_of_not_owns c held owned
    rw [expire_of_not_owns owned]
    exact ⟨gone, holder_spend held⟩
  | true =>
    rw [expire_of_owns owned]
    refine ⟨?_, holder_spend held⟩
    rintro ⟨id, entry, found, own⟩
    change ((table.spend slot).without slot.id).entries[id]? = some entry at found
    rw [without_entry, spend_entries] at found
    split at found
    · cases found
    · next other => exact other (c.owns_of_entry held found own).1.symm

theorem not_hasEntry_perform (op : Op ρ) (allowed : table.Allowed op) {g : Nat}
    (old : g < table.nextGeneration) (gone : ¬ table.HasEntry g) :
    ¬ (table.perform op).2.HasEntry g :=
  fun stands => gone ((elder_perform allowed).entries g old stands)

end Table

end Farcall
