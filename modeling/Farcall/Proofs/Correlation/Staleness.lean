import Farcall.Proofs.Correlation.Custody
import Farcall.Proofs.Correlation.Reuse
import Farcall.Proofs.Correlation.Slots

set_option autoImplicit false

/-!
# Stale slots

The id of a slot may be granted again while the slot still exists. Whatever the slot does then goes
by its generation, so it finds no entry and does nothing but read or throw away what lies in its own
box. Seen from everybody else it might as well not have been there: its operations can be struck out
of what is done to the table, and all others give what they gave.
-/

namespace Farcall

variable {ρ : Type}

/-- A slot is given up while its delivery lies unread. -/
def Moment.throws (moment : Moment ρ) : Bool :=
  match moment.op with
  | .discard slot => (moment.before.unread slot).isSome
  | _ => false

namespace Table

/-- The tables differ in the box of one generation at most, and in how many deliveries were thrown
away. -/
structure AlikeBut (g thrown : Nat) (table other : Table ρ) : Prop where
  entries : other.entries = table.entries
  boxes : ∀ k : Nat, k ≠ g → other.boxes[k]? = table.boxes[k]?
  nextId : other.nextId = table.nextId
  nextGeneration : other.nextGeneration = table.nextGeneration
  outstanding : other.outstanding = table.outstanding
  limit : other.limit = table.limit
  stats : other.stats = { table.stats with discarded := table.stats.discarded + thrown }

/-- What may become of the box of a stale slot: it is left as it is, emptied, or let go. The signals
stay, be a wait that minds them under way or not. -/
inductive BoxRead (before : Option (Box ρ)) : Option (Box ρ) → Prop where
  | closed : BoxRead before none
  | open {old new : Box ρ} (found : before = some old) (id : new.id = old.id)
      (signals : new.signals.leave = old.signals.leave)
      (arrived : new.arrived = old.arrived ∨ new.arrived = none) : BoxRead before (some new)

end Table

/-- An operation of a slot touches nothing but the slot's own delivery. -/
structure Moment.Harmless (slot : Slot) (moment : Moment ρ) : Prop where
  alike : moment.before.AlikeBut slot.generation moment.throws.toNat moment.after
  box : Table.BoxRead moment.before.boxes[slot.generation]? moment.after.boxes[slot.generation]?
  own : moment.effect.released = [] ∨
    moment.effect.released = (moment.before.unread? slot).toList

namespace Table

variable {table other : Table ρ} {slot : Slot} {g n : Nat}

/-! ## What a stale slot does -/

theorem AlikeBut.refl (g : Nat) (table : Table ρ) : AlikeBut g 0 table table :=
  ⟨rfl, fun _ _ => rfl, rfl, rfl, rfl, rfl, rfl⟩

theorem AlikeBut.trans {m : Nat} {after : Table ρ} (h : AlikeBut g n table other)
    (h' : AlikeBut g m other after) : AlikeBut g (n + m) table after := by
  refine ⟨h'.entries.trans h.entries, ?_, h'.nextId.trans h.nextId,
    h'.nextGeneration.trans h.nextGeneration, h'.outstanding.trans h.outstanding,
    h'.limit.trans h.limit, ?_⟩
  · intro k apart
    rw [h'.boxes k apart, h.boxes k apart]
  · rw [h'.stats, h.stats, Nat.add_assoc]

theorem AlikeBut.modify_self (table : Table ρ) (g : Nat) (f : Box ρ → Box ρ) :
    AlikeBut g 0 table { table with boxes := table.boxes.modify g f } := by
  refine ⟨rfl, ?_, rfl, rfl, rfl, rfl, rfl⟩
  intro k apart
  rw [modify_box, if_neg (Ne.symm apart)]

theorem AlikeBut.closeBox_self (table : Table ρ) (slot : Slot) :
    AlikeBut slot.generation 0 table (table.closeBox slot) := by
  refine ⟨rfl, ?_, rfl, rfl, rfl, rfl, rfl⟩
  intro k apart
  rw [closeBox_box, if_neg (Ne.symm apart)]

theorem BoxRead.refl (box : Option (Box ρ)) : BoxRead box box := by
  cases box with
  | none => exact .closed
  | some box => exact .open rfl rfl rfl (.inl rfl)

theorem BoxRead.modify (table : Table ρ) (slot : Slot) {f : Box ρ → Box ρ}
    (kept : ∀ box, (f box).id = box.id ∧ (f box).signals.leave = box.signals.leave ∧
      ((f box).arrived = box.arrived ∨ (f box).arrived = none)) :
    BoxRead table.boxes[slot.generation]? (table.boxes.modify slot.generation f)[slot.generation]? := by
  rw [modify_box, if_pos rfl]
  cases found : table.boxes[slot.generation]? with
  | none => exact .closed
  | some box => exact .open rfl (kept box).1 (kept box).2.1 (kept box).2.2

theorem BoxRead.trans {before between after : Option (Box ρ)} (h : BoxRead before between)
    (h' : BoxRead between after) : BoxRead before after := by
  cases h' with
  | closed => exact .closed
  | @«open» old new found id signals arrived =>
    cases h with
    | closed => cases found
    | «open» found' id' signals' arrived' =>
      obtain rfl := Option.some.inj found
      refine .open found' (id.trans id') (signals.trans signals') ?_
      rcases arrived with same | gone
      · rwa [same]
      · exact .inr gone

theorem BoxRead.closeBox (table : Table ρ) (slot : Slot) :
    BoxRead table.boxes[slot.generation]? (table.closeBox slot).boxes[slot.generation]? := by
  rw [closeBox_box, if_pos rfl]
  exact .closed

theorem harmless_of_answer {op : Op ρ} (slot : Slot) (answer : Answer ρ)
    (given : table.perform op = (⟨answer, none, none⟩, table))
    (nothing : Effect.returned (⟨answer, none, none⟩ : Effect ρ) = none)
    (counts : Moment.throws ⟨table, op⟩ = false) : Moment.Harmless slot ⟨table, op⟩ := by
  refine ⟨?_, ?_, .inl ?_⟩
  · rw [counts, Moment.after, given]
    exact .refl _ table
  · rw [Moment.after, given]
    exact .refl _
  · rw [Moment.effect, given, Effect.released, nothing]
    rfl

theorem harmless_beginWait (table : Table ρ) (slot : Slot) :
    Moment.Harmless slot ⟨table, .beginWait slot⟩ := by
  cases claimed : table.claimed slot with
  | true =>
    refine harmless_of_answer slot (.ended (.error (.correlation (.alreadyClaimed slot.id)))) ?_
      rfl rfl
    simp only [perform, beginWait, claimed, ↓reduceIte]
  | false =>
    have given : table.perform (.beginWait slot) =
        (⟨.waits, none, none⟩, table.setHold slot .wait) := by
      simp only [perform, beginWait, claimed, Bool.false_eq_true, ↓reduceIte]
    refine ⟨?_, ?_, .inl ?_⟩
    · rw [Moment.after, given]
      exact .modify_self table _ _
    · rw [Moment.after, given]
      exact .modify table slot fun _ => ⟨rfl, rfl, .inl rfl⟩
    · rw [Moment.effect, given]
      rfl

theorem lookOn_of_stale (stale : table.owns slot = false) (late : Bool) :
    table.lookOn slot late = (⟨.ended (((table.arrival? slot).elim (.error severedError)
      Delivery.toExcept).map .ready), none, none⟩, table.spend slot) := by
  cases arrived : table.arrival? slot with
  | some d => exact lookOn_of_some (claim_of_arrived arrived) late
  | none => exact lookOn_of_some (claim_of_severed arrived stale) late

theorem harmless_spend (table : Table ρ) (slot : Slot) :
    AlikeBut slot.generation 0 table (table.spend slot) ∧
      BoxRead table.boxes[slot.generation]? (table.spend slot).boxes[slot.generation]? :=
  ⟨.modify_self table _ _, .modify table slot fun box => ⟨rfl, box.signals.leave_leave, .inr rfl⟩⟩

theorem harmless_attend (table : Table ρ) (slot : Slot) :
    AlikeBut slot.generation 0 table (table.attend slot) ∧
      BoxRead table.boxes[slot.generation]? (table.attend slot).boxes[slot.generation]? :=
  ⟨.modify_self table _ _, .modify table slot fun box => ⟨rfl, box.signals.leave_attend, .inl rfl⟩⟩

theorem harmless_look (late : Bool) {hold : Hold} (held : table.holder? slot = some hold)
    (stale : table.owns slot = false) : Moment.Harmless slot ⟨table, .look slot late⟩ := by
  have content := unread_of_arrival held
  have given : table.perform (.look slot late) = _ := lookOn_of_stale stale late
  have spent := harmless_spend table slot
  refine ⟨?_, ?_, .inr ?_⟩
  · rw [Moment.after, given]
    exact spent.1
  · rw [Moment.after, given]
    exact spent.2
  · rw [Moment.effect, given, content]
    cases table.arrival? slot with
    | none => rfl
    | some d => cases d <;> rfl

theorem harmless_breakOff {hold : Hold} (held : table.holder? slot = some hold) :
    Moment.Harmless slot ⟨table, .breakOff slot⟩ := by
  refine ⟨(harmless_spend table slot).1, (harmless_spend table slot).2, .inr ?_⟩
  rw [unread_of_arrival held]
  rfl

theorem harmless_lookOrProceed {hold : Hold} (held : table.holder? slot = some hold)
    (stale : table.owns slot = false) (late : Bool) :
    Moment.Harmless slot ⟨table, .lookOrProceed slot late⟩ := by
  cases claimed : table.claimed slot with
  | true => exact harmless_of_answer slot _ (lookOrProceed_of_claimed claimed late) rfl rfl
  | false =>
    -- a stale slot has an answer at once, so a signal is never used
    have attended := harmless_attend table slot
    have stale' : (table.attend slot).owns slot = false := stale
    obtain ⟨result, after, found⟩ :
        ∃ result after, (table.attend slot).claim slot = (some result, after) := by
      cases arrived : (table.attend slot).arrival? slot with
      | some d => exact ⟨_, _, claim_of_arrived arrived⟩
      | none => exact ⟨_, _, claim_of_severed arrived stale'⟩
    have looked := harmless_look late ((holder_attend table slot slot).trans held) stale'
    have given : table.perform (.lookOrProceed slot late) =
        (table.attend slot).perform (.look slot late) := by
      change table.lookOrProceed slot late = (table.attend slot).lookOn slot late
      rw [lookOrProceed_of_some claimed found, lookOn_of_some found]
    refine ⟨?_, ?_, ?_⟩
    · rw [Moment.after, given]
      exact attended.1.trans looked.alike
    · rw [Moment.after, given]
      exact attended.2.trans looked.box
    · have same : (table.attend slot).unread? slot = table.unread? slot :=
        unread_resignal table slot.generation .attend slot
      have own := looked.own
      rw [Moment.effect, same] at own
      rwa [Moment.effect, given]

theorem harmless_letGo (table : Table ρ) (slot : Slot) :
    Moment.Harmless slot ⟨table, .letGo slot⟩ :=
  ⟨.modify_self table _ _,
    .modify table slot fun box => ⟨rfl, box.signals.leave_leave, .inl rfl⟩, .inl rfl⟩

theorem harmless_discard (c : table.Coupled) (idle : table.Idle slot)
    (stale : table.owns slot = false) : Moment.Harmless slot ⟨table, .discard slot⟩ := by
  have content := discard_eq_unread c idle
  have closed := AlikeBut.closeBox_self table slot
  cases unread : table.unread slot with
  | none =>
    have given := discard_of_read stale unread
    refine ⟨?_, ?_, .inr ?_⟩
    · simp only [Moment.throws, unread, Moment.after, perform, given]
      exact closed
    · simp only [Moment.after, perform, given]
      exact .closeBox table slot
    · simp only [Moment.effect, perform, ← content]
      exact List.append_nil _
  | some d =>
    have given := discard_of_unread stale unread
    refine ⟨?_, ?_, .inr ?_⟩
    · simp only [Moment.throws, unread, Moment.after, perform, given]
      exact ⟨closed.entries, closed.boxes, rfl, rfl, rfl, rfl, rfl⟩
    · simp only [Moment.after, perform, given]
      exact .closeBox table slot
    · simp only [Moment.effect, perform, ← content]
      exact List.append_nil _

theorem harmless_drop (c : table.Coupled) (idle : table.Idle slot)
    (stale : table.owns slot = false) : Moment.Harmless slot ⟨table, .drop slot⟩ := by
  have content := drop_eq_unread c idle
  have given : (table.drop slot).2 = table.closeBox slot := by
    rcases idle with held | gone
    · rw [drop_of_held held, abandon_of_not_owns stale]
    · exact drop_of_gone gone
  refine ⟨?_, ?_, .inr ?_⟩
  · simp only [Moment.throws, Moment.after, perform, given]
    exact .closeBox_self table slot
  · simp only [Moment.after, perform, given]
    exact .closeBox table slot
  · simp only [Moment.effect, perform, ← content]
    exact List.append_nil _

/-- Whatever a slot without an entry does is harmless. -/
theorem harmless_of_stale (c : table.Coupled) {op : Op ρ} (by_slot : op.slot? = some slot)
    (allowed : table.Allowed op) (stale : table.owns slot = false) :
    Moment.Harmless slot ⟨table, op⟩ := by
  cases op with
  | beginWait own =>
    obtain rfl := Option.some.inj by_slot
    exact harmless_beginWait table own
  | look own late =>
    obtain rfl := Option.some.inj by_slot
    exact harmless_look late allowed stale
  | breakOff own =>
    obtain rfl := Option.some.inj by_slot
    exact harmless_breakOff allowed
  | lookOrProceed own late =>
    obtain rfl := Option.some.inj by_slot
    obtain ⟨hold, held⟩ := holder_of_idle allowed
    exact harmless_lookOrProceed held stale late
  | letGo own =>
    obtain rfl := Option.some.inj by_slot
    exact harmless_letGo table own
  | cancel own =>
    obtain rfl := Option.some.inj by_slot
    refine harmless_of_answer own (.found false) ?_ rfl rfl
    rw [perform, cancel_of_not_owns stale]
  | discard own =>
    obtain rfl := Option.some.inj by_slot
    exact harmless_discard c allowed stale
  | drop own =>
    obtain rfl := Option.some.inj by_slot
    exact harmless_drop c allowed stale
  | _ => cases by_slot

/-! ## What the others do -/

theorem AlikeBut.owns (h : AlikeBut g n table other) (k : Slot) : other.owns k = table.owns k := by
  rw [Table.owns, Table.owns, h.entries]

theorem AlikeBut.box (h : AlikeBut g n table other) {k : Slot} (apart : k.generation ≠ g) :
    other.box? k = table.box? k :=
  h.boxes k.generation apart

theorem AlikeBut.arrival (h : AlikeBut g n table other) {k : Slot} (apart : k.generation ≠ g) :
    other.arrival? k = table.arrival? k := by
  rw [arrival?, arrival?, h.box apart]

theorem AlikeBut.claimed (h : AlikeBut g n table other) {k : Slot} (apart : k.generation ≠ g) :
    other.claimed k = table.claimed k := by
  rw [Table.claimed, Table.claimed, h.box apart]

theorem AlikeBut.holder (h : AlikeBut g n table other) {k : Slot} (apart : k.generation ≠ g) :
    other.holder? k = table.holder? k := by
  rw [holder?, holder?, h.box apart]

theorem AlikeBut.unread (h : AlikeBut g n table other) {k : Slot} (apart : k.generation ≠ g) :
    other.unread k = table.unread k := by
  rw [Table.unread, Table.unread, h.box apart]

theorem AlikeBut.count (h : AlikeBut g n table other) (f : Stats → Stats)
    (apart : ∀ stats : Stats, f { stats with discarded := stats.discarded + n } =
      { f stats with discarded := (f stats).discarded + n }) :
    AlikeBut g n (table.count f) (other.count f) := by
  obtain ⟨entries, boxes, nextId, nextGeneration, outstanding, limit, stats⟩ := h
  refine ⟨entries, boxes, nextId, nextGeneration, outstanding, limit, ?_⟩
  change f other.stats = _
  rw [stats, apart]
  rfl

theorem AlikeBut.without (h : AlikeBut g n table other) (id : UInt16) :
    AlikeBut g n (table.without id) (other.without id) := by
  obtain ⟨entries, boxes, nextId, nextGeneration, outstanding, limit, stats⟩ := h
  refine ⟨?_, boxes, nextId, nextGeneration, ?_, limit, stats⟩
  · rw [Table.without, Table.without, entries]
  · rw [Table.without, Table.without, outstanding]

theorem AlikeBut.modify (h : AlikeBut g n table other) (k : Nat) (f : Box ρ → Box ρ) :
    AlikeBut g n { table with boxes := table.boxes.modify k f }
      { other with boxes := other.boxes.modify k f } := by
  obtain ⟨entries, boxes, nextId, nextGeneration, outstanding, limit, stats⟩ := h
  refine ⟨entries, ?_, nextId, nextGeneration, outstanding, limit, stats⟩
  intro j apart
  rw [modify_box, modify_box, boxes j apart]

theorem AlikeBut.deliver_behind (h : AlikeBut g n table other) (k : Nat) (d : Delivery ρ) :
    AlikeBut g n (table.deliver k d).2 (other.deliver k d).2 := by
  obtain ⟨entries, boxes, nextId, nextGeneration, outstanding, limit, stats⟩ := h
  rw [deliver_eq table, deliver_eq other]
  refine ⟨entries, ?_, nextId, nextGeneration, outstanding, limit, stats⟩
  intro j apart
  change (other.deliver k d).2.boxes[j]? = (table.deliver k d).2.boxes[j]?
  rw [deliver_box, deliver_box, boxes j apart]

theorem AlikeBut.deliver (h : AlikeBut g n table other) {k : Nat} (apart : k ≠ g)
    (d : Delivery ρ) : (other.deliver k d).1 = (table.deliver k d).1 ∧
      AlikeBut g n (table.deliver k d).2 (other.deliver k d).2 := by
  refine ⟨?_, h.deliver_behind k d⟩
  rw [deliver_rejected, deliver_rejected, h.boxes k apart]

theorem AlikeBut.enter (h : AlikeBut g n table other) (id : UInt16) :
    (other.enter id).1 = (table.enter id).1 ∧
      AlikeBut g n (table.enter id).2 (other.enter id).2 := by
  obtain ⟨entries, boxes, nextId, nextGeneration, outstanding, limit, stats⟩ := h
  refine ⟨by rw [Table.enter, Table.enter, nextGeneration], ?_⟩
  refine ⟨?_, ?_, rfl, ?_, ?_, limit, ?_⟩
  · simp only [Table.enter, entries, nextGeneration]
  · intro j apart
    rw [enter_box, enter_box, boxes j apart, nextGeneration]
  · simp only [Table.enter, nextGeneration]
  · simp only [Table.enter, outstanding]
  · simp only [Table.enter, stats]

theorem AlikeBut.closeBox (h : AlikeBut g n table other) (slot : Slot) :
    AlikeBut g n (table.closeBox slot) (other.closeBox slot) := by
  obtain ⟨entries, boxes, nextId, nextGeneration, outstanding, limit, stats⟩ := h
  refine ⟨entries, ?_, nextId, nextGeneration, outstanding, limit, stats⟩
  intro j apart
  rw [closeBox_box, closeBox_box, boxes j apart]

theorem AlikeBut.givenUp (h : AlikeBut g n table other) (slot : Slot) :
    AlikeBut g n (table.givenUp slot) (other.givenUp slot) := by
  obtain ⟨entries, boxes, nextId, nextGeneration, outstanding, limit, stats⟩ := h
  refine AlikeBut.closeBox ?_ slot
  refine ⟨?_, boxes, nextId, nextGeneration, outstanding, limit, stats⟩
  rw [entries]

theorem AlikeBut.register (h : AlikeBut g n table other) :
    other.register.1 = table.register.1 ∧ AlikeBut g n table.register.2 other.register.2 := by
  unfold Table.register
  rw [h.limit, h.outstanding, h.entries, h.nextId]
  split
  · exact ⟨rfl, h⟩
  · split
    · exact ⟨rfl, h⟩
    · next id found =>
      obtain ⟨same, alike⟩ := h.enter id
      exact ⟨congrArg Except.ok same, alike⟩

theorem AlikeBut.fulfill_behind (h : AlikeBut g n table other) (id : UInt16) (r : ρ) :
    AlikeBut g n (table.fulfill id r).2 (other.fulfill id r).2 := by
  cases found : table.entries[id]? with
  | none =>
    have found' : other.entries[id]? = none := by rw [h.entries, found]
    rw [fulfill_of_none found, fulfill_of_none found']
    dsimp only
    exact h.count _ fun _ => rfl
  | some entry =>
    have found' : other.entries[id]? = some entry := by rw [h.entries, found]
    cases marked : entry.discard with
    | true =>
      rw [fulfill_of_marked found marked, fulfill_of_marked found' marked]
      dsimp only
      exact (h.without id).count _ fun stats => by simp only [Nat.add_right_comm]
    | false =>
      rw [fulfill_of_live found marked, fulfill_of_live found' marked]
      dsimp only
      exact ((h.without id).deliver_behind _ _).count _ fun _ => rfl

theorem AlikeBut.fulfill (h : AlikeBut g n table other) (gone : ¬ table.HasEntry g) (id : UInt16)
    (r : ρ) : (other.fulfill id r).1 = (table.fulfill id r).1 ∧
      AlikeBut g n (table.fulfill id r).2 (other.fulfill id r).2 := by
  refine ⟨?_, h.fulfill_behind id r⟩
  cases found : table.entries[id]? with
  | none =>
    have found' : other.entries[id]? = none := by rw [h.entries, found]
    rw [fulfill_of_none found, fulfill_of_none found']
  | some entry =>
    have found' : other.entries[id]? = some entry := by rw [h.entries, found]
    have apart : entry.generation ≠ g := fun own => gone ⟨id, entry, found, own⟩
    cases marked : entry.discard with
    | true => rw [fulfill_of_marked found marked, fulfill_of_marked found' marked]
    | false =>
      rw [fulfill_of_live found marked, fulfill_of_live found' marked,
        ((h.without id).deliver apart (.result r)).1]

theorem AlikeBut.fail (h : AlikeBut g n table other) (id : UInt16) (e : InvocationError) :
    (other.fail id e).1 = (table.fail id e).1 ∧
      AlikeBut g n (table.fail id e).2 (other.fail id e).2 := by
  cases found : table.entries[id]? with
  | none =>
    have found' : other.entries[id]? = none := by rw [h.entries, found]
    rw [fail_of_none found, fail_of_none found']
    refine ⟨rfl, ?_⟩
    dsimp only
    exact h.count _ fun _ => rfl
  | some entry =>
    have found' : other.entries[id]? = some entry := by rw [h.entries, found]
    rw [fail_of_some found, fail_of_some found']
    refine ⟨rfl, ?_⟩
    dsimp only
    exact ((h.without id).deliver_behind _ _).count _ fun _ => rfl

theorem AlikeBut.sever (h : AlikeBut g n table other) (reason : String) (id : UInt16) :
    AlikeBut g n (sever reason table id) (sever reason other id) := by
  cases found : table.entries[id]? with
  | none =>
    have found' : other.entries[id]? = none := by rw [h.entries, found]
    rw [sever_of_none found, sever_of_none found']
    exact h
  | some entry =>
    have found' : other.entries[id]? = some entry := by rw [h.entries, found]
    rw [sever_of_some found, sever_of_some found']
    exact (h.without id).deliver_behind _ _

theorem AlikeBut.failAll (h : AlikeBut g n table other) (reason : String) :
    (other.failAll reason).1 = (table.failAll reason).1 ∧
      AlikeBut g n (table.failAll reason).2 (other.failAll reason).2 := by
  unfold Table.failAll
  rw [h.entries]
  refine ⟨rfl, ?_⟩
  generalize table.entries.keys = ids
  induction ids generalizing table other with
  | nil => exact h
  | cons id ids ih => exact ih (h.sever reason id)

theorem AlikeBut.proceedAsync (h : AlikeBut g n table other) (id : UInt16) :
    (other.proceedAsync id).1 = (table.proceedAsync id).1 ∧
      AlikeBut g n (table.proceedAsync id).2 (other.proceedAsync id).2 := by
  cases found : table.entries[id]? with
  | none =>
    have found' : other.entries[id]? = none := by rw [h.entries, found]
    rw [proceedAsync_of_none found, proceedAsync_of_none found']
    refine ⟨rfl, ?_⟩
    dsimp only
    exact h.count _ fun _ => rfl
  | some entry =>
    have found' : other.entries[id]? = some entry := by rw [h.entries, found]
    rw [proceedAsync_of_some found, proceedAsync_of_some found']
    exact ⟨rfl, h.modify entry.generation _⟩

theorem AlikeBut.beginWait (h : AlikeBut g n table other) {k : Slot} (apart : k.generation ≠ g) :
    (other.beginWait k).1 = (table.beginWait k).1 ∧
      AlikeBut g n (table.beginWait k).2 (other.beginWait k).2 := by
  unfold Table.beginWait
  rw [h.claimed apart]
  split
  · exact ⟨rfl, h⟩
  · exact ⟨rfl, h.modify k.generation _⟩

theorem AlikeBut.expire (h : AlikeBut g n table other) (k : Slot) :
    (other.expire k).1 = (table.expire k).1 ∧
      AlikeBut g n (table.expire k).2 (other.expire k).2 := by
  have spent : AlikeBut g n (table.spend k) (other.spend k) := h.modify k.generation _
  cases owned : table.owns k with
  | false =>
    rw [expire_of_not_owns owned, expire_of_not_owns ((h.owns k).trans owned)]
    exact ⟨rfl, spent⟩
  | true =>
    rw [expire_of_owns owned, expire_of_owns ((h.owns k).trans owned)]
    refine ⟨rfl, ?_⟩
    dsimp only
    exact (spent.without k.id).count _ fun _ => rfl

theorem AlikeBut.claim (h : AlikeBut g n table other) {k : Slot} (apart : k.generation ≠ g) :
    (other.claim k).1 = (table.claim k).1 ∧
      AlikeBut g n (table.claim k).2 (other.claim k).2 := by
  have spent : AlikeBut g n (table.spend k) (other.spend k) := h.modify k.generation _
  have arrival := h.arrival apart
  cases arrived : table.arrival? k with
  | some d =>
    rw [claim_of_arrived arrived, claim_of_arrived (arrival.trans arrived)]
    exact ⟨rfl, spent⟩
  | none =>
    cases owned : table.owns k with
    | true =>
      rw [claim_of_empty arrived owned,
        claim_of_empty (arrival.trans arrived) ((h.owns k).trans owned)]
      exact ⟨rfl, h⟩
    | false =>
      rw [claim_of_severed arrived owned,
        claim_of_severed (arrival.trans arrived) ((h.owns k).trans owned)]
      exact ⟨rfl, spent⟩

theorem AlikeBut.giveUp (h : AlikeBut g n table other) (k : Slot) (late : Bool) :
    (other.giveUp k late).1 = (table.giveUp k late).1 ∧
      AlikeBut g n (table.giveUp k late).2 (other.giveUp k late).2 := by
  cases late with
  | false => exact ⟨rfl, h⟩
  | true =>
    obtain ⟨same, alike⟩ := h.expire k
    simp only [Table.giveUp, ↓reduceIte]
    exact ⟨by rw [same], alike⟩

theorem AlikeBut.lookOn (h : AlikeBut g n table other) {k : Slot} (apart : k.generation ≠ g)
    (late : Bool) : (other.lookOn k late).1 = (table.lookOn k late).1 ∧
      AlikeBut g n (table.lookOn k late).2 (other.lookOn k late).2 := by
  obtain ⟨same, alike⟩ := h.claim apart
  cases found : table.claim k with
  | mk result after =>
    cases found' : other.claim k with
    | mk result' after' =>
      rw [found, found'] at same alike
      change result' = result at same
      subst result'
      cases result with
      | some result =>
        rw [lookOn_of_some found, lookOn_of_some found']
        exact ⟨rfl, alike⟩
      | none =>
        rw [lookOn_of_none found, lookOn_of_none found']
        exact alike.giveUp k late

theorem AlikeBut.useSignal (h : AlikeBut g n table other) {k : Slot} (apart : k.generation ≠ g) :
    (other.useSignal k).1 = (table.useSignal k).1 ∧
      AlikeBut g n (table.useSignal k).2 (other.useSignal k).2 := by
  unfold Table.useSignal
  rw [h.box apart]
  split
  · exact ⟨rfl, h.modify k.generation _⟩
  · exact ⟨rfl, h⟩

theorem AlikeBut.cancel (h : AlikeBut g n table other) (k : Slot) :
    (other.cancel k).1 = (table.cancel k).1 ∧
      AlikeBut g n (table.cancel k).2 (other.cancel k).2 := by
  cases owned : table.owns k with
  | false =>
    rw [cancel_of_not_owns owned, cancel_of_not_owns ((h.owns k).trans owned)]
    exact ⟨rfl, h⟩
  | true =>
    rw [cancel_of_owns owned, cancel_of_owns ((h.owns k).trans owned)]
    refine ⟨rfl, ?_⟩
    dsimp only
    exact ((h.without k.id).deliver_behind _ _).count _ fun _ => rfl

theorem AlikeBut.discard (h : AlikeBut g n table other) {k : Slot} (apart : k.generation ≠ g) :
    (other.discard k).1 = (table.discard k).1 ∧
      AlikeBut g n (table.discard k).2 (other.discard k).2 := by
  have unread := h.unread apart
  cases owned : table.owns k with
  | true =>
    rw [discard_of_owns owned, discard_of_owns ((h.owns k).trans owned)]
    exact ⟨rfl, h.givenUp k⟩
  | false =>
    have stale := (h.owns k).trans owned
    cases content : table.unread k with
    | none =>
      rw [discard_of_read owned content, discard_of_read stale (unread.trans content)]
      exact ⟨rfl, h.closeBox k⟩
    | some d =>
      rw [discard_of_unread owned content, discard_of_unread stale (unread.trans content)]
      refine ⟨rfl, ?_⟩
      dsimp only
      exact (h.closeBox k).count _ fun stats => by simp only [Nat.add_right_comm]

theorem AlikeBut.drop (h : AlikeBut g n table other) {k : Slot} (apart : k.generation ≠ g) :
    (other.drop k).1 = (table.drop k).1 ∧ AlikeBut g n (table.drop k).2 (other.drop k).2 := by
  unfold Table.drop
  rw [h.claimed apart, h.unread apart]
  split
  · exact ⟨rfl, h.closeBox k⟩
  · refine ⟨rfl, AlikeBut.closeBox ?_ k⟩
    cases owned : table.owns k with
    | false =>
      rw [abandon_of_not_owns owned, abandon_of_not_owns ((h.owns k).trans owned)]
      exact h
    | true =>
      rw [abandon_of_owns owned, abandon_of_owns ((h.owns k).trans owned)]
      exact h.without k.id

theorem AlikeBut.lookOrProceed (h : AlikeBut g n table other) {k : Slot} (apart : k.generation ≠ g)
    (late : Bool) : (other.lookOrProceed k late).1 = (table.lookOrProceed k late).1 ∧
      AlikeBut g n (table.lookOrProceed k late).2 (other.lookOrProceed k late).2 := by
  have claimed := h.claimed apart
  have attended : AlikeBut g n (table.attend k) (other.attend k) := h.modify k.generation _
  obtain ⟨claim, claim_alike⟩ := attended.claim apart
  obtain ⟨signal, signal_alike⟩ := attended.useSignal apart
  cases busy : table.claimed k with
  | true =>
    rw [lookOrProceed_of_claimed busy, lookOrProceed_of_claimed (claimed.trans busy)]
    exact ⟨rfl, h⟩
  | false =>
    cases found : (table.attend k).claim k with
    | mk result after =>
      cases found' : (other.attend k).claim k with
      | mk result' after' =>
        rw [found, found'] at claim claim_alike
        change result' = result at claim
        subst result'
        cases result with
        | some result =>
          rw [lookOrProceed_of_some busy found, lookOrProceed_of_some (claimed.trans busy) found']
          exact ⟨rfl, claim_alike⟩
        | none =>
          obtain ⟨rfl, -⟩ := of_claim_none found
          obtain ⟨rfl, -⟩ := of_claim_none found'
          cases used : (table.attend k).useSignal k with
          | mk told proceeded =>
            cases used' : (other.attend k).useSignal k with
            | mk told' proceeded' =>
              rw [used, used'] at signal signal_alike
              change told' = told at signal
              subst told'
              cases told with
              | true =>
                rw [lookOrProceed_of_signal busy found used,
                  lookOrProceed_of_signal (claimed.trans busy) found' used']
                exact ⟨rfl, signal_alike⟩
              | false =>
                rw [lookOrProceed_of_none busy found used,
                  lookOrProceed_of_none (claimed.trans busy) found' used']
                exact signal_alike.giveUp k late

theorem AlikeBut.perform (h : AlikeBut g n table other) (gone : ¬ table.HasEntry g) {op : Op ρ}
    (apart : ∀ k, op.slot? = some k → k.generation ≠ g) :
    (other.perform op).1 = (table.perform op).1 ∧
      AlikeBut g n (table.perform op).2 (other.perform op).2 := by
  cases op with
  | register =>
    obtain ⟨same, alike⟩ := h.register
    exact ⟨by simp only [Table.perform, same], alike⟩
  | fulfill id r =>
    obtain ⟨same, alike⟩ := h.fulfill gone id r
    exact ⟨by simp only [Table.perform, same], alike⟩
  | fail id e =>
    obtain ⟨same, alike⟩ := h.fail id e
    exact ⟨by simp only [Table.perform, same], alike⟩
  | failAll reason =>
    obtain ⟨same, alike⟩ := h.failAll reason
    exact ⟨by simp only [Table.perform, same], alike⟩
  | proceedAsync id =>
    obtain ⟨same, alike⟩ := h.proceedAsync id
    exact ⟨by simp only [Table.perform, same], alike⟩
  | beginWait k =>
    obtain ⟨same, alike⟩ := h.beginWait (apart k rfl)
    cases begun : table.beginWait k with
    | mk result after =>
      cases begun' : other.beginWait k with
      | mk result' after' =>
        rw [begun, begun'] at same alike
        change result' = result at same
        subst result'
        cases result <;> simp only [Table.perform, begun, begun'] <;> exact ⟨trivial, alike⟩
  | look k late => exact h.lookOn (apart k rfl) late
  | breakOff k =>
    refine ⟨?_, h.modify k.generation _⟩
    simp only [Table.perform, breakOff, h.arrival (apart k rfl)]
  | lookOrProceed k late => exact h.lookOrProceed (apart k rfl) late
  | letGo k => exact ⟨rfl, h.modify k.generation _⟩
  | cancel k =>
    obtain ⟨same, alike⟩ := h.cancel k
    exact ⟨by simp only [Table.perform, same], alike⟩
  | discard k =>
    obtain ⟨same, alike⟩ := h.discard (apart k rfl)
    exact ⟨by simp only [Table.perform, same], alike⟩
  | drop k =>
    obtain ⟨same, alike⟩ := h.drop (apart k rfl)
    exact ⟨by simp only [Table.perform, same], alike⟩

theorem AlikeBut.allowed (h : AlikeBut g n table other) {op : Op ρ}
    (apart : ∀ k, op.slot? = some k → k.generation ≠ g) (allowed : other.Allowed op) :
    table.Allowed op := by
  have idle : ∀ k : Slot, k.generation ≠ g → other.Idle k → table.Idle k := by
    intro k apart
    rw [Idle, h.holder apart]
    exact id
  have waiting : ∀ k : Slot, k.generation ≠ g → other.Waiting k → table.Waiting k := by
    intro k apart
    rw [Waiting, h.holder apart]
    exact id
  cases op with
  | beginWait k => exact idle k (apart k rfl) allowed
  | look k late => exact waiting k (apart k rfl) allowed
  | breakOff k => exact waiting k (apart k rfl) allowed
  | lookOrProceed k late => exact idle k (apart k rfl) allowed
  | letGo k => exact idle k (apart k rfl) allowed
  | cancel k => exact idle k (apart k rfl) allowed
  | discard k => exact idle k (apart k rfl) allowed
  | drop k => exact idle k (apart k rfl) allowed
  | _ => trivial

/-! ## Runs without the stale slot -/

def KeepsIds (table after : Table ρ) : Prop :=
  ∀ g < table.nextGeneration, ∀ box, after.boxes[g]? = some box →
    ∃ old, table.boxes[g]? = some old ∧ old.id = box.id

theorem keepsIds_of_modify {table after : Table ρ} {k : Nat} {f : Box ρ → Box ρ}
    (boxes : ∀ g : Nat,
      after.boxes[g]? = if k = g then (table.boxes[g]?).map f else table.boxes[g]?)
    (same : ∀ box, table.boxes[k]? = some box → (f box).id = box.id) : KeepsIds table after := by
  intro g _ box found
  rw [boxes] at found
  split at found
  · next own =>
    obtain ⟨old, before, rfl⟩ := Option.map_eq_some_iff.mp found
    exact ⟨old, before, (same old (own ▸ before)).symm⟩
  · exact ⟨box, found, rfl⟩

theorem keepsIds_closeBox (table : Table ρ) (slot : Slot) :
    KeepsIds table (table.closeBox slot) := by
  intro g _ box found
  rw [closeBox_box] at found
  split at found
  · cases found
  · exact ⟨box, found, rfl⟩

theorem Change.keepsIds {table after : Table ρ} (change : Change table after) :
    KeepsIds table after := by
  cases change with
  | count f => exact fun g _ box found => ⟨box, found, rfl⟩
  | enter free room =>
    intro g old box found
    rw [enter_box, if_neg (Nat.ne_of_gt old)] at found
    exact ⟨box, found, rfl⟩
  | settle found d =>
    refine keepsIds_of_modify (fun g => deliver_box _ _ g d) ?_
    intro box _
    unfold Box.accept
    split <;> rfl
  | remove found marked => exact fun g _ box found => ⟨box, found, rfl⟩
  | flag k f same => exact keepsIds_of_modify (fun g => modify_box _ k g f) fun box at_k => (same box at_k).1
  | spend slot held ended => exact keepsIds_of_modify (spend_box table slot) fun _ _ => rfl
  | expire slot owned => exact keepsIds_of_modify (spend_box table slot) fun _ _ => rfl
  | giveUp slot owned => exact keepsIds_closeBox table slot
  | abandon slot owned => exact keepsIds_closeBox table slot
  | close slot held ended => exact keepsIds_closeBox table slot

theorem keepsIds_of_changes {table after : Table ρ} (changes : Changes table after) :
    KeepsIds table after := by
  induction changes with
  | refl => exact fun g _ box found => ⟨box, found, rfl⟩
  | @tail middle after earlier change ih =>
    intro g old box found
    have grown := (Elder.of_changes earlier).next_le
    obtain ⟨between, found, same⟩ := change.keepsIds g (Nat.lt_of_lt_of_le old grown) box found
    obtain ⟨first, found, same'⟩ := ih g old between found
    exact ⟨first, found, same'.trans same⟩

theorem keepsIds_perform {table : Table ρ} {op : Op ρ} (allowed : table.Allowed op) :
    KeepsIds table (table.perform op).2 := by
  by_cases broken : ∃ slot, op = .breakOff slot
  · obtain ⟨slot, rfl⟩ := broken
    exact keepsIds_of_modify (spend_box table slot) fun _ _ => rfl
  · exact keepsIds_of_changes (changes_perform allowed fun slot same => broken ⟨slot, same⟩)

/-- Two tables that were alike but for what a stale slot did to the second. -/
structure Beside (slot : Slot) (thrown : Nat) (table other : Table ρ) : Prop
    extends AlikeBut slot.generation thrown table other where
  sound : other.Sound
  gone : ¬ other.HasEntry slot.generation
  old : slot.generation < other.nextGeneration
  own : ∀ box, other.boxes[slot.generation]? = some box → box.id = slot.id

theorem beside_self (sound : table.Sound) (known : table.HasSlot slot)
    (gone : ¬ table.HasEntry slot.generation) : Beside slot 0 table table := by
  obtain ⟨hold, held⟩ := known
  obtain ⟨box, found, same, -⟩ := box_of_holder held
  refine ⟨.refl _ table, sound, gone, sound.known _ box found, ?_⟩
  intro box' found'
  rw [box?, found'] at found
  rwa [Option.some.inj found]

theorem Beside.apart (h : Beside slot n table other) {op : Op ρ} (allowed : other.Allowed op)
    (foreign : op.slot? ≠ some slot) : ∀ k, op.slot? = some k → k.generation ≠ slot.generation := by
  intro k by_k same
  obtain ⟨hold, held⟩ := hasSlot_of_slot by_k allowed
  obtain ⟨box, found, id, -⟩ := box_of_holder held
  rw [box?, same] at found
  have ids := (h.own box found).symm.trans id
  refine foreign (by_k.trans (congrArg some ?_))
  cases k
  cases slot
  simp_all

theorem Beside.behind (h : Beside slot n table other) {op : Op ρ} (allowed : other.Allowed op)
    {m : Nat} {after : Table ρ}
    (alike : AlikeBut slot.generation m after (other.perform op).2) :
    Beside slot m after (other.perform op).2 := by
  have elder := elder_perform allowed
  refine ⟨alike, h.sound.perform allowed, fun stands => h.gone (elder.entries _ h.old stands),
    Nat.lt_of_lt_of_le h.old elder.next_le, ?_⟩
  intro box found
  obtain ⟨before, found, same⟩ := keepsIds_perform allowed _ h.old box found
  exact same.symm.trans (h.own before found)

end Table

def others (slot : Slot) (ops : List (Op ρ)) : List (Op ρ) :=
  ops.filter fun op => op.slot? ≠ some slot

def othersEffects (slot : Slot) (trace : List (Moment ρ)) : List (Effect ρ) :=
  (trace.filter fun moment => moment.op.slot? ≠ some slot).map (·.effect)

def throwsOf (slot : Slot) (trace : List (Moment ρ)) : Nat :=
  trace.countP fun moment => moment.op.slot? = some slot ∧ moment.throws

theorem throwsOf_own {slot : Slot} {moment : Moment ρ} (own : moment.op.slot? = some slot)
    (trace : List (Moment ρ)) :
    throwsOf slot (moment :: trace) = moment.throws.toNat + throwsOf slot trace := by
  cases throws : moment.throws <;> simp [throwsOf, own, throws, Nat.add_comm]

theorem throwsOf_other {slot : Slot} {moment : Moment ρ} (foreign : moment.op.slot? ≠ some slot)
    (trace : List (Moment ρ)) : throwsOf slot (moment :: trace) = throwsOf slot trace := by
  simp [throwsOf, foreign]

namespace Table

variable {table other : Table ρ} {slot : Slot} {n : Nat}

/-- The operations of a stale slot can be struck out. -/
theorem Beside.strike (h : Beside slot n table other) (ops : List (Op ρ))
    (allowed : other.AllowedAll ops) :
    table.AllowedAll (others slot ops) ∧
      (table.moments (others slot ops)).map (·.effect) = othersEffects slot (other.moments ops) ∧
      AlikeBut slot.generation (n + throwsOf slot (other.moments ops))
        (table.performAll (others slot ops)) (other.performAll ops) := by
  -- `other` did all operations so far, `table` only those that are not of the stale slot
  induction ops generalizing table other n with
  | nil => exact ⟨trivial, rfl, h.toAlikeBut⟩
  | cons op ops ih =>
    obtain ⟨first, rest⟩ := allowed
    by_cases own : op.slot? = some slot
    · have stale : other.owns slot = false := by
        cases owned : other.owns slot with
        | false => rfl
        | true => exact absurd (hasEntry_of_owns owned) h.gone
      have harmless := harmless_of_stale h.sound.toCoupled own first stale
      have next := h.behind first (h.toAlikeBut.trans harmless.alike)
      obtain ⟨allowed, effects, alike⟩ := ih next rest
      have struck : others slot (op :: ops) = others slot ops := by simp [others, own]
      refine ⟨struck ▸ allowed, ?_, ?_⟩
      · rw [struck, effects]
        simp [othersEffects, moments, own]
      · rw [struck, moments, throwsOf_own own, ← Nat.add_assoc]
        exact alike
    · have apart := h.apart first own
      have gone : ¬ table.HasEntry slot.generation := by
        have gone := h.gone
        rwa [HasEntry, h.entries] at gone
      obtain ⟨same, alike⟩ := h.toAlikeBut.perform gone apart
      obtain ⟨allowed, effects, alike⟩ := ih (h.behind first alike) rest
      have kept : others slot (op :: ops) = op :: others slot ops := by simp [others, own]
      refine ⟨?_, ?_, ?_⟩
      · rw [kept]
        exact ⟨h.toAlikeBut.allowed apart first, allowed⟩
      · rw [kept, moments, List.map_cons, effects]
        simp [othersEffects, moments, own, Moment.effect, same]
      · rw [kept, moments, throwsOf_other own]
        exact alike

end Table

/-- Whatever a slot does after its entry is gone, and whoever has its id by then, leaves all others
alone: it cannot cancel, each operation touches its own delivery only, and without its operations
all others would have given the same. -/
theorem Run.stale_slot_harmless {limit : Nat} {trace : List (Moment ρ)} {table : Table ρ}
    (run : Run limit trace table) {slot : Slot} (known : table.HasSlot slot)
    (gone : ¬ table.HasEntry slot.generation) :
    table.cancel slot = (false, table) ∧
    (∀ op, op.slot? = some slot → table.Allowed op → Moment.Harmless slot ⟨table, op⟩) ∧
    ∀ ops, table.AllowedAll ops →
      table.AllowedAll (others slot ops) ∧
      (table.moments (others slot ops)).map (·.effect) = othersEffects slot (table.moments ops) ∧
      Table.AlikeBut slot.generation (throwsOf slot (table.moments ops))
        (table.performAll (others slot ops)) (table.performAll ops) := by
  have stale : table.owns slot = false := by
    cases owned : table.owns slot with
    | false => rfl
    | true => exact absurd (Table.hasEntry_of_owns owned) gone
  refine ⟨Table.cancel_of_not_owns stale, ?_, ?_⟩
  · intro op by_slot allowed
    exact Table.harmless_of_stale run.sound.toCoupled by_slot allowed stale
  · intro ops allowed
    have struck := (Table.beside_self run.sound known gone).strike ops allowed
    rwa [Nat.zero_add] at struck

/-- A slot of a table for one call, whose id goes to the last of 65536 calls that came later: when it
discards its result, that call keeps its entry. -/
theorem Run.stale_slot_harmless_of_reuse : ∃ (trace : List (Moment String)) (table : Table String),
    Run 1 trace table ∧ table.HasSlot ⟨1, 0⟩ ∧ ¬ table.HasEntry 0 ∧
      table.entries[(1 : UInt16)]? = some ⟨65536, false⟩ ∧
      table.unread? ⟨1, 0⟩ = some "late" ∧ table.cancel ⟨1, 0⟩ = (false, table) ∧
      Moment.Harmless ⟨1, 0⟩ ⟨table, .discard ⟨1, 0⟩⟩ ∧
      othersEffects ⟨1, 0⟩ (table.moments [.discard ⟨1, 0⟩, .fulfill 1 "new"]) =
        (table.moments [.fulfill 1 "new"]).map (·.effect) := by
  let ops : List (Op String) := [.register, .fulfill 1 "late"]
  let first : Table String := (Table.empty 1).performAll ops
  have quiet : Table.Quiet 1 first := ⟨fun id => rfl, by decide, by decide, by decide, by decide⟩
  obtain ⟨trace, middle, run, last, old⟩ := (Run.start.performAll ops (by decide)).passes quiet 65535
  have around : UInt16.ofNat (1 + 65535 + 1) = 1 := by decide
  have next : middle.nextGeneration = 65536 := last.nextGeneration
  have granted : (middle.perform .register).2 = (middle.enter 1).2 := by
    rw [Table.perform, last.register, around]
  have again := run.step (show middle.Allowed .register from trivial)
  rw [granted] at again
  have box : (middle.enter 1).2.boxes[0]? = some ⟨1, some (.result "late"), .idle false, .slot⟩ := by
    rw [Table.enter_box, next, if_neg (by decide), old 0 (by decide)]
    rfl
  have held : (middle.enter 1).2.holder? ⟨1, 0⟩ = some .slot := by
    simp only [Table.holder?, Table.box?, box, ↓reduceIte]
  have gone : ¬ (middle.enter 1).2.HasEntry 0 := by
    rintro ⟨id, entry, found, own⟩
    rw [Table.enter_entry, last.empty, next] at found
    split at found
    · rw [← Option.some.inj found] at own
      cases own
    · cases found
  obtain ⟨cannot, harmless, struck⟩ := again.stale_slot_harmless ⟨_, held⟩ gone
  have allowed : (middle.enter 1).2.AllowedAll [.discard ⟨1, 0⟩, .fulfill 1 "new"] :=
    ⟨.inl held, trivial, trivial⟩
  refine ⟨_, _, again, ⟨_, held⟩, gone, ?_, ?_, cannot, harmless _ rfl (.inl held), ?_⟩
  · rw [Table.enter_entry, if_pos rfl, next]
  · simp only [Table.unread?, Table.box?, box, ↓reduceIte]
    rfl
  · exact (struck _ allowed).2.1.symm

end Farcall
