import Farcall.Proofs.Correlation.Attendance

set_option autoImplicit false

/-!
# What an operation does to a slot

A result that arrives for a live entry goes to the slot of the entry and to nobody else. There it is
returned by a wait, or discarded when the slot is given up or dropped. `Flow` lists what an
operation can do to what a slot has, and every operation on a table is one of these to every slot,
as long as no wait is broken off.
-/

namespace Farcall

variable {ρ : Type}

def Effect.returned {ρ : Type} (effect : Effect ρ) : Option ρ :=
  match effect.answer with
  | .ended (.ok (.ready r)) => some r
  | _ => none

def Op.leaver? {ρ : Type} : Op ρ → Option Slot
  | discard slot | drop slot => some slot
  | _ => none

namespace Table

/-- The slot that a result for an id belongs to. -/
def owner? (table : Table ρ) (id : UInt16) : Option Slot :=
  match table.entries[id]? with
  | some entry => if entry.discard then none else some ⟨id, entry.generation⟩
  | none => none

def unread? (table : Table ρ) (slot : Slot) : Option ρ :=
  match table.box? slot with
  | some box => if box.id = slot.id then box.arrived.bind Delivery.result? else none
  | none => none

end Table

namespace Moment

def brings (moment : Moment ρ) (slot : Slot) : Option ρ :=
  match moment.op with
  | .fulfill id r => if moment.before.owner? id = some slot then some r else none
  | _ => none

def returns (moment : Moment ρ) (slot : Slot) : Option ρ :=
  if moment.op.waiter? = some slot then moment.effect.returned else none

def discards (moment : Moment ρ) (slot : Slot) : Option ρ :=
  if moment.op.leaver? = some slot then moment.effect.discarded else none

end Moment

def brought (trace : List (Moment ρ)) (slot : Slot) : List ρ := trace.filterMap (·.brings slot)

def returned (trace : List (Moment ρ)) (slot : Slot) : List ρ := trace.filterMap (·.returns slot)

def discarded (trace : List (Moment ρ)) (slot : Slot) : List ρ := trace.filterMap (·.discards slot)

/-! ## One operation -/

/-- What an operation can do to a slot: what the slot has before, what is brought to it, returned by
it and discarded with it, and what it has then. -/
inductive Flow : Option ρ → Option ρ → Option ρ → Option ρ → Option ρ → Prop
  | keep (content : Option ρ) : Flow content none none none content
  | put (r : ρ) : Flow none (some r) none none (some r)
  | read (content : Option ρ) : Flow content none content none none
  | leave (content : Option ρ) : Flow content none none content none

namespace Table

theorem unread_of_box {table : Table ρ} {slot : Slot} {box : Box ρ}
    (found : table.boxes[slot.generation]? = some box) (same : box.id = slot.id) :
    table.unread? slot = box.arrived.bind Delivery.result? := by
  simp only [unread?, box?, found, same, ↓reduceIte]

theorem unread_of_foreign {table : Table ρ} {slot : Slot}
    (foreign : ∀ box, table.boxes[slot.generation]? = some box → box.id ≠ slot.id) :
    table.unread? slot = none := by
  unfold unread? box?
  cases found : table.boxes[slot.generation]? with
  | none => rfl
  | some box => simp only [foreign box found, ↓reduceIte]

theorem unread_congr {table after : Table ρ} {slot : Slot}
    (same : after.boxes[slot.generation]? = table.boxes[slot.generation]?) :
    after.unread? slot = table.unread? slot := by
  simp only [unread?, box?, same]

theorem flow_of_slot {table : Table ρ} (after : Table ρ) {slot : Slot} {hold : Hold}
    (held : table.holder? slot = some hold)
    (others : ∀ g, g ≠ slot.generation → after.boxes[g]? = table.boxes[g]?)
    (stays : ∀ box, after.boxes[slot.generation]? = some box → box.id = slot.id)
    {b r d : Option ρ} (own : Flow (table.unread? slot) b r d (after.unread? slot)) (k : Slot) :
    Flow (table.unread? k) (if slot = k then b else none) (if slot = k then r else none)
      (if slot = k then d else none) (after.unread? k) := by
  by_cases same : slot = k
  · subst k
    simpa only [↓reduceIte] using own
  · simp only [same, ↓reduceIte]
    by_cases generation : k.generation = slot.generation
    · have other : slot.id ≠ k.id := by
        intro id
        exact same (by cases slot; cases k; simp_all)
      obtain ⟨box, found, id, -⟩ := box_of_holder held
      have before : table.unread? k = none := by
        refine unread_of_foreign ?_
        intro box' at_k
        rw [generation] at at_k
        rw [box?, at_k] at found
        rw [Option.some.inj found, id]
        exact other
      have behind : after.unread? k = none := by
        refine unread_of_foreign ?_
        intro box' at_k
        rw [generation] at at_k
        rw [stays box' at_k]
        exact other
      rw [before, behind]
      exact .keep none
    · rw [unread_congr (others k.generation generation)]
      exact .keep _

theorem unread_of_arrival {table : Table ρ} {slot : Slot} {hold : Hold}
    (held : table.holder? slot = some hold) :
    table.unread? slot = (table.arrival? slot).bind Delivery.result? := by
  obtain ⟨box, found, same, -⟩ := box_of_holder held
  rw [unread_of_box found same, arrival?, found, Option.bind_some]

theorem unread_spend (table : Table ρ) (slot : Slot) : (table.spend slot).unread? slot = none := by
  unfold unread? box?
  rw [spend_box, if_pos rfl]
  cases table.boxes[slot.generation]? with
  | none => rfl
  | some box => simp

theorem unread_closeBox (table : Table ρ) (slot : Slot) :
    (table.closeBox slot).unread? slot = none := by
  unfold unread? box?
  rw [closeBox_box, if_pos rfl]

theorem flow_spend {table : Table ρ} {slot : Slot} {hold : Hold}
    (held : table.holder? slot = some hold) {r : Option ρ}
    (own : Flow (table.unread? slot) none r none none) (k : Slot) :
    Flow (table.unread? k) none (if slot = k then r else none) none
      ((table.spend slot).unread? k) := by
  obtain ⟨box, found, same, -⟩ := box_of_holder held
  have flow := flow_of_slot (table.spend slot) held ?_ ?_
    (by rw [unread_spend]; exact own) k
  · simpa only [ite_self] using flow
  · intro g other
    rw [spend_box, if_neg (Ne.symm other)]
  · intro box' at_g
    rw [spend_box, if_pos rfl] at at_g
    obtain ⟨old, before, rfl⟩ := Option.map_eq_some_iff.mp at_g
    rw [box?, before] at found
    rw [Option.some.inj found]
    exact same

theorem flow_closeBox {table : Table ρ} {slot : Slot} {hold : Hold}
    (held : table.holder? slot = some hold) {d : Option ρ}
    (own : Flow (table.unread? slot) none none d none) (k : Slot) :
    Flow (table.unread? k) none none (if slot = k then d else none)
      ((table.closeBox slot).unread? k) := by
  have flow := flow_of_slot (table.closeBox slot) held ?_ ?_
    (by rw [unread_closeBox]; exact own) k
  · simpa only [ite_self] using flow
  · intro g other
    rw [closeBox_box, if_neg (Ne.symm other)]
  · intro box' at_g
    rw [closeBox_box, if_pos rfl] at at_g
    cases at_g

theorem returned_of_delivery (d : Delivery ρ) :
    Effect.returned ⟨.ended (d.toExcept.map .ready), none, none⟩ = d.result? := by
  cases d <;> rfl

theorem flow_lookOn {table : Table ρ} {slot : Slot} {hold : Hold}
    (held : table.holder? slot = some hold) (late : Bool) (k : Slot) :
    Flow (table.unread? k) none (if slot = k then (table.lookOn slot late).1.returned else none)
      none ((table.lookOn slot late).2.unread? k) := by
  have content := unread_of_arrival held
  cases arrived : table.arrival? slot with
  | some d =>
    rw [lookOn_of_some (claim_of_arrived arrived)]
    refine flow_spend held ?_ k
    rw [content, arrived, returned_of_delivery]
    exact .read _
  | none =>
    have nothing : Flow (table.unread? slot) none none none none := by
      rw [content, arrived]
      exact .keep none
    cases owned : table.owns slot with
    | false =>
      rw [lookOn_of_some (claim_of_severed arrived owned)]
      exact flow_spend held nothing k
    | true =>
      rw [lookOn_of_none (claim_of_empty arrived owned)]
      cases late with
      | false =>
        change Flow (table.unread? k) none (if slot = k then none else none) none (table.unread? k)
        rw [ite_self]
        exact .keep _
      | true =>
        simp only [giveUp, expire_of_owns owned]
        exact flow_spend held nothing k

theorem unread_modify (table : Table ρ) (g : Nat) (f : Box ρ → Box ρ)
    (same : ∀ box, (f box).id = box.id ∧ (f box).arrived = box.arrived) (k : Slot) :
    unread? { table with boxes := table.boxes.modify g f } k = table.unread? k := by
  by_cases own : g = k.generation
  · subst g
    unfold unread? box?
    rw [modify_box, if_pos rfl]
    cases table.boxes[k.generation]? with
    | none => rfl
    | some box => simp only [Option.map_some, (same box).1, (same box).2]
  · refine unread_congr ?_
    rw [modify_box, if_neg own]

theorem unread_resignal (table : Table ρ) (g : Nat) (f : Signals → Signals) (k : Slot) :
    (table.resignal g f).unread? k = table.unread? k :=
  unread_modify table g (fun box => { box with signals := f box.signals }) (fun _ => ⟨rfl, rfl⟩) k

theorem unread_useSignal (table : Table ρ) (slot k : Slot) :
    (table.useSignal slot).2.unread? k = table.unread? k := by
  rcases table.useSignal_cases slot with ⟨-, same⟩ | ⟨stored, -, same⟩
  · rw [same]
  · rw [same]
    exact unread_resignal table _ _ k

theorem unread_proceedAsync (table : Table ρ) (id : UInt16) (k : Slot) :
    (table.proceedAsync id).2.unread? k = table.unread? k := by
  cases found : table.entries[id]? with
  | none =>
    rw [proceedAsync_of_none found]
    rfl
  | some entry =>
    rw [proceedAsync_of_some found]
    exact unread_resignal table _ _ k

theorem unread_beginWait (table : Table ρ) (slot k : Slot) :
    (table.perform (.beginWait slot)).2.unread? k = table.unread? k := by
  cases claimed : table.claimed slot with
  | true => simp [perform, beginWait, claimed]
  | false =>
    simp only [perform, beginWait, claimed, Bool.false_eq_true, ↓reduceIte, setHold]
    rw [unread_modify]
    intro box
    exact ⟨rfl, rfl⟩

theorem returned_beginWait (table : Table ρ) (slot : Slot) :
    (table.perform (.beginWait slot)).1.returned = none := by
  cases claimed : table.claimed slot <;> simp [perform, beginWait, claimed, Effect.returned]

theorem flow_lookOrProceed {table : Table ρ} {slot : Slot} {hold : Hold}
    (held : table.holder? slot = some hold) (late : Bool) (k : Slot) :
    Flow (table.unread? k) none
      (if slot = k then (table.lookOrProceed slot late).1.returned else none) none
      ((table.lookOrProceed slot late).2.unread? k) := by
  have attended := unread_resignal table slot.generation .attend k
  rcases lookOrProceed_cases table slot late with ⟨-, same⟩ | ⟨-, same⟩ | ⟨-, -, same⟩
  · simp only [same, Effect.returned, ite_self]
    exact .keep _
  · rw [same]
    rw [← attended]
    exact flow_lookOn ((holder_attend table slot slot).trans held) late k
  · simp only [same, Effect.returned, ite_self, unread_useSignal]
    rw [← attended]
    exact .keep _

theorem unread_enter {table : Table ρ} (c : table.Coupled) (id : UInt16) (k : Slot) :
    (table.enter id).2.unread? k = table.unread? k := by
  by_cases new : table.nextGeneration = k.generation
  · have absent : table.boxes[k.generation]? = none := by
      cases found : table.boxes[k.generation]? with
      | none => rfl
      | some box =>
        have old := c.known k.generation box found
        omega
    unfold unread? box?
    rw [enter_box, if_pos new, absent]
    simp
  · refine unread_congr ?_
    rw [enter_box, if_neg new]

theorem unread_register {table : Table ρ} (c : table.Coupled) (k : Slot) :
    table.register.2.unread? k = table.unread? k := by
  unfold register
  split
  · rfl
  · split
    · rfl
    · exact unread_enter c _ k

theorem flow_deliver {table : Table ρ} (c : table.Coupled) {id : UInt16} {entry : Entry}
    (found : table.entries[id]? = some entry) (read : table.Read entry.generation)
    (d : Delivery ρ) (k : Slot) :
    Flow (table.unread? k) (if ⟨id, entry.generation⟩ = k then d.result? else none) none none
      (((table.without id).deliver entry.generation d).2.unread? k) := by
  obtain ⟨box, at_g, there⟩ := read
  obtain ⟨-, same, empty⟩ := c.awaited id entry box found at_g
  have put : ((table.without id).deliver entry.generation d).2.boxes[entry.generation]? =
      some { box with arrived := some d } := by
    rw [deliver_box, if_pos rfl]
    change (table.boxes[entry.generation]?).map (Box.accept d) = _
    rw [at_g, Option.map_some, Box.accept, if_neg there]
  have held : table.holder? ⟨id, entry.generation⟩ = some box.hold := by
    simp only [holder?, box?, at_g, same, ↓reduceIte]
  have flow := flow_of_slot (b := d.result?) (r := none) (d := none)
    ((table.without id).deliver entry.generation d).2 held ?_ ?_ ?_ k
  · simpa only [ite_self] using flow
  · intro g other
    rw [deliver_box, if_neg (Ne.symm other)]
    rfl
  · intro box' at_g'
    rw [put] at at_g'
    rw [← Option.some.inj at_g']
    exact same
  · rw [unread_of_box at_g same, unread_of_box put same, empty]
    cases d with
    | result r => exact .put r
    | failed e => exact .keep none

theorem unread_of_deserted {table : Table ρ} {id : UInt16} {g : Nat} (deserted : ¬ table.Read g)
    (d : Delivery ρ) (k : Slot) :
    ((table.without id).deliver g d).2.unread? k = table.unread? k := by
  refine unread_congr ?_
  rw [deliver_box]
  split
  · next own =>
    change (table.boxes[k.generation]?).map (Box.accept d) = _
    cases at_g : table.boxes[k.generation]? with
    | none => rfl
    | some box =>
      have gone : box.hold = .gone := by
        by_cases gone : box.hold = .gone
        · exact gone
        · exact absurd ⟨box, own ▸ at_g, gone⟩ deserted
      rw [Option.map_some, Box.accept, if_pos gone]
  · rfl

theorem unread_failed {table : Table ρ} (c : table.Coupled) {id : UInt16} {entry : Entry}
    (found : table.entries[id]? = some entry) (e : InvocationError) (k : Slot) :
    ((table.without id).deliver entry.generation (.failed e)).2.unread? k = table.unread? k := by
  by_cases read : table.Read entry.generation
  · have flow := flow_deliver c found read (.failed e) k
    simp only [Delivery.result?, ite_self] at flow
    generalize table.unread? k = before at flow ⊢
    generalize ((table.without id).deliver entry.generation (.failed e)).2.unread? k = behind
      at flow ⊢
    cases flow <;> rfl
  · exact unread_of_deserted read _ k

theorem unread_fail {table : Table ρ} (c : table.Coupled) (id : UInt16) (e : InvocationError)
    (k : Slot) : (table.fail id e).2.unread? k = table.unread? k := by
  cases found : table.entries[id]? with
  | none =>
    rw [fail_of_none found]
    rfl
  | some entry =>
    rw [fail_of_some found]
    exact unread_failed c found e k

theorem unread_cancel {table : Table ρ} (c : table.Coupled) (slot k : Slot) :
    (table.cancel slot).2.unread? k = table.unread? k := by
  cases owned : table.owns slot with
  | false => rw [cancel_of_not_owns owned]
  | true =>
    obtain ⟨entry, found, own⟩ := owns_iff.mp owned
    rw [cancel_of_owns owned, ← own]
    exact unread_failed c found _ k

theorem unread_sever {table : Table ρ} (c : table.Coupled) (reason : String) (id : UInt16)
    (k : Slot) : (sever reason table id).unread? k = table.unread? k := by
  cases found : table.entries[id]? with
  | none => rw [sever_of_none found]
  | some entry =>
    rw [sever_of_some found]
    exact unread_failed c found _ k

theorem unread_failAll {table : Table ρ} (sound : table.Sound) (reason : String) (k : Slot) :
    (table.failAll reason).2.unread? k = table.unread? k := by
  have both := failAll_keeps
    (fun after => after.Sound ∧ after.unread? k = table.unread? k) reason ⟨sound, rfl⟩ ?_
  · exact both.2
  · rintro after id ⟨still, same⟩
    refine ⟨still.changes (changes_sever reason after id), ?_⟩
    rw [unread_sever still.toCoupled, same]

theorem arrival_of_unread {table : Table ρ} (c : table.Coupled) {slot : Slot}
    (idle : table.Idle slot) : table.arrival? slot = table.unread slot := by
  rcases idle with held | gone
  · obtain ⟨box, found, -, hold⟩ := box_of_holder held
    simp [arrival?, unread, found, hold]
  · obtain ⟨box, found, -, hold⟩ := box_of_holder gone
    have empty := c.spent slot.generation box found hold
    simp [arrival?, unread, found, hold, empty]

theorem flow_discard {table : Table ρ} (c : table.Coupled) {slot : Slot}
    (idle : table.Idle slot) (k : Slot) :
    Flow (table.unread? k) none none (if slot = k then (table.discard slot).1 else none)
      ((table.discard slot).2.unread? k) := by
  obtain ⟨hold, held⟩ := holder_of_idle idle
  have content := unread_of_arrival held
  cases owned : table.owns slot with
  | true =>
    have empty : table.arrival? slot = none := by
      cases arrived : table.arrival? slot with
      | none => rfl
      | some d =>
        have lost : table.owns slot = false := c.not_owns_of_arrival (by simp [arrived])
        rw [owned] at lost
        cases lost
    rw [discard_of_owns owned]
    refine flow_closeBox (d := none) held ?_ k
    rw [content, empty]
    exact .keep none
  | false =>
    cases unread : table.unread slot with
    | none =>
      rw [discard_of_read owned unread]
      refine flow_closeBox (d := none) held ?_ k
      rw [content, arrival_of_unread c idle, unread]
      exact .keep none
    | some d =>
      rw [discard_of_unread owned unread]
      refine flow_closeBox held ?_ k
      rw [content, arrival_of_unread c idle, unread]
      exact .leave _

theorem flow_drop {table : Table ρ} (c : table.Coupled) {slot : Slot} (idle : table.Idle slot)
    (k : Slot) : Flow (table.unread? k) none none (if slot = k then (table.drop slot).1 else none)
      ((table.drop slot).2.unread? k) := by
  obtain ⟨hold, held⟩ := holder_of_idle idle
  have content := unread_of_arrival held
  rw [arrival_of_unread c idle] at content
  have leave : Flow (table.unread? slot) none none
      ((table.unread slot).bind Delivery.result?) none := by
    rw [content]
    exact .leave _
  cases claimed : table.claimed slot with
  | true =>
    have nothing : table.unread slot = none := by
      obtain ⟨box, found, -, hold⟩ := box_of_holder (gone_of_claimed idle claimed)
      simp [unread, found, hold]
    rw [drop, claimed]
    refine flow_closeBox (d := none) held ?_ k
    rw [nothing] at leave
    exact leave
  | false =>
    rw [drop, claimed]
    cases owned : table.owns slot with
    | true =>
      rw [abandon_of_owns owned]
      exact flow_closeBox held leave k
    | false =>
      rw [abandon_of_not_owns owned]
      exact flow_closeBox held leave k

theorem owner_of_none {table : Table ρ} {id : UInt16} (absent : table.entries[id]? = none) :
    table.owner? id = none := by
  simp only [owner?, absent]

theorem owner_of_marked {table : Table ρ} {id : UInt16} {entry : Entry}
    (found : table.entries[id]? = some entry) (marked : entry.discard = true) :
    table.owner? id = none := by
  simp only [owner?, found, marked, ↓reduceIte]

theorem owner_of_live {table : Table ρ} {id : UInt16} {entry : Entry}
    (found : table.entries[id]? = some entry) (live : entry.discard = false) :
    table.owner? id = some ⟨id, entry.generation⟩ := by
  simp only [owner?, found, live, Bool.false_eq_true, ↓reduceIte]

def AllRead (table : Table ρ) : Prop :=
  ∀ (id : UInt16) entry, table.entries[id]? = some entry → entry.discard = false →
    table.Read entry.generation

theorem flow_fulfill {table : Table ρ} (c : table.Coupled) (read : table.AllRead) (id : UInt16)
    (r : ρ) (k : Slot) :
    Flow (table.unread? k) (if table.owner? id = some k then some r else none) none none
      ((table.fulfill id r).2.unread? k) := by
  cases found : table.entries[id]? with
  | none =>
    rw [owner_of_none found, fulfill_of_none found]
    exact .keep _
  | some entry =>
    cases marked : entry.discard with
    | true =>
      rw [owner_of_marked found marked, fulfill_of_marked found marked]
      exact .keep _
    | false =>
      rw [owner_of_live found marked, fulfill_of_live found marked]
      simp only [Option.some.injEq]
      exact flow_deliver c found (read id entry found marked) (.result r) k

end Table

theorem Flow.of_same {before behind : Option ρ} (same : behind = before) :
    Flow before none none none behind := by
  rw [same]
  exact .keep before

/-- What an operation does to a slot, as long as no wait is broken off. -/
theorem Moment.flow (moment : Moment ρ) (sound : moment.before.Sound)
    (read : moment.before.AllRead) (allowed : moment.before.Allowed moment.op)
    (kept : ∀ slot, moment.op ≠ .breakOff slot) (k : Slot) :
    Flow (moment.before.unread? k) (moment.brings k) (moment.returns k) (moment.discards k)
      (moment.after.unread? k) := by
  obtain ⟨table, op⟩ := moment
  have c := sound.toCoupled
  cases op with
  | register => exact .of_same (Table.unread_register c k)
  | fulfill id r => exact Table.flow_fulfill c read id r k
  | fail id e => exact .of_same (Table.unread_fail c id e k)
  | failAll reason => exact .of_same (Table.unread_failAll sound reason k)
  | proceedAsync id => exact .of_same (Table.unread_proceedAsync table id k)
  | beginWait slot =>
    have returned := Table.returned_beginWait table slot
    simp only [Moment.brings, Moment.returns, Moment.discards, Moment.effect, Op.leaver?,
      reduceCtorEq, ↓reduceIte, returned, ite_self]
    exact .of_same (Table.unread_beginWait table slot k)
  | look slot late =>
    simp only [Moment.returns, Op.waiter?, Option.some.injEq]
    exact Table.flow_lookOn allowed late k
  | breakOff slot => exact absurd rfl (kept slot)
  | lookOrProceed slot late =>
    obtain ⟨hold, held⟩ := Table.holder_of_idle allowed
    simp only [Moment.returns, Op.waiter?, Option.some.injEq]
    exact Table.flow_lookOrProceed held late k
  | letGo slot => exact .of_same (Table.unread_resignal table _ _ k)
  | cancel slot => exact .of_same (Table.unread_cancel c slot k)
  | discard slot =>
    simp only [Moment.discards, Op.leaver?, Option.some.injEq]
    exact Table.flow_discard c allowed k
  | drop slot =>
    simp only [Moment.discards, Op.leaver?, Option.some.injEq]
    exact Table.flow_drop c allowed k

end Farcall
