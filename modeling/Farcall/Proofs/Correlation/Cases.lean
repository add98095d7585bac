import Farcall.Proofs.Correlation.Run

set_option autoImplicit false

/-!
# Operations case by case

What each operation gives, by the entry under the id and by what the box of the slot holds. The
cases are those of the program, one equation for each.
-/

namespace Farcall

def Box.accept {ρ : Type} (d : Delivery ρ) (box : Box ρ) : Box ρ :=
  if box.hold = .gone then box else { box with arrived := some d }

namespace Signals

theorem leave_leave (s : Signals) : s.leave.leave = s.leave := by
  cases s <;> rfl

theorem leave_attend (s : Signals) : s.attend.leave = s.leave := by
  cases s with
  | idle stored => cases stored <;> rfl
  | awaited => rfl
  | handed stored => rfl

theorem size_raise_pos (s : Signals) : 0 < s.raise.size := by
  cases s <;> simp [raise, size]

end Signals

namespace Table

variable {ρ : Type}

def without (table : Table ρ) (id : UInt16) : Table ρ :=
  { table with entries := table.entries.erase id, outstanding := table.outstanding - 1 }

def givenUp (table : Table ρ) (slot : Slot) : Table ρ :=
  closeBox { table with entries := table.entries.insert slot.id ⟨slot.generation, true⟩ } slot

/-! ## Looking behind a step -/

@[simp] theorem without_entry (table : Table ρ) (id k : UInt16) :
    (table.without id).entries[k]? = if id = k then none else table.entries[k]? := by
  simp [without, Std.TreeMap.getElem?_erase]

@[simp] theorem without_boxes (table : Table ρ) (id : UInt16) :
    (table.without id).boxes = table.boxes := rfl

@[simp] theorem modify_box (boxes : Std.TreeMap Nat (Box ρ)) (g k : Nat) (f : Box ρ → Box ρ) :
    (boxes.modify g f)[k]? = if g = k then (boxes[k]?).map f else boxes[k]? := by
  by_cases same : g = k
  · subst k
    simp
  · simp [same, Std.TreeMap.getElem?_modify]

@[simp] theorem spend_entries (table : Table ρ) (slot : Slot) :
    (table.spend slot).entries = table.entries := rfl

@[simp] theorem spend_box (table : Table ρ) (slot : Slot) (g : Nat) :
    (table.spend slot).boxes[g]? = if slot.generation = g then
      (table.boxes[g]?).map fun box =>
        { box with arrived := none, signals := box.signals.leave, hold := .gone }
    else table.boxes[g]? := by
  simp [spend]

@[simp] theorem resignal_box (table : Table ρ) (generation g : Nat) (f : Signals → Signals) :
    (table.resignal generation f).boxes[g]? = if generation = g then
      (table.boxes[g]?).map fun box => { box with signals := f box.signals }
    else table.boxes[g]? := by
  simp [resignal]

@[simp] theorem closeBox_entries (table : Table ρ) (slot : Slot) :
    (table.closeBox slot).entries = table.entries := rfl

@[simp] theorem closeBox_box (table : Table ρ) (slot : Slot) (g : Nat) :
    (table.closeBox slot).boxes[g]? = if slot.generation = g then none else table.boxes[g]? := by
  simp [closeBox, Std.TreeMap.getElem?_erase]

@[simp] theorem givenUp_entry (table : Table ρ) (slot : Slot) (k : UInt16) :
    (table.givenUp slot).entries[k]? =
      if slot.id = k then some ⟨slot.generation, true⟩ else table.entries[k]? := by
  simp [givenUp, Std.TreeMap.getElem?_insert]

@[simp] theorem givenUp_box (table : Table ρ) (slot : Slot) (g : Nat) :
    (table.givenUp slot).boxes[g]? = if slot.generation = g then none else table.boxes[g]? := by
  simp [givenUp]

@[simp] theorem enter_entry (table : Table ρ) (id k : UInt16) : (table.enter id).2.entries[k]? =
    if id = k then some ⟨table.nextGeneration, false⟩ else table.entries[k]? := by
  simp [enter, Std.TreeMap.getElem?_insert]

@[simp] theorem enter_box (table : Table ρ) (id : UInt16) (g : Nat) :
    (table.enter id).2.boxes[g]? =
      if table.nextGeneration = g then some ⟨id, none, .idle false, .slot⟩ else table.boxes[g]? := by
  simp [enter, Std.TreeMap.getElem?_insert]

/-! ## Entries -/

theorem take_of_none {table : Table ρ} {id : UInt16} (absent : table.entries[id]? = none) :
    table.take id = none := by
  simp only [take, absent]

theorem take_of_some {table : Table ρ} {id : UInt16} {entry : Entry}
    (found : table.entries[id]? = some entry) : table.take id = some (entry, table.without id) := by
  simp only [take, found, without]

theorem owns_iff {table : Table ρ} {slot : Slot} : table.owns slot = true ↔
    ∃ entry, table.entries[slot.id]? = some entry ∧ entry.generation = slot.generation := by
  unfold owns
  cases table.entries[slot.id]? <;> simp

theorem takeOwn_of_owns {table : Table ρ} {slot : Slot} (owned : table.owns slot = true) :
    table.takeOwn slot = some (table.without slot.id) := by
  obtain ⟨entry, found, -⟩ := owns_iff.mp owned
  simp [takeOwn, owned, take_of_some found]

theorem takeOwn_of_not_owns {table : Table ρ} {slot : Slot} (lost : table.owns slot = false) :
    table.takeOwn slot = none := by
  simp [takeOwn, lost]

theorem abandon_of_owns {table : Table ρ} {slot : Slot} (owned : table.owns slot = true) :
    table.abandon slot = table.without slot.id := by
  rw [abandon, takeOwn_of_owns owned, Option.getD_some]

theorem abandon_of_not_owns {table : Table ρ} {slot : Slot} (lost : table.owns slot = false) :
    table.abandon slot = table := by
  rw [abandon, takeOwn_of_not_owns lost, Option.getD_none]

theorem deliver_count (table : Table ρ) (f : Stats → Stats) (generation : Nat) (d : Delivery ρ) :
    (table.count f).deliver generation d =
      ((table.deliver generation d).1, (table.deliver generation d).2.count f) := by
  unfold deliver count
  cases table.boxes[generation]? with
  | none => rfl
  | some box => by_cases gone : box.hold = .gone <;> simp [gone]

theorem deliver_eq (table : Table ρ) (generation : Nat) (d : Delivery ρ) :
    (table.deliver generation d).2 =
      { table with boxes := (table.deliver generation d).2.boxes } := by
  unfold deliver
  cases table.boxes[generation]? with
  | none => rfl
  | some box => by_cases gone : box.hold = .gone <;> simp [gone]

theorem deliver_box (table : Table ρ) (generation g : Nat) (d : Delivery ρ) :
    (table.deliver generation d).2.boxes[g]? =
      if generation = g then (table.boxes[g]?).map (Box.accept d) else table.boxes[g]? := by
  unfold deliver
  by_cases same : generation = g
  · subst g
    cases found : table.boxes[generation]? with
    | none => simp [found]
    | some box => by_cases gone : box.hold = .gone <;> simp [gone, found, Box.accept]
  · cases found : table.boxes[generation]? with
    | none => simp [same]
    | some box =>
      by_cases gone : box.hold = .gone <;> simp [gone, same]

theorem deliver_rejected (table : Table ρ) (generation : Nat) (d : Delivery ρ) :
    (table.deliver generation d).1 =
      if ∃ box, table.boxes[generation]? = some box ∧ box.hold ≠ .gone then none else some d := by
  unfold deliver
  cases table.boxes[generation]? with
  | none => simp
  | some box => by_cases gone : box.hold = .gone <;> simp [gone]

/-! ## The table's end -/

theorem freeId_eq_some {entries : Std.TreeMap UInt16 Entry} {fuel : Nat} {start id : UInt16}
    (h : freeId entries fuel start = some id) : entries[id]? = none := by
  induction fuel generalizing start with
  | zero => simp [freeId] at h
  | succ fuel ih =>
    rw [freeId] at h
    split at h
    · exact ih h
    · next free =>
      rw [Option.some.inj h, Std.TreeMap.contains_eq_isSome_getElem?] at free
      exact Option.not_isSome_iff_eq_none.mp free

theorem fulfill_of_none {table : Table ρ} {id : UInt16} (absent : table.entries[id]? = none)
    (r : ρ) : table.fulfill id r =
      ((false, some r), table.count fun s => { s with anomalies := s.anomalies + 1 }) := by
  simp only [fulfill, take_of_none absent]

theorem fulfill_of_marked {table : Table ρ} {id : UInt16} {entry : Entry}
    (found : table.entries[id]? = some entry) (marked : entry.discard = true) (r : ρ) :
    table.fulfill id r = ((true, some r),
      (table.without id).count fun s => { s with discarded := s.discarded + 1 }) := by
  simp only [fulfill, take_of_some found, marked, ↓reduceIte]

theorem fulfill_of_live {table : Table ρ} {id : UInt16} {entry : Entry}
    (found : table.entries[id]? = some entry) (live : entry.discard = false) (r : ρ) :
    table.fulfill id r =
      ((true, ((table.without id).deliver entry.generation (.result r)).1.bind Delivery.result?),
        ((table.without id).deliver entry.generation (.result r)).2.count
          fun s => { s with fulfilled := s.fulfilled + 1 }) := by
  simp only [fulfill, take_of_some found, live, Bool.false_eq_true, ↓reduceIte, deliver_count]

theorem fail_of_none {table : Table ρ} {id : UInt16} (absent : table.entries[id]? = none)
    (e : InvocationError) : table.fail id e =
      (false, table.count fun s => { s with anomalies := s.anomalies + 1 }) := by
  simp only [fail, take_of_none absent]

theorem fail_of_some {table : Table ρ} {id : UInt16} {entry : Entry}
    (found : table.entries[id]? = some entry) (e : InvocationError) : table.fail id e =
      (true, ((table.without id).deliver entry.generation (.failed e)).2.count
        fun s => { s with failed := s.failed + 1 }) := by
  simp only [fail, take_of_some found, deliver_count]

theorem sever_of_none {table : Table ρ} {id : UInt16} (absent : table.entries[id]? = none)
    (reason : String) : sever reason table id = table := by
  simp only [sever, take_of_none absent]

theorem sever_of_some {table : Table ρ} {id : UInt16} {entry : Entry}
    (found : table.entries[id]? = some entry) (reason : String) : sever reason table id =
      ((table.without id).deliver entry.generation (.failed (.channelClosed reason))).2 := by
  simp only [sever, take_of_some found]

theorem failAll_keeps (P : Table ρ → Prop) {table : Table ρ} (reason : String) (h : P table)
    (keeps : ∀ table id, P table → P (sever reason table id)) : P (table.failAll reason).2 := by
  unfold failAll
  generalize table.entries.keys = ids
  induction ids generalizing table with
  | nil => exact h
  | cons id ids ih => exact ih (keeps table id h)

theorem proceedAsync_of_none {table : Table ρ} {id : UInt16}
    (absent : table.entries[id]? = none) : table.proceedAsync id =
      (false, table.count fun s => { s with anomalies := s.anomalies + 1 }) := by
  simp only [proceedAsync, absent]

theorem proceedAsync_of_some {table : Table ρ} {id : UInt16} {entry : Entry}
    (found : table.entries[id]? = some entry) :
    table.proceedAsync id = (true, table.resignal entry.generation .raise) := by
  simp only [proceedAsync, found]

/-! ## The slot's end -/

theorem box_of_holder {table : Table ρ} {slot : Slot} {hold : Hold}
    (h : table.holder? slot = some hold) :
    ∃ box, table.box? slot = some box ∧ box.id = slot.id ∧ box.hold = hold := by
  unfold holder? at h
  cases found : table.box? slot with
  | none => simp [found] at h
  | some box =>
    by_cases same : box.id = slot.id
    · exact ⟨box, rfl, same, by simpa [found, same] using h⟩
    · simp [found, same] at h

theorem holder_of_idle {table : Table ρ} {slot : Slot} (idle : table.Idle slot) :
    ∃ hold, table.holder? slot = some hold := by
  rcases idle with held | held
  · exact ⟨_, held⟩
  · exact ⟨_, held⟩

theorem claimed_of_holder {table : Table ρ} {slot : Slot} {hold : Hold}
    (h : table.holder? slot = some hold) : table.claimed slot = decide (hold ≠ .slot) := by
  obtain ⟨box, found, -, rfl⟩ := box_of_holder h
  simp only [claimed, found]

theorem claimed_of_gone {table : Table ρ} {slot : Slot} (gone : table.holder? slot = some .gone) :
    table.claimed slot = true := by
  rw [claimed_of_holder gone]
  rfl

theorem unclaimed_of_held {table : Table ρ} {slot : Slot} (held : table.holder? slot = some .slot) :
    table.claimed slot = false := by
  rw [claimed_of_holder held]
  rfl

theorem held_of_unclaimed {table : Table ρ} {slot : Slot} (idle : table.Idle slot)
    (unclaimed : table.claimed slot = false) : table.holder? slot = some .slot := by
  rcases idle with held | gone
  · exact held
  · cases (claimed_of_gone gone).symm.trans unclaimed

theorem gone_of_claimed {table : Table ρ} {slot : Slot} (idle : table.Idle slot)
    (claimed : table.claimed slot = true) : table.holder? slot = some .gone := by
  rcases idle with held | gone
  · cases (unclaimed_of_held held).symm.trans claimed
  · exact gone

theorem claim_of_arrived {table : Table ρ} {slot : Slot} {d : Delivery ρ}
    (arrived : table.arrival? slot = some d) :
    table.claim slot = (some d.toExcept, table.spend slot) := by
  simp only [claim, look, arrived]

theorem claim_of_empty {table : Table ρ} {slot : Slot} (empty : table.arrival? slot = none)
    (owned : table.owns slot = true) : table.claim slot = (none, table) := by
  simp only [claim, look, empty, owned, ↓reduceIte]

theorem claim_of_severed {table : Table ρ} {slot : Slot} (empty : table.arrival? slot = none)
    (lost : table.owns slot = false) :
    table.claim slot = (some (.error severedError), table.spend slot) := by
  have after : (table.spend slot).owns slot = false := lost
  simp only [claim, look, empty, lost, Bool.false_eq_true, ↓reduceIte, abandon_of_not_owns after]

/-- A wait goes on only while nothing arrived and the entry is there; a look then changes
nothing. -/
theorem of_claim_none {table after : Table ρ} {slot : Slot}
    (waits : table.claim slot = (none, after)) :
    after = table ∧ table.arrival? slot = none ∧ table.owns slot = true := by
  cases arrived : table.arrival? slot with
  | some d => simp [claim_of_arrived arrived] at waits
  | none =>
    cases owned : table.owns slot with
    | true =>
      rw [claim_of_empty arrived owned] at waits
      exact ⟨(Prod.mk.inj waits).2.symm, rfl, rfl⟩
    | false => simp [claim_of_severed arrived owned] at waits

theorem useSignal_cases (table : Table ρ) (slot : Slot) :
    ((table.useSignal slot).1 = false ∧ (table.useSignal slot).2 = table) ∨
      ∃ stored, (table.useSignal slot).1 = true ∧
        (table.useSignal slot).2 = table.resignal slot.generation fun _ => .idle stored := by
  unfold useSignal
  split
  · exact .inr ⟨_, rfl, rfl⟩
  · exact .inl ⟨rfl, rfl⟩

theorem of_useSignal_false {table after : Table ρ} {slot : Slot}
    (quiet : table.useSignal slot = (false, after)) : after = table := by
  rcases table.useSignal_cases slot with ⟨-, same⟩ | ⟨stored, told, -⟩
  · rw [← same, quiet]
  · rw [quiet] at told
    cases told

theorem arrival_resignal (table : Table ρ) (g : Nat) (f : Signals → Signals) (slot : Slot) :
    (table.resignal g f).arrival? slot = table.arrival? slot := by
  rw [arrival?, arrival?, box?, box?, resignal_box]
  by_cases own : g = slot.generation
  · rw [if_pos own]
    cases table.boxes[slot.generation]? <;> rfl
  · rw [if_neg own]

theorem holder_resignal (table : Table ρ) (g : Nat) (f : Signals → Signals) (slot : Slot) :
    (table.resignal g f).holder? slot = table.holder? slot := by
  rw [holder?, holder?, box?, box?, resignal_box]
  by_cases own : g = slot.generation
  · rw [if_pos own]
    cases table.boxes[slot.generation]? <;> rfl
  · rw [if_neg own]

theorem arrival_attend (table : Table ρ) (own slot : Slot) :
    (table.attend own).arrival? slot = table.arrival? slot :=
  arrival_resignal table own.generation .attend slot

theorem holder_attend (table : Table ρ) (own slot : Slot) :
    (table.attend own).holder? slot = table.holder? slot :=
  holder_resignal table own.generation .attend slot

theorem lookOn_of_some {table after : Table ρ} {slot : Slot} {result : Except InvocationError ρ}
    (found : table.claim slot = (some result, after)) (late : Bool) :
    table.lookOn slot late = (⟨.ended (result.map .ready), none, none⟩, after) := by
  simp only [lookOn, found]

theorem lookOn_of_none {table after : Table ρ} {slot : Slot}
    (empty : table.claim slot = (none, after)) (late : Bool) :
    table.lookOn slot late = after.giveUp slot late := by
  simp only [lookOn, empty]

theorem lookOrProceed_of_claimed {table : Table ρ} {slot : Slot}
    (claimed : table.claimed slot = true) (late : Bool) : table.lookOrProceed slot late =
      (⟨.ended (.error (.correlation (.alreadyClaimed slot.id))), none, none⟩, table) := by
  simp only [lookOrProceed, claimed, ↓reduceIte]

theorem lookOrProceed_of_some {table after : Table ρ} {slot : Slot}
    {result : Except InvocationError ρ} (unclaimed : table.claimed slot = false)
    (found : (table.attend slot).claim slot = (some result, after)) (late : Bool) :
    table.lookOrProceed slot late = (⟨.ended (result.map .ready), none, none⟩, after) := by
  cases result <;>
    simp only [lookOrProceed, unclaimed, Bool.false_eq_true, ↓reduceIte, claimOrProceed, found,
      Except.map]

theorem lookOrProceed_of_arrived {table : Table ρ} {slot : Slot} {d : Delivery ρ}
    (unclaimed : table.claimed slot = false) (arrived : table.arrival? slot = some d) (late : Bool) :
    table.lookOrProceed slot late =
      (⟨.ended (d.toExcept.map .ready), none, none⟩, (table.attend slot).spend slot) :=
  lookOrProceed_of_some unclaimed
    (claim_of_arrived ((arrival_attend table slot slot).trans arrived)) late

theorem lookOrProceed_of_signal {table after proceeded : Table ρ} {slot : Slot}
    (unclaimed : table.claimed slot = false)
    (empty : (table.attend slot).claim slot = (none, after))
    (signal : after.useSignal slot = (true, proceeded)) (late : Bool) :
    table.lookOrProceed slot late = (⟨.ended (.ok .proceedAsync), none, none⟩, proceeded) := by
  simp only [lookOrProceed, unclaimed, Bool.false_eq_true, ↓reduceIte, claimOrProceed, empty, signal]

theorem lookOrProceed_of_none {table after quiet : Table ρ} {slot : Slot}
    (unclaimed : table.claimed slot = false)
    (empty : (table.attend slot).claim slot = (none, after))
    (signal : after.useSignal slot = (false, quiet)) (late : Bool) :
    table.lookOrProceed slot late = quiet.giveUp slot late := by
  simp only [lookOrProceed, unclaimed, Bool.false_eq_true, ↓reduceIte, claimOrProceed, empty, signal]

/-- A look that minds signals is refused, or it attends to the box, and then it is a look of a wait
or a signal is used. -/
theorem lookOrProceed_cases (table : Table ρ) (slot : Slot) (late : Bool) :
    (table.claimed slot = true ∧ table.lookOrProceed slot late =
      (⟨.ended (.error (.correlation (.alreadyClaimed slot.id))), none, none⟩, table)) ∨
    (table.claimed slot = false ∧
      table.lookOrProceed slot late = (table.attend slot).lookOn slot late) ∨
    (table.claimed slot = false ∧ ((table.attend slot).useSignal slot).1 = true ∧
      table.lookOrProceed slot late = (⟨.ended (.ok .proceedAsync), none, none⟩,
        ((table.attend slot).useSignal slot).2)) := by
  cases claimed : table.claimed slot with
  | true => exact .inl ⟨rfl, lookOrProceed_of_claimed claimed late⟩
  | false =>
    cases found : (table.attend slot).claim slot with
    | mk result after =>
      cases result with
      | some result =>
        rw [lookOrProceed_of_some claimed found, lookOn_of_some found]
        exact .inr (.inl ⟨rfl, rfl⟩)
      | none =>
        obtain ⟨rfl, -⟩ := of_claim_none found
        cases used : (table.attend slot).useSignal slot with
        | mk told proceeded =>
          cases told with
          | true =>
            rw [lookOrProceed_of_signal claimed found used]
            exact .inr (.inr ⟨rfl, rfl, rfl⟩)
          | false =>
            obtain rfl := of_useSignal_false used
            rw [lookOrProceed_of_none claimed found used, lookOn_of_none found]
            exact .inr (.inl ⟨rfl, rfl⟩)

theorem expire_of_owns {table : Table ρ} {slot : Slot} (owned : table.owns slot = true) :
    table.expire slot = (.timeout slot.id, ((table.spend slot).without slot.id).count
      fun s => { s with timeouts := s.timeouts + 1 }) := by
  have after : (table.spend slot).owns slot = true := owned
  simp only [expire, takeOwn_of_owns after]

theorem expire_of_not_owns {table : Table ρ} {slot : Slot} (lost : table.owns slot = false) :
    table.expire slot = (.timeout slot.id, table.spend slot) := by
  have after : (table.spend slot).owns slot = false := lost
  simp only [expire, takeOwn_of_not_owns after]

theorem cancel_of_owns {table : Table ρ} {slot : Slot} (owned : table.owns slot = true) :
    table.cancel slot =
      (true, ((table.without slot.id).deliver slot.generation (.failed (.cancelled slot.id))).2.count
        fun s => { s with cancelled := s.cancelled + 1 }) := by
  simp only [cancel, takeOwn_of_owns owned, deliver_count]

theorem cancel_of_not_owns {table : Table ρ} {slot : Slot} (lost : table.owns slot = false) :
    table.cancel slot = (false, table) := by
  simp only [cancel, takeOwn_of_not_owns lost]

theorem discard_of_owns {table : Table ρ} {slot : Slot} (owned : table.owns slot = true) :
    table.discard slot = (none, table.givenUp slot) := by
  simp only [discard, owned, ↓reduceIte, givenUp]

theorem discard_of_unread {table : Table ρ} {slot : Slot} {d : Delivery ρ}
    (lost : table.owns slot = false) (unread : table.unread slot = some d) :
    table.discard slot = (d.result?,
      (table.closeBox slot).count fun s => { s with discarded := s.discarded + 1 }) := by
  simp only [discard, lost, Bool.false_eq_true, ↓reduceIte, unread]
  rfl

theorem discard_of_read {table : Table ρ} {slot : Slot} (lost : table.owns slot = false)
    (read : table.unread slot = none) : table.discard slot = (none, table.closeBox slot) := by
  simp only [discard, lost, Bool.false_eq_true, ↓reduceIte, read]

end Table

end Farcall
