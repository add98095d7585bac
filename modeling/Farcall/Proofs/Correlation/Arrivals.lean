import Farcall.Proofs.Correlation.Stretches

set_option autoImplicit false

/-!
# What lies in a box

A registration whose entry is gone is reached by nobody but its slot. So what has arrived in a box,
a result or a failure, lies there until the box is read, whatever else is done to the table. Failing
everything empties the table of entries, and puts the failure into every box that waited.
-/

namespace Farcall.Table

variable {ρ : Type} {table after : Table ρ} {op : Op ρ} {slot : Slot} {d : Delivery ρ}

/-! ## Boxes without an entry -/

theorem arrival_congr (same : after.boxes[slot.generation]? = table.boxes[slot.generation]?) :
    after.arrival? slot = table.arrival? slot := by
  rw [arrival?, arrival?, box?, box?, same]

theorem arrival_of_generation {other : Slot} (same : other.generation = slot.generation) :
    table.arrival? other = table.arrival? slot := by
  rw [arrival?, arrival?, box?, box?, same]

theorem arrival_of_modify (g : Nat) (f : Box ρ → Box ρ) (kept : ∀ box, (f box).arrived = box.arrived)
    (slot : Slot) :
    arrival? { table with boxes := table.boxes.modify g f } slot = table.arrival? slot := by
  simp only [arrival?, box?, modify_box]
  split
  · cases table.boxes[slot.generation]? with
    | none => rfl
    | some box => exact kept box
  · rfl

theorem arrival_setHold (table : Table ρ) (other slot : Slot) (hold : Hold) :
    (table.setHold other hold).arrival? slot = table.arrival? slot :=
  arrival_of_modify other.generation (fun box => { box with hold }) (fun _ => rfl) slot

theorem arrival_useSignal (table : Table ρ) (other slot : Slot) :
    (table.useSignal other).2.arrival? slot = table.arrival? slot := by
  rcases table.useSignal_cases other with ⟨-, same⟩ | ⟨stored, -, same⟩
  · rw [same]
  · rw [same]
    exact arrival_resignal table _ _ slot

theorem Coupled.not_hasEntry_of_arrival (c : table.Coupled)
    (arrived : table.arrival? slot = some d) : ¬ table.HasEntry slot.generation := by
  rintro ⟨id, entry, found, own⟩
  obtain ⟨box, at_g, full⟩ := Option.bind_eq_some_iff.mp arrived
  obtain ⟨-, -, empty⟩ := c.awaited id entry box found (own ▸ at_g)
  rw [empty] at full
  cases full

theorem box_deliver_of_no_entry {g : Nat} {id : UInt16} {entry : Entry}
    (gone : ¬ table.HasEntry g) (found : table.entries[id]? = some entry) (d : Delivery ρ) :
    ((table.without id).deliver entry.generation d).2.boxes[g]? = table.boxes[g]? := by
  rw [deliver_box, if_neg fun own => gone ⟨id, entry, found, own⟩]
  rfl

theorem box_sever_of_no_entry {g : Nat} (gone : ¬ table.HasEntry g) (reason : String)
    (id : UInt16) : (sever reason table id).boxes[g]? = table.boxes[g]? ∧
      ¬ (sever reason table id).HasEntry g := by
  cases found : table.entries[id]? with
  | none =>
    rw [sever_of_none found]
    exact ⟨rfl, gone⟩
  | some entry =>
    rw [sever_of_some found]
    refine ⟨box_deliver_of_no_entry gone found _, ?_⟩
    intro stands
    rw [deliver_eq] at stands
    exact gone (hasEntry_of_without stands)

theorem box_of_no_entry {g : Nat} (gone : ¬ table.HasEntry g) (old : g < table.nextGeneration)
    (nobody : op.slot? = none) : (table.perform op).2.boxes[g]? = table.boxes[g]? := by
  cases op with
  | register =>
    rcases register_cases table with ⟨e, refused⟩ | ⟨id, -, registered⟩
    · rw [perform, refused]
    · rw [perform, registered]
      dsimp only
      rw [enter_box, if_neg (Nat.ne_of_gt old)]
  | fulfill id r =>
    rw [perform]
    cases found : table.entries[id]? with
    | none =>
      rw [fulfill_of_none found]
      rfl
    | some entry =>
      cases marked : entry.discard with
      | true =>
        rw [fulfill_of_marked found marked]
        rfl
      | false =>
        rw [fulfill_of_live found marked]
        exact box_deliver_of_no_entry gone found _
  | fail id e =>
    rw [perform]
    cases found : table.entries[id]? with
    | none =>
      rw [fail_of_none found]
      rfl
    | some entry =>
      rw [fail_of_some found]
      exact box_deliver_of_no_entry gone found _
  | failAll reason =>
    have swept := failAll_keeps
      (fun after => after.boxes[g]? = table.boxes[g]? ∧ ¬ after.HasEntry g) reason ⟨rfl, gone⟩
      fun after id h =>
        have step := box_sever_of_no_entry h.2 reason id
        ⟨step.1.trans h.1, step.2⟩
    exact swept.1
  | proceedAsync id =>
    rw [perform]
    cases found : table.entries[id]? with
    | none =>
      rw [proceedAsync_of_none found]
      rfl
    | some entry =>
      rw [proceedAsync_of_some found]
      dsimp only
      rw [resignal_box, if_neg fun own => gone ⟨id, entry, found, own⟩]
  | _ => cases nobody

/-! ## How long an arrival stays -/

theorem Coupled.old_of_arrival (c : table.Coupled) (arrived : table.arrival? slot = some d) :
    slot.generation < table.nextGeneration := by
  obtain ⟨box, at_g, -⟩ := Option.bind_eq_some_iff.mp arrived
  exact c.known _ box at_g

theorem not_read_closeBox (table : Table ρ) (slot : Slot) :
    ¬ (table.closeBox slot).Read slot.generation := by
  rintro ⟨box, found, -⟩
  rw [closeBox_box, if_pos rfl] at found
  cases found

theorem not_read_drop (table : Table ρ) (slot : Slot) :
    ¬ (table.drop slot).2.Read slot.generation := by
  unfold drop
  split
  · exact not_read_closeBox table slot
  · exact not_read_closeBox _ slot

theorem not_read_discard (table : Table ρ) (slot : Slot) :
    ¬ (table.discard slot).2.Read slot.generation := by
  unfold discard
  split
  · exact not_read_closeBox _ slot
  · split
    · exact not_read_closeBox _ slot
    · exact not_read_closeBox table slot

theorem not_read_lookOn (arrived : table.arrival? slot = some d) (late : Bool) :
    ¬ (table.lookOn slot late).2.Read slot.generation := by
  rw [lookOn_of_some (claim_of_arrived arrived)]
  exact not_read_spend table slot

theorem arrival_of_own_op (c : table.Coupled) (by_slot : op.slot? = some slot)
    (arrived : table.arrival? slot = some d) (read : (table.perform op).2.Read slot.generation) :
    (table.perform op).2.arrival? slot = some d := by
  cases op with
  | beginWait own =>
    obtain rfl := Option.some.inj by_slot
    cases claimed : table.claimed own with
    | true =>
      simp only [perform, beginWait, claimed, ↓reduceIte]
      exact arrived
    | false =>
      simp only [perform, beginWait, claimed, Bool.false_eq_true, ↓reduceIte]
      exact (arrival_setHold table own own .wait).trans arrived
  | look own late =>
    obtain rfl := Option.some.inj by_slot
    exact absurd read (not_read_lookOn arrived late)
  | breakOff own =>
    obtain rfl := Option.some.inj by_slot
    exact absurd read (not_read_spend table own)
  | lookOrProceed own late =>
    obtain rfl := Option.some.inj by_slot
    have attended := (arrival_attend table own own).trans arrived
    rw [perform] at read ⊢
    rcases lookOrProceed_cases table own late with ⟨-, same⟩ | ⟨-, same⟩ | ⟨-, -, same⟩
    · rw [same]
      exact arrived
    · rw [same] at read
      exact absurd read (not_read_lookOn attended late)
    · rw [same]
      exact (arrival_useSignal _ own own).trans attended
  | letGo own =>
    obtain rfl := Option.some.inj by_slot
    exact (arrival_resignal table _ _ own).trans arrived
  | cancel own =>
    obtain rfl := Option.some.inj by_slot
    have lost := c.not_owns_of_arrival (by rw [arrived]; exact Option.some_ne_none d)
    rw [perform, cancel_of_not_owns lost]
    exact arrived
  | discard own =>
    obtain rfl := Option.some.inj by_slot
    exact absurd read (not_read_discard table own)
  | drop own =>
    obtain rfl := Option.some.inj by_slot
    exact absurd read (not_read_drop table own)
  | _ => cases by_slot

/-- What has arrived in a box lies there as long as somebody reads the box. -/
theorem arrival_lasts (c : table.Coupled) (arrived : table.arrival? slot = some d)
    (read : (table.perform op).2.Read slot.generation) :
    (table.perform op).2.arrival? slot = some d := by
  cases by_slot : op.slot? with
  | none =>
    have gone := c.not_hasEntry_of_arrival arrived
    exact (arrival_congr (box_of_no_entry gone (c.old_of_arrival arrived) by_slot)).trans arrived
  | some own =>
    by_cases same : own.generation = slot.generation
    · rw [← same] at read
      rw [← arrival_of_generation same] at arrived ⊢
      exact arrival_of_own_op c by_slot arrived read
    · exact (arrival_congr ((within_perform by_slot).boxes _ (Ne.symm same))).trans arrived

theorem Stretch.arrival_lasts {kind : Op ρ → Prop} {before : Table ρ}
    (h : Stretch kind before table) (start : before.Sound)
    (arrived : before.arrival? slot = some d) (read : table.Read slot.generation) :
    table.arrival? slot = some d := by
  induction h with
  | refl => exact arrived
  | step earlier _ allowed ih =>
    have known := Nat.lt_of_lt_of_le (start.old_of_arrival arrived) earlier.elder.next_le
    have still := (elder_perform allowed).readers _ known read
    exact Table.arrival_lasts (earlier.sound start).toCoupled (ih still) read

/-! ## Failing everything -/

def Vacant (table : Table ρ) : Prop := ∀ id : UInt16, table.entries[id]? = none

theorem Vacant.not_owns (vacant : table.Vacant) (slot : Slot) : table.owns slot = false := by
  cases owned : table.owns slot with
  | false => rfl
  | true =>
    obtain ⟨entry, found, -⟩ := owns_iff.mp owned
    rw [vacant] at found
    cases found

theorem Vacant.of_elder (vacant : table.Vacant) (elder : Elder table after)
    (next : after.nextGeneration = table.nextGeneration) (c : after.Coupled) : after.Vacant := by
  intro id
  cases found : after.entries[id]? with
  | none => rfl
  | some entry =>
    have old := c.fresh id entry found
    rw [next] at old
    obtain ⟨k, was, stood, -⟩ := elder.entries _ old ⟨id, entry, found, rfl⟩
    rw [vacant] at stood
    cases stood

theorem sever_entry (reason : String) (table : Table ρ) (id k : UInt16) :
    (sever reason table id).entries[k]? = if id = k then none else table.entries[k]? := by
  cases found : table.entries[id]? with
  | none =>
    rw [sever_of_none found]
    split
    · next same => rw [← same, found]
    · rfl
  | some entry => rw [sever_of_some found, deliver_eq, without_entry]

theorem vacant_failAll (table : Table ρ) (reason : String) : (table.failAll reason).2.Vacant := by
  have swept : ∀ (ids : List UInt16) (table : Table ρ) (k : UInt16),
      (ids.foldl (sever reason) table).entries[k]? =
        if k ∈ ids then none else table.entries[k]? := by
    intro ids
    induction ids with
    | nil => intro table k; rfl
    | cons id ids ih =>
      intro table k
      rw [List.foldl_cons, ih, sever_entry]
      by_cases later : k ∈ ids
      · rw [if_pos later, if_pos (List.mem_cons_of_mem _ later)]
      · by_cases own : id = k
        · rw [if_neg later, if_pos own, if_pos (own ▸ List.mem_cons_self)]
        · have other : k ∉ id :: ids := by
            rw [List.mem_cons]
            exact fun either => either.elim (fun same => own same.symm) later
          rw [if_neg later, if_neg own, if_neg other]
  intro k
  rw [failAll, swept]
  split
  · rfl
  · next absent =>
    rw [Std.TreeMap.mem_keys] at absent
    exact Std.TreeMap.getElem?_eq_none absent

theorem arrival_failAll {hold : Hold} (held : table.holder? slot = some hold)
    (reads : hold ≠ .gone) (owned : table.owns slot = true) (reason : String) :
    (table.failAll reason).2.arrival? slot = some (.failed (.channelClosed reason)) := by
  -- until the entry is removed the slot owns it, and from then on the failure is there
  have swept := failAll_keeps (fun after => after.holder? slot = some hold ∧
    (after.owns slot = true ∨ after.arrival? slot = some (.failed (.channelClosed reason))))
    reason ⟨held, .inl owned⟩ ?_
  · rcases swept.2 with owned | arrived
    · rw [(vacant_failAll table reason).not_owns] at owned
      cases owned
    · exact arrived
  · rintro after id ⟨held, told⟩
    cases found : after.entries[id]? with
    | none =>
      rw [sever_of_none found]
      exact ⟨held, told⟩
    | some entry =>
      rw [sever_of_some found]
      refine ⟨(holder_deliver _ _ _ _).trans held, ?_⟩
      by_cases own : entry.generation = slot.generation
      · obtain ⟨box, at_g, -, hold⟩ := box_of_holder held
        rw [box?] at at_g
        refine .inr ?_
        rw [arrival?, box?, deliver_box, if_pos own, without_boxes, at_g, Option.map_some,
          Option.bind_some, Box.accept, if_neg (hold ▸ reads)]
      · rcases told with owned | arrived
        · refine .inl ?_
          obtain ⟨mine, found', same⟩ := owns_iff.mp owned
          have other : id ≠ slot.id := by
            intro here
            rw [← here, found] at found'
            exact own (Option.some.inj found' ▸ same)
          rw [deliver_eq]
          exact owns_iff.mpr ⟨mine, by rw [without_entry, if_neg other]; exact found', same⟩
        · refine .inr ((arrival_congr ?_).trans arrived)
          rw [deliver_box, if_neg own]
          rfl

end Farcall.Table
