import Farcall.Proofs.Correlation.Origins

set_option autoImplicit false

/-!
# Signals to proceed

A signal gets into the box of a slot by a notification that meets the slot's own entry, and each look
that is told to proceed takes one out. A box that has one stored takes no second one, and two if a
wait is under way; so a slot is told to proceed no more often than it was notified. Being told so it
loses nothing but the signal.
-/

namespace Farcall

variable {ρ : Type}

namespace Signals

theorem size_attend (s : Signals) : s.attend.size = s.size := by
  cases s with
  | idle stored => cases stored <;> rfl
  | awaited => rfl
  | handed stored => rfl

theorem size_leave_le (s : Signals) : s.leave.size ≤ s.size := by
  cases s <;> simp [leave, size]

theorem size_raise_le (s : Signals) : s.raise.size ≤ s.size + 1 := by
  cases s <;> simp [raise, size]

end Signals

namespace Moment

def proceeds (moment : Moment ρ) (slot : Slot) : Bool :=
  moment.op.waiter? = some slot &&
    match moment.effect.answer with
    | .ended (.ok .proceedAsync) => true
    | _ => false

/-- A signal to proceed met the slot's own entry. -/
def signals (moment : Moment ρ) (slot : Slot) : Bool :=
  match moment.op with
  | .proceedAsync id => id = slot.id && moment.before.owns slot
  | _ => false

end Moment

namespace Table

variable {table after : Table ρ} {op : Op ρ} {slot : Slot}

/-! ## How many signals a box has -/

def signalsAt (table : Table ρ) (g : Nat) : Nat := (table.boxes[g]?).elim 0 (·.signals.size)

def signalsOf (table : Table ρ) (slot : Slot) : Nat :=
  if (table.holder? slot).isSome then table.signalsAt slot.generation else 0

theorem signalsAt_of_some {g : Nat} {box : Box ρ} (found : table.boxes[g]? = some box) :
    table.signalsAt g = box.signals.size := by
  rw [signalsAt, found]
  rfl

theorem exists_box_of_signalsAt {g : Nat} (some : 0 < table.signalsAt g) :
    ∃ box, table.boxes[g]? = .some box := by
  cases found : table.boxes[g]? with
  | none =>
    rw [signalsAt, found] at some
    cases some
  | some box => exact ⟨box, rfl⟩

/-- No box has more signals than before. -/
def Quieter (before after : Table ρ) : Prop := ∀ g, after.signalsAt g ≤ before.signalsAt g

theorem Quieter.of_boxes (same : after.boxes = table.boxes) : Quieter table after := by
  intro g
  rw [signalsAt, same]
  exact Nat.le_refl _

theorem Quieter.trans {before : Table ρ} (h : Quieter before table) (h' : Quieter table after) :
    Quieter before after := fun g => Nat.le_trans (h' g) (h g)

theorem Quieter.of_modify {k : Nat} {f : Box ρ → Box ρ}
    (boxes : ∀ g : Nat,
      after.boxes[g]? = if k = g then (table.boxes[g]?).map f else table.boxes[g]?)
    (less : ∀ box, (f box).signals.size ≤ box.signals.size) : Quieter table after := by
  intro g
  rw [signalsAt, signalsAt, boxes]
  by_cases own : k = g
  · rw [if_pos own]
    cases table.boxes[g]? with
    | none => exact Nat.le_refl 0
    | some box => exact less box
  · refine Nat.le_of_eq ?_
    rw [if_neg own]

theorem quieter_deliver (table : Table ρ) (g : Nat) (given : Delivery ρ) :
    Quieter table (table.deliver g given).2 := by
  refine .of_modify (fun k => deliver_box table g k given) fun box => ?_
  unfold Box.accept
  split <;> exact Nat.le_refl _

theorem quieter_spend (table : Table ρ) (slot : Slot) : Quieter table (table.spend slot) :=
  .of_modify (spend_box table slot) fun box => box.signals.size_leave_le

theorem quieter_letGo (table : Table ρ) (slot : Slot) : Quieter table (table.letGo slot) :=
  .of_modify (fun g => resignal_box table slot.generation g .leave) fun box =>
    box.signals.size_leave_le

theorem quieter_closeBox (table : Table ρ) (slot : Slot) : Quieter table (table.closeBox slot) := by
  intro g
  rw [signalsAt, closeBox_box]
  split
  · exact Nat.zero_le _
  · exact Nat.le_refl _

theorem quieter_without_deliver (table : Table ρ) (id : UInt16) (g : Nat) (given : Delivery ρ) :
    Quieter table ((table.without id).deliver g given).2 :=
  quieter_deliver (table.without id) g given

theorem quieter_lookOn (table : Table ρ) (slot : Slot) (late : Bool) :
    Quieter table (table.lookOn slot late).2 := by
  cases arrived : table.arrival? slot with
  | some d =>
    rw [lookOn_of_some (claim_of_arrived arrived)]
    exact quieter_spend table slot
  | none =>
    cases owned : table.owns slot with
    | false =>
      rw [lookOn_of_some (claim_of_severed arrived owned)]
      exact quieter_spend table slot
    | true =>
      rw [lookOn_of_none (claim_of_empty arrived owned)]
      cases late with
      | false => exact .of_boxes rfl
      | true =>
        rw [giveUp, if_pos rfl, expire_of_owns owned]
        exact quieter_spend table slot

theorem signalsAt_attend (table : Table ρ) (slot : Slot) (g : Nat) :
    (table.attend slot).signalsAt g = table.signalsAt g := by
  rw [signalsAt, signalsAt, attend, resignal_box]
  split
  · cases table.boxes[g]? with
    | none => rfl
    | some box => exact box.signals.size_attend
  · rfl

theorem quieter_attend (table : Table ρ) (slot : Slot) : Quieter table (table.attend slot) :=
  fun g => Nat.le_of_eq (signalsAt_attend table slot g)

/-- A wait that is told to proceed takes one signal out of its box, and none out of another. -/
theorem signalsAt_of_used (used : (table.useSignal slot).1 = true) (g : Nat) :
    (table.useSignal slot).2.signalsAt g + (if slot.generation = g then 1 else 0) =
      table.signalsAt g := by
  unfold useSignal at used ⊢
  split at used
  · next id arrived stored hold found =>
    rw [box?] at found
    rw [signalsAt, resignal_box]
    by_cases own : slot.generation = g
    · subst own
      rw [if_pos rfl, if_pos rfl, signalsAt_of_some found, found]
      rfl
    · rw [if_neg own, if_neg own]
      rfl
  · cases used

theorem quieter_of_used (used : (table.useSignal slot).1 = true) :
    Quieter table (table.useSignal slot).2 := fun g => by
  rw [← signalsAt_of_used used g]
  exact Nat.le_add_right _ _

/-- Signals come with notifications, and with nothing else. -/
theorem quieter_perform (op : Op ρ) (other : ∀ id, op ≠ .proceedAsync id) :
    Quieter table (table.perform op).2 := by
  cases op with
  | register =>
    rcases register_cases table with ⟨e, refused⟩ | ⟨id, -, registered⟩
    · rw [perform, refused]
      exact .of_boxes rfl
    · rw [perform, registered]
      intro g
      rw [signalsAt, enter_box]
      split
      · exact Nat.zero_le _
      · exact Nat.le_refl _
  | fulfill id r =>
    rw [perform]
    cases found : table.entries[id]? with
    | none =>
      rw [fulfill_of_none found]
      exact .of_boxes rfl
    | some entry =>
      cases marked : entry.discard with
      | true =>
        rw [fulfill_of_marked found marked]
        exact .of_boxes rfl
      | false =>
        rw [fulfill_of_live found marked]
        exact quieter_without_deliver table id _ _
  | fail id e =>
    rw [perform]
    cases found : table.entries[id]? with
    | none =>
      rw [fail_of_none found]
      exact .of_boxes rfl
    | some entry =>
      rw [fail_of_some found]
      exact quieter_without_deliver table id _ _
  | failAll reason =>
    refine failAll_keeps (Quieter table) reason (.of_boxes rfl) fun after id before => ?_
    refine before.trans ?_
    cases found : after.entries[id]? with
    | none =>
      rw [sever_of_none found]
      exact .of_boxes rfl
    | some entry =>
      rw [sever_of_some found]
      exact quieter_without_deliver after id _ _
  | proceedAsync id => exact absurd rfl (other id)
  | beginWait slot =>
    cases claimed : table.claimed slot with
    | true =>
      simp only [perform, beginWait, claimed, ↓reduceIte]
      exact .of_boxes rfl
    | false =>
      simp only [perform, beginWait, claimed, Bool.false_eq_true, ↓reduceIte]
      exact .of_modify (fun g => modify_box table.boxes slot.generation g _) fun _ => Nat.le_refl _
  | look slot late => exact quieter_lookOn table slot late
  | breakOff slot => exact quieter_spend table slot
  | lookOrProceed slot late =>
    rw [perform]
    rcases lookOrProceed_cases table slot late with ⟨-, same⟩ | ⟨-, same⟩ | ⟨-, used, same⟩
    · rw [same]
      exact .of_boxes rfl
    · rw [same]
      exact (quieter_attend table slot).trans (quieter_lookOn (table.attend slot) slot late)
    · rw [same]
      exact (quieter_attend table slot).trans (quieter_of_used used)
  | letGo slot => exact quieter_letGo table slot
  | cancel slot =>
    rw [perform]
    cases owned : table.owns slot with
    | false =>
      rw [cancel_of_not_owns owned]
      exact .of_boxes rfl
    | true =>
      rw [cancel_of_owns owned]
      exact quieter_without_deliver table slot.id _ _
  | discard slot =>
    rw [perform]
    unfold discard
    split
    · exact quieter_closeBox _ slot
    · split
      · exact quieter_closeBox _ slot
      · exact quieter_closeBox table slot
  | drop slot =>
    rw [perform]
    unfold drop
    split
    · exact quieter_closeBox table slot
    · refine Quieter.trans ?_ (quieter_closeBox _ slot)
      cases owned : table.owns slot with
      | true =>
        rw [abandon_of_owns owned]
        exact .of_boxes rfl
      | false =>
        rw [abandon_of_not_owns owned]
        exact .of_boxes rfl

theorem signalsOf_le_signalsAt (table : Table ρ) (slot : Slot) :
    table.signalsOf slot ≤ table.signalsAt slot.generation := by
  unfold signalsOf
  split
  · exact Nat.le_refl _
  · exact Nat.zero_le _

theorem signalsOf_of_hasSlot (known : table.HasSlot slot) :
    table.signalsOf slot = table.signalsAt slot.generation := by
  obtain ⟨hold, held⟩ := known
  rw [signalsOf, held]
  rfl

theorem signalsOf_proceedAsync (c : table.Coupled) (id : UInt16) (slot : Slot) :
    (table.proceedAsync id).2.signalsOf slot ≤
      table.signalsOf slot + ((⟨table, .proceedAsync id⟩ : Moment ρ).signals slot).toNat := by
  cases at_id : table.entries[id]? with
  | none =>
    rw [proceedAsync_of_none at_id]
    exact Nat.le_add_right _ _
  | some entry =>
    rw [proceedAsync_of_some at_id, signalsOf, signalsOf, holder_resignal]
    cases held : table.holder? slot with
    | none => exact Nat.zero_le _
    | some hold =>
      obtain ⟨box, found, same, -⟩ := box_of_holder held
      rw [box?] at found
      rw [Option.isSome_some, if_pos rfl, if_pos rfl, signalsAt, resignal_box]
      by_cases own : entry.generation = slot.generation
      · have met : id = slot.id := (c.awaited id entry box at_id (own ▸ found)).2.1.symm.trans same
        have owned : table.owns slot = true := owns_iff.mpr ⟨entry, met ▸ at_id, own⟩
        have signal : (⟨table, .proceedAsync id⟩ : Moment ρ).signals slot = true :=
          Bool.and_eq_true_iff.mpr ⟨decide_eq_true met, owned⟩
        rw [if_pos own, found, signal, signalsAt_of_some found]
        exact box.signals.size_raise_le
      · rw [if_neg own]
        exact Nat.le_add_right _ _

theorem signalsOf_perform (sound : table.Sound) (allowed : table.Allowed op) (slot : Slot) :
    (table.perform op).2.signalsOf slot ≤
      table.signalsOf slot + ((⟨table, op⟩ : Moment ρ).signals slot).toNat := by
  have c := sound.toCoupled
  by_cases notified : ∃ id, op = .proceedAsync id
  · obtain ⟨id, rfl⟩ := notified
    exact signalsOf_proceedAsync c id slot
  · have quieter : Quieter table (table.perform op).2 :=
      quieter_perform op fun id same => notified ⟨id, same⟩
    have fewer := quieter slot.generation
    have at_most := signalsOf_le_signalsAt (table.perform op).2 slot
    cases held : (table.perform op).2.holder? slot with
    | none =>
      rw [signalsOf, held]
      exact Nat.zero_le _
    | some hold =>
      rcases Nat.eq_zero_or_pos (table.signalsAt slot.generation) with none | some
      · omega
      -- a box keeps its id, so the one that had signals before was the slot's
      · obtain ⟨box, found, same, -⟩ := box_of_holder held
        obtain ⟨old, before⟩ := exists_box_of_signalsAt some
        obtain ⟨old', before', same'⟩ := keepsIds_perform allowed _ (c.known _ old before) box found
        have known : table.HasSlot slot := ⟨old'.hold, by
          rw [holder?, box?, before']
          exact if_pos (same'.trans same)⟩
        rw [signalsOf_of_hasSlot known]
        omega

theorem not_proceeds_of_lookOn (table : Table ρ) (slot : Slot) (late : Bool) :
    (table.lookOn slot late).1.answer ≠ .ended (.ok .proceedAsync) := by
  cases found : table.claim slot with
  | mk result after =>
    cases result with
    | some result =>
      rw [lookOn_of_some found]
      cases result <;> simp [Except.map]
    | none =>
      rw [lookOn_of_none found]
      cases late <;> simp [giveUp]

/-- Only a signal tells a wait to proceed, and only where nothing has arrived. -/
theorem of_proceeds (proceeds : (⟨table, op⟩ : Moment ρ).proceeds slot = true) :
    (∃ late, op = .lookOrProceed slot late) ∧ table.claimed slot = false ∧
      table.arrival? slot = none ∧ ((table.attend slot).useSignal slot).1 = true ∧
      (table.perform op).2 = ((table.attend slot).useSignal slot).2 := by
  unfold Moment.proceeds at proceeds
  rw [Bool.and_eq_true_iff, decide_eq_true_iff] at proceeds
  obtain ⟨waiter, answer⟩ := proceeds
  split at answer
  · next proceeded =>
    change (table.perform op).1.answer = _ at proceeded
    cases op with
    | beginWait own =>
      cases claimed : table.claimed own <;>
        simp [perform, beginWait, claimed] at proceeded
    | look own late => exact absurd proceeded (not_proceeds_of_lookOn table own late)
    | lookOrProceed own late =>
      obtain rfl := Option.some.inj waiter
      rw [perform] at proceeded ⊢
      rcases lookOrProceed_cases table own late with ⟨-, same⟩ | ⟨-, same⟩ | ⟨unclaimed, used, same⟩
      · rw [same] at proceeded
        cases proceeded
      · rw [same] at proceeded
        exact absurd proceeded (not_proceeds_of_lookOn (table.attend own) own late)
      · refine ⟨⟨late, rfl⟩, unclaimed, ?_, used, by rw [same]⟩
        cases arrived : table.arrival? own with
        | none => rfl
        | some d =>
          rw [lookOrProceed_of_arrived unclaimed arrived] at proceeded
          cases d <;> simp [Delivery.toExcept, Except.map] at proceeded
    | _ => cases waiter
  · cases answer

theorem proceeds_spares (allowed : table.Allowed op)
    (proceeds : (⟨table, op⟩ : Moment ρ).proceeds slot = true) :
    table.arrival? slot = none ∧ (table.perform op).2.holder? slot = some .slot ∧
      (table.perform op).2.entries = table.entries ∧
      ∀ k, (table.perform op).2.arrival? k = table.arrival? k ∧
        (table.perform op).2.holder? k = table.holder? k := by
  obtain ⟨⟨late, rfl⟩, unclaimed, nothing, -, after⟩ := of_proceeds proceeds
  have held := held_of_unclaimed allowed unclaimed
  have same : ∀ k, (table.perform (.lookOrProceed slot late)).2.arrival? k = table.arrival? k ∧
      (table.perform (.lookOrProceed slot late)).2.holder? k = table.holder? k := by
    intro k
    rw [after, arrival_useSignal, holder_useSignal]
    exact ⟨arrival_attend table slot k, holder_attend table slot k⟩
  refine ⟨nothing, (same slot).2.trans held, ?_, same⟩
  rw [after]
  unfold useSignal
  split <;> rfl

theorem signals_step (sound : table.Sound) (allowed : table.Allowed op) (slot : Slot) :
    ((⟨table, op⟩ : Moment ρ).proceeds slot).toNat + (table.perform op).2.signalsOf slot ≤
      table.signalsOf slot + ((⟨table, op⟩ : Moment ρ).signals slot).toNat := by
  cases proceeds : (⟨table, op⟩ : Moment ρ).proceeds slot with
  | true =>
    obtain ⟨⟨late, rfl⟩, -, -, used, after⟩ := of_proceeds proceeds
    have taken := signalsAt_of_used used slot.generation
    rw [if_pos rfl, signalsAt_attend] at taken
    have left := signalsOf_le_signalsAt ((table.attend slot).useSignal slot).2 slot
    rw [after, signalsOf_of_hasSlot (holder_of_idle allowed), Bool.toNat_true]
    omega
  | false =>
    rw [Bool.toNat_false, Nat.zero_add]
    exact signalsOf_perform sound allowed slot

end Table

theorem countP_snoc (trace : List (Moment ρ)) (moment : Moment ρ) (p : Moment ρ → Bool) :
    (trace ++ [moment]).countP p = trace.countP p + (p moment).toNat := by
  rw [List.countP_append, List.countP_singleton]
  cases p moment <;> rfl

/-- No more signals were taken out of the box of a slot, or are in it, than met the slot's entry. -/
theorem Run.signals_cover {limit : Nat} {trace : List (Moment ρ)} {table : Table ρ}
    (run : Run limit trace table) (slot : Slot) :
    trace.countP (·.proceeds slot) + table.signalsOf slot ≤ trace.countP (·.signals slot) := by
  induction run with
  | start => exact Nat.le_refl 0
  | step run allowed ih =>
    have step := Table.signals_step run.sound allowed slot
    rw [countP_snoc, countP_snoc]
    omega

end Farcall
