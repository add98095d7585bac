import Farcall.Proofs.Correlation.Arrivals
import Farcall.Proofs.Correlation.ReuseDistance
import Farcall.Proofs.Correlation.Staleness

set_option autoImplicit false

/-!
# What comes into a box and who leaves it

A box is filled by a delivery for its slot and by nothing else, and a delivery gets there as long as
somebody reads the box. A slot loses its box with the last answer of a wait, or with a wait that is
broken off.
-/

namespace Farcall

variable {ρ : Type}

/-- What an operation puts into the box of a slot whose entry is live. -/
def Op.brings? (op : Op ρ) (slot : Slot) : Option (Delivery ρ) :=
  match op with
  | fulfill id r => if id = slot.id then some (.result r) else none
  | fail id e => if id = slot.id then some (.failed e) else none
  | failAll reason => some (.failed (.channelClosed reason))
  | cancel own => if own = slot then some (.failed (.cancelled slot.id)) else none
  | _ => none

def Moment.delivers? (moment : Moment ρ) (slot : Slot) : Option (Delivery ρ) :=
  if moment.before.owner? slot.id = some slot then moment.op.brings? slot else none

namespace Table

variable {table after : Table ρ} {op : Op ρ} {slot : Slot} {d : Delivery ρ}

/-! ## Slots that exist -/

theorem hasSlot_cases (c' : (table.perform op).2.Coupled)
    (allowed : table.Allowed op) (known : (table.perform op).2.HasSlot slot) :
    table.HasSlot slot ∨
      (table.perform op).2.boxes[slot.generation]? = some ⟨slot.id, none, .idle false, .slot⟩ := by
  obtain ⟨hold, held⟩ := known
  obtain ⟨box, found, same, -⟩ := box_of_holder held
  by_cases old : slot.generation < table.nextGeneration
  · obtain ⟨before, there, same'⟩ := keepsIds_perform allowed _ old box found
    refine .inl ⟨before.hold, ?_⟩
    simp only [holder?, box?, there, same'.trans same, ↓reduceIte]
  -- generations are given out by registrations alone, so what is new was just registered
  · have below := c'.known _ box found
    by_cases registers : op = .register
    · subst registers
      rcases register_cases table with ⟨e, refused⟩ | ⟨id, -, registered⟩
      · rw [perform, refused] at below
        exact absurd below old
      · rw [perform, registered] at below found ⊢
        have new : table.nextGeneration = slot.generation := by
          change slot.generation < table.nextGeneration + 1 at below
          omega
        dsimp only at found ⊢
        rw [box?, enter_box, if_pos new] at found
        rw [enter_box, if_pos new, ← same, ← Option.some.inj found]
        exact .inr rfl
    · rw [nextGeneration_perform table registers] at below
      exact absurd below old

theorem gone_of_unread (read : ¬ table.Read slot.generation) (known : table.HasSlot slot) :
    table.holder? slot = some .gone := by
  obtain ⟨hold, held⟩ := known
  cases hold with
  | gone => exact held
  | slot => exact absurd (read_of_holder held nofun) read
  | wait => exact absurd (read_of_holder held nofun) read

theorem final_of_result (result : Except InvocationError ρ) :
    (Answer.ended (result.map Completion.ready)).Final := by
  cases result <;> trivial

theorem holder_closeBox (table : Table ρ) (slot : Slot) :
    (table.closeBox slot).holder? slot = none := by
  rw [holder?, box?, closeBox_box, if_pos rfl]

theorem holder_discard (table : Table ρ) (slot : Slot) :
    (table.discard slot).2.holder? slot = none := by
  unfold discard
  split
  · exact holder_closeBox _ slot
  · split
    · exact holder_closeBox _ slot
    · exact holder_closeBox table slot

theorem holder_drop (table : Table ρ) (slot : Slot) : (table.drop slot).2.holder? slot = none := by
  unfold drop
  split
  · exact holder_closeBox table slot
  · exact holder_closeBox _ slot

theorem holder_cancel (table : Table ρ) (slot : Slot) :
    (table.cancel slot).2.holder? slot = table.holder? slot := by
  cases owned : table.owns slot with
  | false => rw [cancel_of_not_owns owned]
  | true =>
    rw [cancel_of_owns owned]
    exact holder_deliver _ _ _ slot

theorem final_of_lookOn_gone {hold : Hold} (held : table.holder? slot = some hold)
    (reads : hold ≠ .gone) {late : Bool} (gone : (table.lookOn slot late).2.holder? slot = some .gone) :
    (table.lookOn slot late).1.answer.Final := by
  cases found : table.claim slot with
  | mk result after =>
    cases result with
    | some result =>
      rw [lookOn_of_some found]
      exact final_of_result result
    | none =>
      obtain ⟨rfl, -⟩ := of_claim_none found
      rw [lookOn_of_none found] at gone ⊢
      cases late with
      | true => trivial
      | false => exact absurd (Option.some.inj (held.symm.trans gone)) reads

theorem left_of_gone (c : table.Coupled) (allowed : table.Allowed op) {hold : Hold}
    (held : table.holder? slot = some hold) (reads : hold ≠ .gone)
    (gone : (table.perform op).2.holder? slot = some .gone) :
    op = .breakOff slot ∨ op.waiter? = some slot ∧ (table.perform op).1.answer.Final := by
  have stays : (table.perform op).2.holder? slot ≠ table.holder? slot := by
    intro same
    rw [gone, held] at same
    exact reads (Option.some.inj same).symm
  by_cases own : op.slot? = some slot
  · cases op with
    | beginWait own' =>
      obtain rfl := Option.some.inj own
      rcases allowed with kept | lost
      · obtain ⟨begun, waiting⟩ := beginWait_of_held kept
        rw [perform, begun] at gone
        cases gone.symm.trans waiting
      · exact absurd (Option.some.inj (held.symm.trans lost)) reads
    | look own' late =>
      obtain rfl := Option.some.inj own
      exact .inr ⟨rfl, final_of_lookOn_gone held reads gone⟩
    | breakOff own' => exact .inl (congrArg Op.breakOff (Option.some.inj own))
    | lookOrProceed own' late =>
      obtain rfl := Option.some.inj own
      rw [perform] at gone stays ⊢
      rcases lookOrProceed_cases table own' late with ⟨-, same⟩ | ⟨-, same⟩ | ⟨-, -, same⟩
      · rw [same] at stays
        exact absurd rfl stays
      · rw [same] at gone ⊢
        have attended := (holder_attend table own' own').trans held
        exact .inr ⟨rfl, final_of_lookOn_gone attended reads gone⟩
      · rw [same] at stays
        have attended := holder_attend table own' own'
        exact absurd ((holder_useSignal _ own' own').trans attended) stays
    | letGo own' =>
      obtain rfl := Option.some.inj own
      exact absurd (holder_resignal table _ _ own') stays
    | cancel own' =>
      obtain rfl := Option.some.inj own
      exact absurd (holder_cancel table own') stays
    | discard own' =>
      obtain rfl := Option.some.inj own
      cases gone.symm.trans (holder_discard table own')
    | drop own' =>
      obtain rfl := Option.some.inj own
      cases gone.symm.trans (holder_drop table own')
    | _ => cases own
  · exact absurd (holder_perform c allowed ⟨hold, held⟩ own) stays

/-! ## Where a delivery comes from -/

theorem owner_of_owns (c : table.Coupled) (known : table.HasSlot slot)
    (owned : table.owns slot = true) : table.owner? slot.id = some slot := by
  obtain ⟨hold, held⟩ := known
  obtain ⟨box, at_g, -⟩ := box_of_holder held
  obtain ⟨entry, found, own⟩ := owns_iff.mp owned
  have live := (c.awaited slot.id entry box found (own ▸ at_g)).1
  rw [owner_of_live found live, own]

theorem arrival_of_deliver (c : table.Coupled) (known : table.HasSlot slot) {id : UInt16}
    {entry : Entry} (found : table.entries[id]? = some entry) {given : Delivery ρ}
    (arrived : ((table.without id).deliver entry.generation given).2.arrival? slot = some d) :
    table.arrival? slot = some d ∨
      id = slot.id ∧ table.owns slot = true ∧ given = d := by
  rw [arrival?, box?, deliver_box, without_boxes] at arrived
  split at arrived
  · next own =>
    obtain ⟨hold, held⟩ := known
    obtain ⟨here, owned⟩ := c.owns_of_entry held found own
    obtain ⟨box, at_g, -⟩ := box_of_holder held
    rw [box?] at at_g
    rw [at_g, Option.map_some, Option.bind_some, Box.accept] at arrived
    split at arrived
    · rw [arrival?, box?, at_g]
      exact .inl arrived
    · exact .inr ⟨here, owned, Option.some.inj arrived⟩
  · exact .inl arrived

theorem arrival_of_spend {other : Slot}
    (arrived : (table.spend other).arrival? slot = some d) : table.arrival? slot = some d := by
  rw [arrival?, box?, spend_box] at arrived
  split at arrived
  · cases found : table.boxes[slot.generation]? with
    | none =>
      rw [found] at arrived
      cases arrived
    | some box =>
      rw [found] at arrived
      cases arrived
  · exact arrived

theorem arrival_of_closeBox {other : Slot}
    (arrived : (table.closeBox other).arrival? slot = some d) : table.arrival? slot = some d := by
  rw [arrival?, box?, closeBox_box] at arrived
  split at arrived
  · cases arrived
  · exact arrived

theorem arrival_of_lookOn {own : Slot} {late : Bool}
    (arrived : (table.lookOn own late).2.arrival? slot = some d) : table.arrival? slot = some d := by
  cases found : table.claim own with
  | mk result after =>
    cases result with
    | some result =>
      rw [lookOn_of_some found] at arrived
      cases there : table.arrival? own with
      | some d' =>
        rw [claim_of_arrived there] at found
        exact arrival_of_spend ((Prod.mk.inj found).2 ▸ arrived)
      | none =>
        cases owned : table.owns own with
        | true =>
          rw [claim_of_empty there owned] at found
          cases (Prod.mk.inj found).1
        | false =>
          rw [claim_of_severed there owned] at found
          exact arrival_of_spend ((Prod.mk.inj found).2 ▸ arrived)
    | none =>
      obtain ⟨rfl, -, owned⟩ := of_claim_none found
      rw [lookOn_of_none found] at arrived
      cases late with
      | false => exact arrived
      | true =>
        rw [giveUp, if_pos rfl, expire_of_owns owned] at arrived
        exact arrival_of_spend arrived

theorem arrival_of_discard {own : Slot}
    (arrived : (table.discard own).2.arrival? slot = some d) : table.arrival? slot = some d := by
  unfold discard at arrived
  split at arrived
  · exact arrival_of_closeBox arrived
  · split at arrived
    · exact arrival_of_closeBox arrived
    · exact arrival_of_closeBox arrived

theorem arrival_of_drop {own : Slot}
    (arrived : (table.drop own).2.arrival? slot = some d) : table.arrival? slot = some d := by
  unfold drop at arrived
  split at arrived
  · exact arrival_of_closeBox arrived
  · have kept := arrival_of_closeBox arrived
    cases mine : table.owns own with
    | true => rwa [abandon_of_owns mine] at kept
    | false => rwa [abandon_of_not_owns mine] at kept

theorem arrival_of_failAll (sound : table.Sound) (known : table.HasSlot slot) {reason : String}
    (arrived : (table.failAll reason).2.arrival? slot = some d) :
    table.arrival? slot = some d ∨
      table.owns slot = true ∧ some (.failed (.channelClosed reason)) = some d := by
  have c := sound.toCoupled
  have old := c.generation_lt known
  obtain ⟨hold, held⟩ := known
  by_cases stands : table.HasEntry slot.generation
  · have owned := (c.hasEntry_iff held).mp stands
    by_cases gone : hold = .gone
    · -- nobody reads the box, so nothing was put into it
      have left := (sound.perform (show table.Allowed (.failAll reason) from trivial)).spent
      obtain ⟨box, at_g, full⟩ := Option.bind_eq_some_iff.mp arrived
      have still : (table.failAll reason).2.holder? slot = some .gone := by
        rw [holder_failAll, held, gone]
      obtain ⟨box', at_g', -, gone'⟩ := box_of_holder still
      obtain rfl := Option.some.inj (at_g.symm.trans at_g')
      cases full.symm.trans (left _ box at_g gone')
    · rw [arrival_failAll held gone owned reason] at arrived
      exact .inr ⟨owned, arrived⟩
  · have same := box_of_no_entry stands old (show (Op.failAll reason : Op ρ).slot? = none from rfl)
    exact .inl ((arrival_congr same).symm.trans arrived)

/-- What lies in the box of a slot lay there before, or it was just delivered. -/
theorem arrival_back (sound : table.Sound) (allowed : table.Allowed op) (known : table.HasSlot slot)
    (arrived : (table.perform op).2.arrival? slot = some d) :
    table.arrival? slot = some d ∨ (⟨table, op⟩ : Moment ρ).delivers? slot = some d := by
  have c := sound.toCoupled
  have delivered : table.owns slot = true → op.brings? slot = some d →
      (⟨table, op⟩ : Moment ρ).delivers? slot = some d := by
    intro owned brings
    rw [Moment.delivers?, if_pos (owner_of_owns c known owned)]
    exact brings
  cases op with
  | register =>
    refine .inl ?_
    rcases register_cases table with ⟨e, refused⟩ | ⟨id, -, registered⟩
    · rw [perform, refused] at arrived
      exact arrived
    · rw [perform, registered] at arrived
      refine (arrival_congr ?_).symm.trans arrived
      rw [enter_box, if_neg (Nat.ne_of_gt (c.generation_lt known))]
  | fulfill id r =>
    rw [perform] at arrived
    cases found : table.entries[id]? with
    | none =>
      rw [fulfill_of_none found] at arrived
      exact .inl arrived
    | some entry =>
      cases marked : entry.discard with
      | true =>
        rw [fulfill_of_marked found marked] at arrived
        exact .inl arrived
      | false =>
        rw [fulfill_of_live found marked] at arrived
        refine (arrival_of_deliver c known found arrived).imp_right fun own => ?_
        obtain ⟨here, owned, rfl⟩ := own
        exact delivered owned (if_pos here)
  | fail id e =>
    rw [perform] at arrived
    cases found : table.entries[id]? with
    | none =>
      rw [fail_of_none found] at arrived
      exact .inl arrived
    | some entry =>
      rw [fail_of_some found] at arrived
      refine (arrival_of_deliver c known found arrived).imp_right fun own => ?_
      obtain ⟨here, owned, rfl⟩ := own
      exact delivered owned (if_pos here)
  | failAll reason =>
    refine (arrival_of_failAll sound known arrived).imp_right fun severed => ?_
    exact delivered severed.1 severed.2
  | proceedAsync id =>
    rw [perform] at arrived
    cases found : table.entries[id]? with
    | none =>
      rw [proceedAsync_of_none found] at arrived
      exact .inl arrived
    | some entry =>
      rw [proceedAsync_of_some found] at arrived
      exact .inl ((arrival_resignal table _ _ slot).symm.trans arrived)
  | beginWait own =>
    cases claimed : table.claimed own with
    | true =>
      simp only [perform, beginWait, claimed, ↓reduceIte] at arrived
      exact .inl arrived
    | false =>
      simp only [perform, beginWait, claimed, Bool.false_eq_true, ↓reduceIte] at arrived
      exact .inl ((arrival_setHold table own slot .wait).symm.trans arrived)
  | look own late => exact .inl (arrival_of_lookOn arrived)
  | breakOff own => exact .inl (arrival_of_spend arrived)
  | lookOrProceed own late =>
    rw [perform] at arrived
    rcases lookOrProceed_cases table own late with ⟨-, same⟩ | ⟨-, same⟩ | ⟨-, -, same⟩
    · rw [same] at arrived
      exact .inl arrived
    · rw [same] at arrived
      exact .inl ((arrival_attend table own slot).symm.trans (arrival_of_lookOn arrived))
    · rw [same] at arrived
      have attended := arrival_attend table own slot
      exact .inl (((arrival_useSignal _ own slot).trans attended).symm.trans arrived)
  | letGo own => exact .inl ((arrival_resignal table _ _ slot).symm.trans arrived)
  | cancel own =>
    rw [perform] at arrived
    cases mine : table.owns own with
    | false =>
      rw [cancel_of_not_owns mine] at arrived
      exact .inl arrived
    | true =>
      obtain ⟨entry, found, generation⟩ := owns_iff.mp mine
      rw [cancel_of_owns mine, ← generation] at arrived
      refine (arrival_of_deliver c known found arrived).imp_right fun settled => ?_
      obtain ⟨here, owned, rfl⟩ := settled
      obtain ⟨entry', found', generation'⟩ := owns_iff.mp owned
      rw [← here, found] at found'
      obtain rfl := Option.some.inj found'
      obtain rfl : own = slot := by
        cases own
        cases slot
        exact congr (congrArg Slot.mk here) (generation.symm.trans generation')
      exact delivered owned (if_pos rfl)
  | discard own => exact .inl (arrival_of_discard arrived)
  | drop own => exact .inl (arrival_of_drop arrived)

theorem arrival_of_delivers (c : table.Coupled) (read : table.Read slot.generation)
    (delivers : (⟨table, op⟩ : Moment ρ).delivers? slot = some d) :
    (table.perform op).2.arrival? slot = some d := by
  unfold Moment.delivers? at delivers
  split at delivers
  · next owner =>
    obtain ⟨entry, found, live, here⟩ := of_owner owner
    have own : entry.generation = slot.generation := (congrArg Slot.generation here).symm
    have owned : table.owns slot = true := owns_iff.mpr ⟨entry, found, own⟩
    obtain ⟨box, at_g, there⟩ := read
    have settled : ∀ given : Delivery ρ, ((table.without slot.id).deliver slot.generation given).2.arrival?
        slot = some given := by
      intro given
      rw [arrival?, box?, deliver_box, if_pos rfl, without_boxes, at_g, Option.map_some,
        Option.bind_some, Box.accept, if_neg there]
    change op.brings? slot = some d at delivers
    cases op with
    | fulfill id r =>
      by_cases same : id = slot.id
      · rw [Op.brings?, if_pos same] at delivers
        subst same
        rw [perform, fulfill_of_live found live, own]
        exact (settled _).trans delivers
      · rw [Op.brings?, if_neg same] at delivers
        cases delivers
    | fail id e =>
      by_cases same : id = slot.id
      · rw [Op.brings?, if_pos same] at delivers
        subst same
        rw [perform, fail_of_some found, own]
        exact (settled _).trans delivers
      · rw [Op.brings?, if_neg same] at delivers
        cases delivers
    | failAll reason =>
      have at_id := (c.awaited slot.id entry box found (own ▸ at_g)).2.1
      have held : table.holder? slot = some box.hold := by
        simp only [holder?, box?, at_g, at_id, ↓reduceIte]
      exact (arrival_failAll held there owned reason).trans delivers
    | cancel own' =>
      by_cases same : own' = slot
      · rw [Op.brings?, if_pos same] at delivers
        subst same
        rw [perform, cancel_of_owns owned]
        exact (settled _).trans delivers
      · rw [Op.brings?, if_neg same] at delivers
        cases delivers
    | _ => cases delivers
  · cases delivers

end Table

/-! ## Runs -/

namespace Run

variable {limit : Nat} {trace : List (Moment ρ)} {table : Table ρ} {slot : Slot}

/-- Nobody reads the box of a slot any more: a wait gave its last answer or was broken off. -/
theorem left_of_gone (run : Run limit trace table) (gone : table.holder? slot = some .gone) :
    Answered trace slot ∨ BrokenOff trace slot := by
  induction run with
  | start => cases gone
  | @step trace table op run allowed ih =>
    have c := run.sound.toCoupled
    have older : Answered trace slot ∨ BrokenOff trace slot →
        Answered (trace ++ [⟨table, op⟩]) slot ∨ BrokenOff (trace ++ [⟨table, op⟩]) slot := by
      rintro (⟨moment, mem, answered⟩ | ⟨moment, mem, broken⟩)
      · exact .inl ⟨moment, List.mem_append_left _ mem, answered⟩
      · exact .inr ⟨moment, List.mem_append_left _ mem, broken⟩
    have new : (⟨table, op⟩ : Moment ρ) ∈ trace ++ [⟨table, op⟩] :=
      List.mem_append_right _ (List.mem_singleton.mpr rfl)
    rcases Table.hasSlot_cases (run.sound.perform allowed).toCoupled allowed ⟨_, gone⟩ with
      ⟨hold, held⟩ | fresh
    · by_cases reads : hold = .gone
      · exact older (ih (reads ▸ held))
      · rcases Table.left_of_gone c allowed held reads gone with broken | answered
        · exact .inr ⟨_, new, broken⟩
        · exact .inl ⟨_, new, answered⟩
    · obtain ⟨box, found, -, lost⟩ := Table.box_of_holder gone
      obtain rfl := Option.some.inj (fresh.symm.trans found)
      cases lost

theorem read_of_unanswered (run : Run limit trace table) (known : table.HasSlot slot)
    (unanswered : ¬ Answered trace slot) (kept : ¬ BrokenOff trace slot) :
    table.Read slot.generation :=
  Classical.byContradiction fun read =>
    (run.left_of_gone (Table.gone_of_unread read known)).elim unanswered kept

/-- What lies in the box of a slot was delivered for it. -/
theorem delivered_of_arrival (run : Run limit trace table) {d : Delivery ρ}
    (known : table.HasSlot slot) (arrived : table.arrival? slot = some d) :
    ∃ source ∈ trace, source.delivers? slot = some d := by
  induction run with
  | start => cases arrived
  | @step trace table op run allowed ih =>
    rcases Table.hasSlot_cases (run.sound.perform allowed).toCoupled allowed known with old | fresh
    · rcases Table.arrival_back run.sound allowed old arrived with before | delivers
      · obtain ⟨source, mem, delivers⟩ := ih old before
        exact ⟨source, List.mem_append_left _ mem, delivers⟩
      · exact ⟨_, List.mem_append_right _ (List.mem_singleton.mpr rfl), delivers⟩
    · rw [Table.arrival?, Table.box?, fresh] at arrived
      cases arrived

end Run

end Farcall
