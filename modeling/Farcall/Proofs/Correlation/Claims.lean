import Farcall.Proofs.Correlation.Signals

set_option autoImplicit false

/-!
# What a slot's waits give

Three things race for a wait: a delivery, a signal to proceed, and the clock. Whatever the order,
one answer of a slot's waits is the last that says anything. What was delivered before is that
answer, be the time over or a signal pending; where nothing was, the wait takes the slot's own entry
along. Signals are used up one by one, and no answer that a signal brings touches a delivery.
-/

namespace Farcall

variable {ρ : Type}

/-- A look of a wait; the flag says that its time is over. -/
def Op.looks? : Op ρ → Option (Slot × Bool)
  | look slot late | lookOrProceed slot late => some (slot, late)
  | _ => none

/-- The time of a wait was over, nothing had arrived, and the slot's own entry went. -/
structure Moment.TimedOut (moment : Moment ρ) (slot : Slot) : Prop where
  late : moment.op.looks? = some (slot, true)
  answer : moment.effect.answer = .ended (.error (.timeout slot.id))
  nothing : moment.before.arrival? slot = none
  owned : moment.before.owns slot = true
  entries : ∀ id : UInt16, moment.after.entries[id]? =
    if slot.id = id then none else moment.before.entries[id]?

namespace Table

variable {table : Table ρ} {op : Op ρ} {slot : Slot} {d : Delivery ρ}

theorem perform_of_unread (allowed : table.Allowed op) (waiter : op.waiter? = some slot)
    (read : ¬ table.Read slot.generation) : (table.perform op).1.answer =
      .ended (.error (.correlation (.alreadyClaimed slot.id))) ∧ (table.perform op).2 = table := by
  have gone := gone_of_unread read (hasSlot_of_waiter allowed waiter)
  cases op with
  | beginWait own =>
    obtain rfl := Option.some.inj waiter
    rw [perform, beginWait_of_gone gone]
    exact ⟨rfl, rfl⟩
  | look own late =>
    obtain rfl := Option.some.inj waiter
    cases gone.symm.trans allowed
  | lookOrProceed own late =>
    obtain rfl := Option.some.inj waiter
    rw [perform, lookOrProceed_of_claimed (claimed_of_gone gone)]
    exact ⟨rfl, rfl⟩
  | _ => cases waiter

theorem hasSlot_of_looks {late : Bool} (looks : op.looks? = some (slot, late))
    (allowed : table.Allowed op) : table.HasSlot slot := by
  cases op with
  | look own late' =>
    obtain ⟨rfl, rfl⟩ := Prod.mk.inj (Option.some.inj looks)
    exact ⟨_, allowed⟩
  | lookOrProceed own late' =>
    obtain ⟨rfl, rfl⟩ := Prod.mk.inj (Option.some.inj looks)
    exact holder_of_idle allowed
  | _ => cases looks

theorem held_of_read (idle : table.Idle slot) (read : table.Read slot.generation) :
    table.holder? slot = some .slot := by
  rcases idle with held | gone
  · exact held
  · exact absurd read (not_read_of_gone gone)

/-- A look takes what has arrived, whatever the time and whatever signal is waiting. -/
theorem answer_of_arrival {late : Bool} (looks : op.looks? = some (slot, late))
    (allowed : table.Allowed op) (read : table.Read slot.generation)
    (arrived : table.arrival? slot = some d) :
    (table.perform op).1.answer = .ended (d.toExcept.map .ready) := by
  cases op with
  | look own late' =>
    obtain ⟨rfl, rfl⟩ := Prod.mk.inj (Option.some.inj looks)
    rw [perform, lookOn_of_some (claim_of_arrived arrived)]
  | lookOrProceed own late' =>
    obtain ⟨rfl, rfl⟩ := Prod.mk.inj (Option.some.inj looks)
    rw [perform, lookOrProceed_of_arrived (unclaimed_of_held (held_of_read allowed read)) arrived]
  | _ => cases looks

theorem owns_of_read (c : table.Coupled) (known : table.HasSlot slot)
    (read : table.Read slot.generation) (empty : table.arrival? slot = none) :
    table.owns slot = true := by
  obtain ⟨hold, held⟩ := known
  obtain ⟨box, found, same, -⟩ := box_of_holder held
  obtain ⟨box', found', there⟩ := read
  obtain rfl := Option.some.inj (found.symm.trans found')
  have nothing : box.arrived = none := by
    rw [arrival?, found] at empty
    exact empty
  exact owns_iff.mpr ⟨_, same ▸ c.expecting _ box found there nothing, rfl⟩

theorem expire_entries (owned : table.owns slot = true) (id : UInt16) :
    (table.expire slot).2.entries[id]? = if slot.id = id then none else table.entries[id]? := by
  rw [expire_of_owns owned]
  exact without_entry (table.spend slot) slot.id id

theorem timedOut_of_lookOn {middle : Table ρ} {late : Bool} (looks : op.looks? = some (slot, late))
    (same : table.perform op = middle.lookOn slot late) (entries : middle.entries = table.entries)
    (arrivals : middle.arrival? slot = table.arrival? slot) (nothing : table.arrival? slot = none)
    (owned : table.owns slot = true) (final : (table.perform op).1.answer.Final) :
    (⟨table, op⟩ : Moment ρ).TimedOut slot := by
  have owned' : middle.owns slot = true := by
    rw [owns, entries]
    exact owned
  have empty := claim_of_empty (arrivals.trans nothing) owned'
  cases late with
  | false =>
    rw [same, lookOn_of_none empty] at final
    exact final.elim
  | true =>
    refine ⟨looks, ?_, nothing, owned, ?_⟩
    · change (table.perform op).1.answer = _
      rw [same, lookOn_of_none empty, giveUp, if_pos rfl, expire_of_owns owned']
    · intro id
      change (table.perform op).2.entries[id]? = if slot.id = id then none else table.entries[id]?
      rw [same, lookOn_of_none empty, giveUp, if_pos rfl, ← entries]
      exact expire_entries owned' id

theorem looks_of_final (allowed : table.Allowed op) (waiter : op.waiter? = some slot)
    (final : (table.perform op).1.answer.Final) (read : table.Read slot.generation) :
    ∃ late, op.looks? = some (slot, late) := by
  cases op with
  | beginWait own =>
    obtain rfl := Option.some.inj waiter
    rw [perform, (beginWait_of_held (held_of_read allowed read)).1] at final
    exact final.elim
  | look own late => exact ⟨late, by rw [← Option.some.inj waiter]; rfl⟩
  | lookOrProceed own late => exact ⟨late, by rw [← Option.some.inj waiter]; rfl⟩
  | _ => cases waiter

theorem final_cases (c : table.Coupled) (allowed : table.Allowed op)
    (waiter : op.waiter? = some slot) (final : (table.perform op).1.answer.Final)
    (read : table.Read slot.generation) :
    (∃ d, table.arrival? slot = some d ∧
        (table.perform op).1.answer = .ended (d.toExcept.map .ready)) ∨
      (⟨table, op⟩ : Moment ρ).TimedOut slot := by
  obtain ⟨late, looks⟩ := looks_of_final allowed waiter final read
  cases arrived : table.arrival? slot with
  | some d => exact .inl ⟨d, rfl, answer_of_arrival looks allowed read arrived⟩
  | none =>
    have owned := owns_of_read c (hasSlot_of_waiter allowed waiter) read arrived
    refine .inr ?_
    cases op with
    | look own late' =>
      obtain ⟨rfl, rfl⟩ := Prod.mk.inj (Option.some.inj looks)
      exact timedOut_of_lookOn rfl rfl rfl rfl arrived owned final
    | lookOrProceed own late' =>
      obtain ⟨rfl, rfl⟩ := Prod.mk.inj (Option.some.inj looks)
      rcases lookOrProceed_cases table own late' with ⟨claimed, -⟩ | ⟨-, same⟩ | ⟨-, -, same⟩
      · exact absurd read (not_read_of_claimed allowed claimed)
      · exact timedOut_of_lookOn rfl same rfl (arrival_attend table own own) arrived owned final
      · rw [perform, same] at final
        exact final.elim
    | _ => cases looks

end Table

theorem Moment.TimedOut.not_hasEntry {moment : Moment ρ} {slot : Slot} (timed : moment.TimedOut slot)
    (c : moment.before.Coupled) (known : moment.before.HasSlot slot) :
    ¬ moment.after.HasEntry slot.generation := by
  rintro ⟨id, entry, found, own⟩
  rw [timed.entries] at found
  split at found
  · cases found
  · next other =>
    obtain ⟨hold, held⟩ := known
    exact other (c.owns_of_entry held found own).1.symm

/-- A run goes on with moments of waits on a slot, the last of which gives this answer, to this
table. -/
def Run.WaitsTo (limit : Nat) (trace : List (Moment ρ)) (slot : Slot)
    (given : Except InvocationError (Completion ρ) × Table ρ) : Prop :=
  ∃ moments last, Run limit (trace ++ moments ++ [last]) given.2 ∧
    (∀ moment ∈ moments ++ [last], moment.op.waiter? = some slot) ∧
    last.effect.answer = .ended given.1

structure ClaimedOnce (limit : Nat) (trace : List (Moment ρ)) (table : Table ρ) (slot : Slot) :
    Prop where
  /-- Behind a last answer there are only refusals, which change nothing. -/
  last : ∀ {earlier between later : List (Moment ρ)} {first second : Moment ρ},
    trace = earlier ++ first :: between ++ second :: later → first.op.waiter? = some slot →
    first.effect.answer.Final → second.op.waiter? = some slot →
      second.effect.answer = .ended (.error (.correlation (.alreadyClaimed slot.id))) ∧
        second.after = second.before
  /-- The first last answer is a delivery for the slot, or the time is over and the entry goes. -/
  answer : ∀ {earlier later : List (Moment ρ)} {moment : Moment ρ},
    trace = earlier ++ moment :: later → moment.op.waiter? = some slot →
    moment.effect.answer.Final → ¬ Answered earlier slot → ¬ BrokenOff earlier slot →
      ¬ moment.after.HasEntry slot.generation ∧
        ((∃ source ∈ earlier, ∃ d, source.delivers? slot = some d ∧
            moment.effect.answer = .ended (d.toExcept.map .ready)) ∨ moment.TimedOut slot)
  delivery : ∀ {earlier between later : List (Moment ρ)} {source look : Moment ρ} {d : Delivery ρ}
    {late : Bool}, trace = earlier ++ source :: between ++ look :: later →
    source.delivers? slot = some d → look.op.looks? = some (slot, late) →
    ¬ Answered (earlier ++ source :: between) slot →
    ¬ BrokenOff (earlier ++ source :: between) slot →
      look.effect.answer = .ended (d.toExcept.map .ready)
  /-- A slot is told to proceed for each signal once. -/
  proceeds : trace.countP (·.proceeds slot) ≤ trace.countP (·.signals slot)
  spares : ∀ moment ∈ trace, moment.proceeds slot = true →
    moment.before.arrival? slot = none ∧ moment.after.holder? slot = some .slot ∧
      moment.after.entries = moment.before.entries ∧
      ∀ k, moment.after.arrival? k = moment.before.arrival? k ∧
        moment.after.holder? k = moment.before.holder? k
  /-- A wait that nothing comes between is a part of a run like any other. -/
  whole : table.Idle slot →
    Run.WaitsTo limit trace slot ((table.wait slot).1.map .ready, (table.wait slot).2) ∧
      Run.WaitsTo limit trace slot (table.waitOrProceed slot)

namespace Run

variable {limit : Nat} {trace earlier between later : List (Moment ρ)} {table : Table ρ}
  {moment second : Moment ρ}

theorem answer_of_delivery {source look : Moment ρ} {slot : Slot} {d : Delivery ρ} {late : Bool}
    (run : Run limit (earlier ++ source :: between ++ look :: later) table)
    (delivers : source.delivers? slot = some d) (looks : look.op.looks? = some (slot, late))
    (unanswered : ¬ Answered (earlier ++ source :: between) slot)
    (kept : ¬ BrokenOff (earlier ++ source :: between) slot) :
    look.effect.answer = .ended (d.toExcept.map .ready) := by
  obtain ⟨before_look, allowed⟩ := run.of_cons
  have read := before_look.read_of_unanswered (Table.hasSlot_of_looks looks allowed) unanswered kept
  obtain ⟨before_source, allowed'⟩ := before_look.of_cons
  have after_source := before_source.step allowed'
  have rest : Run limit (earlier ++ [source] ++ between) look.before := by
    rwa [List.append_assoc]
  have stretch := after_source.stretch rest
  have entry : source.before.entries[slot.id]? = some ⟨slot.generation, false⟩ := by
    unfold Moment.delivers? at delivers
    split at delivers
    · next owner => exact (owner_eq_some owner).2
    · cases delivers
  have old : slot.generation < source.before.nextGeneration :=
    before_source.sound.fresh slot.id _ entry
  have elder := (Table.elder_perform allowed').trans stretch.elder
  have arrived := Table.arrival_of_delivers before_source.sound.toCoupled
    (elder.readers _ old read) delivers
  exact Table.answer_of_arrival looks allowed read
    (stretch.arrival_lasts after_source.sound arrived read)

theorem waitsTo_wait {slot : Slot} (run : Run limit trace table) (idle : table.Idle slot) :
    WaitsTo limit trace slot ((table.wait slot).1.map .ready, (table.wait slot).2) := by
  have begun := run.step (show table.Allowed (.beginWait slot) from idle)
  rw [Table.perform] at begun
  rcases idle with held | gone
  · obtain ⟨taken, waiting⟩ := Table.beginWait_of_held held
    have looked := table.wait_eq_lookOn slot (Table.unclaimed_of_held held)
    rw [taken] at begun
    have ended := begun.step
      (show (table.setHold slot .wait).Allowed (.look slot true) from waiting)
    rw [Table.perform, looked] at ended
    refine ⟨[⟨table, .beginWait slot⟩], ⟨table.setHold slot .wait, .look slot true⟩, ended, ?_, ?_⟩
    · simp [Op.waiter?]
    · rw [Moment.effect, Table.perform, looked]
  · have refused := Table.beginWait_of_gone gone
    have same : table.wait slot = (.error (.correlation (.alreadyClaimed slot.id)), table) := by
      rw [Table.wait, refused]
    rw [refused] at begun
    refine ⟨[], ⟨table, .beginWait slot⟩, ?_, ?_, ?_⟩
    · rw [List.append_nil, same]
      exact begun
    · simp [Op.waiter?]
    · rw [Moment.effect, Table.perform, refused, same]
      rfl

theorem waitsTo_waitOrProceed {slot : Slot} (run : Run limit trace table)
    (idle : table.Idle slot) : WaitsTo limit trace slot (table.waitOrProceed slot) := by
  have looked := run.step (show table.Allowed (.lookOrProceed slot true) from idle)
  rw [Table.perform, table.waitOrProceed_eq_lookOrProceed slot] at looked
  refine ⟨[], ⟨table, .lookOrProceed slot true⟩, ?_, ?_, ?_⟩
  · rw [List.append_nil]
    exact looked
  · simp [Op.waiter?]
  · rw [Moment.effect, Table.perform, table.waitOrProceed_eq_lookOrProceed slot]

/-- A slot is claimed at most once and never loses a delivery, whichever of a delivery, a signal and
the clock comes first. -/
theorem claimed_once (run : Run limit trace table) (slot : Slot) :
    ClaimedOnce limit trace table slot where
  last := by
    rintro earlier between later first second rfl waiter final again
    obtain ⟨before, allowed⟩ := run.of_cons
    have answered : Answered (earlier ++ first :: between) slot :=
      ⟨first, List.mem_append_right _ List.mem_cons_self, waiter, final⟩
    exact Table.perform_of_unread allowed again (before.unread_of_answered answered)
  answer := by
    rintro earlier later moment rfl waiter final unanswered kept
    obtain ⟨before, allowed⟩ := run.of_cons
    have known := Table.hasSlot_of_waiter allowed waiter
    have c := before.sound.toCoupled
    have read := before.read_of_unanswered known unanswered kept
    rcases Table.final_cases c allowed waiter final read with ⟨d, arrived, answer⟩ | timed
    · have gone := c.not_hasEntry_of_arrival arrived
      obtain ⟨source, mem, delivers⟩ := before.delivered_of_arrival known arrived
      exact ⟨Table.not_hasEntry_perform _ allowed (c.generation_lt known) gone,
        .inl ⟨source, mem, d, delivers, answer⟩⟩
    · exact ⟨timed.not_hasEntry c known, .inr timed⟩
  delivery := by
    rintro earlier between later source look d late rfl delivers looks unanswered kept
    exact run.answer_of_delivery delivers looks unanswered kept
  proceeds := Nat.le_trans (Nat.le_add_right _ _) (run.signals_cover slot)
  spares _ mem proceeds := Table.proceeds_spares (run.earlier mem).2 proceeds
  whole idle := ⟨run.waitsTo_wait idle, run.waitsTo_waitOrProceed idle⟩

/-- Two signals come while a wait minds them: one is handed to it and the other is there for the next
wait, late as that is. With a third one stored a result comes; the next look gives the result, and
the last one is refused. -/
theorem claimed_once_of_signal :
    let slot : Slot := ⟨1, 0⟩
    let ops : List (Op String) := [.register, .lookOrProceed slot false, .proceedAsync 1,
      .proceedAsync 1, .lookOrProceed slot false, .lookOrProceed slot true, .proceedAsync 1,
      .fulfill 1 "sum", .lookOrProceed slot true, .beginWait slot]
    let trace := (Table.empty 4 : Table String).moments ops
    let table := (Table.empty 4 : Table String).performAll ops
    Run 4 trace table ∧ ClaimedOnce 4 trace table slot ∧ table.Idle slot ∧
      trace.map (·.proceeds slot) =
        [false, false, false, false, true, true, false, false, false, false] ∧
      trace.map (·.signals slot) =
        [false, false, true, true, false, false, true, false, false, false] := by
  intro slot ops trace table
  have run : Run 4 trace table := Run.start.performAll ops (by decide +kernel)
  exact ⟨run, run.claimed_once slot, by decide +kernel, by decide +kernel, by decide +kernel⟩

end Run

end Farcall
