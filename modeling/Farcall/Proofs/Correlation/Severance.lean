import Farcall.Proofs.Correlation.Claims

set_option autoImplicit false

/-!
# No slot is severed

A wait that finds neither its entry nor a delivery would end with an error of its own. None does: an
entry goes with a delivery to whoever reads the box, or it is the slot itself that takes the entry
away, and then nobody reads the box any more. This holds with waits that are broken off as well.
-/

namespace Farcall

variable {ρ : Type}

theorem Op.of_brings_severed {op : Op ρ} {slot : Slot}
    (brings : op.brings? slot = some (.failed Table.severedError)) :
    op = .fail slot.id Table.severedError ∨ op = .failAll "correlation entry dropped" := by
  cases op with
  | fulfill id r =>
    rw [brings?] at brings
    split at brings <;> cases brings
  | fail id e =>
    rw [brings?] at brings
    split at brings
    · next same =>
      cases brings
      exact .inl (by rw [same])
    · cases brings
  | failAll reason =>
    cases brings
    exact .inr rfl
  | cancel own =>
    rw [brings?] at brings
    split at brings <;> cases brings
  | _ => cases brings

inductive Told (earlier : List (Moment ρ)) (slot : Slot) : Answer ρ → Prop
  | waits : Told earlier slot .waits
  | claimed : Told earlier slot (.ended (.error (.correlation (.alreadyClaimed slot.id))))
  | proceeds : Told earlier slot (.ended (.ok .proceedAsync))
  | timeout : Told earlier slot (.ended (.error (.timeout slot.id)))
  | delivery {source : Moment ρ} {d : Delivery ρ} (mem : source ∈ earlier)
      (delivers : source.delivers? slot = some d) :
      Told earlier slot (.ended (d.toExcept.map .ready))

namespace Table

variable {table : Table ρ} {op : Op ρ} {slot : Slot}

theorem look_of_read (c : table.Coupled) (known : table.HasSlot slot)
    (read : table.Read slot.generation) : table.look slot ≠ .severed := by
  unfold look
  cases arrived : table.arrival? slot with
  | some d => simp
  | none => simp [owns_of_read c known read arrived]

theorem answer_giveUp (table : Table ρ) (slot : Slot) (late : Bool) :
    (table.giveUp slot late).1.answer = .waits ∨
      ∃ result, (table.giveUp slot late).1.answer = .ended result := by
  cases late with
  | false => exact .inl rfl
  | true => exact .inr ⟨_, rfl⟩

theorem answer_lookOn (table : Table ρ) (slot : Slot) (late : Bool) :
    (table.lookOn slot late).1.answer = .waits ∨
      ∃ result, (table.lookOn slot late).1.answer = .ended result := by
  unfold lookOn
  split
  · exact .inr ⟨_, rfl⟩
  · exact answer_giveUp _ slot late

theorem answer_of_waiter (table : Table ρ) (waiter : op.waiter? = some slot) :
    (table.perform op).1.answer = .waits ∨
      ∃ result, (table.perform op).1.answer = .ended result := by
  cases op with
  | beginWait own =>
    unfold perform
    dsimp only
    split
    · exact .inr ⟨_, rfl⟩
    · exact .inl rfl
  | look own late => exact answer_lookOn table own late
  | lookOrProceed own late =>
    rw [perform]
    rcases lookOrProceed_cases table own late with ⟨-, same⟩ | ⟨-, same⟩ | ⟨-, -, same⟩
    · rw [same]
      exact .inr ⟨_, rfl⟩
    · rw [same]
      exact answer_lookOn (table.attend own) own late
    · rw [same]
      exact .inr ⟨_, rfl⟩
  | _ => cases waiter

theorem waiter_of_ended {result : Except InvocationError (Completion ρ)}
    (ended : (table.perform op).1.answer = .ended result) : ∃ slot, op.waiter? = some slot := by
  cases op with
  | beginWait slot => exact ⟨slot, rfl⟩
  | look slot late => exact ⟨slot, rfl⟩
  | lookOrProceed slot late => exact ⟨slot, rfl⟩
  | _ => cases ended

theorem hasSlot_of_read (c : table.Coupled) (allowed : table.Allowed op)
    (known : table.HasSlot slot) (read : (table.perform op).2.Read slot.generation) :
    (table.perform op).2.HasSlot slot := by
  obtain ⟨box, at_g, -⟩ := read
  obtain ⟨old, before, same⟩ := keepsIds_perform allowed _ (c.generation_lt known) box at_g
  obtain ⟨hold, held⟩ := known
  obtain ⟨old', before', here, -⟩ := box_of_holder held
  obtain rfl := Option.some.inj (before.symm.trans before')
  exact ⟨box.hold, by simp only [holder?, box?, at_g, same.symm.trans here, ↓reduceIte]⟩

theorem delivers_or_leaves (sound : table.Sound) (allowed : table.Allowed op)
    (known : table.HasSlot slot) (read : table.Read slot.generation)
    (owned : table.owns slot = true) (lost : (table.perform op).2.owns slot = false) :
    (∃ d, (⟨table, op⟩ : Moment ρ).delivers? slot = some d ∧
        (table.perform op).2.arrival? slot = some d) ∨
      op.slot? = some slot ∧ ¬ (table.perform op).2.Read slot.generation := by
  have after := sound.perform allowed
  by_cases still : (table.perform op).2.Read slot.generation
  · have there := hasSlot_of_read sound.toCoupled allowed known still
    cases arrived : (table.perform op).2.arrival? slot with
    | none =>
      have standing := owns_of_read after.toCoupled there still arrived
      rw [lost] at standing
      cases standing
    | some d =>
      rcases arrival_back sound allowed known arrived with before | delivers
      · have gone := sound.toCoupled.not_owns_of_arrival (by rw [before]; simp)
        rw [owned] at gone
        cases gone
      · exact .inl ⟨d, delivers, rfl⟩
  · refine .inr ⟨?_, still⟩
    by_contra other
    obtain ⟨hold, held⟩ := known
    have kept := holder_perform sound.toCoupled allowed ⟨hold, held⟩ other
    rw [held] at kept
    obtain ⟨box, at_g, -, rfl⟩ := box_of_holder held
    obtain ⟨box', at_g', there⟩ := read
    obtain rfl := Option.some.inj (at_g.symm.trans at_g')
    exact still (read_of_holder kept there)

end Table

structure NeverSevered (trace : List (Moment ρ)) (table : Table ρ) : Prop where
  standing : ∀ slot, table.HasSlot slot → table.Read slot.generation → table.look slot ≠ .severed
  looks : ∀ moment ∈ trace, ∀ slot late, moment.op.looks? = some (slot, late) →
    moment.before.Read slot.generation → moment.before.look slot ≠ .severed
  answers : ∀ {earlier later : List (Moment ρ)} {moment : Moment ρ} {slot : Slot},
    trace = earlier ++ moment :: later → moment.op.waiter? = some slot →
      Told earlier slot moment.effect.answer
  /-- The words for a severed slot are told only to those whose call was failed with them. -/
  words : ∀ moment ∈ trace, moment.effect.answer = .ended (.error Table.severedError) →
    ∃ slot, moment.op.waiter? = some slot ∧ ∃ source ∈ trace,
      source.before.owner? slot.id = some slot ∧ (source.op = .fail slot.id Table.severedError ∨
        source.op = .failAll "correlation entry dropped")
  /-- An entry is not removed before a delivery was made, as long as its slot can be waited on. -/
  removed : ∀ moment ∈ trace, ∀ slot, moment.before.HasSlot slot →
    moment.before.Read slot.generation → moment.before.owns slot = true →
    moment.after.owns slot = false →
      (∃ d, moment.delivers? slot = some d ∧ moment.after.arrival? slot = some d) ∨
        moment.op.slot? = some slot ∧ ¬ moment.after.Read slot.generation

namespace Run

variable {limit : Nat} {trace earlier later : List (Moment ρ)} {table : Table ρ}

theorem told {moment : Moment ρ} {slot : Slot}
    (run : Run limit (earlier ++ moment :: later) table) (waiter : moment.op.waiter? = some slot) :
    Told earlier slot moment.effect.answer := by
  obtain ⟨before, allowed⟩ := run.of_cons
  have known := Table.hasSlot_of_waiter allowed waiter
  by_cases read : moment.before.Read slot.generation
  · by_cases final : moment.effect.answer.Final
    · rcases Table.final_cases before.sound.toCoupled allowed waiter final read with
        ⟨d, arrived, answer⟩ | timed
      · obtain ⟨source, mem, delivers⟩ := before.delivered_of_arrival known arrived
        rw [Moment.effect, answer]
        exact .delivery mem delivers
      · rw [timed.answer]
        exact .timeout
    · rcases moment.before.answer_of_waiter waiter with waits | ⟨result, ended⟩
      · rw [Moment.effect, waits]
        exact .waits
      · rw [Moment.effect, ended] at final ⊢
        cases result with
        | error e => exact absurd trivial final
        | ok completion =>
          cases completion with
          | ready r => exact absurd trivial final
          | proceedAsync => exact .proceeds
  · rw [Moment.effect, (Table.perform_of_unread allowed waiter read).1]
    exact .claimed

theorem words_of_severed {moment : Moment ρ} {slot : Slot}
    (run : Run limit (earlier ++ moment :: later) table) (waiter : moment.op.waiter? = some slot)
    (words : moment.effect.answer = .ended (.error Table.severedError)) :
    ∃ source ∈ earlier, source.before.owner? slot.id = some slot ∧
      (source.op = .fail slot.id Table.severedError ∨
        source.op = .failAll "correlation entry dropped") := by
  have told := run.told waiter
  generalize moment.effect.answer = answer at told words
  cases told with
  | waits => cases words
  | claimed => cases words
  | proceeds => cases words
  | timeout => cases words
  | @delivery source d mem delivers =>
    obtain rfl : d = .failed Table.severedError := by
      cases d with
      | result r => cases words
      | failed e => exact congrArg _ (Except.error.inj (Answer.ended.inj words))
    unfold Moment.delivers? at delivers
    split at delivers
    · next owner => exact ⟨source, mem, owner, Op.of_brings_severed delivers⟩
    · cases delivers

/-- In every run, broken waits or not, no wait ends because its slot was severed. -/
theorem never_severed (run : Run limit trace table) : NeverSevered trace table where
  standing _ := Table.look_of_read run.sound.toCoupled
  looks := by
    intro moment mem slot late looks read
    obtain ⟨⟨first, -, before⟩, allowed⟩ := run.earlier mem
    exact Table.look_of_read before.sound.toCoupled (Table.hasSlot_of_looks looks allowed) read
  answers := by
    rintro earlier later moment slot rfl waiter
    exact run.told waiter
  words := by
    intro moment mem words
    obtain ⟨slot, waiter⟩ := Table.waiter_of_ended words
    obtain ⟨earlier, later, rfl⟩ := List.append_of_mem mem
    obtain ⟨source, there, given⟩ := run.words_of_severed waiter words
    exact ⟨slot, waiter, source, List.mem_append_left _ there, given⟩
  removed := by
    intro moment mem slot known read owned lost
    obtain ⟨⟨first, -, before⟩, allowed⟩ := run.earlier mem
    exact Table.delivers_or_leaves before.sound allowed known read owned lost

/-- The first wait is broken off; the next four entries go with a result, a cancel, a timeout and a
drop; the last slot hears of a lost channel in the very words for a severed one. -/
theorem never_severed_of_broken_wait :
    let ops : List (Op String) := [.register, .register, .register, .register, .register,
      .beginWait ⟨1, 0⟩, .look ⟨1, 0⟩ false, .breakOff ⟨1, 0⟩, .beginWait ⟨1, 0⟩,
      .fulfill 2 "sum", .discard ⟨2, 1⟩, .cancel ⟨3, 2⟩, .beginWait ⟨3, 2⟩, .look ⟨3, 2⟩ false,
      .lookOrProceed ⟨4, 3⟩ true, .drop ⟨5, 4⟩, .register, .beginWait ⟨6, 5⟩,
      .failAll "correlation entry dropped", .look ⟨6, 5⟩ true]
    let trace := (Table.empty 5 : Table String).moments ops
    let table := (Table.empty 5 : Table String).performAll ops
    Run 5 trace table ∧ NeverSevered trace table := by
  intro ops trace table
  have run : Run 5 trace table := Run.start.performAll ops (by decide +kernel)
  exact ⟨run, run.never_severed⟩

end Run

end Farcall
