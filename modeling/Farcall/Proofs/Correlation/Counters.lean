import Farcall.Proofs.Correlation.Signals
import Mathlib.Algebra.GroupWithZero.Nat

set_option autoImplicit false

/-!
# What the counters say

An operation comes to one thing at most that is counted, its `Upshot`. So over a run each counter
says how often something happened, and every entry that was ever registered is outstanding or went
in one of seven ways. Three of these have no counter of their own: the entry was marked when its
result came, its slot was dropped, or all entries were failed at once.
-/

namespace Farcall

variable {ρ : Type}

/-- What an operation comes to, as far as anything is counted. -/
inductive Upshot where
  | nothing
  | granted
  | delivered
  /-- A result came for a marked entry. -/
  | spurned
  | failed
  /-- A result, a failure or a signal came for an id without an entry. -/
  | missed
  /-- A wait took the slot's entry along. -/
  | expired
  | cancelled
  /-- A slot was given up with its delivery unread. -/
  | thrown
  | abandoned
  | swept (count : Nat)
deriving DecidableEq

def Upshot.coming : Upshot → Nat
  | granted => 1
  | _ => 0

def Upshot.going : Upshot → Nat
  | delivered | spurned | failed | expired | cancelled | abandoned => 1
  | swept count => count
  | _ => 0

def Stats.bump (s : Stats) : Upshot → Stats
  | .granted => { s with registered := s.registered + 1 }
  | .delivered => { s with fulfilled := s.fulfilled + 1 }
  | .failed => { s with failed := s.failed + 1 }
  | .missed => { s with anomalies := s.anomalies + 1 }
  | .expired => { s with timeouts := s.timeouts + 1 }
  | .cancelled => { s with cancelled := s.cancelled + 1 }
  | .spurned | .thrown => { s with discarded := s.discarded + 1 }
  | .nothing | .abandoned | .swept _ => s

namespace Moment

def removes (moment : Moment ρ) (slot : Slot) : Bool :=
  moment.before.owns slot && !moment.after.owns slot

def marked (moment : Moment ρ) (id : UInt16) : Bool :=
  moment.before.entries[id]?.any (·.discard)

def upshot (moment : Moment ρ) : Upshot :=
  match moment.op, moment.effect.answer with
  | .register, .registered (.ok _) => .granted
  | .fulfill id _, .found true => if moment.marked id then .spurned else .delivered
  | .fail _ _, .found true => .failed
  | .fulfill _ _, .found false | .fail _ _, .found false | .proceedAsync _, .found false => .missed
  | .failAll _, .failed count => .swept count
  | .look slot _, _ | .lookOrProceed slot _, _ => if moment.removes slot then .expired else .nothing
  | .cancel _, .found true => .cancelled
  | .discard _, _ => if moment.throws then .thrown else .nothing
  | .drop slot, _ => if moment.removes slot then .abandoned else .nothing
  | _, _ => .nothing

structure Booked (moment : Moment ρ) : Prop where
  stats : moment.after.stats = moment.before.stats.bump moment.upshot
  entries : moment.after.outstanding + moment.upshot.going =
    moment.before.outstanding + moment.upshot.coming

variable {moment : Moment ρ}

theorem Booked.of_upshot (u : Upshot) (same : moment.upshot = u)
    (stats : moment.after.stats = moment.before.stats.bump u)
    (entries : moment.after.outstanding + u.going = moment.before.outstanding + u.coming) :
    moment.Booked := by
  subst same
  exact ⟨stats, entries⟩

theorem Booked.of_nothing (same : moment.upshot = .nothing)
    (stats : moment.after.stats = moment.before.stats)
    (entries : moment.after.outstanding = moment.before.outstanding) : moment.Booked :=
  .of_upshot .nothing same stats entries

theorem removes_of_entries {slot : Slot} (same : moment.after.entries = moment.before.entries) :
    moment.removes slot = false := by
  have owns : moment.after.owns slot = moment.before.owns slot := by
    rw [Table.owns, Table.owns, same]
  simp [removes, owns]

theorem Booked.of_same {u : Upshot} {slot : Slot}
    (upshot : moment.upshot = if moment.removes slot then u else .nothing)
    (entries : moment.after.entries = moment.before.entries)
    (stats : moment.after.stats = moment.before.stats)
    (outstanding : moment.after.outstanding = moment.before.outstanding) : moment.Booked := by
  refine .of_nothing ?_ stats outstanding
  rw [upshot, removes_of_entries entries]
  rfl

theorem removes_of_without {slot : Slot} (owned : moment.before.owns slot = true)
    (gone : moment.after.entries[slot.id]? = none) : moment.removes slot = true := by
  have lost : moment.after.owns slot = false := by
    rw [Table.owns, gone]
  simp [removes, owned, lost]

end Moment

namespace Table

variable {table : Table ρ} {op : Op ρ} {slot : Slot}

theorem Counted.pos_of_some (h : table.Counted) {id : UInt16} {entry : Entry}
    (found : table.entries[id]? = some entry) : 1 ≤ table.outstanding := by
  have size := size_erase_of_some found
  have counted := h.outstanding
  omega

theorem Counted.pos_of_owns (h : table.Counted) (owned : table.owns slot = true) :
    1 ≤ table.outstanding := by
  obtain ⟨entry, found, -⟩ := owns_iff.mp owned
  exact h.pos_of_some found

theorem stats_settle (table : Table ρ) (id : UInt16) (g : Nat) (d : Delivery ρ) :
    ((table.without id).deliver g d).2.stats = table.stats := by
  rw [deliver_eq]
  rfl

theorem outstanding_settle (counted : table.Counted) {id : UInt16} {entry : Entry}
    (found : table.entries[id]? = some entry) (g : Nat) (d : Delivery ρ) :
    ((table.without id).deliver g d).2.outstanding + 1 = table.outstanding := by
  have pos := counted.pos_of_some found
  rw [deliver_eq]
  change table.outstanding - 1 + 1 = table.outstanding
  omega

theorem booked_register (table : Table ρ) : Moment.Booked ⟨table, .register⟩ := by
  rcases register_cases table with ⟨e, same⟩ | ⟨id, free, same⟩
  · refine .of_nothing ?_ ?_ ?_
    · simp [Moment.upshot, Moment.effect, perform, same]
    · simp [Moment.after, perform, same]
    · simp [Moment.after, perform, same]
  · refine .of_upshot .granted ?_ ?_ ?_
    · simp [Moment.upshot, Moment.effect, perform, same]
    · simp [Moment.after, perform, same, enter, Stats.bump]
    · simp [Moment.after, perform, same, enter, Upshot.going, Upshot.coming]

theorem booked_fulfill (counted : table.Counted) (id : UInt16) (r : ρ) :
    Moment.Booked ⟨table, .fulfill id r⟩ := by
  cases found : table.entries[id]? with
  | none =>
    refine .of_upshot .missed ?_ ?_ ?_
    · simp [Moment.upshot, Moment.effect, perform, fulfill_of_none found]
    · simp [Moment.after, perform, fulfill_of_none found, count, Stats.bump]
    · simp [Moment.after, perform, fulfill_of_none found, count, Upshot.going, Upshot.coming]
  | some entry =>
    cases marked : entry.discard with
    | true =>
      have pos := counted.pos_of_some found
      refine .of_upshot .spurned ?_ ?_ ?_
      · simp [Moment.upshot, Moment.effect, Moment.marked, perform, fulfill_of_marked found marked,
          found, marked]
      · simp [Moment.after, perform, fulfill_of_marked found marked, count, without, Stats.bump]
      · simp only [Moment.after, perform, fulfill_of_marked found marked, count, without,
          Upshot.going, Upshot.coming]
        omega
    | false =>
      refine .of_upshot .delivered ?_ ?_ ?_
      · simp [Moment.upshot, Moment.effect, Moment.marked, perform, fulfill_of_live found marked,
          found, marked]
      · simp [Moment.after, perform, fulfill_of_live found marked, count, stats_settle, Stats.bump]
      · simp [Moment.after, perform, fulfill_of_live found marked, count, Upshot.going,
          Upshot.coming, outstanding_settle counted found]

theorem booked_fail (counted : table.Counted) (id : UInt16) (e : InvocationError) :
    Moment.Booked ⟨table, .fail id e⟩ := by
  cases found : table.entries[id]? with
  | none =>
    refine .of_upshot .missed ?_ ?_ ?_
    · simp [Moment.upshot, Moment.effect, perform, fail_of_none found]
    · simp [Moment.after, perform, fail_of_none found, count, Stats.bump]
    · simp [Moment.after, perform, fail_of_none found, count, Upshot.going, Upshot.coming]
  | some entry =>
    refine .of_upshot .failed ?_ ?_ ?_
    · simp [Moment.upshot, Moment.effect, perform, fail_of_some found]
    · simp [Moment.after, perform, fail_of_some found, count, stats_settle, Stats.bump]
    · simp [Moment.after, perform, fail_of_some found, count, Upshot.going, Upshot.coming,
        outstanding_settle counted found]

theorem booked_failAll (sound : table.Sound) (reason : String) :
    Moment.Booked ⟨table, .failAll reason⟩ := by
  have kept : (table.failAll reason).2.stats = table.stats := by
    refine failAll_keeps (fun after => after.stats = table.stats) reason rfl ?_
    intro after id same
    cases found : after.entries[id]? with
    | none => rwa [sever_of_none found]
    | some entry => rwa [sever_of_some found, stats_settle]
  have swept : (table.failAll reason).2.Sound :=
    sound.perform (show table.Allowed (.failAll reason) from trivial)
  have none_left := swept.toCounted.outstanding_eq_zero_iff.mpr (vacant_failAll table reason)
  have all := sound.outstanding
  refine .of_upshot (.swept table.entries.size) rfl kept ?_
  simp only [Moment.after, perform, Upshot.going, Upshot.coming]
  omega

theorem booked_proceedAsync (table : Table ρ) (id : UInt16) :
    Moment.Booked ⟨table, .proceedAsync id⟩ := by
  cases found : table.entries[id]? with
  | none =>
    refine .of_upshot .missed ?_ ?_ ?_
    · simp [Moment.upshot, Moment.effect, perform, proceedAsync_of_none found]
    · simp [Moment.after, perform, proceedAsync_of_none found, count, Stats.bump]
    · simp [Moment.after, perform, proceedAsync_of_none found, count, Upshot.going, Upshot.coming]
  | some entry =>
    refine .of_nothing ?_ ?_ ?_
    · simp [Moment.upshot, Moment.effect, perform, proceedAsync_of_some found]
    · simp [Moment.after, perform, proceedAsync_of_some found, resignal]
    · simp [Moment.after, perform, proceedAsync_of_some found, resignal]

theorem booked_beginWait (table : Table ρ) (slot : Slot) :
    Moment.Booked ⟨table, .beginWait slot⟩ := by
  cases claimed : table.claimed slot with
  | true =>
    refine .of_nothing ?_ ?_ ?_ <;>
      simp [Moment.upshot, Moment.after, perform, beginWait, claimed]
  | false =>
    refine .of_nothing ?_ ?_ ?_ <;>
      simp [Moment.upshot, Moment.after, perform, beginWait, claimed, setHold]

theorem booked_lookOn (counted : table.Counted) {middle : Table ρ} {late : Bool}
    (same : table.perform op = middle.lookOn slot late)
    (entries : middle.entries = table.entries) (stats : middle.stats = table.stats)
    (outstanding : middle.outstanding = table.outstanding)
    (upshot : Moment.upshot ⟨table, op⟩ =
      if Moment.removes ⟨table, op⟩ slot then .expired else .nothing) :
    Moment.Booked ⟨table, op⟩ := by
  have after : (⟨table, op⟩ : Moment ρ).after = (middle.lookOn slot late).2 :=
    congrArg Prod.snd same
  cases arrived : middle.arrival? slot with
  | some d =>
    rw [lookOn_of_some (claim_of_arrived arrived) late] at after
    exact .of_same upshot (by rw [after]; exact entries) (by rw [after]; exact stats)
      (by rw [after]; exact outstanding)
  | none =>
    cases owned : middle.owns slot with
    | false =>
      rw [lookOn_of_some (claim_of_severed arrived owned) late] at after
      exact .of_same upshot (by rw [after]; exact entries) (by rw [after]; exact stats)
        (by rw [after]; exact outstanding)
    | true =>
      rw [lookOn_of_none (claim_of_empty arrived owned) late] at after
      cases late with
      | false =>
        exact .of_same upshot (by rw [after]; exact entries) (by rw [after]; exact stats)
          (by rw [after]; exact outstanding)
      | true =>
        have expired : (⟨table, op⟩ : Moment ρ).after = (middle.expire slot).2 := after
        have owned' : table.owns slot = true := by
          rw [owns, ← entries]
          exact owned
        have pos := counted.pos_of_owns owned'
        rw [expire_of_owns owned] at expired
        refine .of_upshot .expired ?_ ?_ ?_
        · rw [upshot, Moment.removes_of_without owned']
          · rfl
          · rw [expired]
            simp [count]
        · rw [expired]
          change middle.stats.bump .expired = table.stats.bump .expired
          rw [stats]
        · rw [expired]
          change middle.outstanding - 1 + 1 = table.outstanding
          omega

theorem booked_lookOrProceed (counted : table.Counted) (slot : Slot) (late : Bool) :
    Moment.Booked ⟨table, .lookOrProceed slot late⟩ := by
  rcases lookOrProceed_cases table slot late with ⟨-, same⟩ | ⟨-, same⟩ | ⟨-, -, same⟩
  · have after : (⟨table, .lookOrProceed slot late⟩ : Moment ρ).after = table :=
      congrArg Prod.snd same
    exact .of_same rfl (by rw [after]) (by rw [after]) (by rw [after])
  · exact booked_lookOn counted same rfl rfl rfl rfl
  · have after : (⟨table, .lookOrProceed slot late⟩ : Moment ρ).after =
        ((table.attend slot).useSignal slot).2 := congrArg Prod.snd same
    refine .of_same rfl ?_ ?_ ?_
    all_goals
      rw [after]
      unfold useSignal
      split <;> rfl

theorem booked_cancel (counted : table.Counted) (slot : Slot) :
    Moment.Booked ⟨table, .cancel slot⟩ := by
  cases owned : table.owns slot with
  | false =>
    refine .of_nothing ?_ ?_ ?_ <;>
      simp [Moment.upshot, Moment.effect, Moment.after, perform, cancel_of_not_owns owned]
  | true =>
    obtain ⟨entry, found, -⟩ := owns_iff.mp owned
    refine .of_upshot .cancelled ?_ ?_ ?_
    · simp [Moment.upshot, Moment.effect, perform, cancel_of_owns owned]
    · simp [Moment.after, perform, cancel_of_owns owned, count, stats_settle, Stats.bump]
    · simp [Moment.after, perform, cancel_of_owns owned, count, Upshot.going, Upshot.coming,
        outstanding_settle counted found]

theorem booked_discard (c : table.Coupled) (slot : Slot) :
    Moment.Booked ⟨table, .discard slot⟩ := by
  cases unread : table.unread slot with
  | some d =>
    have arrived : table.arrival? slot ≠ none := by
      unfold Table.unread at unread
      cases box : table.box? slot with
      | none => simp [box] at unread
      | some b => simp_all [arrival?]
    have lost := c.not_owns_of_arrival arrived
    refine .of_upshot .thrown ?_ ?_ ?_
    · simp [Moment.upshot, Moment.throws, unread]
    · simp [Moment.after, perform, discard_of_unread lost unread, count, closeBox, Stats.bump]
    · simp [Moment.after, perform, discard_of_unread lost unread, count, closeBox, Upshot.going,
        Upshot.coming]
  | none =>
    have upshot : Moment.upshot ⟨table, .discard slot⟩ = .nothing := by
      simp [Moment.upshot, Moment.throws, unread]
    cases owned : table.owns slot with
    | true =>
      refine .of_nothing upshot ?_ ?_ <;>
        simp [Moment.after, perform, discard_of_owns owned, givenUp, closeBox]
    | false =>
      refine .of_nothing upshot ?_ ?_ <;>
        simp [Moment.after, perform, discard_of_read owned unread, closeBox]

theorem booked_drop (counted : table.Counted) (slot : Slot) :
    Moment.Booked ⟨table, .drop slot⟩ := by
  have quiet : (table.drop slot).2 = table.closeBox slot → Moment.Booked ⟨table, .drop slot⟩ := by
    intro same
    have after : (⟨table, .drop slot⟩ : Moment ρ).after = table.closeBox slot := same
    exact .of_same rfl (by rw [after]; rfl) (by rw [after]; rfl) (by rw [after]; rfl)
  cases claimed : table.claimed slot with
  | true => exact quiet (by simp [drop, claimed])
  | false =>
    cases owned : table.owns slot with
    | false => exact quiet (by simp [drop, claimed, abandon_of_not_owns owned])
    | true =>
      have pos := counted.pos_of_owns owned
      have after : (⟨table, .drop slot⟩ : Moment ρ).after =
          (table.without slot.id).closeBox slot := by
        simp [Moment.after, perform, drop, claimed, abandon_of_owns owned]
      have gone : Moment.removes ⟨table, .drop slot⟩ slot = true :=
        Moment.removes_of_without owned (by rw [after]; simp)
      refine .of_upshot .abandoned ?_ (by rw [after]; rfl) ?_
      · simp [Moment.upshot, gone]
      · rw [after]
        change table.outstanding - 1 + 1 = table.outstanding
        omega

theorem booked (sound : table.Sound) (op : Op ρ) : Moment.Booked ⟨table, op⟩ := by
  have counted := sound.toCounted
  cases op with
  | register => exact booked_register table
  | fulfill id r => exact booked_fulfill counted id r
  | fail id e => exact booked_fail counted id e
  | failAll reason => exact booked_failAll sound reason
  | proceedAsync id => exact booked_proceedAsync table id
  | beginWait slot => exact booked_beginWait table slot
  | look slot late => exact booked_lookOn counted rfl rfl rfl rfl rfl
  | breakOff slot => exact .of_nothing rfl rfl rfl
  | lookOrProceed slot late => exact booked_lookOrProceed counted slot late
  | letGo slot => exact .of_nothing rfl rfl rfl
  | cancel slot => exact booked_cancel counted slot
  | discard slot => exact booked_discard sound.toCoupled slot
  | drop slot => exact booked_drop counted slot

end Table

/-! ## Runs -/

def often (trace : List (Moment ρ)) (upshot : Upshot) : Nat :=
  trace.countP fun moment => moment.upshot = upshot

def Upshot.atOnce : Upshot → Nat
  | swept count => count
  | _ => 0

def sweptAway (trace : List (Moment ρ)) : Nat := (trace.map fun moment => moment.upshot.atOnce).sum

theorem often_snoc (trace : List (Moment ρ)) (moment : Moment ρ) (upshot : Upshot) :
    often (trace ++ [moment]) upshot =
      often trace upshot + if moment.upshot = upshot then 1 else 0 := by
  rw [often, countP_snoc, often]
  split <;> simp_all

theorem sweptAway_snoc (trace : List (Moment ρ)) (moment : Moment ρ) :
    sweptAway (trace ++ [moment]) = sweptAway trace + moment.upshot.atOnce := by
  simp [sweptAway]

structure Counts (trace : List (Moment ρ)) (table : Table ρ) : Prop where
  registered : table.stats.registered = often trace .granted
  fulfilled : table.stats.fulfilled = often trace .delivered
  failed : table.stats.failed = often trace .failed
  anomalies : table.stats.anomalies = often trace .missed
  timeouts : table.stats.timeouts = often trace .expired
  cancelled : table.stats.cancelled = often trace .cancelled
  discarded : table.stats.discarded = often trace .spurned + often trace .thrown
  /-- What was registered is still outstanding or went one way or another. -/
  balance : table.stats.registered = table.outstanding + table.stats.fulfilled +
    table.stats.failed + table.stats.timeouts + table.stats.cancelled + often trace .spurned +
    often trace .abandoned + sweptAway trace

theorem Counts.step {trace : List (Moment ρ)} {moment : Moment ρ}
    (counts : Counts trace moment.before) (booked : moment.Booked) :
    Counts (trace ++ [moment]) moment.after := by
  obtain ⟨registered, fulfilled, failed, anomalies, timeouts, cancelled, discarded, balance⟩ :=
    counts
  obtain ⟨stats, entries⟩ := booked
  have now := often_snoc trace moment
  have away := sweptAway_snoc trace moment
  cases upshot : moment.upshot
  all_goals
    rw [upshot] at stats entries away
    simp only [upshot] at now
    simp only [Upshot.going, Upshot.coming, Upshot.atOnce] at entries away
    constructor
    all_goals
      rw [stats]
      simp only [Stats.bump, now, away, reduceCtorEq, ↓reduceIte]
      omega

theorem Stats.bump_rises (s : Stats) (upshot : Upshot) :
    List.Forall₂ (· ≤ ·) s.toList (s.bump upshot).toList := by
  cases upshot <;> simp [Stats.bump, Stats.toList]

/-- The counters tell what happened in a run, and nothing else moves them. -/
structure Bookkept (trace : List (Moment ρ)) (table : Table ρ) : Prop
    extends Counts trace table where
  rising : ∀ moment ∈ trace,
    List.Forall₂ (· ≤ ·) moment.before.stats.toList moment.after.stats.toList
  refused : ∀ moment ∈ trace, ∀ e, moment.op = .register →
    moment.effect.answer = .registered (.error e) → moment.after = moment.before

theorem Table.register_of_error {table : Table ρ} {e : CorrelationError}
    (refused : table.register.1 = .error e) : table.register.2 = table := by
  rcases table.register_cases with ⟨e', same⟩ | ⟨id, free, same⟩
  · rw [same]
  · rw [same] at refused
    cases refused

namespace Run

variable {limit : Nat} {trace : List (Moment ρ)} {table : Table ρ}

theorem counts (run : Run limit trace table) : Counts trace table := by
  induction run with
  | start => constructor <;> rfl
  | step run allowed ih => exact ih.step (Table.booked run.sound _)

theorem bookkept (run : Run limit trace table) : Bookkept trace table where
  toCounts := run.counts
  rising := by
    intro moment mem
    obtain ⟨⟨first, -, before⟩, -⟩ := run.earlier mem
    rw [(Table.booked before.sound moment.op).stats]
    exact moment.before.stats.bump_rises _
  refused := by
    rintro ⟨before, op⟩ - e register answer
    change op = .register at register
    subst register
    exact Table.register_of_error (Answer.registered.inj answer)

/-- Eight calls, each one ending in another way but the last two, which are failed together; one is
refused, and two arrivals come for nobody. -/
theorem bookkept_of_eight_calls :
    let ops : List (Op String) := [.register, .register, .register, .register, .fulfill 1 "read",
      .beginWait ⟨1, 0⟩, .look ⟨1, 0⟩ false, .discard ⟨2, 1⟩, .fulfill 2 "spurned",
      .fulfill 2 "late", .fail 3 .noClientContext, .discard ⟨3, 2⟩, .register,
      .lookOrProceed ⟨4, 3⟩ true, .register, .cancel ⟨5, 4⟩, .register, .drop ⟨6, 5⟩, .register,
      .register, .failAll "gone", .proceedAsync 7]
    let trace := (Table.empty 3 : Table String).moments ops
    let table := (Table.empty 3 : Table String).performAll ops
    Run 3 trace table ∧ Bookkept trace table ∧ table.stats.toList = [8, 1, 1, 2, 1, 1, 2] ∧
      often trace .abandoned = 1 ∧ sweptAway trace = 2 ∧ table.outstanding = 0 := by
  intro ops trace table
  have run : Run 3 trace table := Run.start.performAll ops (by decide +kernel)
  exact ⟨run, run.bookkept, by decide +kernel, by decide +kernel, by decide +kernel,
    by decide +kernel⟩

end Run

end Farcall
