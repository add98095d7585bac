import Farcall.Correlation.Table
import Mathlib.Data.List.Induction

set_option autoImplicit false

/-!
# Runs of a correlation table

Everything that can be done to a table or to one of its slots, one operation after the other. A
wait is begun, looked at until it ends, or broken off before that; while it is under way nothing else
is done with its slot. A wait that can be told to proceed leaves the box with the slot. It begins
with its first look, and goes on until a look ends it or it is let go; the slot's next operation ends
it as well. A slot that is gone is not used again. `Allowed` says so. Which operations come, and in
which order, is left open.
-/

namespace Farcall

inductive Op (ρ : Type) where
  | register
  | fulfill (id : UInt16) (r : ρ)
  | fail (id : UInt16) (e : InvocationError)
  | failAll (reason : String)
  | proceedAsync (id : UInt16)
  | beginWait (slot : Slot)
  /-- One look of a wait; `late` says that its time is over. -/
  | look (slot : Slot) (late : Bool)
  | breakOff (slot : Slot)
  | lookOrProceed (slot : Slot) (late : Bool)
  | letGo (slot : Slot)
  | cancel (slot : Slot)
  | discard (slot : Slot)
  | drop (slot : Slot)

inductive Answer (ρ : Type) where
  | registered (result : Except CorrelationError Slot)
  | found (b : Bool)
  | failed (count : Nat)
  | waits
  | ended (result : Except InvocationError (Completion ρ))
  | nothing

structure Effect (ρ : Type) where
  answer : Answer ρ
  discarded : Option ρ
  /-- A result that went away, neither given to a caller nor discarded. -/
  lost : Option ρ

def Op.waiter? {ρ : Type} : Op ρ → Option Slot
  | beginWait slot | look slot _ | lookOrProceed slot _ => some slot
  | _ => none

/-- A wait is over with this answer, and not to be taken up again. -/
def Answer.Final {ρ : Type} : Answer ρ → Prop
  | ended (.ok .proceedAsync) => False
  | ended _ => True
  | _ => False

namespace Table

variable {ρ : Type}

def giveUp (table : Table ρ) (slot : Slot) (late : Bool) : Effect ρ × Table ρ :=
  if late then (⟨.ended (.error (table.expire slot).1), none, none⟩, (table.expire slot).2)
  else (⟨.waits, none, none⟩, table)

def lookOn (table : Table ρ) (slot : Slot) (late : Bool) : Effect ρ × Table ρ :=
  match table.claim slot with
  | (some result, table) => (⟨.ended (result.map .ready), none, none⟩, table)
  | (none, table) => table.giveUp slot late

def lookOrProceed (table : Table ρ) (slot : Slot) (late : Bool) : Effect ρ × Table ρ :=
  if table.claimed slot then
    (⟨.ended (.error (.correlation (.alreadyClaimed slot.id))), none, none⟩, table)
  else
    match table.claimOrProceed slot with
    | (some result, table) => (⟨.ended result, none, none⟩, table)
    | (none, table) => table.giveUp slot late

def perform (table : Table ρ) : Op ρ → Effect ρ × Table ρ
  | .register => (⟨.registered table.register.1, none, none⟩, table.register.2)
  | .fulfill id r =>
    (⟨.found (table.fulfill id r).1.1, (table.fulfill id r).1.2, none⟩, (table.fulfill id r).2)
  | .fail id e => (⟨.found (table.fail id e).1, none, none⟩, (table.fail id e).2)
  | .failAll reason =>
    (⟨.failed (table.failAll reason).1, none, none⟩, (table.failAll reason).2)
  | .proceedAsync id =>
    (⟨.found (table.proceedAsync id).1, none, none⟩, (table.proceedAsync id).2)
  | .beginWait slot =>
    match table.beginWait slot with
    | (.error e, table) => (⟨.ended (.error e), none, none⟩, table)
    | (.ok (), table) => (⟨.waits, none, none⟩, table)
  | .look slot late => table.lookOn slot late
  | .breakOff slot => (⟨.nothing, none, (table.breakOff slot).1⟩, (table.breakOff slot).2)
  | .lookOrProceed slot late => table.lookOrProceed slot late
  | .letGo slot => (⟨.nothing, none, none⟩, table.letGo slot)
  | .cancel slot => (⟨.found (table.cancel slot).1, none, none⟩, (table.cancel slot).2)
  | .discard slot => (⟨.nothing, (table.discard slot).1, none⟩, (table.discard slot).2)
  | .drop slot => (⟨.nothing, (table.drop slot).1, none⟩, (table.drop slot).2)

def holder? (table : Table ρ) (slot : Slot) : Option Hold :=
  match table.box? slot with
  | some box => if box.id = slot.id then some box.hold else none
  | none => none

def HasSlot (table : Table ρ) (slot : Slot) : Prop := ∃ hold, table.holder? slot = some hold

/-- The slot exists, and no wait on it is under way. -/
def Idle (table : Table ρ) (slot : Slot) : Prop :=
  table.holder? slot = some .slot ∨ table.holder? slot = some .gone

def Waiting (table : Table ρ) (slot : Slot) : Prop := table.holder? slot = some .wait

instance (table : Table ρ) (slot : Slot) : Decidable (table.Idle slot) :=
  inferInstanceAs (Decidable (_ ∨ _))

instance (table : Table ρ) (slot : Slot) : Decidable (table.Waiting slot) :=
  inferInstanceAs (Decidable (_ = _))

def Allowed (table : Table ρ) : Op ρ → Prop
  | .register | .fulfill _ _ | .fail _ _ | .failAll _ | .proceedAsync _ => True
  | .beginWait slot | .lookOrProceed slot _ | .letGo slot | .cancel slot | .discard slot
  | .drop slot => table.Idle slot
  | .look slot _ | .breakOff slot => table.Waiting slot

end Table

/-- An operation of a run, and the table that it met. -/
structure Moment (ρ : Type) where
  before : Table ρ
  op : Op ρ

namespace Moment

variable {ρ : Type}

def effect (moment : Moment ρ) : Effect ρ := (moment.before.perform moment.op).1

def after (moment : Moment ρ) : Table ρ := (moment.before.perform moment.op).2

end Moment

/-- The runs of a fresh table: what happened, first operation first, and the table at the end. -/
inductive Run {ρ : Type} (limit : Nat) : List (Moment ρ) → Table ρ → Prop
  | start : Run limit [] (.empty limit)
  | step {trace : List (Moment ρ)} {table : Table ρ} {op : Op ρ} (run : Run limit trace table)
      (allowed : table.Allowed op) : Run limit (trace ++ [⟨table, op⟩]) (table.perform op).2

def Answered {ρ : Type} (trace : List (Moment ρ)) (slot : Slot) : Prop :=
  ∃ moment ∈ trace, moment.op.waiter? = some slot ∧ moment.effect.answer.Final

def BrokenOff {ρ : Type} (trace : List (Moment ρ)) (slot : Slot) : Prop :=
  ∃ moment ∈ trace, moment.op = .breakOff slot

/-- Every wait of a run was kept up until it ended. -/
def Driven {ρ : Type} (trace : List (Moment ρ)) : Prop := ∀ slot, ¬ BrokenOff trace slot

theorem Driven.of_prefix {ρ : Type} {first trace : List (Moment ρ)} (driven : Driven trace)
    (shorter : first <+: trace) : Driven first := by
  rintro slot ⟨moment, mem, broken⟩
  exact driven slot ⟨moment, shorter.subset mem, broken⟩

namespace Run

variable {ρ : Type} {limit : Nat} {trace front rest : List (Moment ρ)}
  {table other : Table ρ} {moment : Moment ρ}

theorem earlier (run : Run limit trace table) {moment : Moment ρ} (mem : moment ∈ trace) :
    (∃ first, first <+: trace ∧ Run limit first moment.before) ∧
      moment.before.Allowed moment.op := by
  induction run with
  | start => cases mem
  | @step trace table op run allowed ih =>
    have longer : trace <+: trace ++ [⟨table, op⟩] := List.prefix_append _ _
    rcases List.mem_append.mp mem with old | new
    · obtain ⟨⟨first, shorter, before⟩, possible⟩ := ih old
      exact ⟨⟨first, shorter.trans longer, before⟩, possible⟩
    · obtain rfl := List.mem_singleton.mp new
      exact ⟨⟨trace, longer, run⟩, allowed⟩

theorem of_snoc (run : Run limit (trace ++ [moment]) table) :
    Run limit trace moment.before ∧ moment.before.Allowed moment.op ∧ table = moment.after := by
  generalize whole : trace ++ [moment] = all at run
  cases run with
  | start => exact absurd whole (List.append_ne_nil_of_right_ne_nil _ (List.cons_ne_nil _ _))
  | step run allowed =>
    obtain ⟨rfl, last⟩ := List.append_inj' whole rfl
    obtain rfl := List.head_eq_of_cons_eq last
    exact ⟨run, allowed, rfl⟩

theorem table_eq (run : Run limit trace table) (again : Run limit trace other) : table = other := by
  cases run with
  | start =>
    generalize nothing : ([] : List (Moment ρ)) = all at again
    cases again with
    | start => rfl
    | step => exact absurd nothing.symm (List.append_ne_nil_of_right_ne_nil _ (List.cons_ne_nil _ _))
  | step run allowed => exact again.of_snoc.2.2.symm

theorem of_append (run : Run limit (front ++ rest) table) : ∃ middle, Run limit front middle := by
  induction rest using List.reverseRecOn generalizing table with
  | nil => exact ⟨table, by rwa [List.append_nil] at run⟩
  | append_singleton rest last ih =>
    rw [← List.append_assoc] at run
    exact ih run.of_snoc.1

theorem of_cons (run : Run limit (front ++ moment :: rest) table) :
    Run limit front moment.before ∧ moment.before.Allowed moment.op := by
  rw [List.append_cons] at run
  obtain ⟨_, run⟩ := run.of_append
  obtain ⟨before, allowed, -⟩ := run.of_snoc
  exact ⟨before, allowed⟩

end Run

/-! ## Runs from operations -/

namespace Table

variable {ρ : Type}

def moments (table : Table ρ) : List (Op ρ) → List (Moment ρ)
  | [] => []
  | op :: ops => ⟨table, op⟩ :: (table.perform op).2.moments ops

def performAll (table : Table ρ) : List (Op ρ) → Table ρ
  | [] => table
  | op :: ops => (table.perform op).2.performAll ops

def AllowedAll (table : Table ρ) : List (Op ρ) → Prop
  | [] => True
  | op :: ops => table.Allowed op ∧ (table.perform op).2.AllowedAll ops

instance (table : Table ρ) : (op : Op ρ) → Decidable (table.Allowed op)
  | .register | .fulfill _ _ | .fail _ _ | .failAll _ | .proceedAsync _ => .isTrue trivial
  | .beginWait slot | .lookOrProceed slot _ | .letGo slot | .cancel slot | .discard slot
  | .drop slot => inferInstanceAs (Decidable (table.Idle slot))
  | .look slot _ | .breakOff slot => inferInstanceAs (Decidable (table.Waiting slot))

instance decidableAllowedAll : (table : Table ρ) → (ops : List (Op ρ)) →
    Decidable (table.AllowedAll ops)
  | _, [] => .isTrue trivial
  | table, op :: ops =>
    have := decidableAllowedAll (table.perform op).2 ops
    inferInstanceAs (Decidable (_ ∧ _))

end Table

theorem Run.performAll {ρ : Type} {limit : Nat} {trace : List (Moment ρ)} {table : Table ρ}
    (run : Run limit trace table) (ops : List (Op ρ)) (allowed : table.AllowedAll ops) :
    Run limit (trace ++ table.moments ops) (table.performAll ops) := by
  induction ops generalizing trace table with
  | nil =>
    rw [Table.moments, List.append_nil]
    exact run
  | cons op ops ih =>
    have rest := ih (run.step allowed.1) allowed.2
    rw [List.append_assoc] at rest
    exact rest

namespace Table

variable {ρ : Type}

/-- A whole wait is its beginning and one look, which is the last. -/
theorem wait_eq_lookOn (table : Table ρ) (slot : Slot) (unclaimed : table.claimed slot = false) :
    (table.setHold slot .wait).lookOn slot true =
      (⟨.ended ((table.wait slot).1.map .ready), none, none⟩, (table.wait slot).2) := by
  have begun : table.beginWait slot = (.ok (), table.setHold slot .wait) := by
    simp [beginWait, unclaimed]
  rw [wait, begun]
  unfold lookOn
  split
  · next result after found => simp [found]
  · next after found => simp [found, giveUp, Except.map]

theorem waitOrProceed_eq_lookOrProceed (table : Table ρ) (slot : Slot) :
    table.lookOrProceed slot true =
      (⟨.ended (table.waitOrProceed slot).1, none, none⟩, (table.waitOrProceed slot).2) := by
  unfold lookOrProceed waitOrProceed
  split
  · rfl
  · cases found : table.claimOrProceed slot with
    | mk result after => cases result <;> simp [giveUp]

end Table

end Farcall
