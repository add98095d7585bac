import Farcall.Proofs.Channel.Pending
import Farcall.Proofs.Correlation.Arrivals
import Farcall.Proofs.Correlation.Staleness

set_option autoImplicit false

/-!
# Channels that differ in one box

A channel does with a message what it does whatever is in the boxes of its table. So two channels that
differ in the box of one pending call stay so while they hear the same: what the call is told, and who
has the reading end of its box, leaves no other trace.
-/

namespace Farcall

namespace Table

variable {ρ : Type} {table : Table ρ} {slot : Slot} {signals : Signals} {hold : Hold}

/-! ## What is done to the box of a call -/

theorem Pends.alike_resignal (pends : table.Pends slot signals hold) (f : Signals → Signals) :
    (table.resignal slot.generation f).Pends slot (f signals) hold ∧
      AlikeBut slot.generation 0 table (table.resignal slot.generation f) :=
  ⟨pends.resignal f, .modify_self table _ _⟩

theorem Pends.proceedAsync (pends : table.Pends slot signals hold) :
    (table.proceedAsync slot.id).2.Pends slot signals.raise hold ∧
      AlikeBut slot.generation 0 table (table.proceedAsync slot.id).2 := by
  refine ⟨pends.proceed, ?_⟩
  rw [proceedAsync_of_some pends.entry]
  exact .modify_self table _ _

theorem Pends.useSignal (pends : table.Pends slot signals hold) : ∃ left : Signals,
    ((table.attend slot).useSignal slot).2.Pends slot left hold ∧
      AlikeBut slot.generation 0 table ((table.attend slot).useSignal slot).2 := by
  obtain ⟨attended, alike⟩ := pends.alike_resignal .attend
  rcases (table.attend slot).useSignal_cases slot with ⟨-, same⟩ | ⟨stored, -, same⟩
  · rw [same]
    exact ⟨_, attended, alike⟩
  · rw [same]
    obtain ⟨pends, used⟩ := attended.alike_resignal fun _ => .idle stored
    exact ⟨_, pends, alike.trans used⟩

theorem Pends.setHold (pends : table.Pends slot signals hold) (next : Hold) :
    (table.setHold slot next).Pends slot signals next ∧
      AlikeBut slot.generation 0 table (table.setHold slot next) := by
  refine ⟨⟨pends.entry, ?_⟩, .modify_self table _ _⟩
  change (table.boxes.modify slot.generation _)[slot.generation]? = _
  rw [modify_box, if_pos rfl, pends.box]
  rfl

theorem Pends.arrival_fulfill (pends : table.Pends slot signals hold) (reads : hold ≠ .gone) (r : ρ) :
    (table.fulfill slot.id r).2.arrival? slot = some (.result r) :=
  Table.arrival_fulfill pends.entry rfl rfl (pends.read reads) r

end Table

namespace Association

variable {association other : Association} {g : Nat} {id : UInt16} {message : Bytes}

/-! ## What a message does whatever the table is -/

theorem process_of_route (association : Association) (registry : Registry) {route : Route}
    {rest : Bytes} (given : Route.decoder.run message = (.ok route, rest)) :
    association.process registry (.ofBytes message) =
      association.settle registry (Route.decoder.run (Input.ofBytes message)).2 (.ok route) := by
  have same : (Route.decoder.run (Input.ofBytes message)).1 = (Route.decoder.run message).1 :=
    (Route.decoder.run_of_steady (Input.steady_ofBytes message)).1
  rw [process_eq, same, given]

theorem process_of_answered (answered : answeredId? message = some id) :
    ∃ result : LazyResult, ∀ (association : Association) (registry : Registry),
      (association.process registry (.ofBytes message)).association =
          { association with table := (association.table.fulfill id result).2 } ∧
        (association.process registry (.ofBytes message)).registry = registry := by
  obtain ⟨kind, given⟩ := Route.run_of_answer answered
  refine ⟨.answer kind (Route.decoder.run (Input.ofBytes message)).2, fun association registry => ?_⟩
  rw [association.process_of_route registry given]
  exact ⟨rfl, rfl⟩

theorem process_of_notification (association : Association) (registry : Registry)
    (called : calledId? message = some id) (unanswered : answeredId? message = none) :
    (association.process registry (.ofBytes message)).association =
        { association with table := (association.table.proceedAsync id).2 } ∧
      (association.process registry (.ofBytes message)).registry = registry := by
  have steady := (Route.decoder.run_of_steady (Input.steady_ofBytes message)).2.2
  rw [association.process_of_route registry (Route.run_of_notification called unanswered)]
  simp only [settle, Input.close, steady.closes]
  exact ⟨rfl, trivial⟩

/-! ## Channels that are alike -/

/-- The channels differ in the box of one registration at most. -/
structure Like (g : Nat) (association other : Association) : Prop where
  frame : other = { association with table := other.table }
  tables : Table.AlikeBut g 0 association.table other.table

namespace Like

theorem refl (g : Nat) (association : Association) : Like g association association :=
  ⟨rfl, .refl g association.table⟩

theorem withTable {table : Table LazyResult} (like : Like g association other)
    (own : Table.AlikeBut g 0 other.table table) : Like g association { other with table } := by
  refine ⟨?_, like.tables.trans own⟩
  rw [like.frame]

theorem process (like : Like g association other) (registry : Registry) (input : Input) :
    Like g (association.process registry input).association
        (other.process registry input).association ∧
      (other.process registry input).registry = (association.process registry input).registry := by
  obtain ⟨frame, tables⟩ := like
  generalize other.table = table at frame tables
  subst frame
  rw [process_eq, process_eq]
  cases Route.decoder.run input with
  | mk decoded rest =>
    cases decoded with
    | error e => exact ⟨⟨rfl, tables⟩, rfl⟩
    | ok route =>
      cases route with
      | foreign header => exact ⟨⟨rfl, tables⟩, rfl⟩
      | answer kind id => exact ⟨⟨rfl, tables.fulfill_behind id _⟩, rfl⟩
      | announcement news =>
        simp only [settle]
        cases rest.close with
        | mk closed events =>
          cases closed with
          | error fault => exact ⟨⟨rfl, tables⟩, rfl⟩
          | ok done =>
            obtain ⟨name, heard, receiver, backlog, closed⟩ := association
            cases receiver with
            | none => exact ⟨⟨rfl, tables⟩, rfl⟩
            | some receiver => exact ⟨⟨rfl, tables⟩, rfl⟩
      | notification id =>
        simp only [settle]
        cases rest.close with
        | mk closed events =>
          cases closed with
          | error fault => exact ⟨⟨rfl, tables⟩, rfl⟩
          | ok done => exact ⟨⟨rfl, (tables.proceedAsync id).2⟩, rfl⟩

theorem close (like : Like g association other) (reason : String) :
    Like g (association.close reason).2 (other.close reason).2 := by
  obtain ⟨frame, tables⟩ := like
  generalize other.table = table at frame tables
  subst frame
  exact ⟨rfl, (tables.failAll reason).2⟩

end Like

end Association

end Farcall
