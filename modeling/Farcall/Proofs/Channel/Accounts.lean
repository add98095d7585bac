import Farcall.Proofs.Channel.Confinement
import Farcall.Proofs.Channel.Taps
import Farcall.Proofs.Correlation.Custody

set_option autoImplicit false

/-!
# Accounts of streams

What is seen of one stream in a log of calls and in the events that are reported: that a result is
used up shows as one closing of its stream, and a message either has its stream closed or leaves it,
with its answer, to the table.
-/

namespace Farcall

/-! ## What is seen of one stream -/

def callsOn (log : CallLog) (label : String) : List StreamCall :=
  log.filterMap fun entry => if entry.1 = some label then some entry.2 else none

/-- The stream was read, and then closed a number of times, and each closing was reported. -/
structure Account (log : CallLog) (events : List Event) (label : String) (closes : Nat) :
    Prop where
  calls : ∃ counts : List Nat,
    callsOn log label = counts.map .demand ++ List.replicate closes .close
  reported : events.count (.closed label) = closes

theorem callsOn_append (log more : CallLog) (label : String) :
    callsOn (log ++ more) label = callsOn log label ++ callsOn more label :=
  List.filterMap_append

theorem callsOn_demands (l : Option String) (counts : List Nat) (label : String) :
    callsOn (demands l counts) label = if l = some label then counts.map .demand else [] := by
  unfold callsOn demands
  rw [List.filterMap_map]
  by_cases own : l = some label
  · simp only [Function.comp_def, own, ↓reduceIte]
    exact congrFun List.filterMap_eq_map counts
  · simp [own]

theorem Account.extend {log ending : CallLog} {events more : List Event} {label : String}
    {closes n : Nat} (account : Account log events label closes) {l : Option String}
    {counts : List Nat} (open_still : l = some label → counts = [] ∨ closes = 0)
    (calls : callsOn ending label = List.replicate n .close)
    (reported : more.count (.closed label) = n) :
    Account (log ++ demands l counts ++ ending) (events ++ more) label (closes + n) := by
  obtain ⟨⟨before, seen⟩, count⟩ := account
  refine ⟨?_, by rw [List.count_append, count, reported]⟩
  rw [callsOn_append, callsOn_append, callsOn_demands, calls, seen]
  by_cases own : l = some label
  · rw [if_pos own]
    rcases open_still own with rfl | rfl
    · refine ⟨before, ?_⟩
      rw [List.map_nil, List.append_nil, List.append_assoc, ← List.replicate_add]
    · refine ⟨before ++ counts, ?_⟩
      rw [List.replicate_zero, List.append_nil, List.map_append, Nat.zero_add]
  · refine ⟨before, ?_⟩
    rw [if_neg own, List.append_nil, List.append_assoc, ← List.replicate_add]

namespace LazyResult

def holds (label : String) (result : LazyResult) : Bool := result.stream? = some label

def reports (use : Channel.Use) (result : LazyResult) : List Event :=
  match use with
  | .read => result.read.2
  | .discard => result.discard
  | .drop => result.drop

def logged (use : Channel.Use) (log : CallLog) (result : LazyResult) : CallLog :=
  match use with
  | .read => (result.readTapped log).2
  | .discard => (result.discardTapped log).2
  | .drop => (result.dropTapped log).2

theorem logged_eq (use : Channel.Use) (log : CallLog) (result : LazyResult) :
    ∃ counts, result.logged use log = log ++ demands result.stream? counts ++ result.closing := by
  cases use with
  | read =>
    obtain ⟨counts, tapped⟩ := result.readTapped_eq log
    exact ⟨counts, by rw [logged, tapped]⟩
  | discard => exact ⟨[], by rw [logged, discardTapped_eq, demands, List.map_nil, List.append_nil]⟩
  | drop => exact ⟨[], by rw [logged, dropTapped_eq, demands, List.map_nil, List.append_nil]⟩

theorem count_release (input : Input) (label : String) :
    input.release.count (.closed label) = if input.label = some label then 1 else 0 := by
  unfold Input.release Input.close
  cases input.label with
  | none => rfl
  | some l => simp [List.count_singleton]

theorem events_finish {α : Type} (input : Input) (decoded : Except InvocationError α) :
    (input.finish decoded).2 = input.release := by
  unfold Input.finish Input.release
  cases decoded with
  | error e => rfl
  | ok a =>
    cases input.close with
    | mk closed events => cases closed <;> rfl

theorem count_reports (use : Channel.Use) (result : LazyResult) (label : String) :
    (result.reports use).count (.closed label) = [result].countP (holds label) := by
  cases result with
  | known l result =>
    cases use <;> cases l <;> simp [reports, read, discard, drop, holds, stream?]
  | answer kind input =>
    have same : (answer kind input).reports use = input.release := by
      cases use with
      | read => exact events_finish input _
      | discard | drop => rfl
    rw [same, count_release]
    by_cases own : input.label = some label <;> simp [holds, stream?, own]

theorem callsOn_closing (result : LazyResult) (label : String) :
    callsOn result.closing label = List.replicate ([result].countP (holds label)) .close := by
  cases result with
  | known l result => simp [closing, callsOn, holds, stream?]
  | answer kind input =>
    by_cases own : input.label = some label <;> simp [closing, callsOn, holds, stream?, own]

end LazyResult

theorem count_discarded (result : Option LazyResult) (label : String) :
    (result.toList.flatMap LazyResult.discard).count (.closed label) =
      result.toList.countP (LazyResult.holds label) := by
  cases result with
  | none => rfl
  | some result =>
    rw [Option.toList_some, List.flatMap_singleton]
    exact result.count_reports .discard label

theorem callsOn_closed (result : Option LazyResult) (label : String) :
    callsOn (result.toList.flatMap LazyResult.closing) label =
      List.replicate (result.toList.countP (LazyResult.holds label)) .close := by
  cases result with
  | none => rfl
  | some result =>
    rw [Option.toList_some, List.flatMap_singleton]
    exact result.callsOn_closing label

/-! ## One message -/

namespace Association

variable {association : Association}

/-- What a message leaves behind. For every stream, what the table has and whether the stream was
closed make up for what the table had and whether the stream is that of the message. -/
structure Accounts (association : Association) (input : Input) (closed : CallLog)
    (after : Processed) : Prop where
  sound : after.association.table.Sound
  conserved : ∀ label, after.association.table.contents.countP (LazyResult.holds label) +
      after.events.count (.closed label) =
    association.table.contents.countP (LazyResult.holds label) +
      (if input.label = some label then 1 else 0)
  calls : ∀ label, callsOn closed label =
    List.replicate (after.events.count (.closed label)) .close

theorem Accounts.of_release {input : Input} {after : Processed}
    (sound : after.association.table.Sound) (events : after.events = input.release)
    (same : ∀ p : LazyResult → Bool, after.association.table.contents.countP p =
      association.table.contents.countP p) :
    Accounts association input [(input.label, .close)] after := by
  refine ⟨sound, ?_, ?_⟩
  · intro label
    rw [events, LazyResult.count_release, same]
  · intro label
    rw [events, LazyResult.count_release]
    by_cases own : input.label = some label <;> simp [callsOn, own]

theorem table_modulesChanged (association : Association) (registry : Registry)
    (news : ModuleAvailability) :
    (association.modulesChanged registry news).1.table = association.table := by
  unfold modulesChanged
  split <;> rfl

theorem Accounts.of_close (input : Input) (registry : Registry) (after : Association × Registry)
    (sound : association.table.Sound) (sound' : after.1.table.Sound)
    (same : ∀ p : LazyResult → Bool, after.1.table.contents.countP p =
      association.table.contents.countP p) :
    Accounts association input [(input.label, .close)]
      (match input.close with
      | (.error fault, events) => ⟨.error (.close fault), association, registry, events⟩
      | (.ok (), events) => ⟨.ok (), after.1, after.2, events⟩) := by
  cases closed : input.close with
  | mk outcome events =>
    have released : events = input.release := by rw [Input.release, closed]
    cases outcome with
    | error fault => exact .of_release sound released fun _ => rfl
    | ok done => exact .of_release sound' released same

theorem settle_accounts (registry : Registry) (sound : association.table.Sound) (input : Input)
    (decoded : Except FrameError Route) :
    Accounts association input (association.closings input decoded)
      (association.settle registry input decoded) := by
  cases decoded with
  | error e => exact .of_release sound rfl fun _ => rfl
  | ok route =>
    cases route with
    | foreign header => exact .of_release sound rfl fun _ => rfl
    | answer kind id =>
      have allowed : association.table.Allowed (.fulfill id (.answer kind input)) := trivial
      have count := count_discarded (association.table.fulfill id (.answer kind input)).1.2
      refine ⟨sound.perform allowed, ?_, ?_⟩
      · intro label
        have conserved := Table.conserves_fulfill sound id (.answer kind input)
          (LazyResult.holds label)
        change (association.table.fulfill id (.answer kind input)).2.contents.countP _ +
          ((association.table.fulfill id (.answer kind input)).1.2.toList.flatMap
            LazyResult.discard).count _ = _
        rw [count, conserved]
        by_cases own : input.label = some label <;> simp [LazyResult.holds, LazyResult.stream?, own]
      · intro label
        change callsOn ((association.table.fulfill id (.answer kind input)).1.2.toList.flatMap
          LazyResult.closing) label = List.replicate
            (((association.table.fulfill id (.answer kind input)).1.2.toList.flatMap
              LazyResult.discard).count _) _
        rw [count]
        exact callsOn_closed _ label
    | announcement news =>
      have table := table_modulesChanged association registry news
      have sound' : (association.modulesChanged registry news).1.table.Sound := by
        rw [table]
        exact sound
      exact .of_close input registry (association.modulesChanged registry news) sound sound'
        fun p => by rw [table]
    | notification id =>
      have allowed : association.table.Allowed (.proceedAsync id) := trivial
      have sound' := sound.perform allowed
      exact .of_close input registry ((association.proceedAsync id).2, registry) sound sound'
        (Table.Conserves.of_unread sound.toCoupled sound'.toCoupled
          (Table.unread_proceedAsync association.table id))

end Association

end Farcall
