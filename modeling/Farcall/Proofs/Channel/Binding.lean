import Farcall.Proofs.Channel.Confinement
import Farcall.Proofs.Channel.Routes
import Farcall.Proofs.Frame.RoundTrip
import Farcall.Proofs.Wire.Steady

set_option autoImplicit false

/-!
# When a channel is bound

A host may announce modules before the channel is bound to a receiver. What comes before is kept and
what comes afterwards is applied at once, so the modules of the receiver are in the end those that the
announcements make together, wherever among them the binding took place.
-/

namespace Farcall

open Decoder

/-! ## The announcement in a message -/

def Message.announcement? : Message → Option ModuleAvailability
  | moduleAvailability announcement => some announcement
  | _ => none

/-- The announcement that comes in an input which can be read and closed. -/
def Input.announcement? (input : Input) : Option ModuleAvailability :=
  match Message.decoder.run input with
  | (.ok message, rest) =>
    match rest.close with
    | (.ok (), _) => message.announcement?
    | (.error _, _) => none
  | (.error _, _) => none

theorem Input.announcement?_of_decode {input : Input} {announcement : ModuleAvailability}
    (steady : input.Steady)
    (decoded : Message.decode input.pending = .ok (.moduleAvailability announcement)) :
    input.announcement? = some announcement := by
  obtain ⟨result, -, rest⟩ := Message.decoder.run_of_steady steady
  rw [Message.run_of_decode decoded] at result
  unfold announcement? close
  cases given : Message.decoder.run input with
  | mk read behind =>
    rw [given] at result rest
    obtain rfl : read = .ok (.moduleAvailability announcement) := result
    have closes : behind.closeFault = none := rest.closes
    simp only [closes]
    rfl

namespace Route

def announcement? : Route → Option ModuleAvailability
  | announcement news => some news
  | _ => none

theorem gives_answer (kind : AnswerKind) (id : UInt16) :
    (kind.message id).Gives (·.announcement? = none) := by
  cases kind <;> exact Gives.bind (gives_of_forall _ fun _ => rfl)

theorem gives_foreign {header : Header} (foreign : header.inbound? = none) :
    (Message.bodyDecoder header).Gives (·.announcement? = none) := by
  refine (Message.gives_bodyDecoder header).mono ?_
  rintro message rfl
  cases message with
  | moduleAvailability announcement =>
    obtain ⟨available, modules⟩ := announcement
    cases available <;> cases foreign
  | _ => rfl

theorem gives_decoder : decoder.Gives fun route =>
    route.completion.Gives (·.announcement? = route.announcement?) := by
  refine Gives.bind (gives_of_forall _ fun header => ?_)
  unfold behind
  split
  · next foreign => exact gives_foreign foreign
  · exact Gives.bind (gives_of_forall _ fun id => gives_answer _ id)
  · exact Gives.bind (gives_of_forall _ fun _ => rfl)
  · exact Gives.bind (gives_of_forall _ fun _ => rfl)

end Route

theorem Input.announcement?_eq_none {input rest : Input} {route : Route}
    (given : Route.decoder.run input = (.ok route, rest)) (news : route.announcement? = none) :
    input.announcement? = none := by
  have own := Route.gives_decoder.of_run given
  unfold announcement?
  rw [Route.message_eq, run_bind_ok given]
  split
  · next message behind completed =>
    split
    · rw [own.of_run completed, news]
    · rfl
  · rfl

namespace Association

/-- A message changes what is known of modules by its announcement and by nothing else. -/
theorem advance_announcement? (state : Association × Registry) (input : Input) :
    match input.announcement? with
    | none => (advance state input).1.receiver = state.1.receiver ∧
        (advance state input).1.backlog = state.1.backlog ∧ (advance state input).2 = state.2
    | some announcement => advance state input = state.1.modulesChanged state.2 announcement := by
  unfold advance
  rw [process_eq]
  cases given : Route.decoder.run input with
  | mk decoded rest =>
    cases decoded with
    | error e =>
      have none : input.announcement? = none := by
        rw [Input.announcement?, Route.message_eq, run_bind, given]
      rw [none]
      exact ⟨rfl, rfl, rfl⟩
    | ok route =>
      cases route with
      | foreign header | answer kind id =>
        rw [Input.announcement?_eq_none given rfl]
        exact ⟨rfl, rfl, rfl⟩
      | notification id =>
        rw [Input.announcement?_eq_none given rfl]
        simp only [settle]
        cases rest.close with
        | mk closed events => cases closed <;> exact ⟨rfl, rfl, rfl⟩
      | announcement news =>
        have whole : Message.decoder.run input = (.ok (.moduleAvailability news), rest) := by
          rw [Route.message_eq, run_bind_ok given]
          rfl
        rw [Input.announcement?, whole]
        simp only [settle]
        cases rest.close with
        | mk closed events => cases closed <;> simp [Message.announcement?]

end Association

/-! ## Announcements one after the other -/

def Registry.announceAll (registry : Registry) (receiver : ReceiverId)
    (announcements : List ModuleAvailability) : Registry :=
  announcements.foldl (fun registry announcement => announcement.apply receiver registry) registry

/-- What the last announcement that names a module says of it. -/
def LastSays (announcements : List ModuleAvailability) (module : ModuleId) (available : Bool) :
    Prop :=
  ∃ earlier last later, announcements = earlier ++ last :: later ∧
    Announces last.modules module ∧ last.available = available ∧
    ∀ announcement ∈ later, ¬ Announces announcement.modules module

theorem lastSays_cons {announcement : ModuleAvailability} {announcements : List ModuleAvailability}
    {module : ModuleId} {available : Bool} :
    LastSays (announcement :: announcements) module available ↔
      LastSays announcements module available ∨
        (Announces announcement.modules module ∧ announcement.available = available ∧
          ∀ other ∈ announcements, ¬ Announces other.modules module) := by
  constructor
  · rintro ⟨earlier, last, later, split, named, told, silent⟩
    cases earlier with
    | nil =>
      obtain ⟨rfl, rfl⟩ := List.cons.inj split
      exact .inr ⟨named, told, silent⟩
    | cons first earlier =>
      exact .inl ⟨earlier, last, later, (List.cons.inj split).2, named, told, silent⟩
  · rintro (⟨earlier, last, later, rfl, rest⟩ | last)
    · exact ⟨announcement :: earlier, last, later, rfl, rest⟩
    · exact ⟨[], announcement, announcements, rfl, last⟩

theorem Registry.accepts_announceAll {registry : Registry} {receiver : ReceiverId}
    (tracked : registry.tracks receiver = true) (announcements : List ModuleAvailability)
    (module : ModuleId) :
    (registry.announceAll receiver announcements).accepts receiver module = true ↔
      LastSays announcements module true ∨
        ((∀ announcement ∈ announcements, ¬ Announces announcement.modules module) ∧
          registry.accepts receiver module = true) := by
  induction announcements generalizing registry with
  | nil => simp [announceAll, LastSays]
  | cons announcement announcements ih =>
    have step := announced_apply announcement receiver registry
    have onward : registry.announceAll receiver (announcement :: announcements) =
        (announcement.apply receiver registry).announceAll receiver announcements := rfl
    rw [onward, ih (step.tracks.trans tracked), lastSays_cons, List.forall_mem_cons, or_assoc]
    -- What a later announcement decides is decided; only without one does this one count.
    refine or_congr_right ?_
    by_cases named : Announces announcement.modules module
    · rw [step.named module named, tracked, Bool.and_true]
      simp only [named, not_true_eq_false, false_and, or_false, true_and]
      exact and_comm
    · rw [step.unnamed module named]
      simp only [named, not_false_eq_true, true_and, false_and, false_or]

theorem Registry.add_of_fresh {registry : Registry} {receiver : ReceiverId}
    (fresh : registry.modules receiver = []) :
    (registry.add receiver).2.tracks receiver = true ∧
      (registry.add receiver).2.modules receiver = [] := by
  unfold add
  split
  · next tracked => exact ⟨tracked, fresh⟩
  · simp [tracks, modules]

/-! ## Binding among announcements -/

namespace Association

theorem processAll_unbound {state : Association × Registry} (unbound : state.1.receiver = none)
    (messages : List Input) :
    (processAll state messages).1.backlog =
        state.1.backlog ++ messages.filterMap Input.announcement? ∧
      (processAll state messages).2 = state.2 := by
  induction messages generalizing state with
  | nil => exact ⟨(List.append_nil _).symm, rfl⟩
  | cons input messages ih =>
    have step := advance_announcement? state input
    change (processAll (advance state input) messages).1.backlog = _ ∧
      (processAll (advance state input) messages).2 = _
    cases heard : input.announcement? with
    | none =>
      rw [heard] at step
      obtain ⟨receiver, backlog, same⟩ := step
      rw [List.filterMap_cons_none heard, ← backlog, ← same]
      exact ih (receiver.trans unbound)
    | some announcement =>
      rw [heard] at step
      simp only [modulesChanged, unbound] at step
      rw [List.filterMap_cons_some heard, List.append_cons, step]
      exact ih rfl

theorem processAll_bound {state : Association × Registry} {receiver : ReceiverId}
    (bound : state.1.receiver = some receiver) (messages : List Input) :
    (processAll state messages).2 =
      state.2.announceAll receiver (messages.filterMap Input.announcement?) := by
  induction messages generalizing state with
  | nil => rfl
  | cons input messages ih =>
    have step := advance_announcement? state input
    change (processAll (advance state input) messages).2 = _
    cases heard : input.announcement? with
    | none =>
      rw [heard] at step
      obtain ⟨same_receiver, -, same⟩ := step
      rw [List.filterMap_cons_none heard, ih (same_receiver.trans bound), same]
    | some announcement =>
      rw [heard] at step
      simp only [modulesChanged, bound] at step
      rw [List.filterMap_cons_some heard, step]
      exact ih bound

/-- The state after messages, with the channel bound to a new receiver behind so many of them. -/
def boundBehind (position : Nat) (state : Association × Registry) (receiver : ReceiverId)
    (messages : List Input) : Association × Registry :=
  let (association, registry) := processAll state (messages.take position)
  processAll (association.associate (registry.add receiver).2 receiver) (messages.drop position)

theorem registry_boundBehind {state : Association × Registry} (unbound : state.1.receiver = none)
    (receiver : ReceiverId) (messages : List Input) (position : Nat) :
    (boundBehind position state receiver messages).2 =
      (state.2.add receiver).2.announceAll receiver
        (state.1.backlog ++ messages.filterMap Input.announcement?) := by
  obtain ⟨backlog, same⟩ := processAll_unbound unbound (messages.take position)
  have heard : messages.filterMap Input.announcement? =
      (messages.take position).filterMap Input.announcement? ++
        (messages.drop position).filterMap Input.announcement? := by
    rw [← List.filterMap_append, List.take_append_drop]
  unfold boundBehind associate
  rw [processAll_bound rfl, backlog, same, heard, ← List.append_assoc]
  exact List.foldl_append.symm

/-- The modules of a receiver are those of which the last announcement that names them says that they
are available, and so it makes no difference when the channel was bound to the receiver. -/
theorem moment_of_binding (association : Association) (registry : Registry) (receiver : ReceiverId)
    (unbound : association.receiver = none) (fresh : registry.modules receiver = [])
    (messages : List Input) :
    (∀ position position' : Nat,
      (boundBehind position (association, registry) receiver messages).2 =
        (boundBehind position' (association, registry) receiver messages).2) ∧
    ∀ (position : Nat) (module : ModuleId),
      (boundBehind position (association, registry) receiver messages).2.accepts receiver module =
          true ↔
        LastSays (association.backlog ++ messages.filterMap Input.announcement?) module true := by
  have unbound' : (association, registry).1.receiver = none := unbound
  refine ⟨?_, ?_⟩
  · intro position position'
    rw [registry_boundBehind unbound', registry_boundBehind unbound']
  · intro position module
    obtain ⟨tracked, empty⟩ := Registry.add_of_fresh fresh
    rw [registry_boundBehind unbound', Registry.accepts_announceAll tracked, Registry.accepts, empty]
    simp

/-- A module comes, goes under another spelling and comes again, beside names that no module has. -/
theorem moment_of_binding_of_three :
    let messages : List Input := [.ofBytes [8, 2, 0, 1, 0x6d, 0, 1, 0x61, 0, 0],
      .ofBytes [9, 1, 1, 0x6d, 1, 0x6d, 0], .ofBytes [8, 2, 0, 0, 0, 0, 1, 0x6d, 0]]
    let channel := Association.named "link" 4
    channel.receiver = none ∧ Registry.empty.modules ⟨1⟩ = [] ∧
      (boundBehind 0 (channel, .empty) ⟨1⟩ messages).2 =
        (boundBehind 2 (channel, .empty) ⟨1⟩ messages).2 ∧
      (boundBehind 2 (channel, .empty) ⟨1⟩ messages).2.accepts ⟨1⟩ ⟨"m", "m", "", by decide⟩ =
        true := by
  intro messages channel
  have fresh : Registry.empty.modules ⟨1⟩ = [] := by rfl
  obtain ⟨same, decided⟩ := moment_of_binding channel .empty ⟨1⟩ rfl fresh messages
  have heard : messages.filterMap Input.announcement? =
      [⟨true, [⟨"", "m", ""⟩, ⟨"a", "", ""⟩]⟩, ⟨false, [⟨"m", "m", ""⟩]⟩] ++
        ⟨true, [⟨"", "", ""⟩, ⟨"", "m", ""⟩]⟩ :: [] := by decide +kernel
  refine ⟨rfl, fresh, same 0 2, (decided 2 _).mpr ⟨_, _, _, heard, ?_, rfl, by simp⟩⟩
  exact ⟨⟨"", "m", ""⟩, by simp, rfl⟩

end Association

end Farcall
