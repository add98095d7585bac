import Farcall.Proofs.Channel.Announcements
import Farcall.Proofs.Correlation.Cases
import Farcall.Proofs.Wire.Stream

set_option autoImplicit false

/-!
# What a message can do

A message that is refused changes nothing, wherever its stream broke. A message that is accepted
does what its first bytes say, to the one call that they name or to the modules of the receiver that
the channel is bound to.
-/

namespace Farcall

def Inbound.ofBytes? (bytes : Bytes) : Option Inbound :=
  bytes.head?.bind fun b => (Header.ofByte? b).bind Header.inbound?

/-- The id that a message names: the two bytes behind the first. -/
def messageId? : Bytes → Option UInt16
  | _ :: high :: low :: _ => some (UInt16.ofNat (Bytes.ofBigEndian [high, low]))
  | _ => none

theorem header_of_run {bytes rest : Bytes} {header : Header}
    (given : Header.decoder.run bytes = (.ok header, rest)) :
    ∃ b, bytes = b :: rest ∧ Header.ofByte? b = some header := by
  cases bytes with
  | nil => simp [Header.decoder, Decoder.u8, Decoder.take, bind, Decoder.bind, Decoder.run,
      ByteSource.fetch] at given
  | cons b bytes =>
    refine ⟨b, ?_⟩
    simp [Header.decoder, Decoder.u8, Decoder.take, bind, Decoder.bind, Decoder.run, pure,
      Decoder.pure, ByteSource.fetch, Bytes.ofBigEndian] at given
    cases found : Header.ofByte? b with
    | none => simp [found, Decoder.getD, Decoder.fail, Decoder.run] at given
    | some header' =>
      simp [found, Decoder.getD, Decoder.run] at given
      simp [given]

theorem id_of_run {bytes rest : Bytes} {id : UInt16}
    (given : idDecoder.run bytes = (.ok id, rest)) :
    ∃ high low, bytes = high :: low :: rest ∧
      id = UInt16.ofNat (Bytes.ofBigEndian [high, low]) := by
  match bytes, given with
  | [], given | [_], given =>
    simp [idDecoder, Decoder.u16, Decoder.take, bind, Decoder.bind, Decoder.run,
      ByteSource.fetch] at given
  | high :: low :: bytes, given =>
    simp [idDecoder, Decoder.u16, Decoder.take, bind, Decoder.bind, Decoder.run, pure,
      Decoder.pure, ByteSource.fetch] at given
    exact ⟨high, low, by rw [given.2], given.1.symm⟩

/-! ## What a table sees of a message -/

namespace Table

variable {ρ : Type}

/-- But for the entry of one id, its box and the counters, all is as it was. -/
structure Confined (before after : Table ρ) (id : UInt16) : Prop where
  entries : ∀ k, k ≠ id → after.entries[k]? = before.entries[k]?
  boxes : ∀ g, (∀ entry, before.entries[id]? = some entry → entry.generation ≠ g) →
    after.boxes[g]? = before.boxes[g]?
  nextId : after.nextId = before.nextId
  nextGeneration : after.nextGeneration = before.nextGeneration
  limit : after.limit = before.limit

/-- A message for an id without an entry, which is counted. -/
def Anomaly (before after : Table ρ) (id : UInt16) : Prop :=
  before.entries[id]? = none ∧
    after = { before with stats := { before.stats with anomalies := before.stats.anomalies + 1 } }

structure Removed (before after : Table ρ) (id : UInt16) (entry : Entry) (f : Stats → Stats) :
    Prop where
  found : before.entries[id]? = some entry
  removed : after.entries[id]? = none
  outstanding : after.outstanding = before.outstanding - 1
  stats : after.stats = f before.stats

/-- What a result does to the entry that it comes for, and whether it is handed back to be
discarded. -/
inductive Answered (before after : Table ρ) (id : UInt16) (r : ρ) : Option ρ → Prop
  | unknown (anomaly : Anomaly before after id) : Answered before after id r (some r)
  | discarded {entry : Entry} (marked : entry.discard = true)
      (removed : Removed before after id entry fun s => { s with discarded := s.discarded + 1 })
      (boxes : ∀ g : Nat, after.boxes[g]? = before.boxes[g]?) : Answered before after id r (some r)
  | delivered {entry : Entry} {box : Box ρ} (live : entry.discard = false)
      (removed : Removed before after id entry fun s => { s with fulfilled := s.fulfilled + 1 })
      (read : before.boxes[entry.generation]? = some box ∧ box.hold ≠ .gone)
      (put : after.boxes[entry.generation]? = some { box with arrived := some (.result r) }) :
      Answered before after id r none
  /-- The slot is still there or gone, but nobody will read its box. -/
  | unread {entry : Entry} (live : entry.discard = false)
      (removed : Removed before after id entry fun s => { s with fulfilled := s.fulfilled + 1 })
      (deserted : ∀ box, before.boxes[entry.generation]? = some box → box.hold = .gone)
      (boxes : ∀ g : Nat, after.boxes[g]? = before.boxes[g]?) : Answered before after id r (some r)

inductive Signalled (before after : Table ρ) (id : UInt16) : Prop
  | unknown (anomaly : Anomaly before after id)
  | raised {entry : Entry} (found : before.entries[id]? = some entry)
      (entries : ∀ k : UInt16, after.entries[k]? = before.entries[k]?)
      (outstanding : after.outstanding = before.outstanding)
      (box : after.boxes[entry.generation]? =
        (before.boxes[entry.generation]?).map fun box =>
          { box with signals := box.signals.raise })
      (stats : after.stats = before.stats)

theorem confined_fulfill (table : Table ρ) (id : UInt16) (r : ρ) :
    Confined table (table.fulfill id r).2 id := by
  cases found : table.entries[id]? with
  | none =>
    rw [fulfill_of_none found]
    exact ⟨fun _ _ => rfl, fun _ _ => rfl, rfl, rfl, rfl⟩
  | some entry =>
    have others : ∀ k, k ≠ id → (table.entries.erase id)[k]? = table.entries[k]? := by
      intro k other
      simp [Std.TreeMap.getElem?_erase, Ne.symm other]
    cases marked : entry.discard with
    | true =>
      rw [fulfill_of_marked found marked]
      exact ⟨others, fun _ _ => rfl, rfl, rfl, rfl⟩
    | false =>
      rw [fulfill_of_live found marked, deliver_eq]
      refine ⟨others, ?_, rfl, rfl, rfl⟩
      intro g foreign
      change ((table.without id).deliver entry.generation (.result r)).2.boxes[g]? = _
      rw [deliver_box, if_neg (foreign entry found)]
      rfl

theorem answered_fulfill (table : Table ρ) (id : UInt16) (r : ρ) :
    Answered table (table.fulfill id r).2 id r (table.fulfill id r).1.2 := by
  cases found : table.entries[id]? with
  | none =>
    rw [fulfill_of_none found]
    exact .unknown ⟨found, rfl⟩
  | some entry =>
    have removed : (table.entries.erase id)[id]? = none := by simp
    cases marked : entry.discard with
    | true =>
      rw [fulfill_of_marked found marked]
      exact .discarded marked ⟨found, removed, rfl, rfl⟩ (fun _ => rfl)
    | false =>
      have boxes := deliver_box (table.without id) entry.generation
      rw [fulfill_of_live found marked, deliver_eq, deliver_rejected]
      split
      · next there =>
        obtain ⟨box, at_g, read⟩ := there
        refine .delivered marked ⟨found, removed, rfl, rfl⟩ ⟨at_g, read⟩ ?_
        refine (boxes entry.generation (.result r)).trans ?_
        rw [if_pos rfl, at_g, Option.map_some, Box.accept, if_neg read]
      · next nobody =>
        have deserted : ∀ box, table.boxes[entry.generation]? = some box → box.hold = .gone := by
          intro box at_g
          by_cases gone : box.hold = .gone
          · exact gone
          · exact absurd ⟨box, at_g, gone⟩ nobody
        refine .unread marked ⟨found, removed, rfl, rfl⟩ deserted ?_
        intro g
        refine (boxes g (.result r)).trans ?_
        change (if entry.generation = g then (table.boxes[g]?).map (Box.accept (.result r))
          else table.boxes[g]?) = table.boxes[g]?
        split
        · next own =>
          cases at_g : table.boxes[g]? with
          | none => rfl
          | some box =>
            rw [Option.map_some, Box.accept, if_pos (deserted box (own ▸ at_g))]
        · rfl

theorem confined_proceedAsync (table : Table ρ) (id : UInt16) :
    Confined table (table.proceedAsync id).2 id := by
  cases found : table.entries[id]? with
  | none =>
    rw [proceedAsync_of_none found]
    exact ⟨fun _ _ => rfl, fun _ _ => rfl, rfl, rfl, rfl⟩
  | some entry =>
    rw [proceedAsync_of_some found]
    refine ⟨fun _ _ => rfl, ?_, rfl, rfl, rfl⟩
    intro g foreign
    simp [foreign entry found]

theorem signalled_proceedAsync (table : Table ρ) (id : UInt16) :
    Signalled table (table.proceedAsync id).2 id := by
  cases found : table.entries[id]? with
  | none =>
    rw [proceedAsync_of_none found]
    exact .unknown ⟨found, rfl⟩
  | some entry =>
    rw [proceedAsync_of_some found]
    exact .raised found (fun _ => rfl) rfl (by simp) rfl

end Table

/-! ## What a channel makes of a message -/

/-- What an accepted message did, by its bytes. -/
inductive Reaction (bytes : Bytes) (association : Association) (registry : Registry)
    (after : Processed) : Prop
  | answer {kind : AnswerKind} {id : UInt16} {rest : Input} {rejected : Option LazyResult}
      (sort : Inbound.ofBytes? bytes = some (.answer kind)) (named : messageId? bytes = some id)
      (tail : rest.pending = bytes.drop 3)
      (confined : association.table.Confined after.association.table id)
      (answered : association.table.Answered after.association.table id (.answer kind rest)
        rejected)
      (frame : after.association = { association with table := after.association.table })
      (registry_eq : after.registry = registry)
      (events : after.events = rejected.toList.flatMap LazyResult.discard)
  | notification {id : UInt16} (sort : Inbound.ofBytes? bytes = some .notification)
      (named : messageId? bytes = some id)
      (confined : association.table.Confined after.association.table id)
      (signalled : association.table.Signalled after.association.table id)
      (frame : after.association = { association with table := after.association.table })
      (registry_eq : after.registry = registry)
  | applied {available : Bool} {announcement : ModuleAvailability} {receiver : ReceiverId}
      (sort : Inbound.ofBytes? bytes = some (.availability available))
      (decoded : ((ModuleAvailability.decoder available).run (bytes.drop 1)).1 = .ok announcement)
      (bound : association.receiver = some receiver) (frame : after.association = association)
      (announced : Announced announcement.available announcement.modules receiver registry
        after.registry)
  | kept {available : Bool} {announcement : ModuleAvailability}
      (sort : Inbound.ofBytes? bytes = some (.availability available))
      (decoded : ((ModuleAvailability.decoder available).run (bytes.drop 1)).1 = .ok announcement)
      (unbound : association.receiver = none)
      (frame : after.association =
        { association with backlog := association.backlog ++ [announcement] })
      (registry_eq : after.registry = registry)

theorem Input.finish_ok {α : Type} {input : Input} {decoded : Except InvocationError α} {a : α}
    {events : List Event} (given : input.finish decoded = (.ok a, events)) : decoded = .ok a := by
  unfold Input.finish at given
  split at given
  · rw [Except.ok.inj (Prod.mk.inj given).1]
  · cases (Prod.mk.inj given).1
  · cases (Prod.mk.inj given).1

theorem mapError_ok {ε ε' α : Type} {f : ε → ε'} {decoded : Except ε α} {a : α}
    (given : decoded.mapError f = .ok a) : decoded = .ok a := by
  cases decoded with
  | error e => cases given
  | ok b => rw [Except.ok.inj given]

theorem messageId_of_run {bytes : Bytes} {b : UInt8} {mid rest : Input} {id : UInt16}
    (start : bytes = b :: mid.pending) (given : idDecoder.run mid = (.ok id, rest)) :
    messageId? bytes = some id ∧ rest.pending = bytes.drop 3 := by
  obtain ⟨high, low, same, value⟩ := id_of_run (Decoder.run_of_input given).1
  rw [start, same, value]
  exact ⟨rfl, rfl⟩

namespace Association

/-- The fate of the state: it is as it was, or as the message has it. -/
def Settles (bytes : Bytes) (association : Association) (registry : Registry)
    (after : Processed) : Prop :=
  match after.result with
  | .error _ => after.association = association ∧ after.registry = registry
  | .ok () => Reaction bytes association registry after

variable {association : Association} {registry : Registry}

theorem settles_answer {bytes : Bytes} {b : UInt8} {mid : Input} {kind : AnswerKind}
    (start : bytes = b :: mid.pending) (sort : Inbound.ofBytes? bytes = some (.answer kind)) :
    Settles bytes association registry (association.processAnswer registry kind mid) := by
  unfold processAnswer
  split
  · exact ⟨rfl, rfl⟩
  · next id rest given =>
    obtain ⟨named, tail⟩ := messageId_of_run start given
    exact .answer sort named tail (Table.confined_fulfill association.table id _)
      (Table.answered_fulfill association.table id _) rfl rfl rfl

theorem settles_notification {bytes : Bytes} {b : UInt8} {mid : Input}
    (start : bytes = b :: mid.pending) (sort : Inbound.ofBytes? bytes = some .notification) :
    Settles bytes association registry (association.processNotification registry mid) := by
  unfold processNotification
  cases given : idDecoder.run mid with
  | mk decoded rest =>
    cases finished : rest.finish (decoded.mapError .protocol) with
    | mk result events =>
      simp only [finished]
      cases result with
      | error e => exact ⟨rfl, rfl⟩
      | ok id =>
        obtain rfl := mapError_ok (Input.finish_ok finished)
        exact .notification sort (messageId_of_run start given).1
          (Table.confined_proceedAsync association.table id)
          (Table.signalled_proceedAsync association.table id) rfl rfl

theorem settles_availability {bytes : Bytes} {b : UInt8} {mid : Input} {available : Bool}
    (start : bytes = b :: mid.pending)
    (sort : Inbound.ofBytes? bytes = some (.availability available)) :
    Settles bytes association registry
      (association.processAvailability registry available mid) := by
  unfold processAvailability
  cases given : (ModuleAvailability.decoder available).run mid with
  | mk decoded rest =>
    cases finished : rest.finish (decoded.mapError .protocol) with
    | mk result events =>
      simp only [finished]
      cases result with
      | error e => exact ⟨rfl, rfl⟩
      | ok announcement =>
        obtain rfl := mapError_ok (Input.finish_ok finished)
        have read : ((ModuleAvailability.decoder available).run (bytes.drop 1)).1 =
            .ok announcement := by
          rw [start, List.drop_one, List.tail_cons, (Decoder.run_of_input given).1]
        cases bound : association.receiver with
        | none =>
          simp only [modulesChanged, bound]
          exact .kept sort read bound (by simp [bound]) rfl
        | some receiver =>
          simp only [modulesChanged, bound]
          exact .applied sort read bound rfl (announced_apply announcement receiver registry)

theorem settles_process (association : Association) (registry : Registry) (input : Input) :
    Settles input.pending association registry (association.process registry input) := by
  unfold process
  split
  · exact ⟨rfl, rfl⟩
  · next header mid given =>
    obtain ⟨b, start, found⟩ := header_of_run (Decoder.run_of_input given).1
    have sort : Inbound.ofBytes? input.pending = header.inbound? := by
      rw [Inbound.ofBytes?, start, List.head?_cons, Option.bind_some, found, Option.bind_some]
    split
    · exact ⟨rfl, rfl⟩
    · next kind inbound => exact settles_answer start (sort.trans inbound)
    · next available inbound => exact settles_availability start (sort.trans inbound)
    · next inbound => exact settles_notification start (sort.trans inbound)

def advance (state : Association × Registry) (input : Input) : Association × Registry :=
  ((state.1.process state.2 input).association, (state.1.process state.2 input).registry)

def processAll (state : Association × Registry) (inputs : List Input) : Association × Registry :=
  inputs.foldl advance state

def accepted (state : Association × Registry) : List Input → List Input
  | [] => []
  | input :: inputs =>
    match (state.1.process state.2 input).result with
    | .error _ => accepted (advance state input) inputs
    | .ok () => input :: accepted (advance state input) inputs

theorem advance_of_error {state : Association × Registry} {input : Input} {e : InvocationError}
    (refused : (state.1.process state.2 input).result = .error e) : advance state input = state := by
  have settles := settles_process state.1 state.2 input
  rw [Settles, refused] at settles
  exact Prod.ext settles.1 settles.2

theorem accepted_of_error {state : Association × Registry} {input : Input} {e : InvocationError}
    (refused : (state.1.process state.2 input).result = .error e) (inputs : List Input) :
    accepted state (input :: inputs) = accepted state inputs := by
  rw [accepted, refused, advance_of_error refused]

theorem accepted_of_ok {state : Association × Registry} {input : Input}
    (taken : (state.1.process state.2 input).result = .ok ()) (inputs : List Input) :
    accepted state (input :: inputs) = input :: accepted (advance state input) inputs := by
  rw [accepted, taken]

/-- Messages that are refused might as well not have come, and those that are accepted are accepted
without them. -/
theorem processAll_accepted (state : Association × Registry) (inputs : List Input) :
    processAll state (accepted state inputs) = processAll state inputs ∧
      accepted state (accepted state inputs) = accepted state inputs := by
  induction inputs generalizing state with
  | nil => exact ⟨rfl, rfl⟩
  | cons input inputs ih =>
    have behind : processAll state (input :: inputs) = processAll (advance state input) inputs := rfl
    cases result : (state.1.process state.2 input).result with
    | error e =>
      rw [behind, advance_of_error result, accepted_of_error result]
      exact ih state
    | ok done =>
      obtain ⟨same, again⟩ := ih (advance state input)
      rw [behind, accepted_of_ok result, accepted_of_ok result, again, ← same]
      exact ⟨rfl, rfl⟩

/-- A message that is refused leaves channel and registry as they were; one that is accepted does no
more than its `Reaction`. So the refused ones of any messages make no difference. -/
theorem process_confined (association : Association) (registry : Registry) (input : Input)
    (inputs : List Input) :
    (match (association.process registry input).result with
      | .error _ => (association.process registry input).association = association ∧
          (association.process registry input).registry = registry
      | .ok () => Reaction input.pending association registry
          (association.process registry input)) ∧
    processAll (association, registry) (accepted (association, registry) inputs) =
      processAll (association, registry) inputs ∧
    accepted (association, registry) (accepted (association, registry) inputs) =
      accepted (association, registry) inputs :=
  ⟨settles_process association registry input, processAll_accepted (association, registry) inputs⟩

end Association

end Farcall
