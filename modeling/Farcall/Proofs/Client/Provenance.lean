import Farcall.Proofs.Channel.Agreement
import Farcall.Proofs.Client.Invariant
import Farcall.Proofs.Correlation.Arrivals

set_option autoImplicit false

/-!
# Where results come from

A result that lies in the box of a slot came in a message from the host, one that named an id under
which the entry of the slot was live. Whoever reads the result reads that message.
-/

namespace Farcall

/-! ## Answers -/

theorem Route.behind_answer {bytes : Bytes} {kind : AnswerKind} {id : UInt16} {rest : Input}
    (given : decoder.run (Input.ofBytes bytes) = (.ok (.answer kind id), rest)) :
    rest.Steady ∧ Message.decoder.run bytes = (kind.message id).run rest.pending := by
  obtain ⟨first, steady⟩ := run_ofBytes given
  rw [message_eq, Decoder.run_bind_ok first]
  exact ⟨steady, rfl⟩

def LazyResult.Of (bytes : Bytes) (result : LazyResult) : Prop :=
  ∃ kind id rest, Route.decoder.run (Input.ofBytes bytes) = (.ok (.answer kind id), rest) ∧
    result = .answer kind rest

/-- What is read late is what the message says, as far as a message can be read there. -/
theorem LazyResult.Of.read {bytes : Bytes} {result : LazyResult} (of : Of bytes result) :
    result.read.1 = .ofDecoded ((Message.decoder.run bytes).1.map Message.outcome) := by
  obtain ⟨kind, id, rest, given, rfl⟩ := of
  obtain ⟨steady, whole⟩ := Route.behind_answer given
  have read : (LazyResult.answer kind rest).read.1 = kind.read rest := by
    have closes : rest.close = (.ok (), rest.label.toList.map .closed) := by
      rw [Input.close, steady.closes]
    unfold LazyResult.read Input.finish
    simp only [closes]
    cases kind.read rest <;> rfl
  rw [read, kind.read_of_message id, ((kind.message id).run_of_steady steady).1, whole]

namespace Turn

/-- A message comes that resolves a slot of a receiver: it names an id under which the entry of the
slot is live. -/
structure Resolves (turn : Turn) (receiver : ReceiverId) (slot : Slot) (bytes : Bytes) : Prop where
  comes : turn.move = .link receiver (.receive bytes)
  named : ∃ link id, turn.before.client.link? receiver = some link ∧ answeredId? bytes = some id ∧
    link.association.table.owner? id = some slot

end Turn

/-! ## One turn -/

namespace Desk

variable {desk : Desk} {move : Move} {receiver : ReceiverId} {link behind : Link} {slot : Slot}
  {result : LazyResult}

theorem link_of_receive {message : Bytes}
    (linked : desk.client.link? receiver = some link)
    (left : (desk.act (.link receiver (.receive message))).2.client.link? receiver = some behind) :
    behind.association =
      (link.association.process desk.client.registry (.ofBytes message)).association := by
  have turned := desk.client.onLink_of_link
    (fun link registry => LinkTurn.apply link registry (.receive message)) linked
  rw [← Option.some.inj (turned.link.symm.trans left)]
  rfl

/-- A result that lies in a box behind a turn was there, or the turn resolved the slot with it. -/
theorem Ordered.unread_act (ordered : desk.Ordered) (allowed : desk.Allowed move)
    (linked : desk.client.link? receiver = some link)
    (left : (desk.act move).2.client.link? receiver = some behind)
    (has : behind.association.table.unread? slot = some result) :
    link.association.table.unread? slot = some result ∨
      ∃ bytes, Turn.Resolves ⟨desk, move⟩ receiver slot bytes ∧ result.Of bytes := by
  have sound := (ordered.fit.fits receiver link linked).sound
  obtain ⟨behind', left', stretch⟩ := (ordered.follows_act allowed).grows.leads receiver link linked
  obtain rfl := Option.some.inj (left.symm.trans left')
  cases move with
  | link other turn =>
    cases turn with
    | close reason => exact .inl (stretch.unread_back sound has)
    | carry carried => exact .inl (stretch.unread_back sound has)
    -- only an answer over this very link can put a result into the box
    | receive message =>
      by_cases own : other = receiver
      · subst own
        rw [link_of_receive linked left] at has
        rcases link.association.process_table desk.client.registry (.ofBytes message) with
          same | ⟨op, -, permitted, performed, brings⟩
        · rw [same] at has
          exact .inl has
        · rw [performed] at has
          rcases brings with mute | ⟨kind, id, rest, given, rfl⟩
          · exact .inl (Table.unread_of_mute sound permitted mute has)
          · rcases Table.unread_of_fulfill sound.toCoupled has with was | ⟨owned, rfl⟩
            · exact .inl was
            · have named := Route.named_of_run (Route.run_ofBytes given).1
              exact .inr ⟨message, ⟨rfl, link, id, linked, named.1, owned⟩, kind, id, rest, given, rfl⟩
      · have apart : (desk.act (.link other (.receive message))).2.client.link? receiver =
            desk.client.link? receiver := by
          rcases desk.client.onLink_cases other
              fun link registry => LinkTurn.apply link registry (.receive message) with
            ⟨-, same⟩ | ⟨link', -, at_receiver, -⟩
          · rw [act, same]
          · exact at_receiver.elsewhere receiver (Ne.symm own)
        obtain rfl := Option.some.inj ((left.symm.trans apart).trans linked)
        exact .inl has
  | _ => exact .inl (stretch.unread_back sound has)

theorem arrival_of_resolves {bytes : Bytes}
    (resolves : Turn.Resolves ⟨desk, move⟩ receiver slot bytes)
    (linked : desk.client.link? receiver = some link)
    (read : link.association.table.Read slot.generation)
    (left : (desk.act move).2.client.link? receiver = some behind) :
    ∃ result, result.Of bytes ∧ behind.association.table.arrival? slot = some (.result result) := by
  obtain ⟨comes, link', id, linked', named, owned⟩ := resolves
  obtain rfl := Option.some.inj (linked.symm.trans linked')
  obtain rfl : move = .link receiver (.receive bytes) := comes
  obtain ⟨kind, first⟩ := Route.run_of_answer named
  cases given : Route.decoder.run (Input.ofBytes bytes) with
  | mk decoded rest =>
    obtain rfl : decoded = .ok (.answer kind id) :=
      congrArg Prod.fst ((Route.run_ofBytes given).1.symm.trans first)
    refine ⟨.answer kind rest, ⟨kind, id, rest, given, rfl⟩, ?_⟩
    rw [link_of_receive linked left, Association.process_eq, given]
    obtain ⟨entry, entered, marked, rfl⟩ := Table.of_owner owned
    exact Table.arrival_fulfill entered marked rfl read _

end Desk

/-! ## Many turns -/

namespace Course

variable {config : Config} {first between : List Turn} {desk : Desk} {turn : Turn}
  {receiver : ReceiverId} {link behind : Link} {slot : Slot} {result : LazyResult} {bytes : Bytes}

theorem grows_from (course : Course config (first ++ turn :: between) desk) :
    Client.Grows (fun _ => True) turn.before.client desk.client := by
  have part : first ++ [turn] <+: first ++ turn :: between := ⟨between, by simp⟩
  obtain ⟨begun, allowed⟩ := course.of_prefix part
  have grows := (begun.ordered.follows_act allowed).grows
  exact (grows.mono fun _ _ => trivial).trans (course.grows part)

/-- A result that lies in a box was there before, or a message resolved the slot with it. -/
theorem unread_origin (course : Course config (first ++ turn :: between) desk)
    (linked : turn.before.client.link? receiver = some link)
    (left : desk.client.link? receiver = some behind)
    (has : behind.association.table.unread? slot = some result) :
    link.association.table.unread? slot = some result ∨
      ∃ came ∈ turn :: between, ∃ bytes, came.Resolves receiver slot bytes ∧ result.Of bytes := by
  obtain ⟨begun, allowed⟩ := course.of_prefix (⟨between, by simp⟩ : first ++ [turn] <+: _)
  obtain ⟨behind', left', origin⟩ : ∃ behind, desk.client.link? receiver = some behind ∧
      (behind.association.table.unread? slot = some result →
        link.association.table.unread? slot = some result ∨
          ∃ came ∈ turn :: between, ∃ bytes, came.Resolves receiver slot bytes ∧ result.Of bytes) := by
    -- each turn leaves what was there before it, or it is the turn that brought the result
    refine course.keeps ?_ ?_
    · obtain ⟨behind, left, -⟩ :=
        (begun.ordered.follows_act allowed).grows.leads receiver link linked
      refine ⟨behind, left, fun has => ?_⟩
      rcases begun.ordered.unread_act allowed linked left has with was | came
      · exact .inl was
      · exact .inr ⟨turn, List.mem_cons_self .., came⟩
    · rintro later mem ordered allowed ⟨middle, found, origin⟩
      obtain ⟨behind, left, -⟩ := (ordered.follows_act allowed).grows.leads receiver middle found
      refine ⟨behind, left, fun has => ?_⟩
      rcases ordered.unread_act allowed found left has with was | came
      · exact origin was
      · exact .inr ⟨later, List.mem_cons_of_mem _ mem, came⟩
  obtain rfl := Option.some.inj (left.symm.trans left')
  exact origin has

theorem arrival_of_resolves (course : Course config (first ++ between) desk) {came : Turn}
    (mem : came ∈ between) (resolves : came.Resolves receiver slot bytes)
    (left : desk.client.link? receiver = some behind)
    (read : behind.association.table.Read slot.generation) :
    ∃ result, result.Of bytes ∧ behind.association.table.arrival? slot = some (.result result) := by
  obtain ⟨earlier, later, rfl⟩ := List.append_of_mem mem
  have part : (first ++ earlier) ++ [came] <+: first ++ (earlier ++ came :: later) :=
    ⟨later, by simp⟩
  obtain ⟨begun, allowed⟩ := course.of_prefix part
  obtain ⟨link, id, linked, -, owned⟩ := resolves.named
  have sound := (begun.ordered.fit.fits receiver link linked).sound
  have old : slot.generation < link.association.table.nextGeneration := by
    obtain ⟨entry, found, -, rfl⟩ := Table.of_owner owned
    exact sound.fresh id entry found
  obtain ⟨middle, found, stretch⟩ :=
    (begun.ordered.follows_act allowed).grows.leads receiver link linked
  have ahead := (begun.ordered.follows_act allowed).ordered.fit.fits receiver middle found
  obtain ⟨behind', left', later⟩ := (course.grows part).leads receiver middle found
  obtain rfl := Option.some.inj (left.symm.trans left')
  have known := Nat.lt_of_lt_of_le old stretch.elder.next_le
  have read' := later.elder.readers _ known read
  obtain ⟨result, of, lies⟩ := Desk.arrival_of_resolves resolves linked
    (stretch.elder.readers _ old read') found
  exact ⟨result, of, later.arrival_lasts ahead.sound lies read⟩

end Course

end Farcall
