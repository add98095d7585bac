import Farcall.Proofs.Client.Passage

set_option autoImplicit false

/-!
# What a task hears

The first answer that names the id of a task, while the entry of the task stands, is what the task
hears; if the channel is closed before, it hears that. Whatever else comes, before or later and in
whatever form, makes no difference to it, so over any passage a task hears one thing at most.
-/

namespace Farcall

/-- What can come for a slot: an answer, with what has not been read of it, or the end of the
channel. -/
inductive Word where
  | answer (kind : AnswerKind) (rest : Input)
  | closed (reason : String)

def Word.delivery : Word → Delivery LazyResult
  | answer kind rest => .result (.answer kind rest)
  | closed reason => .failed (.channelClosed reason)

namespace Incident

inductive Brings (receiver : ReceiverId) : Incident → Input → Prop
  | received (message : Bytes) :
      Brings receiver (.move (.link receiver (.receive message))) (.ofBytes message)
  | streamed (input : Input) : Brings receiver (.arrives receiver input) input

structure Quiet (receiver : ReceiverId) (incident : Incident) : Prop where
  nothing : ∀ input, ¬ incident.Brings receiver input
  stays : ∀ reason, incident ≠ .move (.link receiver (.close reason))

theorem cases (incident : Incident) (receiver : ReceiverId) :
    (∃ input, incident.Brings receiver input) ∨
      (∃ reason, incident = .move (.link receiver (.close reason))) ∨ incident.Quiet receiver := by
  by_cases brings : ∃ input, incident.Brings receiver input
  · exact .inl brings
  by_cases closes : ∃ reason, incident = .move (.link receiver (.close reason))
  · exact .inr (.inl closes)
  · exact .inr (.inr ⟨not_exists.mp brings, not_exists.mp closes⟩)

end Incident

namespace Incident

variable {incident : Incident} {receiver : ReceiverId} {input : Input}

theorem Brings.unique {other : Input} (brings : incident.Brings receiver input)
    (also : incident.Brings receiver other) : other = input := by
  cases brings <;> cases also <;> rfl

theorem Brings.not_close {reason : String} (brings : incident.Brings receiver input) :
    incident ≠ .move (.link receiver (.close reason)) := by
  cases brings <;> exact nofun

end Incident

/-- What comes in a scene resolves a slot: an answer names an id under which the entry of the slot is
live, or the channel is closed while the slot has an entry. -/
inductive Scene.Resolves (scene : Scene) (receiver : ReceiverId) (slot : Slot) : Word → Prop
  | answer {input rest : Input} {kind : AnswerKind} {id : UInt16} {link : Link}
      (brings : scene.incident.Brings receiver input)
      (linked : scene.before.client.link? receiver = some link)
      (read : Route.decoder.run input = (.ok (.answer kind id), rest))
      (owned : link.association.table.owner? id = some slot) :
      Resolves scene receiver slot (.answer kind rest)
  | closed {reason : String} {link : Link}
      (closes : scene.incident = .move (.link receiver (.close reason)))
      (linked : scene.before.client.link? receiver = some link)
      (owned : link.association.table.owns slot = true) :
      Resolves scene receiver slot (.closed reason)

inductive Table.Heard (table : Table LazyResult) (slot : Slot) (hold : Hold) : Option Word → Prop
  | nothing {signals : Signals} (pends : table.Pends slot signals hold) : Heard table slot hold none
  | word {word : Word} (arrived : table.arrival? slot = some word.delivery) :
      Heard table slot hold (some word)

namespace Scene

variable {scene : Scene} {receiver : ReceiverId} {slot : Slot} {link : Link} {word : Word}

theorem Resolves.owned (resolves : scene.Resolves receiver slot word)
    (linked : scene.before.client.link? receiver = some link) :
    link.association.table.owns slot = true := by
  cases resolves with
  | answer brings linked' read owner =>
    obtain rfl := Option.some.inj (linked.symm.trans linked')
    obtain ⟨entry, found, -, rfl⟩ := Table.of_owner owner
    exact Table.owns_iff.mpr ⟨entry, found, rfl⟩
  | closed closes linked' owned =>
    obtain rfl := Option.some.inj (linked.symm.trans linked')
    exact owned

theorem not_resolves_of_quiet (quiet : scene.incident.Quiet receiver) :
    ¬ scene.Resolves receiver slot word := by
  intro resolves
  cases resolves with
  | answer brings linked read owned => exact quiet.nothing _ brings
  | closed closes linked owned => exact quiet.stays _ closes

theorem resolves_of_brings {input : Input} {signals : Signals} {hold : Hold}
    (brings : scene.incident.Brings receiver input)
    (linked : scene.before.client.link? receiver = some link)
    (pends : link.association.table.Pends slot signals hold) :
    scene.Resolves receiver slot word ↔ ∃ kind rest, word = .answer kind rest ∧
      Route.decoder.run input = (.ok (.answer kind slot.id), rest) := by
  constructor
  · intro resolves
    cases resolves with
    | @answer _ rest kind id _ brings' linked' read owner =>
      obtain rfl := brings.unique brings'
      obtain ⟨entry, -, -, rfl⟩ := Table.of_owner owner
      exact ⟨kind, rest, rfl, read⟩
    | closed closes => exact absurd closes brings.not_close
  · rintro ⟨kind, rest, rfl, read⟩
    exact .answer brings linked read pends.owner

theorem resolves_of_close {reason : String}
    (closes : scene.incident = .move (.link receiver (.close reason)))
    (linked : scene.before.client.link? receiver = some link)
    (owned : link.association.table.owns slot = true) :
    scene.Resolves receiver slot word ↔ word = .closed reason := by
  constructor
  · intro resolves
    cases resolves with
    | answer brings => exact absurd closes brings.not_close
    | closed closes' =>
      rw [closes] at closes'
      cases closes'
      rfl
  · rintro rfl
    exact .closed closes linked owned

end Scene

/-! ## One scene -/

theorem Work.reads (work : Work) : work.hold ≠ .gone := by
  cases work <;> exact nofun

namespace Desk

variable {desk : Desk} {incident : Incident} {task : Task} {receiver : ReceiverId} {link : Link}
  {slot : Slot} {signals : Signals} {hold : Hold}

theorem Ordered.pends_of_look (ordered : desk.Ordered) (mem : task ∈ desk.client.tasks)
    (stays : task ∈ (desk.look task.number).2.client.tasks)
    (linked : desk.client.link? task.work.receiver = some link)
    (pends : link.association.table.Pends task.work.slot signals hold) :
    ∃ behind left, (desk.look task.number).2.client.link? task.work.receiver = some behind ∧
      behind.association.table.Pends task.work.slot left hold := by
  have found := ordered.find_of_mem mem
  have fits := (ordered.fit.perm (ordered.perm_found found)).fits _ link linked
  obtain ⟨behind, left, looked⟩ := Client.look_on fits linked task.deadline
  cases given : desk.client.look task.work task.deadline with
  | mk result after =>
    rw [given] at left looked
    cases looked with
    | waits works attends =>
      rw [look_of_waits found given]
      rcases attends with rfl | rfl
      · exact ⟨_, _, left, pends⟩
      · exact ⟨_, _, left, pends.resignal .attend⟩
    | ended works leaves =>
      rw [look_of_ended found given] at stays
      exact absurd rfl (of_decide_eq_true (List.mem_filter.mp stays).2)

theorem not_mem_abort (ordered : desk.Ordered) (mem : task ∈ desk.client.tasks) :
    task ∉ (desk.client.abort task.number).tasks := by
  intro stays
  rw [Client.abort, ordered.find_of_mem mem] at stays
  have kept := (Client.stop_at (desk.client.withoutTask task.number) task.work).tasks
  change task ∈ ((desk.client.withoutTask task.number).stop task.work).tasks at stays
  rw [kept] at stays
  exact absurd rfl (of_decide_eq_true (List.mem_filter.mp stays).2)

theorem Ordered.pends_of_quiet (ordered : desk.Ordered) (admits : desk.Admits incident)
    (mem : task ∈ desk.client.tasks) (stays : task ∈ (desk.meet incident).client.tasks)
    (linked : desk.client.link? task.work.receiver = some link)
    (pends : link.association.table.Pends task.work.slot signals hold)
    (quiet : incident.Quiet task.work.receiver) :
    ∃ behind left, (desk.meet incident).client.link? task.work.receiver = some behind ∧
      behind.association.table.Pends task.work.slot left hold := by
  cases incident with
  | arrives other input =>
    refine ⟨link, _, ?_, pends⟩
    have apart : task.work.receiver ≠ other := by
      rintro rfl
      exact quiet.nothing input (.streamed input)
    rcases desk.client.onLink_cases other fun link registry => link.hear registry input with
      ⟨-, same⟩ | ⟨-, -, at_other, -⟩
    · rw [meet, same]
      exact linked
    · exact (at_other.elsewhere _ apart).trans linked
  | move move =>
    by_cases looks : move = .look task.number
    · subst looks
      exact ordered.pends_of_look mem stays linked pends
    by_cases aborts : move = .abort task.number
    · subst aborts
      exact absurd stays (not_mem_abort ordered mem)
    -- nobody else works at the place of the task, and no message is about it
    obtain ⟨behind, left, touches⟩ := ordered.touches admits linked
    refine ⟨behind, signals, left, ?_⟩
    have spares : move.Spares task.work.receiver task.work.slot.id := by
      cases move with
      | link other turn =>
        cases turn with
        | receive message =>
          rintro rfl
          exact absurd (.received message) (quiet.nothing _)
        | close reason =>
          rintro rfl
          exact quiet.stays reason rfl
        | carry carried => exact trivial
      | _ => exact trivial
    refine touches.pends (ordered.fit.fits _ link linked).sound pends ?_ spares admits linked
    intro place worker here
    exact ordered.worker_apart worker (here ▸ linked) mem here.symm ⟨looks, aborts⟩

theorem link_of_brings {input : Input} (brings : incident.Brings receiver input)
    (linked : desk.client.link? receiver = some link) :
    ∃ behind, (desk.meet incident).client.link? receiver = some behind ∧
      behind.association = (link.association.process desk.client.registry input).association := by
  cases brings with
  | received message =>
    exact ⟨_, (desk.client.onLink_of_link
      (fun link registry => LinkTurn.apply link registry (.receive message)) linked).link, rfl⟩
  | streamed =>
    exact ⟨_, (desk.client.onLink_of_link (fun link registry => link.hear registry input) linked).link,
      rfl⟩

theorem link_of_close {reason : String} (linked : desk.client.link? receiver = some link) :
    (desk.meet (.move (.link receiver (.close reason)))).client.link? receiver =
      some (link.close reason).2 :=
  (desk.client.onLink_of_link (fun link registry => LinkTurn.apply link registry (.close reason))
    linked).link

/-- A task that has heard nothing hears what resolves its slot in a scene, and nothing else. -/
theorem Ordered.heard_of_pends (ordered : desk.Ordered) (admits : desk.Admits incident)
    (mem : task ∈ desk.client.tasks) (stays : task ∈ (desk.meet incident).client.tasks)
    (linked : desk.client.link? task.work.receiver = some link)
    (pends : link.association.table.Pends task.work.slot signals task.work.hold) :
    ∃ behind heard, (desk.meet incident).client.link? task.work.receiver = some behind ∧
      behind.association.table.Heard task.work.slot task.work.hold heard ∧ ∀ word,
        Scene.Resolves ⟨desk, incident⟩ task.work.receiver task.work.slot word ↔
          heard = some word := by
  have sound := (ordered.fit.fits _ link linked).sound
  have reads := task.work.reads
  rcases incident.cases task.work.receiver with ⟨input, brings⟩ | ⟨reason, rfl⟩ | quiet
  · obtain ⟨behind, left, same⟩ := link_of_brings brings linked
    have resolves : ∀ word, Scene.Resolves ⟨desk, incident⟩ task.work.receiver task.work.slot word ↔
        ∃ kind rest, word = .answer kind rest ∧
          Route.decoder.run input = (.ok (.answer kind task.work.slot.id), rest) :=
      fun _ => Scene.resolves_of_brings brings linked pends
    rcases link.association.process_of_pends sound.toCoupled pends reads desk.client.registry input with
      ⟨kind, rest, read, arrived⟩ | ⟨other, _, pends⟩
    · rw [← same] at arrived
      refine ⟨behind, some (.answer kind rest), left, .word arrived, fun word => ?_⟩
      rw [resolves]
      constructor
      · rintro ⟨kind', rest', rfl, read'⟩
        rw [read] at read'
        cases read'
        rfl
      · rintro ⟨⟩
        exact ⟨kind, rest, rfl, read⟩
    · rw [← same] at pends
      refine ⟨behind, none, left, .nothing pends, fun word => ?_⟩
      rw [resolves]
      refine iff_of_false ?_ nofun
      rintro ⟨kind, rest, -, read⟩
      exact other kind rest read
  · have arrived := Table.arrival_failAll pends.held reads pends.owned reason
    refine ⟨_, some (.closed reason), link_of_close linked, .word arrived, fun word => ?_⟩
    rw [Scene.resolves_of_close rfl linked pends.owned, Option.some.injEq, eq_comm]
  · obtain ⟨behind, _, left, pends⟩ := ordered.pends_of_quiet admits mem stays linked pends quiet
    refine ⟨behind, none, left, .nothing pends, fun word => ?_⟩
    exact iff_of_false (Scene.not_resolves_of_quiet quiet) nofun

theorem Ordered.heard_of_arrived (ordered : desk.Ordered) (admits : desk.Admits incident)
    (stays : task ∈ (desk.meet incident).client.tasks)
    (linked : desk.client.link? task.work.receiver = some link) {d : Delivery LazyResult}
    (arrived : link.association.table.arrival? task.work.slot = some d) :
    (∃ behind, (desk.meet incident).client.link? task.work.receiver = some behind ∧
      behind.association.table.arrival? task.work.slot = some d) ∧
    ∀ word, ¬ Scene.Resolves ⟨desk, incident⟩ task.work.receiver task.work.slot word := by
  have sound := (ordered.fit.fits _ link linked).sound
  have follows := ordered.follows_meet admits
  obtain ⟨behind, left, stretch⟩ := follows.grows.leads _ link linked
  have stands : task.work.place.Stands behind.association.table :=
    (follows.ordered.fit.fits _ behind left).stands _
      (List.mem_append_left _ (List.mem_map_of_mem stays)) rfl
  have read : behind.association.table.Read task.work.slot.generation :=
    Table.read_of_holder stands task.work.reads
  refine ⟨⟨behind, left, stretch.arrival_lasts sound arrived read⟩, fun word resolves => ?_⟩
  -- the entry went when the delivery came, and an answer or a close has no other way to a slot
  have lost : link.association.table.owns task.work.slot = false :=
    sound.toCoupled.not_owns_of_arrival (by rw [arrived]; exact Option.some_ne_none d)
  rw [resolves.owned linked] at lost
  cases lost

end Desk

/-! ## Many scenes -/

namespace Passage

variable {start desk : Desk} {scenes : List Scene} {task : Task} {link : Link} {signals : Signals}

/-- A task that waits, and that has heard nothing at the start of a passage, has heard at the end
what resolved its slot, if anything did. -/
theorem heard (passage : Passage start scenes desk) (ordered : start.Ordered)
    (mem : task ∈ start.client.tasks) (stays : task ∈ desk.client.tasks)
    (linked : start.client.link? task.work.receiver = some link)
    (pends : link.association.table.Pends task.work.slot signals task.work.hold) :
    ∃ behind heard, desk.client.link? task.work.receiver = some behind ∧
      behind.association.table.Heard task.work.slot task.work.hold heard ∧ ∀ word,
        (∃ scene ∈ scenes, scene.Resolves task.work.receiver task.work.slot word) ↔
          heard = some word := by
  induction passage with
  | stay => exact ⟨link, none, linked, .nothing pends, fun word => iff_of_false (by simp) nofun⟩
  | @next scenes desk incident passage admits ih =>
    have between := passage.ordered ordered
    -- the task was there all the time, since its number is not given again
    have was : task ∈ desk.client.tasks := by
      refine between.mem_of_meet admits ?_ stays
      exact Nat.lt_of_lt_of_le (ordered.numbered.older task mem) (passage.grows ordered).nextTask
    obtain ⟨middle, heard, found, so, told⟩ := ih was
    have split : ∀ word, (∃ scene ∈ scenes ++ [⟨desk, incident⟩],
        Scene.Resolves scene task.work.receiver task.work.slot word) ↔ heard = some word ∨
          Scene.Resolves ⟨desk, incident⟩ task.work.receiver task.work.slot word := by
      intro word
      rw [← told]
      simp only [List.mem_append, List.mem_singleton, or_and_right, exists_or, exists_eq_left]
    cases so with
    | nothing pends =>
      obtain ⟨behind, news, left, hears, resolves⟩ :=
        between.heard_of_pends admits was stays found pends
      refine ⟨behind, news, left, hears, fun word => ?_⟩
      rw [split, resolves]
      exact or_iff_right nofun
    | word arrived =>
      obtain ⟨⟨behind, left, arrived⟩, silent⟩ := between.heard_of_arrived admits stays found arrived
      refine ⟨behind, _, left, .word arrived, fun word => ?_⟩
      rw [split]
      exact or_iff_left (silent word)

end Passage

end Farcall
