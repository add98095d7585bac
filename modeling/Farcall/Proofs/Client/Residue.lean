import Farcall.Proofs.Client.Invariant

set_option autoImplicit false

/-!
# What calls leave behind

A call registers once or not at all, and whatever it does to a table it does by that registration,
from the request on to the look that ends it. So a call that returns for good leaves no entry, one
that goes on without its caller leaves its own at most, and no call touches the entry of another.
-/

namespace Farcall

namespace Turn

def Untouched (turn : Turn) : Prop :=
  ∀ receiver, turn.after.client.link? receiver = turn.before.client.link? receiver

/-- What the turn does to links it does by one slot at one receiver. There is one entry of the slot
behind it at most, and none if the call returned for good. -/
structure BySlot (turn : Turn) (receiver : ReceiverId) (slot : Slot) (link behind : Link) : Prop where
  found : turn.before.client.link? receiver = some link
  left : turn.after.client.link? receiver = some behind
  elsewhere : ∀ other, other ≠ receiver →
    turn.after.client.link? other = turn.before.client.link? other
  within : Table.Within slot.generation link.association.table behind.association.table
  single : ∀ (id id' : UInt16) entry entry', behind.association.table.entries[id]? = some entry →
    behind.association.table.entries[id']? = some entry' → entry.generation = slot.generation →
    entry'.generation = slot.generation → id = id'
  cleared : ∀ outcome, turn.result = some (.ended outcome) → ¬ outcome.GoesOn →
    ¬ behind.association.table.HasEntry slot.generation

def Registers (slot : Slot) (link behind : Link) : Prop :=
  link.association.table.register.1 = .ok slot ∧
    behind.association.table.nextGeneration = link.association.table.nextGeneration + 1

def Looks (turn : Turn) (receiver : ReceiverId) (slot : Slot) : Prop :=
  ∃ link behind, turn.BySlot receiver slot link behind ∧
    behind.association.table.nextGeneration = link.association.table.nextGeneration ∧
    behind.outbound = link.outbound

/-- What becomes of a request that is made behind the turns `first` of a course. -/
inductive Settled (turns first : List Turn) (turn : Turn) (request : Request) : Prop where
  | alone {outcome : Outcome} (same : turn.Untouched)
      (returned : turn.result = some (.ended outcome)) (stops : ¬ outcome.GoesOn)
  | offline {receiver : ReceiverId} (same : turn.Untouched)
      (of : (request.start turn.before.client).1.Of receiver)
      (off : turn.before.client.link? receiver = none)
  /-- The call fails before anything is queued. -/
  | withdrawn {receiver : ReceiverId} {slot : Slot} {link behind : Link} {outcome : Outcome}
      (own : turn.BySlot receiver slot link behind) (registers : Registers slot link behind)
      (unsent : behind.outbound = link.outbound)
      (returned : turn.result = some (.ended outcome)) (fails : outcome.Fails)
  /-- The call does not fail before its message is queued, and the same slot does the rest. -/
  | sent {receiver : ReceiverId} {slot : Slot} {link behind : Link} {message : Bytes}
      (own : turn.BySlot receiver slot link behind) (registers : Registers slot link behind)
      (sent : behind.outbound = link.outbound ++ [message])
      (begun : ∀ outcome, (request.start turn.before.client).1 = .ended outcome → outcome.GoesOn)
      (looks : ∀ task between other, turn.result = some (.waits task) → other.move = .look task →
        first ++ turn :: between ++ [other] <+: turns →
        other.Untouched ∧ other.result = none ∨ other.Looks receiver slot)

variable {turn : Turn} {receiver : ReceiverId} {slot : Slot} {link behind : Link}

theorem BySlot.of_works {before table : Table LazyResult}
    (found : turn.before.client.link? receiver = some link)
    (left : turn.after.client.link? receiver = some behind)
    (elsewhere : ∀ other, other ≠ receiver →
      turn.after.client.link? other = turn.before.client.link? other)
    (sound : table.Sound) (same : behind.association.table = table)
    (start : Table.Within slot.generation link.association.table before)
    (works : Table.Works slot before table)
    (cleared : ∀ outcome, turn.result = some (.ended outcome) → ¬ outcome.GoesOn →
      ¬ table.HasEntry slot.generation) : turn.BySlot receiver slot link behind := by
  refine ⟨found, left, elsewhere, ?_, ?_, ?_⟩
  · rw [same]
    exact start.trans works.within
  · rw [same]
    intro id id' entry entry' at_id at_id' own own'
    exact sound.toCoupled.distinct id id' entry entry' at_id at_id' (own.trans own'.symm)
  · rw [same]
    exact cleared

end Turn

namespace Desk

variable {desk : Desk} {receiver : ReceiverId}

/-! ## Looks -/

theorem Ordered.looks {number : Nat} {task : Task} (ordered : desk.Ordered)
    (found : desk.client.tasks.find? (·.number = number) = some task)
    (linked : (desk.client.link? task.work.receiver).isSome) :
    Turn.Looks ⟨desk, .look number⟩ task.work.receiver task.work.slot := by
  obtain ⟨link, linked⟩ := Option.isSome_iff_exists.mp linked
  have fits := (ordered.fit.perm (ordered.perm_found found)).fits _ link linked
  have at_receiver := desk.client.look_at task.work task.deadline
  obtain ⟨behind, left, looked⟩ := Client.look_on fits linked task.deadline
  have sound := fits.sound
  have turned : Turn.after ⟨desk, .look number⟩ = (desk.look number).2 := rfl
  cases given : desk.client.look task.work task.deadline with
  | mk result after =>
    rw [given] at at_receiver left looked
    cases looked with
    | @waits table works =>
      have acted := look_of_waits found given
      refine ⟨link, link.withTable table, .of_works linked ?_ ?_ (works.sound sound) rfl
        (.refl _ _) works ?_, works.next, rfl⟩
      · rw [turned, acted]
        exact left
      · rw [turned, acted]
        exact at_receiver.elsewhere
      · intro outcome ended
        change (desk.look number).1 = _ at ended
        rw [acted] at ended
        cases ended
    | @ended outcome table works leaves =>
      have acted := look_of_ended found given
      refine ⟨link, link.withTable table, .of_works linked ?_ ?_ (works.sound sound) rfl
        (.refl _ _) works ?_, works.next, rfl⟩
      · rw [turned, acted]
        exact left
      · rw [turned, acted]
        exact at_receiver.elsewhere
      · intro outcome' ended stops
        change (desk.look number).1 = _ at ended
        rw [acted] at ended
        have same : outcome = outcome' := TakenUp.ended.inj (Option.some.inj ended)
        exact leaves.cleared (same ▸ stops)

/-! ## Requests -/

inductive Opened (turn : Turn) (receiver : ReceiverId) (link : Link) (start : Start) : Prop where
  | refused {outcome : Outcome} (same : turn.Untouched)
      (returned : turn.result = some (.ended outcome)) (fails : outcome.Fails)
  | withdrawn {slot : Slot} {behind : Link} {outcome : Outcome}
      (own : turn.BySlot receiver slot link behind) (registers : Turn.Registers slot link behind)
      (unsent : behind.outbound = link.outbound)
      (returned : turn.result = some (.ended outcome)) (fails : outcome.Fails)
  | sent {slot : Slot} {behind : Link} {message : Bytes}
      (own : turn.BySlot receiver slot link behind) (registers : Turn.Registers slot link behind)
      (sent : behind.outbound = link.outbound ++ [message])
      (begun : ∀ outcome, start = .ended outcome → outcome.GoesOn)
      (waits : ∀ number, turn.result = some (.waits number) → ∃ task ∈ turn.after.client.tasks,
        task.number = number ∧ task.work.receiver = receiver ∧ task.work.slot = slot)

theorem by_entered {turn : Turn} {client : Client} {link behind : Link} {id : UInt16}
    (registered : link.association.table.register.1 = .ok (link.association.table.enter id).1)
    (found : turn.before.client.link? receiver = some link)
    (turned : turn.after.client = client) (left : client.link? receiver = some behind)
    (elsewhere : ∀ other, other ≠ receiver →
      client.link? other = turn.before.client.link? other)
    (sound : behind.association.table.Sound)
    (works : Table.Works (link.association.table.enter id).1 (link.association.table.enter id).2
      behind.association.table)
    (cleared : ∀ outcome, turn.result = some (.ended outcome) → ¬ outcome.GoesOn →
      ¬ behind.association.table.HasEntry (link.association.table.enter id).1.generation) :
    turn.BySlot receiver (link.association.table.enter id).1 link behind ∧
      Turn.Registers (link.association.table.enter id).1 link behind := by
  subst turned
  have free := (Table.register_of_ok registered).2
  exact ⟨.of_works found left elsewhere sound rfl (Table.within_enter free) works cleared,
    registered, works.next.trans rfl⟩

theorem opened_running {turn : Turn} {after : Client} {held : List Future} {work : Work}
    {timeout : Nat} {link queued : Link} {id : UInt16} {message : Bytes} {rest : List Place}
    (taken : (turn.result, turn.after) = takeUp held (.running work timeout, after))
    (linked : turn.before.client.link? work.receiver = some link)
    (elsewhere : ∀ other, other ≠ work.receiver →
      after.link? other = turn.before.client.link? other)
    (left : after.link? work.receiver = some queued)
    (registered : link.association.table.register.1 = .ok (link.association.table.enter id).1)
    (works : Table.Works (link.association.table.enter id).1 (link.association.table.enter id).2
      queued.association.table)
    (own : work.slot = (link.association.table.enter id).1)
    (sent : queued.outbound = link.outbound ++ [message])
    (fits : Fits (work.place :: rest) work.receiver queued.association.table) :
    Opened turn work.receiver link (.running work timeout) := by
  have first := after.look_at work (after.now + timeout)
  have sound := fits.sound
  obtain ⟨last, found, looked⟩ := Client.look_on fits left (after.now + timeout)
  have apart : ∀ other, other ≠ work.receiver →
      (after.look work (after.now + timeout)).2.link? other = turn.before.client.link? other :=
    fun other away => (first.elsewhere other away).trans (elsewhere other away)
  -- the first look belongs to the request, whether it ends the work or not
  rcases after.takeUp_running work timeout with ⟨outcome, ended, given⟩ | ⟨waits, given⟩
  · rw [ended] at looked
    rw [takeUp, given] at taken
    obtain ⟨came, turned⟩ := Prod.mk.inj taken
    cases looked with
    | @ended _ table works' leaves =>
      rw [own] at works' leaves
      have slot : turn.BySlot work.receiver (link.association.table.enter id).1 link
          (queued.withTable table) ∧ _ :=
        by_entered registered linked (congrArg client turned) found apart (works'.sound sound)
          (works.trans works') fun outcome' ended' stops => by
            rw [came] at ended'
            have same : outcome = outcome' := TakenUp.ended.inj (Option.some.inj ended')
            exact leaves.cleared (same ▸ stops)
      refine .sent slot.1 slot.2 sent ?_ ?_
      · intro outcome' same
        cases same
      · intro number waits
        rw [came] at waits
        cases waits
  · rw [waits] at looked
    rw [takeUp, given] at taken
    obtain ⟨came, turned⟩ := Prod.mk.inj taken
    cases looked with
    | @waits table works' =>
      rw [own] at works'
      have slot : turn.BySlot work.receiver (link.association.table.enter id).1 link
          (queued.withTable table) ∧ _ :=
        by_entered registered linked (congrArg client turned) found apart (works'.sound sound)
          (works.trans works') fun outcome ended => by
            rw [came] at ended
            cases ended
      refine .sent slot.1 slot.2 sent ?_ ?_
      · intro outcome same
        cases same
      · intro number waits'
        rw [came] at waits'
        obtain rfl := TakenUp.waits.inj (Option.some.inj waits')
        rw [turned]
        exact ⟨_, List.mem_append_right _ (List.mem_singleton_self _), rfl, rfl, own⟩

theorem opened_of_begun (request : Request) {link : Link}
    (at_receiver : Client.At receiver desk.client (request.start desk.client).2)
    (linked : desk.client.link? receiver = some link)
    (begun : ∃ behind, (request.start desk.client).2.link? receiver = some behind ∧
      Site.Begun receiver link (request.start desk.client).1 behind)
    (fit : (request.start desk.client).2.Fit
      ((request.start desk.client).1.places ++ desk.places)) :
    Opened ⟨desk, .request request⟩ receiver link (request.start desk.client).1 := by
  obtain ⟨behind, left, began⟩ := begun
  have sound := (fit.fits receiver behind left).sound
  have turned : Turn.after ⟨desk, .request request⟩ =
    (takeUp desk.held (request.start desk.client)).2 := rfl
  have came : Turn.result ⟨desk, .request request⟩ =
    (takeUp desk.held (request.start desk.client)).1 := rfl
  cases started : request.start desk.client with
  | mk start after =>
    rw [started] at at_receiver left began fit turned came
    have elsewhere := at_receiver.elsewhere
    cases began with
    | refused fails =>
      refine .refused (fun other => ?_) came fails
      rw [turned]
      by_cases own : other = receiver
      · rw [own]
        exact left.trans linked.symm
      · exact elsewhere other own
    | @withdrawn id outcome table registered works gone fails =>
      have slot := by_entered registered linked (congrArg client turned) left elsewhere sound works
        fun _ _ _ => gone
      exact .withdrawn slot.1 slot.2 rfl came fails
    | @left id message outcome table registered works goesOn leaves =>
      have slot := by_entered registered linked (congrArg client turned) left elsewhere sound works
        fun outcome' ended stops => by
          rw [came] at ended
          have same : outcome = outcome' := TakenUp.ended.inj (Option.some.inj ended)
          exact absurd goesOn (same ▸ stops)
      refine .sent slot.1 slot.2 rfl ?_ ?_
      · intro outcome' same
        exact Start.ended.inj same ▸ goesOn
      · intro number waits
        rw [came] at waits
        cases waits
    | @running id message work timeout table registered works here own held =>
      subst here
      exact opened_running (Prod.ext came turned) linked elsewhere left registered works own rfl
        (fit.fits _ _ left)

theorem untouched_of_off (request : Request)
    (at_receiver : Client.At receiver desk.client (request.start desk.client).2)
    (of : (request.start desk.client).1.Of receiver) (off : desk.client.link? receiver = none) :
    Turn.Untouched ⟨desk, .request request⟩ := by
  have untouched : ∀ client : Client, Client.At receiver desk.client client →
      ∀ other, client.link? other = desk.client.link? other := by
    intro client at_receiver other
    by_cases own : other = receiver
    · have still := at_receiver.linked
      rw [off, Option.isSome_none, Option.isSome_eq_false_iff, Option.isNone_iff_eq_none] at still
      rw [own, off, still]
    · exact at_receiver.elsewhere other own
  intro other
  change (takeUp desk.held (request.start desk.client)).2.client.link? other = _
  cases started : request.start desk.client with
  | mk start after =>
    rw [started] at at_receiver of
    cases start with
    | ended outcome => exact untouched after at_receiver other
    | running work timeout =>
      have here : work.receiver = receiver := of
      have looked := at_receiver.trans (here ▸ after.look_at work (after.now + timeout))
      rcases after.takeUp_running work timeout with ⟨outcome, ended, taken⟩ | ⟨waits, taken⟩
      · rw [takeUp, taken]
        exact untouched _ looked other
      · rw [takeUp, taken]
        exact untouched _ looked other

end Desk

theorem Course.looks {config : Config} {turns first between : List Turn} {desk : Desk}
    {turn other : Turn} {task : Task} (course : Course config turns desk)
    (part : first ++ turn :: between ++ [other] <+: turns) (look : other.move = .look task.number)
    (mem : task ∈ turn.after.client.tasks)
    (linked : (turn.after.client.link? task.work.receiver).isSome) :
    other.Untouched ∧ other.result = none ∨ other.Looks task.work.receiver task.work.slot := by
  obtain ⟨course, -⟩ := course.of_prefix part
  have earlier : first ++ [turn] <+: first ++ turn :: between := ⟨between, by simp⟩
  have grows := course.grows earlier
  have ordered := course.ordered
  have stays := course.find_task earlier mem
  obtain ⟨before, move⟩ := other
  obtain rfl : move = .look task.number := look
  rcases stays with gone | found
  · have nothing : before.act (.look task.number) = (none, before) := Desk.look_of_gone gone
    refine .inl ⟨fun receiver => ?_, ?_⟩
    · rw [Turn.after, nothing]
    · rw [Turn.result, nothing]
  · exact .inr (ordered.looks found (grows.linked linked))

/-- Calls leave no residue. -/
theorem Course.no_residue {config : Config} {turns first : List Turn} {desk : Desk} {turn : Turn}
    {request : Request} (course : Course config turns desk) (part : first ++ [turn] <+: turns)
    (asked : turn.move = .request request) : turn.Settled turns first request := by
  obtain ⟨begun, -⟩ := course.of_prefix part
  obtain ⟨before, move⟩ := turn
  obtain rfl : move = .request request := asked
  have ordered := begun.ordered
  have given := before.client.asked_start request
  have fit := (given.fit ordered.fit).fit
  generalize started : request.start before.client = start at given fit
  cases given with
  | @nowhere outcome nobody stops =>
    have acted : before.act (.request request) = (some (.ended outcome), ⟨before.client, before.held
        ++ outcome.future?.toList⟩) := by
      rw [Desk.act, started]
      rfl
    refine .alone (fun receiver => ?_) ?_ stops
    · rw [Turn.after, acted]
    · rw [Turn.result, acted]
  | @somewhere receiver start at_receiver there of begins =>
    rw [← started] at at_receiver of begins fit
    cases linked : before.client.link? receiver with
    | none => exact .offline (Desk.untouched_of_off request at_receiver of linked) of linked
    | some link =>
      have sound := (ordered.fit.fits receiver link linked).sound
      cases Desk.opened_of_begun request at_receiver linked (begins link linked sound) fit with
      | refused same returned fails => exact .alone same returned fails.not_goesOn
      | withdrawn own registers unsent returned fails =>
        exact .withdrawn own registers unsent returned fails
      | @sent slot behind message own registers sent goes waits =>
        refine .sent own registers sent goes ?_
        intro number between other ended look later
        obtain ⟨task, mem, rfl, rfl, rfl⟩ := waits number ended
        refine course.looks later look mem ?_
        rw [own.left]
        rfl

/-- A commit that is answered: the request has to wait, and the look behind the answer ends it. -/
theorem Course.no_residue_of_commit :
    let commit : Request := .step ⟨1⟩ .commit false ⟨[7]⟩
    let joined : Turn :=
      ⟨⟨.ofConfig .default, []⟩, .join ⟨"host", .linked (.named "host" 4 none none), []⟩⟩
    let asked : Turn := ⟨joined.after, .request commit⟩
    let answered : Turn := ⟨asked.after, .link ⟨1⟩ (.receive [0x14, 0, 1, 0])⟩
    let looked : Turn := ⟨answered.after, .look 0⟩
    asked.Settled [joined, asked, answered, looked] [joined] commit ∧
      asked.result = some (.waits 0) ∧ looked.result = some (.ended (.stepped none)) := by
  intro commit joined asked answered looked
  have joins : Course .default [joined] joined.after := Course.joins .default "host" 4
  have asks : Course .default ([joined] ++ [asked]) asked.after := joins.next trivial
  have answers : Course .default ([joined, asked] ++ [answered]) answered.after := asks.next trivial
  have looks : Course .default ([joined, asked, answered] ++ [looked]) looked.after :=
    answers.next trivial
  have part : [joined] ++ [asked] <+: [joined, asked, answered] ++ [looked] := by simp
  exact ⟨looks.no_residue part rfl, rfl, rfl⟩

end Farcall
