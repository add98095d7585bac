import Farcall.Proofs.Client.Provenance

set_option autoImplicit false

/-!
# How transaction steps end

A coordinator hears that a step was carried out exactly if a message resolved the slot of the step
that the client takes for a success. That is any answer to a step, with whatever code it carries, and
the result of a call if it is nothing or a number. Only a prepare looks at the code.
-/

namespace Farcall

/-! ## What messages say about a step -/

namespace Message

/-- The message says that a step was carried out. -/
def ReportsSuccess : Message → Prop
  | txResponse _ value => value = none ∨ value = some 0
  | _ => False

/-- The message says something else, and the client takes it for a success. -/
def PassesForSuccess : Message → Prop
  | txResponse _ value => value ≠ none ∧ value ≠ some 0
  | invocationResponse _ tail =>
    Payload.decodeResult tail.payload = .ok .unit ∨
      ∃ v, Payload.decodeResult tail.payload = .ok (.long v)
  | _ => False

end Message

/-- The result is one that an answer to a step can give. -/
def CallResult.Plain (result : CallResult) : Prop := result = .ok .unit ∨ ∃ v, result = .ok (.long v)

theorem AnswerKind.gives_plain (kind : AnswerKind) (id : UInt16) : (kind.message id).Gives
    fun message => message.outcome.Plain ↔ message.ReportsSuccess ∨ message.PassesForSuccess := by
  cases kind with
  | session =>
    refine Decoder.Gives.bind (Decoder.gives_of_forall _ fun tail => ?_)
    change (_ ∨ _) ↔ _
    simp [Message.outcome, Message.ReportsSuccess, Message.PassesForSuccess]
  | response =>
    refine Decoder.Gives.bind (Decoder.gives_of_forall _ fun tail => ?_)
    change (_ ∨ _) ↔ (False ∨ _ ∨ _)
    cases decoded : Payload.decodeResult tail.payload with
    | ok v =>
      have given : (Message.invocationResponse id tail).outcome = .ok v := by
        rw [Message.outcome, decoded]
        rfl
      simp [given]
    | error e =>
      have given : (Message.invocationResponse id tail).outcome = .error (.codec e) := by
        rw [Message.outcome, decoded]
        rfl
      simp [given]
  | failure kind =>
    refine Decoder.Gives.bind (Decoder.gives_of_forall _ fun tail => ?_)
    change (_ ∨ _) ↔ _
    simp [Message.outcome, Message.ReportsSuccess, Message.PassesForSuccess]
  | transaction =>
    refine Decoder.Gives.bind (Decoder.gives_of_forall _ fun value => ?_)
    change (_ ∨ _) ↔ (_ ∨ _) ∨ _ ∧ _
    cases value with
    | none => simp [Message.outcome]
    | some v => by_cases zero : v = 0 <;> simp [Message.outcome, zero]

theorem LazyResult.Of.plain_iff {bytes : Bytes} {result : LazyResult} (of : result.Of bytes) :
    result.read.1.Plain ↔ ∃ message, (Message.decoder.run bytes).1 = .ok message ∧
      (message.ReportsSuccess ∨ message.PassesForSuccess) := by
  rw [of.read]
  obtain ⟨kind, id, rest, given, rfl⟩ := of
  rw [(Route.behind_answer given).2]
  cases decoded : (kind.message id).run rest.pending with
  | mk result left =>
    cases result with
    | error e => simp [CallResult.ofDecoded, Except.map, CallResult.Plain]
    | ok message =>
      have plain := (kind.gives_plain id).of_run decoded
      simpa [CallResult.ofDecoded, Except.map] using plain

def Turn.Approves (turn : Turn) (receiver : ReceiverId) (slot : Slot) : Prop :=
  ∃ bytes message, turn.Resolves receiver slot bytes ∧ (Message.decoder.run bytes).1 = .ok message ∧
    (message.ReportsSuccess ∨ message.PassesForSuccess)

/-! ## Looks at a step -/

namespace Site

/-- Every step but a prepare takes any plain result for a success. -/
theorem stepOutcome_cases {step : TxStep} (other : step ≠ .prepare) (result : CallResult) :
    (result.Plain ∧ stepOutcome step result = .ok none) ∨
      ¬ result.Plain ∧ ∃ code, stepOutcome step result = .error ⟨code, step⟩ := by
  cases result with
  | error e =>
    refine .inr ⟨?_, xaCode e, rfl⟩
    simp [CallResult.Plain]
  | ok v =>
    cases v with
    | unit =>
      refine .inl ⟨.inl rfl, ?_⟩
      cases step <;> first | rfl | exact absurd rfl other
    | long v =>
      refine .inl ⟨.inr ⟨v, rfl⟩, ?_⟩
      cases step <;> first | rfl | exact absurd rfl other
    | _ =>
      refine .inr ⟨?_, .proto, rfl⟩
      simp [CallResult.Plain]

variable {site : Site} {link : Link} {slot : Slot}

theorem lookFor_ended (on : site.On link) {hold : Hold}
    (held : link.association.table.holder? slot = some hold) {late : Bool}
    {given : Except InvocationError LazyResult} (ended : (site.lookFor slot late).1 = some given) :
    (∃ result, link.association.table.unread? slot = some result ∧ given = .ok result) ∨
      link.association.table.unread? slot = none ∧ ∃ e, given = .error e := by
  have lies := Table.unread_of_arrival held
  rw [lookFor, on.table_eq] at ended
  cases arrived : link.association.table.arrival? slot with
  | some delivery =>
    rw [arrived] at lies
    rw [Table.claim_of_arrived arrived] at ended
    obtain rfl := Option.some.inj ended
    cases delivery with
    | result r => exact .inl ⟨r, lies, rfl⟩
    | failed e => exact .inr ⟨lies, e, rfl⟩
  | none =>
    rw [arrived] at lies
    refine .inr ⟨lies, ?_⟩
    cases owned : link.association.table.owns slot with
    | false =>
      rw [Table.claim_of_severed arrived owned] at ended
      exact ⟨_, (Option.some.inj ended).symm⟩
    | true =>
      rw [Table.claim_of_empty arrived owned] at ended
      cases late with
      | false => cases ended
      | true => exact ⟨_, (Option.some.inj ended).symm⟩

def StepEnds (table : Table LazyResult) (slot : Slot) (step : TxStep) (outcome : Outcome) : Prop :=
  (∃ result, table.unread? slot = some result ∧
    outcome = .ofStep (stepOutcome step result.read.1)) ∨
  table.unread? slot = none ∧ ∃ code, outcome = .stepFailed ⟨code, step⟩

/-- Unless it is a prepare, a step succeeds exactly if a plain result is there. -/
theorem StepEnds.succeeds_iff {table : Table LazyResult} {step : TxStep} {outcome : Outcome}
    (ends : StepEnds table slot step outcome) (other : step ≠ .prepare) :
    (outcome = .stepped none ∨ ∃ code, outcome = .stepFailed ⟨code, step⟩) ∧
      (outcome = .stepped none ↔
        ∃ result, table.unread? slot = some result ∧ result.read.1.Plain) := by
  rcases ends with ⟨result, lies, rfl⟩ | ⟨empty, code, rfl⟩
  · rcases stepOutcome_cases other result.read.1 with ⟨plain, succeeds⟩ | ⟨rough, code, fails⟩
    · rw [succeeds]
      exact ⟨.inl rfl, iff_of_true rfl ⟨result, lies, plain⟩⟩
    · rw [fails]
      refine ⟨.inr ⟨code, rfl⟩, iff_of_false (fun same => by cases same) ?_⟩
      rintro ⟨result', lies', plain⟩
      obtain rfl := Option.some.inj (lies.symm.trans lies')
      exact rough plain
  · refine ⟨.inr ⟨code, rfl⟩, iff_of_false (fun same => by cases same) ?_⟩
    rintro ⟨result, lies, -⟩
    rw [empty] at lies
    cases lies

theorem look_stepping (on : site.On link) {hold : Hold}
    (held : link.association.table.holder? slot = some hold) {late : Bool} {receiver : ReceiverId}
    {step : TxStep} {outcome : Outcome}
    (ended : (site.look (.stepping receiver slot step) late).1 = some outcome) :
    StepEnds link.association.table slot step outcome := by
  have found := @lookFor_ended site link slot on hold held late
  simp only [look, lookOnce] at ended
  cases looked : site.lookFor slot late with
  | mk given after =>
    rw [looked] at ended found
    cases given with
    | none => cases ended
    | some given =>
      rcases found rfl with ⟨result, lies, rfl⟩ | ⟨empty, e, rfl⟩
      · exact .inl ⟨result, lies, (Option.some.inj ended).symm⟩
      · exact .inr ⟨empty, xaCode e, (Option.some.inj ended).symm⟩

def Tries (receiver : ReceiverId) (step : TxStep) (start : Start) : Prop :=
  (∃ code, start = .ended (.stepFailed ⟨code, step⟩)) ∨
    ∃ slot timeout, start = .running (.stepping receiver slot step) timeout

theorem tries_startTransaction (on : site.On link) (timeout : Nat) (receiver : ReceiverId)
    (step : TxStep) (onePhase : Bool) (transaction : TransactionId) :
    Tries receiver step (site.startTransaction timeout receiver step onePhase transaction).1 := by
  simp only [startTransaction, startStep, Endpoint.kind_of_link on]
  cases site.post fun id => .ok (.txRequest ⟨id, txKind step onePhase, transaction⟩) with
  | mk result after =>
    cases result with
    | error e => exact .inl ⟨xaCode e, rfl⟩
    | ok slot => exact .inr ⟨slot, timeout, rfl⟩

end Site

/-! ## Steps of a client -/

namespace Client

variable {client : Client} {receiver : ReceiverId} {link : Link} {slot : Slot} {step : TxStep}

theorem look_stepping (linked : client.link? receiver = some link) {hold : Hold}
    (held : link.association.table.holder? slot = some hold) {deadline : Nat} {outcome : Outcome}
    (ended : (client.look (.stepping receiver slot step) deadline).1 = some outcome) :
    Site.StepEnds link.association.table slot step outcome := by
  obtain ⟨site, on, -, result, -⟩ :=
    client.look_linked (.stepping receiver slot step) deadline linked
  exact Site.look_stepping on held (result.symm.trans ended)

theorem drive_on (linked : client.link? receiver = some link) (sound : link.association.table.Sound)
    (step : TxStep) (onePhase : Bool) (transaction : TransactionId) :
    (∃ code, (client.drive receiver step onePhase transaction).1 =
      .ended (.stepFailed ⟨code, step⟩)) ∨
    ∃ slot timeout behind,
      (client.drive receiver step onePhase transaction).1 =
        .running (.stepping receiver slot step) timeout ∧
      link.association.table.register.1 = .ok slot ∧
      (client.drive receiver step onePhase transaction).2.link? receiver = some behind ∧
      Table.Stretch Op.Mute link.association.table behind.association.table ∧
      behind.association.table.Waiting slot := by
  have visited : ∃ behind,
      (client.drive receiver step onePhase transaction).2.link? receiver = some behind ∧
      Site.Begun receiver link (client.drive receiver step onePhase transaction).1 behind ∧
      Site.Tries receiver step (client.drive receiver step onePhase transaction).1 := by
    refine visit_on (P := fun start behind =>
      Site.Begun receiver link start behind ∧ Site.Tries receiver step start) linked fun site on => ?_
    obtain ⟨behind, on', begun⟩ := Site.startTransaction_spec on sound
      client.config.transactionTimeout receiver step onePhase transaction
    exact ⟨behind, on', begun, Site.tries_startTransaction on _ receiver step onePhase transaction⟩
  obtain ⟨behind, left, begun, failed | ⟨slot, timeout, running⟩⟩ := visited
  · exact .inl failed
  · rw [running] at begun
    have stretch := begun.stretch
    cases begun with
    | running registered works here own held =>
      refine .inr ⟨slot, timeout, _, running, ?_, left, stretch, held⟩
      rw [registered]
      exact congrArg Except.ok own.symm

end Client

namespace Desk

variable {desk : Desk} {receiver : ReceiverId} {link : Link}

theorem unread_of_register {table : Table LazyResult} (sound : table.Sound) {slot : Slot}
    (registered : table.register.1 = .ok slot) : table.unread? slot = none := by
  cases lies : table.unread? slot with
  | none => rfl
  | some result =>
    have old := sound.generation_lt (Table.hasSlot_of_unread lies)
    rcases Table.register_cases table with ⟨e, refused⟩ | ⟨id, -, entered⟩
    · rw [refused] at registered
      cases registered
    · rw [entered] at registered
      obtain rfl := Except.ok.inj registered
      exact absurd old (Nat.lt_irrefl _)

theorem Ordered.step_begins (ordered : desk.Ordered) (linked : desk.client.link? receiver = some link)
    (step : TxStep) (onePhase : Bool) (transaction : TransactionId) :
    (∃ code, Turn.result ⟨desk, .request (.step receiver step onePhase transaction)⟩ =
      some (.ended (.stepFailed ⟨code, step⟩))) ∨
    ∃ slot, link.association.table.register.1 = .ok slot ∧
      ∃ task ∈ (Turn.after ⟨desk, .request (.step receiver step onePhase transaction)⟩).client.tasks,
        task.work = .stepping receiver slot step ∧
        Turn.result ⟨desk, .request (.step receiver step onePhase transaction)⟩ =
          some (.waits task.number) := by
  have sound := (ordered.fit.fits receiver link linked).sound
  change (∃ code, (takeUp desk.held (desk.client.drive receiver step onePhase transaction)).1 = _) ∨
    ∃ slot, _ ∧ ∃ task ∈ (takeUp desk.held
      (desk.client.drive receiver step onePhase transaction)).2.client.tasks, _ ∧
      (takeUp desk.held (desk.client.drive receiver step onePhase transaction)).1 = _
  rcases Client.drive_on linked sound step onePhase transaction with
    ⟨code, failed⟩ | ⟨slot, timeout, behind, running, registered, left, stretch, waits⟩
  · exact .inl ⟨code, by rw [takeUp, failed]; rfl⟩
  · cases started : desk.client.drive receiver step onePhase transaction with
    | mk start after =>
      rw [started] at running left
      obtain rfl : start = _ := running
      rcases after.takeUp_running (.stepping receiver slot step) timeout with
        ⟨outcome, ended, taken⟩ | ⟨-, taken⟩
      -- the box is still empty, so a wait that ends at once is out of time
      · have empty : behind.association.table.unread? slot = none := by
          cases lies : behind.association.table.unread? slot with
          | none => rfl
          | some result =>
            rw [← stretch.unread_back sound lies]
            exact unread_of_register sound registered
        rcases Client.look_stepping left waits ended with ⟨result, lies, -⟩ | ⟨-, code, rfl⟩
        · rw [empty] at lies
          cases lies
        · exact .inl ⟨code, by rw [takeUp, taken]; rfl⟩
      · refine .inr ⟨slot, registered, ?_⟩
        rw [takeUp, taken]
        exact ⟨_, List.mem_append_right _ (List.mem_singleton_self _), rfl, rfl⟩

/-- A look that ends the task of a step ends it with what is in the box of its slot. -/
theorem Ordered.step_ends (ordered : desk.Ordered) {task : Task} {slot : Slot} {step : TxStep}
    {outcome : Outcome} (found : desk.client.tasks.find? (·.number = task.number) = some task)
    (work : task.work = .stepping receiver slot step)
    (linked : desk.client.link? receiver = some link)
    (ended : (desk.look task.number).1 = some (.ended outcome)) :
    link.association.table.Waiting slot ∧ Site.StepEnds link.association.table slot step outcome := by
  have fits := (ordered.fit.perm (ordered.perm_found found)).fits receiver link linked
  have stands := fits.stands task.work.place (List.mem_cons_self ..) (by rw [work]; rfl)
  rw [work] at stands
  have waits : link.association.table.Waiting slot := stands
  refine ⟨waits, ?_⟩
  cases looked : desk.client.look task.work task.deadline with
  | mk result after =>
    cases result with
    | none =>
      rw [look_of_waits found looked] at ended
      cases ended
    | some given =>
      rw [look_of_ended found looked] at ended
      obtain rfl : given = outcome := TakenUp.ended.inj (Option.some.inj ended)
      rw [work] at looked
      exact Client.look_stepping linked waits (congrArg Prod.fst looked)

end Desk

namespace Course

variable {config : Config} {turns first between : List Turn} {desk : Desk} {asked : Turn}
  {receiver : ReceiverId} {link behind : Link} {slot : Slot} {step : TxStep} {onePhase : Bool}
  {transaction : TransactionId}

theorem plain_iff (course : Course config (first ++ asked :: between) desk)
    (linked : asked.before.client.link? receiver = some link)
    (empty : link.association.table.unread? slot = none)
    (left : desk.client.link? receiver = some behind) (waits : behind.association.table.Waiting slot) :
    (∃ result, behind.association.table.unread? slot = some result ∧ result.read.1.Plain) ↔
      ∃ came ∈ asked :: between, came.Approves receiver slot := by
  constructor
  · rintro ⟨result, lies, plain⟩
    rcases course.unread_origin linked left lies with was | ⟨came, mem, bytes, resolves, of⟩
    · rw [empty] at was
      cases was
    · obtain ⟨message, decoded, tells⟩ := of.plain_iff.mp plain
      exact ⟨came, mem, bytes, message, resolves, decoded, tells⟩
  -- whoever waits reads the box, so what was put into it stays there until the look
  · rintro ⟨came, mem, bytes, message, resolves, decoded, tells⟩
    have read : behind.association.table.Read slot.generation := Table.read_of_holder waits nofun
    obtain ⟨result, of, arrived⟩ := course.arrival_of_resolves mem resolves left read
    have lies := Table.unread_of_arrival waits
    rw [arrived] at lies
    exact ⟨result, lies, of.plain_iff.mpr ⟨message, decoded, tells⟩⟩

/-- A commit, a rollback, a forget or a completion is reported as carried out exactly if a message
that came in between resolved its slot and either said so or passes for that. -/
theorem step_succeeds_iff (course : Course config turns desk) (part : first ++ [asked] <+: turns)
    (asks : asked.move = .request (.step receiver step onePhase transaction))
    (other : step ≠ .prepare) (linked : asked.before.client.link? receiver = some link) :
    (∃ code, asked.result = some (.ended (.stepFailed ⟨code, step⟩))) ∨
    ∃ slot task, link.association.table.register.1 = .ok slot ∧ asked.result = some (.waits task) ∧
      ∀ between looked outcome, first ++ asked :: between ++ [looked] <+: turns →
        looked.move = .look task → looked.result = some (.ended outcome) →
        (outcome = .stepped none ∨ ∃ code, outcome = .stepFailed ⟨code, step⟩) ∧
        (outcome = .stepped none ↔ ∃ came ∈ between, came.Approves receiver slot) := by
  obtain ⟨begun, -⟩ := course.of_prefix part
  obtain ⟨before, move⟩ := asked
  obtain rfl : move = .request (.step receiver step onePhase transaction) := asks
  rcases begun.ordered.step_begins linked step onePhase transaction with
    failed | ⟨slot, registered, task, mem, work, waits⟩
  · exact .inl failed
  · refine .inr ⟨slot, task.number, registered, waits, ?_⟩
    intro between looked outcome later looks ended
    obtain ⟨desk, move⟩ := looked
    obtain rfl : move = .look task.number := looks
    obtain ⟨run, -⟩ := course.of_prefix later
    have found := run.find_task ((List.prefix_append_right_inj first).mpr ⟨between, rfl⟩) mem
    have ended : (desk.look task.number).1 = some (.ended outcome) := ended
    rcases found with gone | found
    · rw [Desk.look_of_gone gone] at ended
      cases ended
    · obtain ⟨behind, left, -⟩ := run.grows_from.leads receiver link linked
      obtain ⟨waits, ends⟩ := run.ordered.step_ends found work left ended
      have empty := Desk.unread_of_register (begun.ordered.fit.fits receiver link linked).sound registered
      obtain ⟨sort, succeeds⟩ := ends.succeeds_iff other
      refine ⟨sort, succeeds.trans ((run.plain_iff linked empty left waits).trans ?_)⟩
      constructor
      · rintro ⟨came, mem, approves⟩
        rcases List.mem_cons.mp mem with rfl | mem
        · obtain ⟨bytes, message, resolves, -⟩ := approves
          cases resolves.comes
        · exact ⟨came, mem, approves⟩
      · rintro ⟨came, mem, approves⟩
        exact ⟨came, List.mem_cons_of_mem _ mem, approves⟩

end Course

/-! ## One commit -/

namespace OneCommit

def joined : Turn :=
  ⟨⟨.ofConfig .default, []⟩, .join ⟨"host", .linked (.named "host" 4 none none), []⟩⟩

def asked : Turn := ⟨joined.after, .request (.step ⟨1⟩ .commit false ⟨[7]⟩)⟩

def answered (answer : Bytes) : Turn := ⟨asked.after, .link ⟨1⟩ (.receive answer)⟩

def looked (answer : Bytes) : Turn := ⟨(answered answer).after, .look 0⟩

theorem course (answer : Bytes) :
    Course .default [joined, asked, answered answer, looked answer] (looked answer).after := by
  have joins : Course .default [joined] joined.after := Course.joins .default "host" 4
  have asks : Course .default ([joined] ++ [asked]) asked.after := joins.next trivial
  have answers : Course .default ([joined, asked] ++ [answered answer]) (answered answer).after :=
    asks.next trivial
  have looks : Course .default ([joined, asked, answered answer] ++ [looked answer])
      (looked answer).after := answers.next trivial
  exact looks

/-- The coordinator hears of a success, and the answer reported it. -/
theorem succeeds_as_approved :
    (looked [0x14, 0, 1, 0]).result = some (.ended (.stepped none)) ∧
      ∃ slot, ∃ came ∈ [answered [0x14, 0, 1, 0]], came.Approves ⟨1⟩ slot := by
  have ended : (looked [0x14, 0, 1, 0]).result = some (.ended (.stepped none)) := rfl
  obtain ⟨link, linked⟩ : ∃ link, asked.before.client.link? ⟨1⟩ = some link := ⟨_, rfl⟩
  rcases (course [0x14, 0, 1, 0]).step_succeeds_iff (show [joined] ++ [asked] <+: _ by simp) rfl
      (by decide) linked with ⟨code, failed⟩ | ⟨slot, task, -, waits, ends⟩
  · have waits : asked.result = some (.waits 0) := rfl
    rw [waits] at failed
    cases failed
  · obtain rfl : 0 = task := TakenUp.waits.inj (Option.some.inj waits)
    have whole : [joined] ++ asked :: [answered [0x14, 0, 1, 0]] ++ [looked [0x14, 0, 1, 0]] <+:
        [joined, asked, answered [0x14, 0, 1, 0], looked [0x14, 0, 1, 0]] := by simp
    exact ⟨ended, slot, (ends _ _ _ whole rfl ended).2.mp rfl⟩

/-- A commit is reported as carried out though its answer carries the code of a rollback. -/
theorem rollback_reported_as_commit :
    Course .default [joined, asked, answered [0x14, 0, 1, 1, 100], looked [0x14, 0, 1, 1, 100]]
        (looked [0x14, 0, 1, 1, 100]).after ∧
      asked.result = some (.waits 0) ∧
      (answered [0x14, 0, 1, 1, 100]).Resolves ⟨1⟩ ⟨1, 0⟩ [0x14, 0, 1, 1, 100] ∧
      Message.decode [0x14, 0, 1, 1, 100] = .ok (.txResponse 1 (some 100)) ∧
      (XaCode.ofCode? 100).map XaCode.isRollback = some true ∧
      (looked [0x14, 0, 1, 1, 100]).result = some (.ended (.stepped none)) :=
  ⟨course _, rfl, ⟨rfl, _, 1, rfl, rfl, rfl⟩, rfl, rfl, rfl⟩

end OneCommit

end Farcall
