import Farcall.Proofs.Channel.Likeness
import Farcall.Proofs.Client.Loss
import Farcall.Proofs.Client.Residue
import Farcall.Proofs.Client.Verdicts

set_option autoImplicit false

/-!
# Votes and error codes

What a coordinator hears of a transaction step is settled by three things: what stood in the way of
its request, what resolved its slot, and whether its time was over. `Begins` says what the first of
them comes to, and `Verdict` what the other two do.
-/

namespace Farcall

/-! ## How a step begins -/

def TxStep.request (step : TxStep) (onePhase : Bool) (transaction : TransactionId) (id : UInt16) :
    Message :=
  .txRequest ⟨id, Site.txKind step onePhase, transaction⟩

theorem TxStep.isOk_request (step : TxStep) (onePhase : Bool) (transaction : TransactionId)
    (id : UInt16) : (step.request onePhase transaction id).encode.isOk = true ↔
      transaction.bytes.length < Bytes.wordBound := by
  have small : Attachments.empty.size ≤ Attachments.maxEntries := by decide
  rw [Message.isOk_encode]
  simp [request, Message.block, Message.Fits, Message.sizes, small]

/-- What a request for a step comes to: the first thing that is in its way decides, and without any
the coordinator waits. -/
inductive Begins (link : Link) (timeout : Nat) (step : TxStep) (transaction : TransactionId) :
    TakenUp → Prop
  | full (full : link.association.table.entries.size = link.association.table.limit) :
      Begins link timeout step transaction (.ended (.stepFailed ⟨.rmErr, step⟩))
  /-- The length of the transaction id cannot be written. -/
  | oversized (room : link.association.table.entries.size < link.association.table.limit)
      (long : Bytes.wordBound ≤ transaction.bytes.length) :
      Begins link timeout step transaction (.ended (.stepFailed ⟨.proto, step⟩))
  | shut (room : link.association.table.entries.size < link.association.table.limit)
      (fits : transaction.bytes.length < Bytes.wordBound)
      (shut : link.association.closed = true ∨ link.writerStopped = true) :
      Begins link timeout step transaction (.ended (.stepFailed ⟨.rmFail, step⟩))
  | expired (room : link.association.table.entries.size < link.association.table.limit)
      (fits : transaction.bytes.length < Bytes.wordBound)
      (ready : link.association.closed = false ∧ link.writerStopped = false) (elapsed : timeout = 0) :
      Begins link timeout step transaction (.ended (.stepFailed ⟨.rbTimeout, step⟩))
  | waits {number : Nat} (room : link.association.table.entries.size < link.association.table.limit)
      (fits : transaction.bytes.length < Bytes.wordBound)
      (ready : link.association.closed = false ∧ link.writerStopped = false) (time : 0 < timeout) :
      Begins link timeout step transaction (.waits number)

namespace Table

variable {table : Table LazyResult} {slot : Slot} {signals : Signals}

theorem size_of_refused (c : table.Counted) {e : CorrelationError}
    (refused : table.register.1 = .error e) : table.entries.size = table.limit := by
  by_contra other
  have room : table.outstanding < table.limit := by
    have counted := c.outstanding
    have bounded := c.bounded
    omega
  obtain ⟨id, -, registered⟩ := register_of_room c room
  rw [registered] at refused
  cases refused

theorem room_of_register (c : table.Counted) (registered : table.register.1 = .ok slot) :
    table.entries.size < table.limit := by
  by_contra other
  rw [register_of_full (by rw [c.outstanding]; omega)] at registered
  cases registered

theorem generation_of_register (registered : table.register.1 = .ok slot) :
    slot.generation = table.nextGeneration := by
  rcases register_cases table with ⟨e, refused⟩ | ⟨id, -, entered⟩
  · rw [refused] at registered
    cases registered
  · rw [entered] at registered
    rw [← Except.ok.inj registered]
    rfl

theorem Pends.beginWait (pends : table.Pends slot signals .slot) :
    (table.beginWait slot).2.Pends slot signals .wait := by
  rw [(beginWait_of_held pends.held).1]
  exact (pends.setHold .wait).1

end Table

namespace Site

variable {site : Site} {link : Link}

theorem startTransaction_of_post (on : site.On link) (timeout : Nat) (receiver : ReceiverId)
    (step : TxStep) (onePhase : Bool) (transaction : TransactionId) :
    site.startTransaction timeout receiver step onePhase transaction =
      match site.post fun id => .ok (step.request onePhase transaction id) with
      | (.error e, after) => (.ended (.stepFailed ⟨xaCode e, step⟩), after)
      | (.ok slot, after) =>
        (.running (.stepping receiver slot step) timeout, after.beginWait slot) := by
  simp only [startTransaction, startStep, Endpoint.kind_of_link on, TxStep.request]
  cases site.post fun id => .ok (.txRequest ⟨id, txKind step onePhase, transaction⟩) with
  | mk result after =>
    cases result with
    | ok slot => rfl
    | error e =>
      simp only [stepOutcome_error]
      rfl

theorem startTransaction_of_posts (on : site.On link) (timeout : Nat) (receiver : ReceiverId)
    {step : TxStep} {onePhase : Bool} {transaction : TransactionId} {id : UInt16} {frame : Bytes}
    (posts : Posts link (fun id => .ok (step.request onePhase transaction id)) id frame) :
    (site.startTransaction timeout receiver step onePhase transaction).1 =
        .running (.stepping receiver (link.association.table.enter id).1 step) timeout ∧
      ∃ behind, (site.startTransaction timeout receiver step onePhase transaction).2.On behind ∧
        behind.association.table.Pends (link.association.table.enter id).1 (.idle false) .wait := by
  rw [startTransaction_of_post on, post_of_posts on posts]
  refine ⟨rfl, _, (site.on_posted link id frame).withTable _, ?_⟩
  exact (Table.pends_enter link.association.table id).beginWait

end Site

namespace Client

variable {client : Client} {receiver : ReceiverId} {link : Link} {slot : Slot}

theorem look_step_of_pends (step : TxStep) (linked : client.link? receiver = some link)
    {signals : Signals} (pends : link.association.table.Pends slot signals .wait) (deadline : Nat) :
    client.now < deadline ∧ (client.look (.stepping receiver slot step) deadline).1 = none ∧
        client.Left receiver link client.journal
          (client.look (.stepping receiver slot step) deadline).2 ∨
      deadline ≤ client.now ∧ (client.look (.stepping receiver slot step) deadline).1 =
        some (.stepFailed ⟨.rbTimeout, step⟩) := by
  obtain ⟨site, on, noted, result, left⟩ :=
    client.look_linked (.stepping receiver slot step) deadline linked
  have nothing : link.association.table.claim slot = (none, link.association.table) :=
    Table.claim_of_empty pends.empty pends.owned
  rw [← noted]
  by_cases late : deadline ≤ client.now
  · refine .inr ⟨late, ?_⟩
    rw [result, decide_eq_true late]
    simp only [Site.look, Site.lookOnce, Site.lookFor, on.table_eq, nothing, ↓reduceIte]
    exact congrArg some (congrArg Outcome.ofStep (Site.stepOutcome_error step _))
  · have looked : site.look (.stepping receiver slot step) (decide (deadline ≤ client.now)) =
        (none, site) := by
      have same : site.withTable link.association.table = site := by
        rw [← on.table_eq]
        exact site.withTable_self
      simp only [Site.look, Site.lookOnce, Site.lookFor, on.table_eq, nothing, same,
        decide_eq_false late, Bool.false_eq_true, ↓reduceIte]
      rfl
    rw [looked] at result left
    exact .inl ⟨Nat.lt_of_not_le late, result, left link on⟩

theorem drive_cases (linked : client.link? receiver = some link) (step : TxStep) (onePhase : Bool)
    (transaction : TransactionId) :
    (∃ e, Site.Posting link (fun id => .ok (step.request onePhase transaction id)) (.error e) ∧
      (client.drive receiver step onePhase transaction).1 =
        .ended (.stepFailed ⟨Site.xaCode e, step⟩)) ∨
    ∃ id frame behind noted,
      Site.Posts link (fun id => .ok (step.request onePhase transaction id)) id frame ∧
      (client.drive receiver step onePhase transaction).1 =
        .running (.stepping receiver (link.association.table.enter id).1 step)
          client.config.transactionTimeout ∧
      client.Left receiver behind noted (client.drive receiver step onePhase transaction).2 ∧
      behind.association.table.Pends (link.association.table.enter id).1 (.idle false) .wait := by
  obtain ⟨site, on, -, result, left⟩ := visit_linked
    (.ended (.failed (.unknownReceiver receiver)))
    (fun site : Site =>
      site.startTransaction client.config.transactionTimeout receiver step onePhase transaction) linked
  have posting := Site.post_cases on fun id => .ok (step.request onePhase transaction id)
  cases given : site.post fun id => .ok (step.request onePhase transaction id) with
  | mk posted after =>
    rw [given] at posting
    cases posted with
    | error e =>
      refine .inl ⟨e, posting, result.trans ?_⟩
      rw [Site.startTransaction_of_post on, given]
    | ok slot =>
      cases posting with
      | @posted id frame posts =>
        obtain ⟨running, behind, on, pends⟩ :=
          Site.startTransaction_of_posts on client.config.transactionTimeout receiver posts
        exact .inr ⟨id, frame, behind, _, posts, result.trans running, left behind on, pends⟩

end Client

namespace Desk

variable {desk asked : Desk} {receiver : ReceiverId} {link : Link} {slot : Slot} {step : TxStep}
  {onePhase : Bool} {transaction : TransactionId} {begun : Option TakenUp}

def Cleared (desk : Desk) (receiver : ReceiverId) (generation : Nat) : Prop :=
  ∀ link, desk.client.link? receiver = some link → ¬ link.association.table.HasEntry generation

structure StepWaits (desk : Desk) (receiver : ReceiverId) (slot : Slot) (step : TxStep)
    (number deadline : Nat) : Prop where
  mem : ⟨number, .stepping receiver slot step, deadline⟩ ∈ desk.client.tasks
  pends : ∃ link, desk.client.link? receiver = some link ∧
    link.association.table.Pends slot (.idle false) .wait

theorem fits_of_written {id : UInt16} {frame : Bytes}
    (written : (step.request onePhase transaction id).encode.mapError InvocationError.protocol =
      .ok frame) : transaction.bytes.length < Bytes.wordBound := by
  refine (step.isOk_request onePhase transaction id).mp ?_
  rw [mapError_ok written]
  rfl

theorem begins_of_posting {e : InvocationError} (sound : link.association.table.Sound)
    (posting : Site.Posting link (fun id => .ok (step.request onePhase transaction id)) (.error e))
    (timeout : Nat) :
    Begins link timeout step transaction (.ended (.stepFailed ⟨Site.xaCode e, step⟩)) := by
  cases posting with
  | refused refused => exact .full (Table.size_of_refused sound.toCounted refused)
  | @unwritten id e registered unwritten =>
    have room := Table.room_of_register sound.toCounted (congrArg Prod.fst registered)
    change (step.request onePhase transaction id).encode.mapError _ = _ at unwritten
    cases written : (step.request onePhase transaction id).encode with
    | ok frame =>
      rw [written] at unwritten
      cases unwritten
    | error fault =>
      rw [written] at unwritten
      obtain rfl := Except.error.inj unwritten
      refine .oversized room (Nat.le_of_not_lt fun fits => ?_)
      have isOk := (step.isOk_request onePhase transaction id).mpr fits
      rw [written] at isOk
      cases isOk
  | @shut id frame reason registered written shut =>
    have room := Table.room_of_register sound.toCounted (congrArg Prod.fst registered)
    refine .shut room (fits_of_written written) ?_
    cases closed : link.association.closed with
    | true => exact .inl rfl
    | false => exact .inr (by simpa [closed] using shut)

theorem Ordered.step_opens (ordered : desk.Ordered) (linked : desk.client.link? receiver = some link)
    (asks : desk.act (.request (.step receiver step onePhase transaction)) = (begun, asked)) :
    (∃ outcome, begun = some (.ended outcome) ∧ ¬ outcome.GoesOn ∧
      Begins link desk.client.config.transactionTimeout step transaction (.ended outcome)) ∨
    ∃ slot number, begun = some (.waits number) ∧
      Begins link desk.client.config.transactionTimeout step transaction (.waits number) ∧
      link.association.table.register.1 = .ok slot ∧
      asked.StepWaits receiver slot step number
        (desk.client.now + desk.client.config.transactionTimeout) := by
  have sound := (ordered.fit.fits receiver link linked).sound
  change takeUp desk.held (desk.client.drive receiver step onePhase transaction) = _ at asks
  rcases desk.client.drive_cases linked step onePhase transaction with
    ⟨e, posting, failed⟩ | ⟨id, frame, behind, noted, posts, running, left, pends⟩
  · rw [takeUp, failed] at asks
    obtain ⟨rfl, -⟩ := Prod.mk.inj asks
    exact .inl ⟨_, rfl, Outcome.Fails.not_goesOn trivial, begins_of_posting sound posting _⟩
  · have registered := congrArg Prod.fst posts.registered
    have room := Table.room_of_register sound.toCounted registered
    have fits := fits_of_written posts.written
    have ready := And.intro posts.isOpen posts.writes
    generalize desk.client.drive receiver step onePhase transaction = started at asks running left
    obtain ⟨start, client⟩ := started
    obtain rfl : start = _ := running
    dsimp only at left
    have looked := Client.look_step_of_pends step left.link pends
      (client.now + desk.client.config.transactionTimeout)
    -- the desk looks at the step at once, so a step without any time is over here
    rcases client.takeUp_running (.stepping receiver _ step) desk.client.config.transactionTimeout with
      ⟨outcome, ended, taken⟩ | ⟨waiting, taken⟩
    · rw [takeUp, taken] at asks
      obtain ⟨rfl, -⟩ := Prod.mk.inj asks
      rcases looked with ⟨-, waiting, -⟩ | ⟨late, fails⟩
      · rw [waiting] at ended
        cases ended
      · obtain rfl := Option.some.inj (ended.symm.trans fails)
        exact .inl ⟨_, rfl, Outcome.Fails.not_goesOn trivial, .expired room fits ready (by omega)⟩
    · rw [takeUp, taken] at asks
      obtain ⟨rfl, rfl⟩ := Prod.mk.inj asks
      rcases looked with ⟨time, -, behind'⟩ | ⟨-, fails⟩
      · refine .inr ⟨_, _, rfl, .waits room fits ready (by omega), registered, ?_, _,
          behind'.link, pends⟩
        rw [← left.now]
        exact List.mem_append_right _ (List.mem_singleton_self _)
      · rw [waiting] at fails
        cases fails

theorem Ordered.cleared_of_request (ordered : desk.Ordered)
    (linked : desk.client.link? receiver = some link)
    (asks : desk.act (.request (.step receiver step onePhase transaction)) = (begun, asked))
    {outcome : Outcome} (ended : begun = some (.ended outcome)) (stops : ¬ outcome.GoesOn) :
    asked.Cleared receiver link.association.table.nextGeneration := by
  have sound := (ordered.fit.fits receiver link linked).sound
  have opened : Opened ⟨desk, .request (.step receiver step onePhase transaction)⟩ receiver link
      (desk.client.drive receiver step onePhase transaction).1 := by
    refine opened_of_begun (.step receiver step onePhase transaction) ?_ linked ?_ ?_
    · exact Client.visit_at fun _ _ linked => linked.startTransaction _ _ _ _ _
    · exact Request.begun_of_reaches rfl linked sound
    · exact ((desk.client.asked_start _).fit ordered.fit).fit
  have result : Turn.result ⟨desk, .request (.step receiver step onePhase transaction)⟩ =
      some (.ended outcome) := (congrArg Prod.fst asks).trans ended
  obtain rfl : Turn.after ⟨desk, .request (.step receiver step onePhase transaction)⟩ = asked :=
    congrArg Prod.snd asks
  intro behind left stands
  cases opened with
  | refused same returned fails =>
    obtain rfl := Option.some.inj (linked.symm.trans ((same receiver).symm.trans left))
    obtain ⟨id, entry, found, own⟩ := stands
    exact absurd (sound.fresh id entry found) (own ▸ Nat.lt_irrefl _)
  | withdrawn own registers unsent returned fails =>
    obtain rfl := Option.some.inj (own.left.symm.trans left)
    rw [← Table.generation_of_register registers.1] at stands
    exact own.cleared outcome result stops stands
  | sent own registers sent begun waits =>
    obtain rfl := Option.some.inj (own.left.symm.trans left)
    rw [← Table.generation_of_register registers.1] at stands
    exact own.cleared outcome result stops stands

theorem Ordered.cleared_of_look (ordered : desk.Ordered) {task : Task}
    (found : desk.client.tasks.find? (·.number = task.number) = some task)
    (linked : desk.client.link? task.work.receiver = some link) {outcome : Outcome}
    (ended : (desk.act (.look task.number)).1 = some (.ended outcome)) (stops : ¬ outcome.GoesOn) :
    (desk.act (.look task.number)).2.Cleared task.work.receiver task.work.slot.generation := by
  intro behind left
  obtain ⟨link, behind', own, -⟩ := ordered.looks found (by rw [linked]; rfl)
  obtain rfl := Option.some.inj (own.left.symm.trans left)
  exact own.cleared outcome ended stops

end Desk

/-! ## Looks at a step -/

/-- What a look at a task of a step comes to: its one outcome, or the wait goes on. -/
structure Desk.Reports (desk : Desk) (number : Nat) (step : TxStep) (resolved : Word → Prop)
    (late : Prop) : Prop where
  ended : ∀ outcome, (desk.act (.look number)).1 = some (.ended outcome) ↔
    Verdict step resolved late outcome
  waits : (desk.act (.look number)).1 = some (.waits number) ↔ (∀ word, ¬ resolved word) ∧ ¬ late

namespace Desk

variable {desk : Desk} {receiver : ReceiverId} {link : Link} {slot : Slot} {step : TxStep}
  {number deadline : Nat} {resolved : Word → Prop}

theorem Ordered.reports_of_silent (ordered : desk.Ordered)
    (mem : ⟨number, .stepping receiver slot step, deadline⟩ ∈ desk.client.tasks)
    (linked : desk.client.link? receiver = some link) {signals : Signals}
    (pends : link.association.table.Pends slot signals .wait) (silent : ∀ word, ¬ resolved word) :
    desk.Reports number step resolved (deadline ≤ desk.client.now) := by
  have found := ordered.find_of_mem mem
  have looked := Client.look_step_of_pends step linked pends deadline
  cases given : desk.client.look (.stepping receiver slot step) deadline with
  | mk result after =>
    rw [given] at looked
    rcases looked with ⟨time, waiting, -⟩ | ⟨elapsed, fails⟩
    · obtain rfl : result = none := waiting
      have acted : (desk.act (.look number)).1 = some (.waits number) :=
        congrArg Prod.fst (look_of_waits found given)
      refine ⟨fun outcome => ?_, ?_⟩
      · rw [acted, Verdict.iff_of_silent silent]
        exact iff_of_false nofun fun either => Nat.not_le_of_lt time either.1
      · exact iff_of_true acted ⟨silent, Nat.not_le_of_lt time⟩
    · obtain rfl : result = some _ := fails
      have acted : (desk.act (.look number)).1 =
          some (.ended (.stepFailed ⟨.rbTimeout, step⟩)) :=
        congrArg Prod.fst (look_of_ended found given)
      refine ⟨fun outcome => ?_, ?_⟩
      · rw [acted, Verdict.iff_of_silent silent]
        constructor
        · rintro ⟨⟩
          exact ⟨elapsed, rfl⟩
        · rintro ⟨-, rfl⟩
          rfl
      · rw [acted]
        exact iff_of_false nofun fun either => either.2 elapsed

theorem Ordered.reports_of_word (ordered : desk.Ordered)
    (mem : ⟨number, .stepping receiver slot step, deadline⟩ ∈ desk.client.tasks)
    (linked : desk.client.link? receiver = some link) {word : Word}
    (arrived : link.association.table.arrival? slot = some word.delivery)
    (came : ∀ w, resolved w ↔ w = word) :
    desk.Reports number step resolved (deadline ≤ desk.client.now) := by
  have acted : (desk.act (.look number)).1 = some (.ended (word.verdict step)) :=
    ordered.act_look_of_arrived mem linked arrived
  refine ⟨fun outcome => ?_, ?_⟩
  · rw [acted, Verdict.iff_of_word came]
    constructor
    · rintro ⟨⟩
      rfl
    · rintro rfl
      rfl
  · rw [acted]
    exact iff_of_false nofun fun either => either.1 word ((came word).mpr rfl)

end Desk

/-! ## Steps over a passage -/

namespace Passage

variable {desk asked later : Desk} {earlier between : List Scene} {receiver : ReceiverId}
  {link : Link} {slot : Slot} {step : TxStep} {onePhase : Bool} {transaction : TransactionId}
  {number deadline : Nat} {begun : Option TakenUp}

theorem reports (passage : Passage asked between later) (ordered : asked.Ordered)
    (waits : asked.StepWaits receiver slot step number deadline)
    (there : ⟨number, .stepping receiver slot step, deadline⟩ ∈ later.client.tasks) :
    later.Reports number step (fun word => ∃ scene ∈ between, scene.Resolves receiver slot word)
      (deadline ≤ later.client.now) := by
  obtain ⟨mem, link, linked, pends⟩ := waits
  obtain ⟨behind, heard, left, hears, resolves⟩ := passage.heard ordered mem there linked pends
  have ordered := passage.ordered ordered
  cases hears with
  | nothing pends =>
    exact ordered.reports_of_silent there left pends fun word came => nomatch (resolves word).mp came
  | word arrived =>
    refine ordered.reports_of_word there left arrived fun w => (resolves w).trans ?_
    rw [Option.some.injEq, eq_comm]

/-- A step fails at once for the first thing in its way, or it is waited for. Wherever a passage leads
from there, a look at it reports the verdict on what resolved its slot on the way. A step that came
to an end leaves no entry of its registration. -/
theorem step_verdict {config : Config} (passage : Passage ⟨.ofConfig config, []⟩ earlier desk)
    (linked : desk.client.link? receiver = some link)
    (asks : desk.act (.request (.step receiver step onePhase transaction)) = (begun, asked)) :
    (∃ taken, begun = some taken ∧
      Begins link desk.client.config.transactionTimeout step transaction taken) ∧
    (∀ outcome, begun = some (.ended outcome) →
      asked.Cleared receiver link.association.table.nextGeneration) ∧
    ∀ number between later, begun = some (.waits number) → Passage asked between later →
      (∃ scene ∈ between, scene.Ends number) ∧ (later.act (.look number)).1 = none ∨
      ∃ slot, link.association.table.register.1 = .ok slot ∧
        later.Reports number step (fun word => ∃ scene ∈ between, scene.Resolves receiver slot word)
          (desk.client.now + desk.client.config.transactionTimeout ≤ later.client.now) ∧
        ∀ outcome, (later.act (.look number)).1 = some (.ended outcome) →
          (later.act (.look number)).2.Cleared receiver slot.generation := by
  have ordered := passage.ordered (Desk.ordered_fresh config)
  have asked_ordered : asked.Ordered := by
    have follows := ordered.follows_act
      (show desk.Allowed (.request (.step receiver step onePhase transaction)) from trivial)
    rw [asks] at follows
    exact follows.ordered
  rcases ordered.step_opens linked asks with
    ⟨outcome, rfl, stops, begins⟩ | ⟨slot, number, rfl, begins, registered, waits⟩
  · refine ⟨⟨_, rfl, begins⟩, fun _ _ => ordered.cleared_of_request linked asks rfl stops, ?_⟩
    exact fun _ _ _ same => nomatch same
  · refine ⟨⟨_, rfl, begins⟩, fun _ same => (nomatch same), ?_⟩
    rintro number between later ⟨⟩ passage
    rcases passage.find_task asked_ordered waits.mem with ⟨gone, ends⟩ | found
    · exact .inl ⟨ends, congrArg Prod.fst (Desk.look_of_gone gone)⟩
    · have reports := passage.reports asked_ordered waits (List.mem_of_find?_eq_some found)
      refine .inr ⟨slot, registered, reports, fun outcome ended => ?_⟩
      have stops : ¬ outcome.GoesOn := by
        cases (reports.ended outcome).mp ended <;> exact nofun
      obtain ⟨before, before_linked, -⟩ := waits.pends
      obtain ⟨behind, left, -⟩ := (passage.grows asked_ordered).leads receiver before before_linked
      exact (passage.ordered asked_ordered).cleared_of_look found left ended stops

end Passage

/-! ## One prepare -/

namespace OnePrepare

def fresh : Desk := ⟨.ofConfig .default, []⟩

def join : Incident := .move (.join ⟨"host", .linked (.named "host" 4 none none), []⟩)

def joined : Desk := fresh.meet join

def asked : Option TakenUp × Desk := joined.act (.request (.step ⟨1⟩ .prepare false ⟨[7]⟩))

/-- A stream that brings the vote of a branch that changed nothing, and that may fail to close. -/
def vote (fault : Option IoFault) : Input :=
  { Input.ofBytes [0x14, 0, 1, 1, 3] with closeFault := fault }

def answer (fault : Option IoFault) : Scene := ⟨asked.2, .arrives ⟨1⟩ (vote fault)⟩

theorem joins : Passage fresh [⟨fresh, join⟩] joined := by
  have joins : fresh.Admits join := by
    intro link linked
    obtain rfl := Option.some.inj linked
    exact ⟨⟨4, [], .start⟩, rfl⟩
  exact Passage.stay.next joins

theorem answers (fault : Option IoFault) : Passage asked.2 [answer fault] (answer fault).after := by
  have arrives : asked.2.Admits (.arrives ⟨1⟩ (vote fault)) := trivial
  exact Passage.stay.next arrives

/-- The coordinator hears the vote, and the answer resolved its slot with it. If the answer does not
close, the vote is lost. -/
theorem step_verdict_of_vote :
    ((answer none).after.act (.look 0)).1 = some (.ended (.stepped (some .readOnly))) ∧
      (∃ slot late, Verdict .prepare (fun word => ∃ scene ∈ [answer none],
        scene.Resolves ⟨1⟩ slot word) late (.stepped (some .readOnly))) ∧
      ((answer (some ⟨.brokenPipe, "gone"⟩)).after.act (.look 0)).1 =
        some (.ended (.stepFailed ⟨.rmErr, .prepare⟩)) := by
  have ended : ((answer none).after.act (.look 0)).1 =
      some (.ended (.stepped (some .readOnly))) := rfl
  have asks : joined.act (.request (.step ⟨1⟩ .prepare false ⟨[7]⟩)) = (some (.waits 0), asked.2) :=
    rfl
  obtain ⟨link, linked⟩ : ∃ link, joined.client.link? ⟨1⟩ = some link := ⟨_, rfl⟩
  obtain ⟨-, -, looks⟩ := joins.step_verdict linked asks
  rcases looks 0 _ _ rfl (answers none) with ⟨-, gone⟩ | ⟨slot, -, reports, -⟩
  · rw [ended] at gone
    cases gone
  · exact ⟨ended, ⟨slot, _, (reports.ended _).mp ended⟩, rfl⟩

end OnePrepare

end Farcall
