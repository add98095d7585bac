import Farcall.Proofs.Client.Awaiting
import Farcall.Proofs.Correlation.Allocation
import Farcall.Proofs.Value.Payloads

set_option autoImplicit false

/-!
# Calls as the host sees them

A call that is carried to a host arrives as it was made: the request names what was called, it holds
the arguments, and its attachments are what the interceptors left of them. And what the host answers
to it is what the caller gets, whatever else is going on.
-/

namespace Farcall

/-! ## Interceptors that edit attachments -/

/-- Each of the interceptors edits the attachments of an invocation, one after the other, and does
nothing else to it. -/
inductive Interceptor.Edits (invocation : Invocation) :
    List Interceptor → Attachments → Journal → Attachments → Journal → Prop
  | nil (block : Attachments) (journal : Journal) : Edits invocation [] block journal block journal
  | cons {i : Interceptor} {rest : List Interceptor} {block edited last : Attachments}
      {journal noted final : Journal}
      (edits : i.before { invocation with attachments := block } journal =
        (.ok { invocation with attachments := edited }, noted))
      (others : Edits invocation rest edited noted last final) :
      Edits invocation (i :: rest) block journal last final

theorem Interceptor.Edits.beforeSend {invocation : Invocation} {interceptors : List Interceptor}
    {block last : Attachments} {journal final : Journal}
    (edits : Edits invocation interceptors block journal last final) :
    Interceptor.beforeSend interceptors { invocation with attachments := block } journal =
      (.ok { invocation with attachments := last }, final) := by
  induction edits with
  | nil => rfl
  | cons edits _ ih =>
    rw [Interceptor.beforeSend, edits]
    exact ih

theorem Attachments.empty_merge (block : Attachments) : empty.merge block = block :=
  empty_putAll block

/-! ## Requests -/

def Proxy.requestFor (proxy : Proxy) (method : Method) (id : UInt16) (block : Attachments)
    (payload : Bytes) : InvocationRequest where
  id := id
  module := proxy.locator.module.toTriple
  bean := proxy.locator.bean
  view := proxy.locator.view
  method := method.name
  signature := method.params
  session := proxy.locator.session
  payload := payload
  attachments := block

/-- All that a call announces by its size fits into 32 bits. -/
structure CallFits (arguments : List Value) (request : Bytes → InvocationRequest) : Prop where
  payload : ∀ size ∈ Payload.sizes arguments, size < Bytes.wordBound
  message : ∀ payload, Payload.encodeArguments arguments = .ok payload →
    (Message.invocationRequest (request payload)).Fits

theorem isOk_iff {ε α : Type} {result : Except ε α} : result.isOk = true ↔ ∃ a, result = .ok a := by
  cases result with
  | error e => exact iff_of_false nofun (by rintro ⟨a, same⟩; cases same)
  | ok a => exact iff_of_true rfl ⟨a, rfl⟩

theorem Payload.exists_arguments {arguments : List Value}
    (plain : ∀ value ∈ arguments, value.asProxy? = none) :
    (∃ payload, encodeArguments arguments = .ok payload) ↔
      ∀ size ∈ sizes arguments, size < Bytes.wordBound := by
  have all : arguments.all (·.asProxy?.isNone) = true := by
    rw [List.all_eq_true]
    intro value mem
    rw [plain value mem]
    rfl
  rw [← isOk_iff, isOk_arguments, all, Bool.true_and, announced, List.all_eq_true]
  simp only [decide_eq_true_iff]

section written

variable {proxy : Proxy} {method : Method} {arguments : List Value} {block : Attachments}
  {receiver : ReceiverId} {id : UInt16} {frame : Bytes}

def Proxy.written (proxy : Proxy) (method : Method) (arguments : List Value) (receiver : ReceiverId)
    (block : Attachments) (id : UInt16) : Except InvocationError Bytes := do
  (← Site.requestFor { Invocation.ofCall proxy.locator method arguments receiver with
    attachments := block } id).encode.mapError InvocationError.protocol

theorem Site.requestFor_ofCall (proxy : Proxy) (method : Method) (arguments : List Value)
    (receiver : ReceiverId) (block : Attachments) (id : UInt16) :
    requestFor { Invocation.ofCall proxy.locator method arguments receiver with
        attachments := block } id =
      (Payload.encodeArguments arguments).mapError InvocationError.codec >>= fun payload =>
        pure (.invocationRequest (proxy.requestFor method id block payload)) := rfl

theorem Proxy.written_iff : proxy.written method arguments receiver block id = .ok frame ↔
    ∃ payload, Payload.encodeArguments arguments = .ok payload ∧
      (Message.invocationRequest (proxy.requestFor method id block payload)).encode = .ok frame := by
  rw [written, Site.requestFor_ofCall]
  constructor
  · intro given
    obtain ⟨message, made, sent⟩ := of_bind_eq_ok given
    obtain ⟨payload, encoded, made⟩ := of_bind_eq_ok made
    obtain rfl := Except.ok.inj made
    exact ⟨payload, mapError_ok encoded, mapError_ok sent⟩
  · rintro ⟨payload, encoded, message⟩
    rw [encoded]
    exact congrArg (Except.mapError InvocationError.protocol) message

theorem Proxy.exists_written (plain : ∀ value ∈ arguments, value.asProxy? = none)
    (few : block.size ≤ Attachments.maxEntries) :
    (∃ frame, proxy.written method arguments receiver block id = .ok frame) ↔
      CallFits arguments (proxy.requestFor method id block) := by
  constructor
  · rintro ⟨frame, written⟩
    obtain ⟨payload, encoded, message⟩ := written_iff.mp written
    refine ⟨(Payload.exists_arguments plain).mp ⟨payload, encoded⟩, ?_⟩
    intro payload' encoded'
    obtain rfl := Except.ok.inj (encoded.symm.trans encoded')
    exact ((Message.isOk_encode _).mp (isOk_iff.mpr ⟨frame, message⟩)).2
  · intro fits
    obtain ⟨payload, encoded⟩ := (Payload.exists_arguments plain).mpr fits.payload
    obtain ⟨frame, message⟩ := isOk_iff.mp
      ((Message.isOk_encode (.invocationRequest (proxy.requestFor method id block payload))).mpr
        ⟨few, fits.message payload encoded⟩)
    exact ⟨frame, written_iff.mpr ⟨payload, encoded, message⟩⟩

end written

/-! ## Sending a call -/

theorem Endpoint.shown_ofCall {endpoint : Endpoint} {link : Link}
    (linked : endpoint.link? = some link) (locator : Locator) (method : Method)
    (arguments : List Value) (receiver : ReceiverId) :
    endpoint.shown (.ofCall locator method arguments receiver) =
      { Invocation.ofCall locator method arguments receiver with
        attachments := Attachments.empty.put AttachmentKey.sessionAffinity.code
          (Bytes.ofText endpoint.name) } := by
  have own : endpoint.ownAttachments = Attachments.empty.put AttachmentKey.sessionAffinity.code
      (Bytes.ofText endpoint.name) := by
    rw [ownAttachments, kind_of_link linked]
  rw [shown, own]
  exact congrArg (fun attachments => { Invocation.ofCall locator method arguments receiver with
    attachments }) (Attachments.empty_merge _)

namespace Desk

variable {desk : Desk} {proxy : Proxy} {method : Method} {arguments : List Value}
  {receiver : ReceiverId} {endpoint : Endpoint} {link : Link} {block : Attachments}
  {noted : Journal} {id : UInt16} {frame : Bytes}

/-- A call goes to an open channel that has capacity left, and none of its arguments is a proxy. -/
structure Carriable (desk : Desk) (proxy : Proxy) (method : Method) (arguments : List Value)
    (receiver : ReceiverId) (endpoint : Endpoint) (link : Link) : Prop
    extends desk.Remote proxy method arguments receiver endpoint link where
  plain : ∀ value ∈ arguments, value.asProxy? = none
  isOpen : link.association.closed = false
  writes : link.writerStopped = false
  room : link.association.table.outstanding < link.association.table.limit

/-- The interceptors edit the attachments of a call, which begin with the one of its endpoint. -/
def EditsCall (desk : Desk) (proxy : Proxy) (method : Method) (arguments : List Value)
    (receiver : ReceiverId) (endpoint : Endpoint) (block : Attachments) (noted : Journal) : Prop :=
  Interceptor.Edits (.ofCall proxy.locator method arguments receiver) endpoint.interceptors
    (Attachments.empty.put AttachmentKey.sessionAffinity.code (Bytes.ofText endpoint.name))
    desk.client.journal block noted

/-- One frame was queued. It is the request of the call, and the arguments are read back from it. -/
def Carried (desk : Desk) (arguments : List Value) (receiver : ReceiverId) (link : Link)
    (request : Bytes → InvocationRequest) : Prop :=
  ∃ behind frame payload, desk.client.link? receiver = some behind ∧
    behind.outbound = link.outbound ++ [frame] ∧
    Message.decode frame = .ok (.invocationRequest (request payload)) ∧
    Payload.decodeArguments payload = .ok arguments

theorem Remote.sends_iff (remote : desk.Remote proxy method arguments receiver endpoint link)
    (edits : desk.EditsCall proxy method arguments receiver endpoint block noted)
    {seen : Invocation} {noted' : Journal} :
    endpoint.Sends link (.ofCall proxy.locator method arguments receiver) desk.client.journal seen
        noted' id frame ↔
      seen = { Invocation.ofCall proxy.locator method arguments receiver with attachments := block } ∧
      noted' = noted ∧ Site.Posts link (Site.requestFor seen) id frame := by
  have passes := edits.beforeSend
  rw [← Endpoint.shown_ofCall remote.linked] at passes
  constructor
  · intro sends
    have same := passes.symm.trans sends.passes
    obtain ⟨first, rfl⟩ := Prod.mk.inj same
    exact ⟨(Except.ok.inj first).symm, rfl, sends.posts⟩
  · rintro ⟨rfl, rfl, posts⟩
    exact ⟨passes, posts⟩

theorem Remote.refused (remote : desk.Remote proxy method arguments receiver endpoint link)
    (sound : link.association.table.Sound)
    (nothing : ∀ seen noted id frame, ¬ endpoint.Sends link
      (.ofCall proxy.locator method arguments receiver) desk.client.journal seen noted id frame)
    (mode : Mode) : ∃ e behind,
      (desk.act (.request (.call proxy method arguments mode))).1 = some (.ended (.failed e)) ∧
      (desk.act (.request (.call proxy method arguments mode))).2.client.link? receiver =
        some behind ∧ behind.outbound = link.outbound := by
  rcases Site.startCall_cases remote.on (.ofCall proxy.locator method arguments receiver) with
    ⟨seen, noted, id, frame, sends⟩ | ⟨e, after, failed⟩
  · exact absurd sends (nothing seen noted id frame)
  · have dispatched := Client.dispatch_of_remote remote.unanswered remote.resolved mode
    have begun : ∃ behind,
        (desk.client.dispatch proxy method arguments mode).2.link? receiver = some behind ∧
          Site.Begun receiver link (desk.client.dispatch proxy method arguments mode).1 behind := by
      rw [dispatched]
      exact Client.visit_on remote.link_of_remote fun _ on => Site.startCall_spec on sound _ _ _
    have ended : (desk.client.dispatch proxy method arguments mode).1 = .ended (.failed e) := by
      rw [dispatched, Client.visit_of_there remote.there, failed]
    obtain ⟨behind, left, begun⟩ := begun
    rw [act_call]
    generalize desk.client.dispatch proxy method arguments mode = started at left begun ended
    obtain ⟨start, client⟩ := started
    obtain rfl : start = _ := ended
    refine ⟨e, behind, rfl, left, ?_⟩
    cases begun with
    | refused fails => rfl
    | withdrawn registered works gone fails => rfl
    | left registered works goesOn leaves isOpen => exact goesOn.elim

end Desk

/-! ## The answer -/

theorem AnswerKind.gives_response (kind : AnswerKind) (id id' : UInt16) (tail : ResponseTail) :
    (kind.message id).Gives fun message => message = .invocationResponse id' tail → id = id' := by
  cases kind with
  | session | failure | transaction =>
    exact Decoder.Gives.bind (Decoder.gives_of_forall _ fun _ same => by cases same)
  | response =>
    refine Decoder.Gives.bind (Decoder.gives_of_forall _ fun tail' same => ?_)
    exact (Message.invocationResponse.inj same).1

theorem answeredId_of_response {id : UInt16} {tail : ResponseTail} {bytes : Bytes}
    (given : Message.decode bytes = .ok (.invocationResponse id tail)) :
    answeredId? bytes = some id := by
  have read := Message.run_of_decode given
  rw [Route.message_eq] at read
  obtain ⟨route, middle, first, completed⟩ := Decoder.of_run_bind read
  have named := Route.named_of_run first
  cases route with
  | foreign header =>
    have own : Header.invocationResponse = header :=
      (Message.gives_bodyDecoder header).of_run completed
    rw [← own] at named
    cases named.2
  | answer kind id' =>
    rw [(kind.gives_response id' id tail).of_run completed rfl] at named
    exact named.1
  | announcement news => cases completed
  | notification id' => cases completed

theorem LazyResult.Of.read_value {id : UInt16} {payload bytes : Bytes} {attachments : Attachments}
    {value : Value} {result : LazyResult} (of : result.Of bytes)
    (encoded : Payload.encodeResult value = .ok payload)
    (given : Message.decode bytes = .ok (.invocationResponse id ⟨payload, attachments⟩)) :
    result.read.1 = .ok value := by
  rw [of.read, Message.run_of_decode given]
  change (Payload.decodeResult payload).mapError InvocationError.codec = .ok value
  rw [Payload.decodeResult_of_encode encoded]
  rfl

theorem Future.receive_plain (call : Future) (plain : call.interceptors = []) (journal : Journal)
    (result : LazyResult) : (call.receive journal (.ok result)).1 = result.read.1 := by
  simp only [receive, plain, Interceptor.afterResult, List.foldr_nil]

namespace Course

variable {config : Config} {first between later : List Turn} {desk : Desk}
  {asked answering : Turn} {task : Task} {call : Future} {link : Link} {value : Value}
  {payload bytes : Bytes} {attachments : Attachments}

/-- A caller without interceptors gets the value that the host answers with in time. -/
theorem returns_value
    (course : Course config (first ++ asked :: (between ++ answering :: later)) desk)
    (begun : asked.after.Awaits task call link) (plain : call.interceptors = [])
    (spares : ∀ turn ∈ between, turn.move.Spares call.receiver call.slot.id ∧
      turn.move ≠ .abort task.number)
    (comes : answering.move = .link call.receiver (.receive bytes))
    (time : answering.before.client.now < task.deadline)
    (encoded : Payload.encodeResult value = .ok payload)
    (written : (Message.invocationResponse call.slot.id ⟨payload, attachments⟩).encode = .ok bytes)
    (spared : ∀ turn ∈ later, turn.move ≠ .look task.number ∧ turn.move ≠ .abort task.number) :
    (desk.act (.look task.number)).1 = some (.ended (.value value)) := by
  have course : Course config ((first ++ asked :: between) ++ answering :: later) desk := by
    simpa using course
  obtain ⟨run, -⟩ := course.of_prefix ⟨later, List.append_assoc _ [answering] later⟩
  obtain ⟨middle, awaits⟩ := run.awaits begun spares time
  have decoded := Message.decode_of_encode written
  have resolves : answering.Resolves call.receiver call.slot bytes :=
    ⟨comes, middle, call.slot.id, awaits.linked, answeredId_of_response decoded, awaits.pends.owner⟩
  have mem : task ∈ answering.after.client.tasks := by
    refine Desk.mem_tasks_act awaits.mem ?_
    rw [comes]
    exact ⟨nofun, nofun⟩
  have mem := course.mem_tasks mem spared
  obtain ⟨behind, left, -⟩ := course.grows_from.leads call.receiver middle awaits.linked
  have stands := (course.ordered.fit.fits _ behind left).stands task.work.place
    (List.mem_append_left _ (List.mem_map_of_mem mem)) (by rw [awaits.work]; rfl)
  rw [awaits.work] at stands
  have held : behind.association.table.holder? call.slot = some .slot := stands
  obtain ⟨result, of, arrived⟩ := course.arrival_of_resolves (List.mem_cons_self ..) resolves left
    (Table.read_of_holder held nofun)
  have ended := course.ordered.act_look_of_arrived mem (by rw [awaits.work]; exact left)
    (by rw [awaits.work]; exact arrived)
  rw [ended, awaits.work]
  change some (TakenUp.ended (.ofResult (call.receive _ (.ok result)).1)) = _
  rw [call.receive_plain plain, of.read_value encoded decoded]
  rfl

end Course

/-! ## Calls -/

def Turn.Answers (turn : Turn) (receiver : ReceiverId) (id : UInt16) (value : Value) : Prop :=
  ∃ payload attachments bytes, turn.move = .link receiver (.receive bytes) ∧
    Payload.encodeResult value = .ok payload ∧
    (Message.invocationResponse id ⟨payload, attachments⟩).encode = .ok bytes

namespace Desk.Carriable

variable {desk : Desk} {proxy : Proxy} {method : Method} {arguments : List Value}
  {receiver : ReceiverId} {endpoint : Endpoint} {link : Link} {block : Attachments}
  {noted : Journal} {id : UInt16} {frame : Bytes}

theorem sends (call : desk.Carriable proxy method arguments receiver endpoint link)
    (edits : desk.EditsCall proxy method arguments receiver endpoint block noted)
    (registered : link.association.table.register =
      (.ok (link.association.table.enter id).1, (link.association.table.enter id).2))
    (written : proxy.written method arguments receiver block id = .ok frame) :
    endpoint.Sends link (.ofCall proxy.locator method arguments receiver) desk.client.journal
      { Invocation.ofCall proxy.locator method arguments receiver with attachments := block } noted
      id frame :=
  (call.toRemote.sends_iff edits).mpr
    ⟨rfl, rfl, ⟨registered, written, call.isOpen, call.writes⟩⟩

theorem carried (call : desk.Carriable proxy method arguments receiver endpoint link)
    (edits : desk.EditsCall proxy method arguments receiver endpoint block noted)
    (registered : link.association.table.register =
      (.ok (link.association.table.enter id).1, (link.association.table.enter id).2))
    (written : proxy.written method arguments receiver block id = .ok frame) (mode : Mode) :
    (desk.act (.request (.call proxy method arguments mode))).2.Carried arguments receiver link
      (proxy.requestFor method id block) := by
  obtain ⟨table, behind, -⟩ := call.link_act (call.sends edits registered written) mode
  obtain ⟨payload, encoded, message⟩ := Proxy.written_iff.mp written
  exact ⟨_, frame, payload, behind, rfl, Message.decode_of_encode message,
    Payload.decodeArguments_of_encode encoded⟩

theorem refused (call : desk.Carriable proxy method arguments receiver endpoint link)
    (edits : desk.EditsCall proxy method arguments receiver endpoint block noted)
    (sound : link.association.table.Sound)
    (registered : link.association.table.register =
      (.ok (link.association.table.enter id).1, (link.association.table.enter id).2))
    (unwritten : ∀ frame, proxy.written method arguments receiver block id ≠ .ok frame)
    (mode : Mode) : ∃ e behind,
      (desk.act (.request (.call proxy method arguments mode))).1 = some (.ended (.failed e)) ∧
      (desk.act (.request (.call proxy method arguments mode))).2.client.link? receiver =
        some behind ∧ behind.outbound = link.outbound := by
  refine call.toRemote.refused sound ?_ mode
  intro seen noted' id' frame sends
  obtain ⟨rfl, rfl, posts⟩ := (call.toRemote.sends_iff edits).mp sends
  have same := congrArg Prod.fst (registered.symm.trans posts.registered)
  obtain rfl : id = id' := congrArg Slot.id (Except.ok.inj same)
  exact unwritten frame posts.written

theorem awaits (call : desk.Carriable proxy method arguments receiver endpoint link)
    (edits : desk.EditsCall proxy method arguments receiver endpoint block noted)
    (registered : link.association.table.register =
      (.ok (link.association.table.enter id).1, (link.association.table.enter id).2))
    (written : proxy.written method arguments receiver block id = .ok frame)
    (time : 0 < desk.client.config.invocationTimeout) : ∃ task future behind,
      (desk.act (.request (.call proxy method arguments .sync))).1 = some (.waits task.number) ∧
      (desk.act (.request (.call proxy method arguments .sync))).2.Awaits task future behind ∧
      task.deadline = desk.client.now + desk.client.config.invocationTimeout ∧
      future.receiver = receiver ∧ future.slot = (link.association.table.enter id).1 ∧
      future.interceptors = endpoint.interceptors := by
  have sends := call.sends edits registered written
  obtain ⟨behind, ⟨-, left, given⟩ | ⟨none, -, -⟩⟩ := call.act_sync sends
  · rw [given]
    let future := endpoint.calling link desk.client.config.invocationTimeout
      (.ofCall proxy.locator method arguments receiver)
      { Invocation.ofCall proxy.locator method arguments receiver with attachments := block } id
    refine ⟨⟨behind.nextTask, .reply future, _⟩, future, _, rfl, ⟨?_, rfl, left.link, ?_⟩, rfl,
      rfl, rfl, rfl⟩
    · exact List.mem_append_right _ (List.mem_singleton_self _)
    · exact (Table.pends_enter link.association.table id).resignal .attend
  · exact absurd time (none ▸ Nat.lt_irrefl 0)

end Desk.Carriable

namespace Course

variable {config : Config} {first : List Turn} {before : Desk} {proxy : Proxy} {method : Method}
  {arguments : List Value} {receiver : ReceiverId} {endpoint : Endpoint} {link : Link}
  {block : Attachments} {noted : Journal}

/-- A call that fits leaves one frame in the queue, and its host reads from it what was called, with
the arguments and what the interceptors made of the attachments; if it does not fit it fails and
leaves none. What the host answers in time is what a waiting caller without interceptors gets,
whatever the host says about other calls and whatever else is done before that or after it. -/
theorem call_transparent (course : Course config first before)
    (call : before.Carriable proxy method arguments receiver endpoint link)
    (edits : before.EditsCall proxy method arguments receiver endpoint block noted)
    (few : block.size ≤ Attachments.maxEntries) :
    ∃ slot, link.association.table.register.1 = .ok slot ∧
    (CallFits arguments (proxy.requestFor method slot.id block) →
      (∀ mode, (before.act (.request (.call proxy method arguments mode))).2.Carried arguments
        receiver link (proxy.requestFor method slot.id block)) ∧
      (endpoint.interceptors = [] → 0 < before.client.config.invocationTimeout →
        ∃ task, (before.act (.request (.call proxy method arguments .sync))).1 = some (.waits task) ∧
        ∀ between answering later desk value,
          Course config (first ++ ⟨before, .request (.call proxy method arguments .sync)⟩ ::
            (between ++ answering :: later)) desk →
          (∀ turn ∈ between, turn.move.Spares receiver slot.id ∧ turn.move ≠ .abort task) →
          answering.Answers receiver slot.id value →
          answering.before.client.now <
            before.client.now + before.client.config.invocationTimeout →
          (∀ turn ∈ later, turn.move ≠ .look task ∧ turn.move ≠ .abort task) →
          (desk.act (.look task)).1 = some (.ended (.value value)))) ∧
    (¬ CallFits arguments (proxy.requestFor method slot.id block) → ∀ mode, ∃ e behind,
      (before.act (.request (.call proxy method arguments mode))).1 = some (.ended (.failed e)) ∧
      (before.act (.request (.call proxy method arguments mode))).2.client.link? receiver =
        some behind ∧ behind.outbound = link.outbound) := by
  have sound := (course.ordered.fit.fits _ link call.toRemote.link_of_remote).sound
  -- there is room, so only the size of the request can stand in the way
  obtain ⟨id, -, registered⟩ := Table.register_of_room sound.toCounted call.room
  have writes : (∃ frame, proxy.written method arguments receiver block id = .ok frame) ↔
      CallFits arguments (proxy.requestFor method id block) :=
    Proxy.exists_written call.plain few
  refine ⟨_, congrArg Prod.fst registered, ?_, ?_⟩
  · intro fits
    obtain ⟨frame, written⟩ := writes.mpr fits
    refine ⟨fun mode => call.carried edits registered written mode, ?_⟩
    intro plain time
    obtain ⟨task, future, sent, waits, begun, deadline, rfl, slot, interceptors⟩ :=
      call.awaits edits registered written time
    refine ⟨task.number, waits, ?_⟩
    rintro between answering later desk value course spares ⟨payload, attachments, bytes, comes,
      encoded, response⟩ early spared
    rw [← slot] at spares response
    exact course.returns_value begun (interceptors.trans plain) spares comes (deadline ▸ early)
      encoded response spared
  · intro misfit mode
    refine call.refused edits sound registered ?_ mode
    intro frame written
    exact misfit (writes.mp ⟨frame, written⟩)

open OneSum in
/-- The host answers another call first; then the sum comes, and the caller gets it. -/
theorem call_transparent_of_sum :
    let asked : Turn := ⟨opened.after, call .sync⟩
    let other : Turn := ⟨asked.after, .link ⟨1⟩ (.receive (answer 2 9))⟩
    let answered : Turn := ⟨other.after, .link ⟨1⟩ (.receive (answer 1 3))⟩
    asked.after.Carried [.int 1, .int 2] ⟨1⟩ host (sums.requestFor add 1
      (Attachments.empty.put AttachmentKey.sessionAffinity.code (Bytes.ofText "host"))) ∧
    asked.result = some (.waits 0) ∧
    (answered.after.act (.look 0)).1 = some (.ended (.value (.int 3))) := by
  intro asked other answered
  let affinity := Attachments.empty.put AttachmentKey.sessionAffinity.code (Bytes.ofText "host")
  have asks : Course .default ([joined, opened] ++ [asked]) asked.after := opens.next trivial
  have others : Course .default ([joined, opened, asked] ++ [other]) other.after := asks.next trivial
  have answers : Course .default ([joined, opened, asked, other] ++ [answered]) answered.after :=
    others.next trivial
  have sends : opened.after.Carriable sums add [.int 1, .int 2] ⟨1⟩ ⟨"host", .linked host, []⟩ host :=
    ⟨remote, by decide, rfl, rfl, by decide⟩
  have edits : opened.after.EditsCall sums add [.int 1, .int 2] ⟨1⟩ ⟨"host", .linked host, []⟩
      affinity [] :=
    show Interceptor.Edits _ [] affinity [] affinity [] from .nil _ _
  obtain ⟨slot, registered, fits, -⟩ := opens.call_transparent sends edits (by decide)
  obtain rfl : (⟨1, 0⟩ : Slot) = slot := Except.ok.inj registered
  have small : CallFits [.int 1, .int 2] (sums.requestFor add 1 affinity) := by
    refine ⟨by decide, ?_⟩
    intro payload encoded
    obtain rfl : [2, 2, 0, 0, 0, 1, 2, 0, 0, 0, 2] = payload := Except.ok.inj encoded
    change ∀ size ∈ _, size < _
    decide
  obtain ⟨carried, waiting⟩ := fits small
  obtain ⟨task, waits, returned⟩ := waiting rfl (by decide)
  obtain rfl : 0 = task := TakenUp.waits.inj (Option.some.inj waits)
  refine ⟨carried .sync, waits, ?_⟩
  rw [show [joined, opened, asked, other] ++ [answered] =
    [joined, opened] ++ asked :: ([other] ++ answered :: []) from rfl] at answers
  refine returned [other] answered [] answered.after (.int 3) answers ?_ ?_ (by decide) (by simp)
  · rw [List.forall_mem_singleton]
    exact ⟨fun _ => by decide, nofun⟩
  · exact ⟨_, .empty, _, rfl, rfl, rfl⟩

end Course

end Farcall
