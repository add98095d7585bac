import Farcall.Proofs.Channel.Accounts
import Mathlib.Data.List.Perm.Basic

set_option autoImplicit false

/-!
# The lifetime of a message stream

A message stream is handed to a channel once. From then on it is with its answer in the box of a
slot, or with whoever claimed the answer, or it is closed: each closing takes one copy of the stream
out of the world, and there was but one. So a stream is closed once, when nobody has it any more,
and it is not read behind that.
-/

namespace Farcall

/-! ## A channel under watch -/

/-- A channel, the results that callers have in hand, and what was seen of message streams. -/
structure Watched where
  association : Association
  registry : Registry
  /-- Results that were claimed and not used up yet. -/
  held : List LazyResult
  /-- The labels of the messages that came, last one first. -/
  received : List String
  log : CallLog
  events : List Event

inductive Deed where
  /-- A message comes as a stream under a label. -/
  | message (label : String) (input : Input)
  | announce (news : ModuleAvailability)
  | bind (receiver : ReceiverId)
  | close (reason : String)
  | table (op : Op LazyResult)
  | use (place : Nat) (use : Channel.Use)
  /-- A caller hands a result that it has in hand to another call. -/
  | forward (place : Nat) (id : UInt16)
  | elsewhere (registry : Registry)

namespace Watched

def fresh (name : String) (limit : Nat) : Watched := ⟨.named name limit, .empty, [], [], [], []⟩

def useUp (watched : Watched) (use : Channel.Use) (result : LazyResult) : Watched :=
  { watched with
    log := result.logged use watched.log
    events := watched.events ++ result.reports use }

def letGo (watched : Watched) (use : Channel.Use) : Option LazyResult → Watched
  | none => watched
  | some result => watched.useUp use result

/-- An operation on the table. What it returns is in the hands of a caller then. -/
def perform (watched : Watched) (op : Op LazyResult) : Watched :=
  let (effect, table) := watched.association.table.perform op
  let behind := { watched with
    association := { watched.association with table }
    held := watched.held ++ effect.returned.toList }
  (behind.letGo .discard effect.discarded).letGo .drop effect.lost

def onHeld (watched : Watched) (place : Nat) (f : Watched → LazyResult → Watched) : Watched :=
  match watched.held[place]? with
  | none => watched
  | some result => f { watched with held := watched.held.eraseIdx place } result

def act (watched : Watched) : Deed → Watched
  | .message label input =>
    let input := { input with label := some label }
    let after := watched.association.process watched.registry input
    { watched with
      association := after.association
      registry := after.registry
      received := label :: watched.received
      log := (watched.association.attend watched.registry ⟨.opened input, watched.log⟩).2
      events := watched.events ++ after.events }
  | .announce news =>
    let (association, registry) := watched.association.modulesChanged watched.registry news
    { watched with association, registry }
  | .bind receiver =>
    let (association, registry) := watched.association.associate watched.registry receiver
    { watched with association, registry }
  | .close reason => { watched with association := (watched.association.close reason).2 }
  | .table op => watched.perform op
  | .use place use => watched.onHeld place fun behind result => behind.useUp use result
  | .forward place id =>
    watched.onHeld place fun behind result => behind.perform (.fulfill id result)
  | .elsewhere registry => { watched with registry }

/-- A message comes under a label of its own, and slots are used while they exist. A result that
comes from elsewhere holds no stream of a message. -/
def Allowed (watched : Watched) : Deed → Prop
  | .message label _ => label ∉ watched.received
  | .table op => watched.association.table.Allowed op ∧ ∀ r, op.given? = some r → r.stream? = none
  | _ => True

/-- The stream of a label is in the box of a slot that exists, or in the hands of a caller. -/
def Holds (watched : Watched) (label : String) : Prop :=
  (∃ (g : Nat) (box : Box LazyResult) (result : LazyResult),
    watched.association.table.boxes[g]? = some box ∧ box.arrived = some (.result result) ∧
      result.stream? = some label) ∨
  ∃ result ∈ watched.held, result.stream? = some label

end Watched

inductive History (name : String) (limit : Nat) : Watched → Prop
  | start : History name limit (.fresh name limit)
  | step {watched : Watched} {deed : Deed} (history : History name limit watched)
      (allowed : watched.Allowed deed) : History name limit (watched.act deed)

/-! ## What is conserved -/

namespace Watched

def live (watched : Watched) (label : String) : Nat :=
  watched.association.table.contents.countP (LazyResult.holds label) +
    watched.held.countP (LazyResult.holds label)

/-- Every stream that came is somewhere or closed, where the results in `out` are on their way. -/
structure Carries (watched : Watched) (out : List LazyResult) : Prop where
  sound : watched.association.table.Sound
  nodup : watched.received.Nodup
  account : ∀ label, ∃ closes, Account watched.log watched.events label closes ∧
    watched.live label + out.countP (LazyResult.holds label) + closes =
      watched.received.count label

theorem carries_fresh (name : String) (limit : Nat) : (fresh name limit).Carries [] := by
  refine ⟨Table.Sound.empty limit, List.nodup_nil, ?_⟩
  intro label
  exact ⟨0, ⟨⟨[], rfl⟩, rfl⟩, rfl⟩

theorem Carries.received_le {watched : Watched} {out : List LazyResult}
    (carries : watched.Carries out) (label : String) : watched.received.count label ≤ 1 :=
  List.nodup_iff_count.mp carries.nodup label

theorem countP_cons (p : LazyResult → Bool) (result : LazyResult) (out : List LazyResult) :
    (result :: out).countP p = [result].countP p + out.countP p := by
  rw [← List.countP_append]
  rfl

variable {watched : Watched} {out : List LazyResult}

theorem Carries.useUp {result : LazyResult} (carries : watched.Carries (result :: out))
    (use : Channel.Use) : (watched.useUp use result).Carries out := by
  refine ⟨carries.sound, carries.nodup, ?_⟩
  intro label
  obtain ⟨closes, account, sum⟩ := carries.account label
  obtain ⟨counts, logged⟩ := result.logged_eq use watched.log
  rw [countP_cons] at sum
  refine ⟨closes + [result].countP (LazyResult.holds label), ?_, ?_⟩
  · -- The result has the only copy of its stream, so there is none that was closed.
    have open_still : result.stream? = some label → counts = [] ∨ closes = 0 := by
      intro own
      have one : [result].countP (LazyResult.holds label) = 1 := by
        simp [LazyResult.holds, own]
      have single := carries.received_le label
      right
      omega
    change Account (result.logged use watched.log) (watched.events ++ result.reports use) label _
    rw [logged]
    exact account.extend open_still (result.callsOn_closing label)
      (result.count_reports use label)
  · change watched.live label + _ + _ = watched.received.count label
    omega

theorem Carries.letGo {result : Option LazyResult}
    (carries : watched.Carries (result.toList ++ out)) (use : Channel.Use) :
    (watched.letGo use result).Carries out := by
  cases result with
  | none => exact carries
  | some result => exact carries.useUp use

theorem Carries.perform {op : Op LazyResult} (carries : watched.Carries op.given?.toList)
    (allowed : watched.association.table.Allowed op) : (watched.perform op).Carries [] := by
  have conserved := Table.conserves_perform carries.sound allowed
  have sound := carries.sound.perform allowed
  unfold Watched.perform
  cases done : watched.association.table.perform op with
  | mk effect table =>
    rw [done] at conserved sound
    have behind : Carries { watched with
        association := { watched.association with table }
        held := watched.held ++ effect.returned.toList }
        (effect.discarded.toList ++ (effect.lost.toList ++ [])) := by
      refine ⟨sound, carries.nodup, ?_⟩
      intro label
      obtain ⟨closes, account, sum⟩ := carries.account label
      refine ⟨closes, account, ?_⟩
      have sum' := conserved (LazyResult.holds label)
      simp only [live, Effect.released, List.countP_append, List.countP_nil] at sum sum' ⊢
      omega
    exact (behind.letGo .discard).letGo .drop

theorem Carries.of_foreign {result : Option LazyResult} (carries : watched.Carries [])
    (foreign : ∀ r, result = some r → r.stream? = none) : watched.Carries result.toList := by
  refine ⟨carries.sound, carries.nodup, ?_⟩
  intro label
  obtain ⟨closes, account, sum⟩ := carries.account label
  refine ⟨closes, account, ?_⟩
  cases result with
  | none => exact sum
  | some result => simpa [LazyResult.holds, foreign result rfl] using sum

theorem Carries.message (carries : watched.Carries []) {label : String}
    (new : label ∉ watched.received) (input : Input) :
    (watched.act (.message label input)).Carries [] := by
  generalize named : ({ input with label := some label } : Input) = stream
  have own : stream.label = some label := by rw [← named]
  obtain ⟨counts, attended⟩ := watched.association.attend_eq watched.registry stream watched.log
  have same := Input.sameStream_run Route.decoder stream
  have accounts := Association.settle_accounts watched.registry carries.sound
    (Route.decoder.run stream).2 (Route.decoder.run stream).1
  rw [← Association.process_eq] at accounts
  obtain ⟨sound, conserved, calls⟩ := accounts
  simp only [act, named, attended]
  refine ⟨sound, List.nodup_cons.mpr ⟨new, carries.nodup⟩, ?_⟩
  intro other
  obtain ⟨closes, account, sum⟩ := carries.account other
  have sum' := conserved other
  have single := carries.received_le other
  rw [same.1, own] at sum'
  refine ⟨_, account.extend ?_ (calls other) rfl, ?_⟩
  · -- No stream came under this label before, so none was closed.
    intro mine
    rw [own] at mine
    rw [← Option.some.inj mine, List.count_eq_zero.mpr new] at sum
    right
    omega
  · simp only [live, List.countP_nil, List.count_cons, Option.some.injEq, beq_iff_eq] at sum sum' ⊢
    omega

theorem Carries.onHeld (carries : watched.Carries []) (place : Nat)
    {f : Watched → LazyResult → Watched}
    (keeps : ∀ behind result, Carries behind [result] → Carries (f behind result) []) :
    (watched.onHeld place f).Carries [] := by
  unfold Watched.onHeld
  split
  · exact carries
  · next result found =>
    obtain ⟨inside, rfl⟩ := List.getElem?_eq_some_iff.mp found
    refine keeps _ _ ⟨carries.sound, carries.nodup, ?_⟩
    intro label
    obtain ⟨closes, account, sum⟩ := carries.account label
    refine ⟨closes, account, ?_⟩
    have moved := (List.getElem_cons_eraseIdx_perm inside).countP_eq (LazyResult.holds label)
    rw [countP_cons] at moved
    simp only [live, List.countP_nil] at sum ⊢
    omega

theorem Carries.of_table {after : Watched} (carries : watched.Carries [])
    (table : after.association.table = watched.association.table)
    (held : after.held = watched.held) (received : after.received = watched.received)
    (log : after.log = watched.log) (events : after.events = watched.events) :
    after.Carries [] := by
  refine ⟨table ▸ carries.sound, received ▸ carries.nodup, ?_⟩
  intro label
  rw [live, table, held, received, log, events]
  exact carries.account label

theorem Carries.act (carries : watched.Carries []) {deed : Deed}
    (allowed : watched.Allowed deed) : (watched.act deed).Carries [] := by
  cases deed with
  | message label input => exact carries.message allowed input
  | announce news =>
    exact carries.of_table (Association.table_modulesChanged _ _ news) rfl rfl rfl rfl
  | bind receiver => exact carries.of_table rfl rfl rfl rfl rfl
  | close reason =>
    have failed : (watched.perform (.failAll reason)).Carries [] := carries.perform trivial
    exact failed.of_table rfl (List.append_nil _).symm rfl rfl rfl
  | table op => exact (carries.of_foreign allowed.2).perform allowed.1
  | use place use => exact carries.onHeld place fun behind result taken => taken.useUp use
  | forward place id =>
    have forwarded : ∀ behind result, Carries behind [result] →
        (behind.perform (.fulfill id result)).Carries [] := by
      intro behind result taken
      have given : behind.Carries (Op.fulfill id result).given?.toList := taken
      exact given.perform trivial
    exact carries.onHeld place forwarded
  | elsewhere registry => exact carries.of_table rfl rfl rfl rfl rfl

theorem Carries.holds_iff (carries : watched.Carries []) (label : String) :
    watched.Holds label ↔ 0 < watched.live label := by
  have somewhere : 0 < watched.live label ↔
      0 < watched.association.table.contents.countP (LazyResult.holds label) ∨
        0 < watched.held.countP (LazyResult.holds label) := by
    rw [live]
    omega
  have held : ∀ result : LazyResult,
      LazyResult.holds label result = true ↔ result.stream? = some label := by
    intro result
    exact decide_eq_true_iff
  rw [somewhere, List.countP_pos_iff, List.countP_pos_iff]
  simp only [held, Table.mem_contents carries.sound.toCoupled]
  refine or_congr ?_ Iff.rfl
  constructor
  · rintro ⟨g, box, result, found, arrived, own⟩
    exact ⟨result, ⟨g, box, found, arrived⟩, own⟩
  · rintro ⟨result, ⟨g, box, found, arrived⟩, own⟩
    exact ⟨g, box, result, found, arrived, own⟩

end Watched

theorem History.carries {name : String} {limit : Nat} {watched : Watched}
    (history : History name limit watched) : watched.Carries [] := by
  induction history with
  | start => exact Watched.carries_fresh name limit
  | step history allowed ih => exact ih.act allowed

/-! ## Claiming -/

namespace AnswerKind

/-- What a claim gives: the error of decoding if there is one, then that of closing, then the
value. A failure that can be read is an error of decoding. -/
structure Claimed (kind : AnswerKind) (input : Input) (result : CallResult) : Prop where
  error : ∀ e, kind.read input = .error e → result = .error e
  remote : ∀ cause tail, kind = .failure cause →
    ((FailureTail.decoder cause).run input).1 = .ok tail →
    result = .error (.remote cause tail.message)
  close : ∀ fault, result = .error (.close fault) ↔
    (∃ v, kind.read input = .ok v) ∧ input.closeFault = some fault
  value : ∀ v, result = .ok v ↔ kind.read input = .ok v ∧ input.closeFault = none

theorem gives_tail (kind : AnswerKind) (fault : IoFault) :
    kind.tail.Gives (· ≠ .error (.close fault)) := by
  cases kind with
  | session | failure => exact Decoder.Gives.bind (Decoder.gives_of_forall _ fun _ => nofun)
  | response =>
    refine Decoder.Gives.bind (Decoder.gives_of_forall _ fun tail => ?_)
    change (Payload.decodeResult tail.payload).mapError InvocationError.codec ≠ _
    cases Payload.decodeResult tail.payload <;> exact nofun
  | transaction =>
    refine Decoder.Gives.bind (Decoder.gives_of_forall _ fun value => ?_)
    cases value <;> exact nofun

theorem read_ne_close (kind : AnswerKind) (input : Input) (fault : IoFault) :
    kind.read input ≠ .error (.close fault) := by
  rw [read_eq]
  cases ran : kind.tail.run input with
  | mk decoded rest =>
    cases decoded with
    | error e => exact nofun
    | ok result => exact (kind.gives_tail fault).of_run ran

theorem claimed_read (kind : AnswerKind) (input : Input) :
    kind.Claimed input (LazyResult.answer kind input).read.1 := by
  have given : (LazyResult.answer kind input).read.1 = (input.finish (kind.read input)).1 := rfl
  have error : ∀ e, kind.read input = .error e →
      (LazyResult.answer kind input).read.1 = .error e := by
    intro e failed
    rw [given, failed]
    rfl
  refine ⟨error, ?_, ?_, ?_⟩
  · rintro cause tail rfl read
    refine error _ ?_
    simp only [AnswerKind.read, read]
  · intro fault
    cases decoded : kind.read input with
    | error e =>
      rw [error e decoded]
      constructor
      · intro same
        exact absurd (decoded.trans same) (kind.read_ne_close input fault)
      · rintro ⟨⟨v, impossible⟩, -⟩
        cases impossible
    | ok v =>
      rw [given, decoded]
      cases closing : input.closeFault <;> simp [Input.finish, Input.close, closing]
  · intro v
    cases decoded : kind.read input with
    | error e => simp [error e decoded]
    | ok v' =>
      rw [given, decoded]
      cases closing : input.closeFault <;> simp [Input.finish, Input.close, closing]

end AnswerKind

/-- Once neither a slot nor a caller has the stream of a message, it was closed exactly once, and
that was the last call on it; until then it was only read. A claim shows a fault of closing only
where it decoded a value. -/
theorem History.closed_once {name : String} {limit : Nat} {watched : Watched}
    (history : History name limit watched) {label : String}
    (received : label ∈ watched.received) :
    (¬ watched.Holds label → ∃ counts : List Nat,
      callsOn watched.log label = counts.map .demand ++ [.close] ∧
        watched.events.count (.closed label) = 1) ∧
    (watched.Holds label → ∃ counts : List Nat,
      callsOn watched.log label = counts.map .demand ∧
        watched.events.count (.closed label) = 0) ∧
    ∀ (kind : AnswerKind) (input : Input),
      kind.Claimed input (LazyResult.answer kind input).read.1 := by
  have carries := history.carries
  obtain ⟨closes, ⟨⟨counts, calls⟩, reported⟩, sum⟩ := carries.account label
  have came : watched.received.count label = 1 := by
    have some_time := List.count_pos_iff.mpr received
    have once := carries.received_le label
    omega
  rw [List.countP_nil, came] at sum
  refine ⟨?_, ?_, AnswerKind.claimed_read⟩
  · intro gone
    rw [carries.holds_iff] at gone
    obtain rfl : closes = 1 := by omega
    exact ⟨counts, calls, reported⟩
  · intro there
    rw [carries.holds_iff] at there
    obtain rfl : closes = 0 := by omega
    refine ⟨counts, ?_, reported⟩
    rw [calls, List.replicate_zero, List.append_nil]

/-- Of two answers to one call the first is read and the second discarded; neither can be closed. -/
theorem History.closed_once_of_two_answers :
    let answer : Input :=
      { Input.ofBytes [5, 0, 1, 2, 1, 1, 0] with closeFault := some ⟨.other, "stuck"⟩ }
    let called := (Watched.fresh "link" 4).act (.table .register)
    let answered := (called.act (.message "first" answer)).act (.message "second" answer)
    let watched := (answered.act (.table (.lookOrProceed ⟨1, 0⟩ false))).act (.use 0 .read)
    ∀ label ∈ ["first", "second"], ∃ counts : List Nat,
      callsOn watched.log label = counts.map .demand ++ [.close] ∧
        watched.events.count (.closed label) = 1 := by
  intro answer called answered watched
  have history : History "link" 4 watched := by
    refine (((((History.start.step ?_).step ?_).step ?_).step ?_).step ?_)
    · exact ⟨trivial, by simp [Op.given?]⟩
    · exact List.not_mem_nil
    · have new : "second" ∉ ["first"] := by decide
      exact new
    · refine ⟨?_, by simp [Op.given?]⟩
      decide
    · trivial
  intro label mem
  have received : ∀ label ∈ ["first", "second"], label ∈ watched.received := by decide
  have gone : ∀ label ∈ ["first", "second"], watched.live label = 0 := by decide
  refine (history.closed_once (received label mem)).1 ?_
  rw [history.carries.holds_iff, gone label mem]
  exact Nat.lt_irrefl 0

end Farcall
