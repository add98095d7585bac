import Farcall.Channel.Association

set_option autoImplicit false

/-!
# Channel scripts

A script drives one channel step by step: it registers and uses slots under names, plays the host,
and binds the channel to receivers of one shared client. A wait in a script is whole, that is,
nothing else happens while it lasts. A step that names a slot that is not there changes nothing.
-/

namespace Farcall.Channel

/-- How an entry is named: by its id, or by the slot that last got the id. -/
inductive Target where
  | id (id : UInt16)
  | slot (name : String)
deriving DecidableEq, Repr

inductive Use where
  | read
  | discard
  | drop
deriving DecidableEq, Repr

inductive Step where
  | register (slot : String)
  /-- Registers and drops at once, a number of times. -/
  | cycle (times : Nat)
  | fill (times : Nat)
  | drain
  | fulfill (target : Target) (result : LazyResult)
  | fail (target : Target) (e : InvocationError)
  | failAll (reason : String)
  | proceed (target : Target)
  | contains (target : Target)
  | limit
  | wait (slot : String) (use : Use)
  | waitOrProceed (slot : String) (use : Use)
  | claimed (slot : String)
  | describe (slot : String)
  | cancel (slot : String)
  | discard (slot : String)
  | drop (slot : String)
  | message (input : Input)
  | associate
  | withdraw (receiver : ReceiverId)
  | bound
  | modules (receiver : ReceiverId)
  | close (reason : String)
  | isClosed
  | debug

inductive Answer where
  | badStep
  | nothing
  | done
  | flag (b : Bool)
  | number (n : Nat)
  | text (s : String)
  | id (id : UInt16)
  | refused (e : CorrelationError)
  | filled (added : Nat) (last : Option (Except CorrelationError UInt16))
  | limit (limit : Nat) (text : String)
  | value (v : Value)
  | failed (e : InvocationError)
  | discarded
  | dropped
  | proceed
  | bound (receiver : Option (ReceiverId × Bool))
  | modules (ids : List ModuleId)
  | described (name text : String)

structure State where
  association : Association
  directory : Directory Unit
  slots : Std.TreeMap String Slot
  lastIds : Std.TreeMap String UInt16
  /-- The pool, last slot first. -/
  pool : List Slot

namespace State

def initial (name : String) (limit : Nat) : State :=
  ⟨.named name limit, .empty, ∅, ∅, []⟩

def table (s : State) : Table LazyResult := s.association.table

def withTable (s : State) (table : Table LazyResult) : State :=
  { s with association := { s.association with table } }

def idOf? (s : State) : Target → Option UInt16
  | .id id => some id
  | .slot name => s.lastIds[name]?

def dropSlot (s : State) (slot : Slot) : State × List Event :=
  let (rejected, table) := s.table.drop slot
  (s.withTable table, rejected.toList.flatMap LazyResult.discard)

def register (s : State) (name : String) : Answer × State × List Event :=
  match s.table.register with
  | (.error e, table) => (.refused e, s.withTable table, [])
  | (.ok slot, table) =>
    let old := s.slots[name]?
    let s := { s.withTable table with
      slots := s.slots.insert name slot
      lastIds := s.lastIds.insert name slot.id }
    match old with
    | none => (.id slot.id, s, [])
    | some old =>
      let (s, events) := s.dropSlot old
      (.id slot.id, s, events)

def cycle : Nat → Answer → State → Answer × State × List Event
  | 0, last, s => (last, s, [])
  | times + 1, _, s =>
    match s.table.register with
    | (.error e, table) => (.refused e, s.withTable table, [])
    | (.ok slot, table) => cycle times (.id slot.id) ((s.withTable table).dropSlot slot).1

/-- Registers into the pool until a registration fails; `added` are there already. -/
def fill : Nat → Nat → Option (Except CorrelationError UInt16) → State →
    Answer × State × List Event
  | 0, added, last, s => (.filled added last, s, [])
  | times + 1, added, _, s =>
    match s.table.register with
    | (.error e, table) => (.filled added (some (.error e)), s.withTable table, [])
    | (.ok slot, table) =>
      fill times (added + 1) (some (.ok slot.id)) { s.withTable table with pool := slot :: s.pool }

def drain (s : State) : Answer × State × List Event :=
  let start : State × List Event := ({ s with pool := [] }, [])
  let (after, events) := s.pool.reverse.foldl (fun (before : State × List Event) slot =>
    let (s, events) := before.1.dropSlot slot
    (s, events.reverse ++ before.2)) start
  (.number s.pool.length, after, events.reverse)

def useResult (result : LazyResult) : Use → Answer × List Event
  | .read =>
    match result.read with
    | (.ok v, events) => (.value v, events)
    | (.error e, events) => (.failed e, events)
  | .discard => (.discarded, result.discard)
  | .drop => (.dropped, result.drop)

def wait (s : State) (slot : Slot) (use : Use) : Answer × State × List Event :=
  match s.table.wait slot with
  | (.error e, table) => (.failed e, s.withTable table, [])
  | (.ok result, table) =>
    let (answer, events) := useResult result use
    (answer, s.withTable table, events)

def waitOrProceed (s : State) (slot : Slot) (use : Use) : Answer × State × List Event :=
  match s.table.waitOrProceed slot with
  | (.error e, table) => (.failed e, s.withTable table, [])
  | (.ok .proceedAsync, table) => (.proceed, s.withTable table, [])
  | (.ok (.ready result), table) =>
    let (answer, events) := useResult result use
    (answer, s.withTable table, events)

def onSlot (s : State) (name : String) (f : Slot → Answer × State × List Event) :
    Answer × State × List Event :=
  match s.slots[name]? with
  | some slot => f slot
  | none => (.badStep, s, [])

def onTarget (s : State) (target : Target) (f : UInt16 → Answer × State × List Event) :
    Answer × State × List Event :=
  match s.idOf? target with
  | some id => f id
  | none => (.badStep, s, [])

def forget (s : State) (name : String) : State := { s with slots := s.slots.erase name }

def message (s : State) (input : Input) : Answer × State × List Event :=
  let after := s.association.process s.directory.registry input
  let s := { s with
    association := after.association
    directory := { s.directory with registry := after.registry } }
  match after.result with
  | .ok () => (.done, s, after.events)
  | .error e => (.failed e, s, after.events)

def associate (s : State) : Answer × State × List Event :=
  let (id, directory) := s.directory.join ()
  let (association, registry) := s.association.associate directory.registry id
  (.text id.text, { s with association, directory := { directory with registry } }, [])

def step (s : State) : Step → Answer × State × List Event
  | .register name => s.register name
  | .cycle times => cycle times .nothing s
  | .fill times => fill times 0 none s
  | .drain => s.drain
  | .fulfill target result => s.onTarget target fun id =>
    let (found, association, events) := s.association.resultReady id result
    (.flag found, { s with association }, events)
  | .fail target e => s.onTarget target fun id =>
    let (found, table) := s.table.fail id e
    (.flag found, s.withTable table, [])
  | .failAll reason =>
    let (failed, table) := s.table.failAll reason
    (.number failed, s.withTable table, [])
  | .proceed target => s.onTarget target fun id =>
    let (found, association) := s.association.proceedAsync id
    (.flag found, { s with association }, [])
  | .contains target => s.onTarget target fun id => (.flag (s.table.contains id), s, [])
  | .limit => (.limit s.table.limit s.table.text, s, [])
  | .wait name use => s.onSlot name fun slot => s.wait slot use
  | .waitOrProceed name use => s.onSlot name fun slot => s.waitOrProceed slot use
  | .claimed name => s.onSlot name fun slot => (.flag (s.table.claimed slot), s, [])
  | .describe name => s.onSlot name fun slot => (.text (s.table.slotText slot), s, [])
  | .cancel name => s.onSlot name fun slot =>
    let (withdrawn, table) := s.table.cancel slot
    (.flag withdrawn, s.withTable table, [])
  | .discard name => s.onSlot name fun slot =>
    let (rejected, table) := s.table.discard slot
    (.nothing, (s.withTable table).forget name, rejected.toList.flatMap LazyResult.discard)
  | .drop name => s.onSlot name fun slot =>
    let (s, events) := s.dropSlot slot
    (.nothing, s.forget name, events)
  | .message input => s.message input
  | .associate => s.associate
  | .withdraw receiver =>
    let (found, directory) := s.directory.leave receiver
    (.flag found, { s with directory }, [])
  | .bound => (.bound (s.association.receiver.map fun receiver =>
      (receiver, s.directory.registry.tracks receiver)), s, [])
  | .modules receiver =>
    (.modules (ModuleId.sorted (s.directory.registry.modules receiver)), s, [])
  | .close reason =>
    let (failed, association) := s.association.close reason
    (.number failed, { s with association }, [])
  | .isClosed => (.flag s.association.closed, s, [])
  | .debug => (.described s.association.name s.association.text, s, [])

end State

end Farcall.Channel
