import Farcall.Call.Error

set_option autoImplicit false

/-!
# The correlation table

Pairs outstanding calls with the results that arrive for them. A registration takes a free id and a
fresh generation. Ids are used again once their entry is gone, generations never are, so whatever a
slot does to its entry it does by generation.

Each registration has two ends. The *entry* stands under the id until a result, a failure, a
cancellation, a timeout or an abandoned slot removes it. The *box* belongs to the slot: it takes
at most one delivery and keeps the signals to proceed. A delivery for a box that nobody will read is
handed back, so that no result is lost unseen.

A signal that meets a wait which minds it is handed to that wait; any other is stored. A box stores
one signal and no more, so a wait under way can be told to proceed and leave a second signal behind.

The table is polymorphic in the results `ρ`; it moves them and never looks inside.
-/

namespace Farcall

inductive Delivery (ρ : Type) where
  | result (r : ρ)
  | failed (e : InvocationError)

/-- Who has the reading end of a box. -/
inductive Hold where
  | slot
  | wait
  /-- Nobody will read the box any more. -/
  | gone
deriving DecidableEq, Repr

/-- The signals to proceed in a box, and whether a wait that minds them is under way. -/
inductive Signals where
  | idle (stored : Bool)
  | awaited
  /-- A wait is under way that a signal was handed to. -/
  | handed (stored : Bool)
deriving DecidableEq, Repr

structure Box (ρ : Type) where
  id : UInt16
  arrived : Option (Delivery ρ)
  signals : Signals
  hold : Hold

structure Entry where
  generation : Nat
  /-- Nobody will ever read the result. -/
  discard : Bool
deriving DecidableEq, Repr

structure Slot where
  id : UInt16
  generation : Nat
deriving DecidableEq, Repr

structure Stats where
  registered : Nat
  fulfilled : Nat
  failed : Nat
  /-- Arrivals for ids without an entry. -/
  anomalies : Nat
  timeouts : Nat
  cancelled : Nat
  discarded : Nat
deriving DecidableEq, Repr

def Stats.zero : Stats := ⟨0, 0, 0, 0, 0, 0, 0⟩

def Stats.toList (s : Stats) : List Nat :=
  [s.registered, s.fulfilled, s.failed, s.anomalies, s.timeouts, s.cancelled, s.discarded]

structure Table (ρ : Type) where
  entries : Std.TreeMap UInt16 Entry
  /-- The boxes of the slots that exist, by generation. -/
  boxes : Std.TreeMap Nat (Box ρ)
  nextId : UInt16
  nextGeneration : Nat
  outstanding : Nat
  limit : Nat
  stats : Stats

inductive Completion (ρ : Type) where
  | ready (r : ρ)
  | proceedAsync

inductive Look (ρ : Type) where
  | arrived (d : Delivery ρ)
  /-- The entry is gone and nothing was delivered. -/
  | severed
  | empty

namespace Signals

def raise : Signals → Signals
  | idle _ => idle true
  | awaited => handed false
  | handed _ => handed true

/-- A wait that minds signals takes the one that is stored, unless it is under way already. -/
def attend : Signals → Signals
  | idle true => handed false
  | idle false => awaited
  | awaited => awaited
  | handed stored => handed stored

/-- The wait under way is let go. What was handed to it is stored again. -/
def leave : Signals → Signals
  | idle stored => idle stored
  | awaited => idle false
  | handed _ => idle true

def size : Signals → Nat
  | idle stored => stored.toNat
  | awaited => 0
  | handed stored => stored.toNat + 1

end Signals

namespace Delivery

variable {ρ : Type}

def toExcept : Delivery ρ → Except InvocationError ρ
  | result r => .ok r
  | failed e => .error e

def result? : Delivery ρ → Option ρ
  | result r => some r
  | failed _ => none

end Delivery

namespace Table

variable {ρ : Type}

def empty (limit : Nat) : Table ρ where
  entries := ∅
  boxes := ∅
  nextId := 1
  nextGeneration := 0
  outstanding := 0
  limit := clampLimit limit
  stats := .zero

def text (table : Table ρ) : String :=
  Text.recordText "CorrelationTable" [
    ("outstanding", toString table.outstanding), ("limit", toString table.limit)]

def contains (table : Table ρ) (id : UInt16) : Bool := table.entries.contains id

def count (table : Table ρ) (f : Stats → Stats) : Table ρ :=
  { table with stats := f table.stats }

/-! ## Registering -/

/-- The first free id from `id` on, looking at no more than `fuel` ids. -/
def freeId (entries : Std.TreeMap UInt16 Entry) : Nat → UInt16 → Option UInt16
  | 0, _ => none
  | fuel + 1, id => if entries.contains id then freeId entries fuel (id + 1) else some id

def enter (table : Table ρ) (id : UInt16) : Slot × Table ρ :=
  (⟨id, table.nextGeneration⟩, {
    table with
    entries := table.entries.insert id ⟨table.nextGeneration, false⟩
    boxes := table.boxes.insert table.nextGeneration ⟨id, none, .idle false, .slot⟩
    nextId := id + 1
    nextGeneration := table.nextGeneration + 1
    outstanding := table.outstanding + 1
    stats := { table.stats with registered := table.stats.registered + 1 } })

def register (table : Table ρ) : Except CorrelationError Slot × Table ρ :=
  if table.limit ≤ table.outstanding then (.error (.exhausted table.limit), table)
  else
    match freeId table.entries idCount table.nextId with
    | none => (.error (.exhausted table.limit), table)
    | some id =>
      let (slot, table) := table.enter id
      (.ok slot, table)

/-! ## The table's end -/

def take (table : Table ρ) (id : UInt16) : Option (Entry × Table ρ) :=
  match table.entries[id]? with
  | none => none
  | some entry => some (entry, {
      table with
      entries := table.entries.erase id
      outstanding := table.outstanding - 1 })

def owns (table : Table ρ) (slot : Slot) : Bool :=
  match table.entries[slot.id]? with
  | some entry => entry.generation = slot.generation
  | none => false

def takeOwn (table : Table ρ) (slot : Slot) : Option (Table ρ) :=
  if table.owns slot then (table.take slot.id).map (·.2) else none

/-- Puts a delivery into a box, or hands it back if nobody will read it. -/
def deliver (table : Table ρ) (generation : Nat) (d : Delivery ρ) :
    Option (Delivery ρ) × Table ρ :=
  match table.boxes[generation]? with
  | none => (some d, table)
  | some box =>
    if box.hold = .gone then (some d, table)
    else (none, {
      table with boxes := table.boxes.modify generation fun box => { box with arrived := some d } })

/-- Hands a result to whoever waits on an id. Says whether there was an entry, and gives back a
result that has to be discarded. -/
def fulfill (table : Table ρ) (id : UInt16) (r : ρ) : (Bool × Option ρ) × Table ρ :=
  match table.take id with
  | none => ((false, some r), table.count fun s => { s with anomalies := s.anomalies + 1 })
  | some (entry, table) =>
    if entry.discard then
      ((true, some r), table.count fun s => { s with discarded := s.discarded + 1 })
    else
      let table := table.count fun s => { s with fulfilled := s.fulfilled + 1 }
      let (rejected, table) := table.deliver entry.generation (.result r)
      ((true, rejected.bind Delivery.result?), table)

def fail (table : Table ρ) (id : UInt16) (e : InvocationError) : Bool × Table ρ :=
  match table.take id with
  | none => (false, table.count fun s => { s with anomalies := s.anomalies + 1 })
  | some (entry, table) =>
    let table := table.count fun s => { s with failed := s.failed + 1 }
    (true, (table.deliver entry.generation (.failed e)).2)

def sever (reason : String) (table : Table ρ) (id : UInt16) : Table ρ :=
  match table.take id with
  | none => table
  | some (entry, table) =>
    (table.deliver entry.generation (.failed (.channelClosed reason))).2

def failAll (table : Table ρ) (reason : String) : Nat × Table ρ :=
  (table.entries.size, table.entries.keys.foldl (sever reason) table)

def resignal (table : Table ρ) (generation : Nat) (f : Signals → Signals) : Table ρ :=
  { table with
    boxes := table.boxes.modify generation fun box => { box with signals := f box.signals } }

def proceedAsync (table : Table ρ) (id : UInt16) : Bool × Table ρ :=
  match table.entries[id]? with
  | none => (false, table.count fun s => { s with anomalies := s.anomalies + 1 })
  | some entry => (true, table.resignal entry.generation .raise)

/-! ## The slot's end -/

def box? (table : Table ρ) (slot : Slot) : Option (Box ρ) := table.boxes[slot.generation]?

/-- Whether a wait used the result up, or gave up on it. -/
def claimed (table : Table ρ) (slot : Slot) : Bool :=
  match table.box? slot with
  | some box => box.hold ≠ .slot
  | none => true

def slotText (table : Table ρ) (slot : Slot) : String :=
  Text.recordText "PendingSlot" [
    ("id", toString slot.id), ("generation", toString slot.generation),
    ("claimed", Text.boolText (table.claimed slot))]

def setHold (table : Table ρ) (slot : Slot) (hold : Hold) : Table ρ :=
  { table with boxes := table.boxes.modify slot.generation fun box => { box with hold } }

def spend (table : Table ρ) (slot : Slot) : Table ρ :=
  { table with
    boxes := table.boxes.modify slot.generation fun box =>
      { box with arrived := none, signals := box.signals.leave, hold := .gone } }

def arrival? (table : Table ρ) (slot : Slot) : Option (Delivery ρ) :=
  (table.box? slot).bind (·.arrived)

def look (table : Table ρ) (slot : Slot) : Look ρ :=
  match table.arrival? slot with
  | some d => .arrived d
  | none => if table.owns slot then .empty else .severed

def abandon (table : Table ρ) (slot : Slot) : Table ρ :=
  (table.takeOwn slot).getD table

def severedError : InvocationError := .channelClosed "correlation entry dropped"

def claim (table : Table ρ) (slot : Slot) : Option (Except InvocationError ρ) × Table ρ :=
  match table.look slot with
  | .arrived d => (some d.toExcept, table.spend slot)
  | .severed => (some (.error severedError), (table.spend slot).abandon slot)
  | .empty => (none, table)

/-- Starts a wait that minds signals, unless it is under way already. The slot keeps the reading end
of the box. -/
def attend (table : Table ρ) (slot : Slot) : Table ρ := table.resignal slot.generation .attend

def letGo (table : Table ρ) (slot : Slot) : Table ρ := table.resignal slot.generation .leave

/-- Ends a wait that a signal was handed to. -/
def useSignal (table : Table ρ) (slot : Slot) : Bool × Table ρ :=
  match table.box? slot with
  | some ⟨_, _, .handed stored, _⟩ =>
    (true, table.resignal slot.generation fun _ => .idle stored)
  | _ => (false, table)

def expire (table : Table ρ) (slot : Slot) : InvocationError × Table ρ :=
  let table := table.spend slot
  (.timeout slot.id,
    match table.takeOwn slot with
    | some table => table.count fun s => { s with timeouts := s.timeouts + 1 }
    | none => table)

def beginWait (table : Table ρ) (slot : Slot) : Except InvocationError Unit × Table ρ :=
  if table.claimed slot then (.error (.correlation (.alreadyClaimed slot.id)), table)
  else (.ok (), table.setHold slot .wait)

def breakOff (table : Table ρ) (slot : Slot) : Option ρ × Table ρ :=
  ((table.arrival? slot).bind Delivery.result?, table.spend slot)

/-- A whole wait during which nothing else happens: what is there is taken, else time runs out. -/
def wait (table : Table ρ) (slot : Slot) : Except InvocationError ρ × Table ρ :=
  match table.beginWait slot with
  | (.error e, table) => (.error e, table)
  | (.ok (), table) =>
    match table.claim slot with
    | (some r, table) => (r, table)
    | (none, table) =>
      let (e, table) := table.expire slot
      (.error e, table)

/-- One look of a wait that can be told to proceed: a delivery comes before a signal. -/
def claimOrProceed (table : Table ρ) (slot : Slot) :
    Option (Except InvocationError (Completion ρ)) × Table ρ :=
  let table := table.attend slot
  match table.claim slot with
  | (some (.ok r), table) => (some (.ok (.ready r)), table)
  | (some (.error e), table) => (some (.error e), table)
  | (none, table) =>
    match table.useSignal slot with
    | (true, table) => (some (.ok .proceedAsync), table)
    | (false, table) => (none, table)

/-- A whole wait that can be told to proceed, during which nothing else happens. A slot that was
told to proceed is still unclaimed. -/
def waitOrProceed (table : Table ρ) (slot : Slot) :
    Except InvocationError (Completion ρ) × Table ρ :=
  if table.claimed slot then (.error (.correlation (.alreadyClaimed slot.id)), table)
  else
    match table.claimOrProceed slot with
    | (some r, table) => (r, table)
    | (none, table) =>
      let (e, table) := table.expire slot
      (.error e, table)

def cancel (table : Table ρ) (slot : Slot) : Bool × Table ρ :=
  match table.takeOwn slot with
  | none => (false, table)
  | some table =>
    let table := table.count fun s => { s with cancelled := s.cancelled + 1 }
    (true, (table.deliver slot.generation (.failed (.cancelled slot.id))).2)

def closeBox (table : Table ρ) (slot : Slot) : Table ρ :=
  { table with boxes := table.boxes.erase slot.generation }

def unread (table : Table ρ) (slot : Slot) : Option (Delivery ρ) :=
  match table.box? slot with
  | some box => if box.hold = .slot then box.arrived else none
  | none => none

/-- Gives a slot up: its result is discarded now or when it arrives. Gives back a result that is
there already. -/
def discard (table : Table ρ) (slot : Slot) : Option ρ × Table ρ :=
  if table.owns slot then
    (none, ({
      table with
      entries := table.entries.insert slot.id ⟨slot.generation, true⟩ } : Table ρ).closeBox slot)
  else
    match table.unread slot with
    | some d => (d.result?,
        (table.count fun s => { s with discarded := s.discarded + 1 }).closeBox slot)
    | none => (none, table.closeBox slot)

/-- Drops a slot. If its result is unclaimed, the entry goes with it; gives back a result that is
there already. -/
def drop (table : Table ρ) (slot : Slot) : Option ρ × Table ρ :=
  if table.claimed slot then (none, table.closeBox slot)
  else ((table.unread slot).bind Delivery.result?, (table.abandon slot).closeBox slot)

end Table

end Farcall
