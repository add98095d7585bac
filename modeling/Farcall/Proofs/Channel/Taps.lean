import Farcall.Channel.Script
import Farcall.Proofs.Channel.Routes

set_option autoImplicit false

/-!
# Calls on streams

Which calls come through to a stream does not show in what a program gives. A `Tap` is a guard with
a log of them: every demand for bytes and every closing that reaches a stream is noted under its
label. Run over a tap, the program gives what it gives over the stream itself, and its log says what
it does to the stream: it asks for bytes first, and closes, if at all, once and at the end.
-/

namespace Farcall

open Decoder

inductive StreamCall where
  | demand (count : Nat)
  | close
deriving DecidableEq, Repr

/-- Calls on streams, each with the label of its stream, first call first. -/
abbrev CallLog := List (Option String × StreamCall)

/-- The guard of an input, and the calls that came through so far. -/
structure Tap where
  guard : Guard
  log : CallLog

instance : ByteSource Tap where
  fetch count tap :=
    match tap.guard with
    | .opened input =>
      ((ByteSource.fetch count input).1,
        ⟨.opened (ByteSource.fetch count input).2, tap.log ++ [(input.label, .demand count)]⟩)
    | .closed => (.error (.ofFault Guard.closedFault), tap)

namespace Tap

def closed (tap : Tap) : Tap :=
  match tap.guard with
  | .opened input => ⟨.closed, tap.log ++ [(input.label, .close)]⟩
  | .closed => tap

def drop (tap : Tap) : List Event × CallLog := (tap.guard.drop, tap.closed.log)

/-- Closes behind a decoder. The guard goes out of scope afterwards, and need not close again. -/
def finish {α : Type} (tap : Tap) (decoded : Except InvocationError α) :
    (Except InvocationError α × List Event) × CallLog :=
  let result := match decoded, tap.guard.close.1 with
    | .ok a, .ok () => .ok a
    | .ok _, .error fault => .error (.close fault)
    | .error e, _ => .error e
  ((result, tap.guard.close.2 ++ tap.closed.drop.1), tap.closed.drop.2)

def release (tap : Tap) : List Event × CallLog :=
  (tap.guard.close.2 ++ tap.closed.drop.1, tap.closed.drop.2)

theorem drop_opened (input : Input) (log : CallLog) :
    (⟨.opened input, log⟩ : Tap).drop = (input.release, log ++ [(input.label, .close)]) := rfl

theorem release_opened (input : Input) (log : CallLog) :
    (⟨.opened input, log⟩ : Tap).release = (input.release, log ++ [(input.label, .close)]) := by
  change (input.close.2 ++ [], _) = _
  rw [List.append_nil]
  rfl

theorem finish_opened {α : Type} (input : Input) (log : CallLog)
    (decoded : Except InvocationError α) : (⟨.opened input, log⟩ : Tap).finish decoded =
      (input.finish decoded, log ++ [(input.label, .close)]) := by
  change ((_, input.close.2 ++ []), _) = _
  rw [List.append_nil]
  unfold Input.finish
  cases decoded with
  | error e => rfl
  | ok a =>
    cases closed : input.close with
    | mk outcome events => cases outcome <;> simp [Guard.close, closed, Tap.closed, drop]

end Tap

/-! ## Reading through a tap -/

def demands (label : Option String) (counts : List Nat) : CallLog :=
  counts.map fun count => (label, .demand count)

namespace Input

/-- Reading changes neither the name of a stream nor how it closes. -/
def SameStream (input rest : Input) : Prop :=
  rest.label = input.label ∧ rest.closeFault = input.closeFault

theorem SameStream.trans {input mid rest : Input} (first : input.SameStream mid)
    (second : mid.SameStream rest) : input.SameStream rest :=
  ⟨second.1.trans first.1, second.2.trans first.2⟩

theorem SameStream.close {input rest : Input} (same : input.SameStream rest) :
    rest.close = input.close := by
  rw [Input.close, Input.close, same.1, same.2]

theorem sameStream_readOn (input : Input) (count : Nat) :
    input.SameStream (input.readOn count).2 := by
  unfold readOn read
  split
  · exact ⟨rfl, rfl⟩
  · split
    · split <;> exact ⟨rfl, rfl⟩
    · exact ⟨rfl, rfl⟩

theorem sameStream_gather (fuel missing : Nat) (got : Bytes) (input : Input) :
    input.SameStream (gather fuel missing got input).2 := by
  induction fuel generalizing missing got input with
  | zero => exact ⟨rfl, rfl⟩
  | succ fuel ih =>
    cases missing with
    | zero => exact ⟨rfl, rfl⟩
    | succ missing =>
      have first := input.sameStream_readOn (missing + 1)
      rw [gather]
      cases read : input.readOn (missing + 1) with
      | mk reading rest =>
        rw [read] at first
        cases reading with
        | bytes data =>
          cases data with
          | nil => exact first
          | cons b data => exact first.trans (ih _ _ rest)
        | interrupted fault => exact first
        | failed fault => exact first

theorem sameStream_run {ε α : Type} (decoder : Decoder ε α) (input : Input) :
    input.SameStream (decoder.run input).2 := by
  induction decoder generalizing input with
  | done result => exact ⟨rfl, rfl⟩
  | need count fault next ih =>
    have first : input.SameStream (ByteSource.fetch count input).2 :=
      sameStream_gather count count [] input
    rw [run]
    cases fetched : ByteSource.fetch count input with
    | mk result rest =>
      rw [fetched] at first
      cases result with
      | ok bytes => exact first.trans (ih bytes rest)
      | error e => exact first

end Input

/-- A decoder reads through a tap what it reads from the stream, and all it does is ask for bytes. -/
theorem run_tap {ε α : Type} (decoder : Decoder ε α) (input : Input) (log : CallLog) :
    ∃ counts, decoder.run (⟨.opened input, log⟩ : Tap) =
      ((decoder.run input).1, ⟨.opened (decoder.run input).2, log ++ demands input.label counts⟩) := by
  induction decoder generalizing input log with
  | done result =>
    refine ⟨[], ?_⟩
    rw [demands, List.map_nil, List.append_nil]
    rfl
  | need count fault next ih =>
    have same : input.SameStream (ByteSource.fetch count input).2 :=
      Input.sameStream_gather count count [] input
    have tapped : ByteSource.fetch count (⟨.opened input, log⟩ : Tap) =
      ((ByteSource.fetch count input).1,
        ⟨.opened (ByteSource.fetch count input).2, log ++ [(input.label, .demand count)]⟩) := rfl
    rw [run, tapped, run]
    cases fetched : ByteSource.fetch count input with
    | mk result rest =>
      rw [fetched] at same
      cases result with
      | error e => exact ⟨[count], rfl⟩
      | ok bytes =>
        obtain ⟨counts, further⟩ := ih bytes rest (log ++ [(input.label, .demand count)])
        refine ⟨count :: counts, ?_⟩
        -- The stream keeps its label, so the demands to come are noted under the same one.
        rw [same.1] at further
        simp only [further, demands, List.map_cons, List.append_assoc, List.cons_append,
          List.nil_append]

/-! ## Results -/

namespace LazyResult

def stream? : LazyResult → Option String
  | known _ _ => none
  | answer _ input => input.label

def readTapped (log : CallLog) : LazyResult → (CallResult × List Event) × CallLog
  | known label result => ((result, label.toList.map .got), log)
  | answer kind input =>
    let (decoded, tap) := kind.tail.run (⟨.opened input, log⟩ : Tap)
    tap.finish (CallResult.ofDecoded decoded)

def discardTapped (log : CallLog) : LazyResult → List Event × CallLog
  | known label _ => (label.toList.map .discarded, log)
  | answer _ input => Tap.release ⟨.opened input, log⟩

def dropTapped (log : CallLog) : LazyResult → List Event × CallLog
  | known label _ => (label.toList.map .dropped, log)
  | answer _ input => Tap.drop ⟨.opened input, log⟩

/-- What the streams see of a result that is used up. -/
def closing : LazyResult → CallLog
  | known _ _ => []
  | answer _ input => [(input.label, .close)]

theorem readTapped_eq (log : CallLog) (result : LazyResult) : ∃ counts,
    result.readTapped log =
      (result.read, log ++ demands result.stream? counts ++ result.closing) := by
  cases result with
  | known label result =>
    refine ⟨[], ?_⟩
    simp only [demands, closing, List.map_nil, List.append_nil]
    rfl
  | answer kind input =>
    obtain ⟨counts, tapped⟩ := run_tap kind.tail input log
    have same := Input.sameStream_run kind.tail input
    refine ⟨counts, ?_⟩
    simp only [readTapped, tapped, Tap.finish_opened, ← kind.read_eq, same.1]
    simp only [Input.finish, same.close]
    rfl

theorem discardTapped_eq (log : CallLog) (result : LazyResult) :
    result.discardTapped log = (result.discard, log ++ result.closing) := by
  cases result with
  | known label result => rw [closing, List.append_nil]; rfl
  | answer kind input => exact Tap.release_opened input log

theorem dropTapped_eq (log : CallLog) (result : LazyResult) :
    result.dropTapped log = (result.drop, log ++ result.closing) := by
  cases result with
  | known label result => rw [closing, List.append_nil]; rfl
  | answer kind input => exact Tap.drop_opened input log

end LazyResult

/-! ## Messages -/

namespace Association

/-- Processes a message through a tap. A guard that is handed on goes with the answer. -/
def attend (association : Association) (registry : Registry) (tap : Tap) : Processed × CallLog :=
  match Route.decoder.run tap with
  | (.error e, tap) => (⟨.error (.protocol e), association, registry, tap.drop.1⟩, tap.drop.2)
  | (.ok (.foreign header), tap) =>
    (⟨.error (notFromHost header), association, registry, tap.drop.1⟩, tap.drop.2)
  | (.ok (.answer kind id), tap) =>
    match tap.guard with
    | .closed => (⟨.ok (), association, registry, []⟩, tap.log)
    | .opened input =>
      match association.table.fulfill id (.answer kind input) with
      | ((_, none), table) => (⟨.ok (), { association with table }, registry, []⟩, tap.log)
      | ((_, some result), table) =>
        let (events, log) := result.discardTapped tap.log
        (⟨.ok (), { association with table }, registry, events⟩, log)
  | (.ok (.announcement news), tap) =>
    match tap.finish (.ok news) with
    | ((.error e, events), log) => (⟨.error e, association, registry, events⟩, log)
    | ((.ok news, events), log) =>
      let (association, registry) := association.modulesChanged registry news
      (⟨.ok (), association, registry, events⟩, log)
  | (.ok (.notification id), tap) =>
    match tap.finish (.ok id) with
    | ((.error e, events), log) => (⟨.error e, association, registry, events⟩, log)
    | ((.ok id, events), log) => (⟨.ok (), (association.proceedAsync id).2, registry, events⟩, log)

def closings (association : Association) (input : Input) : Except FrameError Route → CallLog
  | .ok (.answer kind id) =>
    (association.table.fulfill id (.answer kind input)).1.2.toList.flatMap LazyResult.closing
  | _ => [(input.label, .close)]

theorem attend_eq (association : Association) (registry : Registry) (input : Input)
    (log : CallLog) : ∃ counts, association.attend registry ⟨.opened input, log⟩ =
      (association.process registry input, log ++ demands input.label counts ++
        association.closings (Route.decoder.run input).2 (Route.decoder.run input).1) := by
  obtain ⟨counts, tapped⟩ := run_tap Route.decoder input log
  refine ⟨counts, ?_⟩
  rw [attend, tapped, process_eq]
  generalize (Route.decoder.run input).2 = rest
  cases (Route.decoder.run input).1 with
  | error e => rfl
  | ok route =>
    cases route with
    | foreign header => rfl
    | answer kind id =>
      simp only [settle, resultReady, closings]
      cases association.table.fulfill id (.answer kind rest) with
      | mk found table =>
        obtain ⟨found, rejected⟩ := found
        cases rejected with
        | none => simp
        | some result => simp [LazyResult.discardTapped_eq]
    | announcement news =>
      simp only [Tap.finish_opened, Input.finish, settle, closings]
      cases rest.close with
      | mk closed events => cases closed <;> rfl
    | notification id =>
      simp only [Tap.finish_opened, Input.finish, settle, closings]
      cases rest.close with
      | mk closed events => cases closed <;> rfl

end Association

end Farcall
