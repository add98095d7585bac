import Farcall.Proofs.Correlation.Fates
import Mathlib.Data.List.Basic

set_option autoImplicit false

/-!
# Custody of results

A table makes no results and loses none. Whatever is done to it, the results that lie in its boxes
afterwards and those that the operation gives away are the results that lay there before and the one
that came, if one did. This holds as well when a wait is broken off and when nobody reads the box of
a live entry.
-/

namespace Farcall

variable {ρ : Type}

def Op.given? : Op ρ → Option ρ
  | fulfill _ r => some r
  | _ => none

def Effect.released (effect : Effect ρ) : List ρ :=
  effect.returned.toList ++ effect.discarded.toList ++ effect.lost.toList

namespace Table

def stored? (table : Table ρ) (g : Nat) : Option ρ :=
  (table.boxes[g]?).bind fun box => box.arrived.bind Delivery.result?

def contents (table : Table ρ) : List ρ :=
  (List.range table.nextGeneration).filterMap table.stored?

theorem stored_iff {table : Table ρ} {g : Nat} {r : ρ} : table.stored? g = some r ↔
    ∃ box, table.boxes[g]? = some box ∧ box.arrived = some (.result r) := by
  have result : ∀ d : Delivery ρ, d.result? = some r ↔ d = .result r := by
    intro d
    cases d <;> simp [Delivery.result?]
  simp only [stored?, Option.bind_eq_some_iff, result, exists_eq_right]

theorem mem_contents {table : Table ρ} (c : table.Coupled) {r : ρ} : r ∈ table.contents ↔
    ∃ (g : Nat) (box : Box ρ), table.boxes[g]? = some box ∧ box.arrived = some (.result r) := by
  simp only [contents, List.mem_filterMap, List.mem_range, stored_iff]
  constructor
  · rintro ⟨g, -, box, found, arrived⟩
    exact ⟨g, box, found, arrived⟩
  · rintro ⟨g, box, found, arrived⟩
    exact ⟨g, c.known g box found, box, found, arrived⟩

theorem unread_eq_some {table : Table ρ} {g : Nat} {id : UInt16} {r : ρ} :
    table.unread? ⟨id, g⟩ = some r ↔
      ∃ box, table.boxes[g]? = some box ∧ box.id = id ∧ box.arrived.bind Delivery.result? = some r := by
  cases found : table.boxes[g]? with
  | none => simp [unread?, box?, found]
  | some box =>
    by_cases same : box.id = id
    · simp [unread?, box?, found, same]
    · simp [unread?, box?, found, same]

theorem stored_eq_some {table : Table ρ} {g : Nat} {r : ρ} :
    table.stored? g = some r ↔ ∃ id, table.unread? ⟨id, g⟩ = some r := by
  simp only [unread_eq_some, stored?, Option.bind_eq_some_iff]
  constructor
  · rintro ⟨box, found, stored⟩
    exact ⟨box.id, box, found, rfl, stored⟩
  · rintro ⟨id, box, found, -, stored⟩
    exact ⟨box, found, stored⟩

theorem filterMap_range_succ (f : Nat → Option ρ) (n : Nat) :
    (List.range (n + 1)).filterMap f = (List.range n).filterMap f ++ (f n).toList := by
  rw [List.range_succ, List.filterMap_append]
  cases given : f n <;> simp [given]

theorem contents_eq {table : Table ρ} (c : table.Coupled) {n : Nat}
    (long : table.nextGeneration ≤ n) : (List.range n).filterMap table.stored? = table.contents := by
  induction long with
  | refl => rfl
  | @step n long ih =>
    have absent : table.boxes[n]? = none := by
      cases found : table.boxes[n]? with
      | none => rfl
      | some box =>
        have old := c.known n box found
        change table.nextGeneration ≤ n at long
        omega
    have empty : table.stored? n = none := by
      rw [stored?, absent, Option.bind_none]
    rw [filterMap_range_succ, ih, empty]
    exact List.append_nil _

/-- Where two rows of places differ in one place, what they hold differs by what is there. -/
theorem countP_of_place {f f' : Nat → Option ρ} {g n : Nat} (within : g < n)
    (others : ∀ k, k ≠ g → f' k = f k) (p : ρ → Bool) :
    ((List.range n).filterMap f').countP p + (f g).toList.countP p =
      ((List.range n).filterMap f).countP p + (f' g).toList.countP p := by
  induction n with
  | zero => omega
  | succ n ih =>
    rw [filterMap_range_succ, filterMap_range_succ, List.countP_append, List.countP_append]
    by_cases here : g = n
    · subst g
      have front : (List.range n).filterMap f' = (List.range n).filterMap f := by
        refine List.filterMap_congr ?_
        intro k mem
        exact others k (Nat.ne_of_lt (List.mem_range.mp mem))
      rw [front]
      omega
    · have before := ih (by omega)
      rw [others n (Ne.symm here)]
      omega

/-- What lies in the boxes and what was given away is what lay there and what came. -/
def Conserves (before after : Table ρ) (given released : List ρ) : Prop :=
  ∀ p : ρ → Bool, after.contents.countP p + released.countP p =
    before.contents.countP p + given.countP p

theorem Conserves.of_unread {before after : Table ρ} (c : before.Coupled) (c' : after.Coupled)
    (same : ∀ k, after.unread? k = before.unread? k) : Conserves before after [] [] := by
  intro p
  have stored : after.stored? = before.stored? := by
    funext g
    refine Option.ext fun r => ?_
    simp only [stored_eq_some, same]
  rw [← contents_eq c (Nat.le_max_left _ after.nextGeneration),
    ← contents_eq c' (Nat.le_max_right before.nextGeneration _), stored]

theorem Conserves.hand_back {before after : Table ρ} (none : Conserves before after [] [])
    (r : ρ) : Conserves before after [r] [r] := by
  intro p
  have same := none p
  simp only [List.countP_nil, Nat.add_zero] at same
  rw [same]

theorem countP_of_flow {before behind b r d : Option ρ} (flow : Flow before b r d behind)
    (p : ρ → Bool) : behind.toList.countP p + (r.toList ++ d.toList).countP p =
      before.toList.countP p + b.toList.countP p := by
  rw [List.countP_append]
  cases flow <;> simp

theorem Conserves.of_flow {before after : Table ρ} (c : before.Coupled) (c' : after.Coupled)
    {slot : Slot} {hold : Hold} (held : before.holder? slot = some hold) {b r d : Option ρ}
    (flow : ∀ k, Flow (before.unread? k) (if slot = k then b else none)
      (if slot = k then r else none) (if slot = k then d else none) (after.unread? k)) :
    Conserves before after b.toList (r.toList ++ d.toList) := by
  obtain ⟨box, found, same_id, -⟩ := box_of_holder held
  have foreign : ∀ k, slot ≠ k → after.unread? k = before.unread? k := by
    intro k other
    have flow := flow k
    simp only [other, ↓reduceIte] at flow
    generalize before.unread? k = x at flow ⊢
    generalize after.unread? k = y at flow ⊢
    cases flow <;> rfl
  have others : ∀ g, g ≠ slot.generation → after.stored? g = before.stored? g := by
    intro g other
    refine Option.ext fun r => ?_
    have apart : ∀ id, slot ≠ ⟨id, g⟩ := by
      rintro id rfl
      exact other rfl
    simp only [stored_eq_some, foreign _ (apart _)]
  have own_before : before.stored? slot.generation = before.unread? slot := by
    rw [box?] at found
    rw [unread_of_box found same_id, stored?, found, Option.bind_some]
  have own_after : after.stored? slot.generation = after.unread? slot := by
    refine Option.ext fun r => ?_
    rw [stored_eq_some]
    constructor
    · rintro ⟨id, unread⟩
      -- A slot of another id with this generation has no box, before as behind.
      by_cases same : slot.id = id
      · rw [← same] at unread
        exact unread
      · have other : slot ≠ ⟨id, slot.generation⟩ := fun slot_eq => same (congrArg Slot.id slot_eq)
        rw [foreign _ other] at unread
        obtain ⟨box', found', same', -⟩ := unread_eq_some.mp unread
        rw [← box?, found] at found'
        rw [← Option.some.inj found', same_id] at same'
        exact absurd same' same
    · intro unread
      exact ⟨slot.id, unread⟩
  intro p
  have within : slot.generation < max before.nextGeneration after.nextGeneration :=
    Nat.lt_of_lt_of_le (c.known _ box found) (Nat.le_max_left _ _)
  have place := countP_of_place within others p
  rw [contents_eq c (Nat.le_max_left _ _), contents_eq c' (Nat.le_max_right _ _), own_before,
    own_after] at place
  have own := flow slot
  simp only [↓reduceIte] at own
  have here := countP_of_flow own p
  omega

theorem Conserves.of_read {before after : Table ρ} (c : before.Coupled) (c' : after.Coupled)
    {slot : Slot} {hold : Hold} (held : before.holder? slot = some hold) {r : Option ρ}
    (flow : ∀ k, Flow (before.unread? k) none (if slot = k then r else none) none
      (after.unread? k)) : Conserves before after [] r.toList := by
  have given := Conserves.of_flow c c' held (b := none) (r := r) (d := none) fun k => by
    simpa only [ite_self] using flow k
  rwa [Option.toList_none, List.append_nil] at given

theorem Conserves.of_leave {before after : Table ρ} (c : before.Coupled) (c' : after.Coupled)
    {slot : Slot} {hold : Hold} (held : before.holder? slot = some hold) {d : Option ρ}
    (flow : ∀ k, Flow (before.unread? k) none none (if slot = k then d else none)
      (after.unread? k)) : Conserves before after [] d.toList :=
  Conserves.of_flow c c' held (b := none) (r := none) (d := d) fun k => by
    simpa only [ite_self] using flow k

/-! ## Operations -/

variable {table : Table ρ}

theorem conserves_fulfill (sound : table.Sound) (id : UInt16) (r : ρ) :
    Conserves table (table.fulfill id r).2 [r] (table.fulfill id r).1.2.toList := by
  have c := sound.toCoupled
  have c' := (sound.changes (changes_fulfill table id r)).toCoupled
  cases found : table.entries[id]? with
  | none =>
    rw [fulfill_of_none found] at c' ⊢
    exact Conserves.hand_back (.of_unread c c' fun _ => rfl) r
  | some entry =>
    cases marked : entry.discard with
    | true =>
      rw [fulfill_of_marked found marked] at c' ⊢
      exact Conserves.hand_back (.of_unread c c' fun _ => rfl) r
    | false =>
      rw [fulfill_of_live found marked] at c' ⊢
      rw [deliver_rejected]
      by_cases read : table.Read entry.generation
      · obtain ⟨box, at_g, there⟩ := read
        have put : ∃ box, (table.without id).boxes[entry.generation]? = some box ∧
            box.hold ≠ .gone := ⟨box, at_g, there⟩
        have held : table.holder? ⟨id, entry.generation⟩ = some box.hold := by
          have same := (c.awaited id entry box found at_g).2.1
          simp only [holder?, box?, at_g, same, ↓reduceIte]
        rw [if_pos put]
        refine Conserves.of_flow c c' held (b := some r) (r := none) (d := none) ?_
        intro k
        simp only [ite_self]
        exact flow_deliver c found ⟨box, at_g, there⟩ (.result r) k
      · -- An entry whose slot is gone is live where a wait was broken off.
        have nobody : ¬ ∃ box, (table.without id).boxes[entry.generation]? = some box ∧
            box.hold ≠ .gone := read
        rw [if_neg nobody]
        exact Conserves.hand_back (.of_unread c c' (unread_of_deserted read _)) r

theorem released_of_look {effect : Effect ρ}
    (nothing : effect.discarded = none ∧ effect.lost = none) :
    effect.released = effect.returned.toList := by
  simp only [Effect.released, nothing.1, nothing.2, Option.toList_none, List.append_nil]

theorem released_of_leave (d : Option ρ) : (⟨.nothing, d, none⟩ : Effect ρ).released = d.toList :=
  List.append_nil _

/-- Every operation conserves the results. -/
theorem conserves_perform (sound : table.Sound) {op : Op ρ} (allowed : table.Allowed op) :
    Conserves table (table.perform op).2 op.given?.toList (table.perform op).1.released := by
  have c := sound.toCoupled
  have c' := (sound.perform allowed).toCoupled
  cases op with
  | register => exact .of_unread c c' (unread_register c)
  | fulfill id r =>
    have back : (table.perform (.fulfill id r)).1.released = (table.fulfill id r).1.2.toList :=
      List.append_nil _
    rw [back]
    exact conserves_fulfill sound id r
  | fail id e => exact .of_unread c c' (unread_fail c id e)
  | failAll reason => exact .of_unread c c' (unread_failAll sound reason)
  | proceedAsync id => exact .of_unread c c' (unread_proceedAsync table id)
  | beginWait slot =>
    rw [released_of_look (beginWait_gives_nothing table slot), returned_beginWait]
    exact .of_unread c c' (unread_beginWait table slot)
  | look slot late =>
    change Conserves table (table.lookOn slot late).2 [] (table.lookOn slot late).1.released
    rw [released_of_look (lookOn_gives_nothing table slot late)]
    exact .of_read c c' allowed (flow_lookOn allowed late)
  | breakOff slot =>
    have lost : (table.perform (.breakOff slot)).1.released = (table.unread? slot).toList := by
      rw [unread_of_arrival allowed]
      rfl
    rw [lost]
    exact .of_read c c' allowed (flow_spend allowed (.read _))
  | lookOrProceed slot late =>
    obtain ⟨hold, held⟩ := holder_of_idle allowed
    change Conserves table (table.lookOrProceed slot late).2 []
      (table.lookOrProceed slot late).1.released
    rw [released_of_look (lookOrProceed_gives_nothing table slot late)]
    exact .of_read c c' held (flow_lookOrProceed held late)
  | letGo slot => exact .of_unread c c' (unread_resignal table _ _)
  | cancel slot => exact .of_unread c c' (unread_cancel c slot)
  | discard slot =>
    obtain ⟨hold, held⟩ := holder_of_idle allowed
    change Conserves table (table.discard slot).2 [] (Effect.released ⟨.nothing, _, none⟩)
    rw [released_of_leave]
    exact .of_leave c c' held (flow_discard c allowed)
  | drop slot =>
    obtain ⟨hold, held⟩ := holder_of_idle allowed
    change Conserves table (table.drop slot).2 [] (Effect.released ⟨.nothing, _, none⟩)
    rw [released_of_leave]
    exact .of_leave c c' held (flow_drop c allowed)

end Table

end Farcall
