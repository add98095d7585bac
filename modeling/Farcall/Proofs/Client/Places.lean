import Farcall.Proofs.Client.Elsewhere
import Mathlib.Data.List.Perm.Basic

set_option autoImplicit false

/-!
# Places

Each slot of a table is in one place: some work waits on it, or a caller holds the call. What is done
from one place leaves the others as they are, because no two places have the same slot.
-/

namespace Farcall

/-- Where a slot is, and who has its box; without a word on that no wait is under way. -/
structure Place where
  receiver : ReceiverId
  slot : Slot
  hold : Option Hold

def Work.place (work : Work) : Place := ⟨work.receiver, work.slot, some work.hold⟩

def Future.place (future : Future) : Place := ⟨future.receiver, future.slot, none⟩

def Outcome.places (outcome : Outcome) : List Place := outcome.future?.toList.map Future.place

def Start.places : Start → List Place
  | ended outcome => outcome.places
  | running work _ => [work.place]

def Work.left (work : Work) : Option Outcome → List Place
  | none => [work.place]
  | some outcome => outcome.places

theorem Outcome.Of.places {outcome : Outcome} {receiver : ReceiverId} (of : outcome.Of receiver) :
    ∀ place ∈ outcome.places, place.receiver = receiver := by
  intro place mem
  obtain ⟨future, held, rfl⟩ := List.mem_map.mp mem
  exact of future (Option.mem_toList.mp held)

theorem Start.Of.places {start : Start} {receiver : ReceiverId} (of : start.Of receiver) :
    ∀ place ∈ start.places, place.receiver = receiver := by
  cases start with
  | ended outcome => exact Outcome.Of.places of
  | running work timeout =>
    intro place mem
    rw [List.mem_singleton.mp mem]
    exact of

def Place.Stands (place : Place) (table : Table LazyResult) : Prop :=
  match place.hold with
  | some hold => table.holder? place.slot = some hold
  | none => table.Kept place.slot

def slotsAt (receiver : ReceiverId) (places : List Place) : List Slot :=
  (places.filter (·.receiver = receiver)).map (·.slot)

/-- The table of a receiver comes from a run, and every slot is in one place. -/
structure Fits (places : List Place) (receiver : ReceiverId) (table : Table LazyResult) : Prop where
  run : ∃ limit trace, Run limit trace table
  stands : ∀ place ∈ places, place.receiver = receiver → place.Stands table
  distinct : (slotsAt receiver places).Nodup

variable {place : Place} {places rest : List Place} {receiver : ReceiverId}
  {table after : Table LazyResult}

theorem Place.Stands.hasSlot (stands : place.Stands table) : table.HasSlot place.slot := by
  unfold Place.Stands at stands
  split at stands
  · exact ⟨_, stands⟩
  · exact Table.holder_of_idle (Table.Kept.idle stands)

theorem Place.Stands.congr (stands : place.Stands table)
    (same : after.holder? place.slot = table.holder? place.slot)
    (elder : Table.Elder table after) (c : table.Coupled) : place.Stands after := by
  have old := c.generation_lt stands.hasSlot
  unfold Place.Stands Table.Kept at stands ⊢
  rw [same]
  split at stands
  · exact stands
  · exact stands.imp_right fun read => ⟨read.1, fun back => read.2 (elder.entries _ old back)⟩

theorem slotsAt_cons_own (place : Place) (rest : List Place) :
    slotsAt place.receiver (place :: rest) = place.slot :: slotsAt place.receiver rest := by
  simp [slotsAt]

theorem slotsAt_cons_other (rest : List Place) (other : place.receiver ≠ receiver) :
    slotsAt receiver (place :: rest) = slotsAt receiver rest := by
  simp [slotsAt, other]

theorem mem_slotsAt (mem : place ∈ places) (here : place.receiver = receiver) :
    place.slot ∈ slotsAt receiver places := by
  refine List.mem_map_of_mem (List.mem_filter.mpr ⟨mem, ?_⟩)
  simpa using here

namespace Fits

theorem sound (fits : Fits places receiver table) : table.Sound := by
  obtain ⟨limit, trace, run⟩ := fits.run
  exact run.sound

theorem perm {others : List Place} (fits : Fits places receiver table)
    (same : places.Perm others) : Fits others receiver table := by
  refine ⟨fits.run, fun place mem => fits.stands place (same.mem_iff.mpr mem), ?_⟩
  exact ((same.filter _).map _).nodup_iff.mp fits.distinct

theorem tail (fits : Fits (place :: rest) receiver table) : Fits rest receiver table := by
  refine ⟨fits.run, fun other mem => fits.stands other (List.mem_cons_of_mem _ mem), ?_⟩
  by_cases here : place.receiver = receiver
  · subst here
    have distinct := fits.distinct
    rw [slotsAt_cons_own] at distinct
    exact distinct.of_cons
  · have distinct := fits.distinct
    rwa [slotsAt_cons_other rest here] at distinct

theorem of_append {extra : List Place} (fits : Fits (extra ++ rest) receiver table) :
    Fits rest receiver table := by
  induction extra with
  | nil => exact fits
  | cons place extra ih => exact ih fits.tail

theorem of_other (fits : Fits rest receiver table) (other : place.receiver ≠ receiver) :
    Fits (place :: rest) receiver table := by
  refine ⟨fits.run, ?_, ?_⟩
  · intro own mem here
    rcases List.mem_cons.mp mem with rfl | mem
    · exact absurd here other
    · exact fits.stands own mem here
  · rw [slotsAt_cons_other rest other]
    exact fits.distinct

theorem of_others (fits : Fits rest receiver table) {extra : List Place}
    (others : ∀ place ∈ extra, place.receiver ≠ receiver) : Fits (extra ++ rest) receiver table := by
  induction extra with
  | nil => exact fits
  | cons place extra ih =>
    have behind := ih fun other mem => others other (List.mem_cons_of_mem _ mem)
    exact behind.of_other (others place (List.mem_cons_self ..))

theorem apart (fits : Fits (place :: rest) place.receiver table) {other : Place}
    (mem : other ∈ rest) (here : other.receiver = place.receiver) :
    other.slot.generation ≠ place.slot.generation := by
  intro same
  have distinct := fits.distinct
  rw [slotsAt_cons_own, List.nodup_cons] at distinct
  have own := (fits.stands place (List.mem_cons_self ..) rfl).hasSlot
  have stands := fits.stands other (List.mem_cons_of_mem _ mem) here
  have slots := Table.eq_of_generation stands.hasSlot own same
  exact distinct.1 (slots ▸ mem_slotsAt mem here)

theorem works (fits : Fits (place :: rest) place.receiver table)
    (works : Table.Works place.slot table after) : Fits rest place.receiver after := by
  obtain ⟨limit, trace, run⟩ := fits.run
  refine ⟨⟨limit, works.run run⟩, ?_, fits.tail.distinct⟩
  intro other mem here
  have stands := fits.stands other (List.mem_cons_of_mem _ mem) here
  exact stands.congr (works.holder (fits.apart mem here)) works.elder run.sound.toCoupled

theorem stay (fits : Fits (place :: rest) place.receiver table)
    (works : Table.Works place.slot table after)
    (held : after.holder? place.slot = table.holder? place.slot) :
    Fits (place :: rest) place.receiver after := by
  have own := fits.stands place (List.mem_cons_self ..) rfl
  have behind := fits.works works
  refine ⟨behind.run, ?_, fits.distinct⟩
  intro other mem here
  rcases List.mem_cons.mp mem with rfl | mem
  · exact own.congr held works.elder fits.sound.toCoupled
  · exact behind.stands other mem here

theorem put (fits : Fits rest place.receiver table) (stands : place.Stands table)
    (new : place.slot ∉ slotsAt place.receiver rest) : Fits (place :: rest) place.receiver table := by
  refine ⟨fits.run, ?_, ?_⟩
  · intro other mem here
    rcases List.mem_cons.mp mem with rfl | mem
    · exact stands
    · exact fits.stands other mem here
  · rw [slotsAt_cons_own, List.nodup_cons]
    exact ⟨new, fits.distinct⟩

theorem perform (fits : Fits places receiver table) (op : Op LazyResult)
    (allowed : table.Allowed op) (nobody : op.slot? = none) :
    Fits places receiver (table.perform op).2 := by
  obtain ⟨limit, trace, run⟩ := fits.run
  refine ⟨⟨limit, _, run.step allowed⟩, ?_, fits.distinct⟩
  intro place mem here
  have stands := fits.stands place mem here
  refine stands.congr (Table.holder_perform run.sound.toCoupled allowed stands.hasSlot ?_)
    (Table.elder_perform allowed) run.sound.toCoupled
  rw [nobody]
  exact (Option.some_ne_none _).symm

theorem enter (fits : Fits places receiver table) {id : UInt16}
    (registered : table.register.1 = .ok (table.enter id).1) :
    Fits places receiver (table.enter id).2 ∧ (table.enter id).1 ∉ slotsAt receiver places := by
  have behind := fits.perform .register trivial rfl
  rw [Table.perform, (Table.register_of_ok registered).1] at behind
  refine ⟨behind, ?_⟩
  intro mem
  obtain ⟨place, mem, same⟩ := List.mem_map.mp mem
  obtain ⟨mem, here⟩ := List.mem_filter.mp mem
  have known := (fits.stands place mem (by simpa using here)).hasSlot
  have old := fits.sound.generation_lt known
  rw [same] at old
  exact Nat.lt_irrefl _ old

end Fits

/-! ## What is left of a place -/

namespace Fits

theorem leave {outcome : Outcome} (fits : Fits (place :: rest) place.receiver table)
    (works : Table.Works place.slot table after)
    (leaves : outcome.Leaves place.receiver place.slot after) :
    Fits (outcome.places ++ rest) place.receiver after := by
  have behind := fits.works works
  have distinct := fits.distinct
  rw [slotsAt_cons_own, List.nodup_cons] at distinct
  unfold Outcome.places
  cases held : outcome.future? with
  | none => exact behind
  | some future =>
    obtain ⟨here, same, idle⟩ := leaves.held future held
    rw [← here] at distinct behind ⊢
    rw [← same] at distinct idle
    have own : Fits rest future.place.receiver after := behind
    exact own.put idle distinct.1

theorem looked {work : Work} {link behind : Link} {result : Option Outcome}
    (fits : Fits (work.place :: rest) work.receiver link.association.table)
    (looked : Site.Looked work link result behind) :
    Fits (work.left result ++ rest) work.receiver behind.association.table := by
  cases looked with
  | waits works attends =>
    refine fits.stay works ?_
    rcases attends with rfl | rfl
    · rfl
    · exact Table.holder_attend _ work.slot work.slot
  | ended works leaves => exact fits.leave works leaves

theorem entered (fits : Fits places receiver table) {id : UInt16}
    (registered : table.register.1 = .ok (table.enter id).1) :
    Fits (⟨receiver, (table.enter id).1, some .slot⟩ :: places) receiver (table.enter id).2 := by
  obtain ⟨behind, new⟩ := fits.enter registered
  have own : Fits places (Place.mk receiver (table.enter id).1 (some .slot)).receiver
    (table.enter id).2 := behind
  exact own.put (Table.holder_enter_self table id) new

theorem begun {start : Start} {link behind : Link}
    (fits : Fits places receiver link.association.table)
    (begun : Site.Begun receiver link start behind) :
    Fits (start.places ++ places) receiver behind.association.table := by
  cases begun with
  | refused fails =>
    rw [Start.places, Outcome.places, fails.nobody]
    exact fits
  | withdrawn registered works gone fails =>
    rw [Start.places, Outcome.places, fails.nobody]
    exact (fits.entered registered).works works
  | left registered works goesOn leaves => exact (fits.entered registered).leave works leaves
  | @running id message work timeout table registered works at_receiver own held =>
    obtain ⟨-, new⟩ := fits.enter registered
    have left : Fits places receiver table := (fits.entered registered).works works
    rw [← at_receiver, ← own] at new
    rw [← at_receiver] at left ⊢
    have here : Fits places work.place.receiver table := left
    exact here.put held new

theorem claimed {future : Future} {start : Start} {link behind : Link}
    (fits : Fits (future.place :: rest) future.receiver link.association.table)
    (claimed : Site.Claimed future link start behind) :
    Fits (start.places ++ rest) future.receiver behind.association.table := by
  cases claimed with
  | refused gone => exact fits
  | @running timeout table works held =>
    have distinct := fits.distinct
    have own : slotsAt future.receiver (future.place :: rest) =
      future.slot :: slotsAt future.receiver rest := slotsAt_cons_own future.place rest
    rw [own, List.nodup_cons] at distinct
    have left : Fits rest future.place.receiver table := fits.works works
    have here : Fits rest (Work.claiming future).place.receiver table := left
    exact here.put held distinct.1

end Fits

end Farcall
