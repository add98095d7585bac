import Farcall.Proofs.Channel.Binding
import Mathlib.Data.Finset.Dedup
import Mathlib.Data.Finset.Erase
import Mathlib.Data.Finset.Insert
import Mathlib.Data.List.Sort

set_option autoImplicit false

/-!
# Rosters

A roster says which receivers of a client are there and which modules each of them has, as a map to
finite sets. Receivers are numbered as they join, so the roster also knows who came first. A registry
holds the same sets in its own way, and whatever is done to both leaves them alike.
-/

namespace Farcall

/-- The receivers that joined, and the modules of those that are still there. -/
structure Roster where
  joined : Nat
  sets : ReceiverId → Option (Finset ModuleId)

namespace Roster

def empty : Roster := ⟨0, fun _ => none⟩

def ids (roster : Roster) : List ReceiverId := (List.range roster.joined).map fun k => ⟨k + 1⟩

def here (roster : Roster) (id : ReceiverId) : Bool := (roster.sets id).isSome

def modules (roster : Roster) (id : ReceiverId) : Finset ModuleId := (roster.sets id).getD ∅

def withSet (roster : Roster) (id : ReceiverId) (modules : Option (Finset ModuleId)) : Roster :=
  { roster with sets := Function.update roster.sets id modules }

def join (roster : Roster) : ReceiverId × Roster :=
  (⟨roster.joined + 1⟩,
    { roster.withSet ⟨roster.joined + 1⟩ (some ∅) with joined := roster.joined + 1 })

def leave (roster : Roster) (id : ReceiverId) : Bool × Roster :=
  (roster.here id, roster.withSet id none)

def register (roster : Roster) (id : ReceiverId) (module : ModuleId) : Bool × Roster :=
  match roster.sets id with
  | none => (false, roster)
  | some modules => (decide (module ∉ modules), roster.withSet id (some (insert module modules)))

def deregister (roster : Roster) (id : ReceiverId) (module : ModuleId) : Bool × Roster :=
  match roster.sets id with
  | none => (false, roster)
  | some modules => (decide (module ∈ modules), roster.withSet id (some (modules.erase module)))

def applyName (available : Bool) (id : ReceiverId) (roster : Roster) (triple : Triple) : Roster :=
  match ModuleId.ofTriple triple with
  | .error _ => roster
  | .ok module =>
    if available then (roster.register id module).2 else (roster.deregister id module).2

def announce (id : ReceiverId) (roster : Roster) (announcement : ModuleAvailability) : Roster :=
  announcement.modules.foldl (applyName announcement.available id) roster

def announceAll (roster : Roster) (id : ReceiverId) (announcements : List ModuleAvailability) :
    Roster :=
  announcements.foldl (announce id) roster

/-- Those that have a module, in the order in which they joined. -/
def accepting (roster : Roster) (module : ModuleId) : List ReceiverId :=
  roster.ids.filter fun id => decide (module ∈ roster.modules id)

def earliest? (roster : Roster) (module : ModuleId) : Option ReceiverId :=
  roster.ids.find? fun id => decide (module ∈ roster.modules id)

theorem ascending_ids (roster : Roster) :
    roster.ids.Pairwise fun a b => a.number < b.number := by
  refine List.pairwise_map.mpr (List.pairwise_lt_range.imp ?_)
  exact fun less => Nat.succ_lt_succ less

theorem mem_ids {roster : Roster} {id : ReceiverId} :
    id ∈ roster.ids ↔ 0 < id.number ∧ id.number ≤ roster.joined := by
  obtain ⟨number⟩ := id
  simp only [ids, List.mem_map, List.mem_range, ReceiverId.mk.injEq]
  constructor
  · rintro ⟨k, less, rfl⟩
    exact ⟨Nat.succ_pos k, less⟩
  · rintro ⟨positive, le⟩
    exact ⟨number - 1, by omega, by omega⟩

theorem mem_accepting {roster : Roster} {module : ModuleId} {id : ReceiverId} :
    id ∈ roster.accepting module ↔ id ∈ roster.ids ∧ module ∈ roster.modules id := by
  rw [accepting, List.mem_filter, decide_eq_true_iff]

theorem earliest?_eq (roster : Roster) (module : ModuleId) :
    roster.earliest? module = (roster.accepting module).head? :=
  List.head?_filter.symm

theorem mem_of_earliest? {roster : Roster} {module : ModuleId} {id : ReceiverId}
    (found : roster.earliest? module = some id) : module ∈ roster.modules id := by
  rw [earliest?_eq] at found
  exact (mem_accepting.mp (List.mem_of_head? found)).2

theorem here_of_mem {roster : Roster} {id : ReceiverId} {module : ModuleId}
    (mem : module ∈ roster.modules id) : roster.here id = true := by
  unfold modules at mem
  unfold here
  cases found : roster.sets id with
  | none => simp [found] at mem
  | some modules => rfl

/-! ## Who is there -/

structure Kept (before after : Roster) : Prop where
  joined : after.joined = before.joined
  here : ∀ id, after.here id = before.here id

theorem Kept.refl (roster : Roster) : roster.Kept roster := ⟨rfl, fun _ => rfl⟩

theorem Kept.trans {before mid after : Roster} (first : before.Kept mid) (second : mid.Kept after) :
    before.Kept after :=
  ⟨second.joined.trans first.joined, fun id => (second.here id).trans (first.here id)⟩

theorem kept_foldl {α : Type} {f : Roster → α → Roster}
    (step : ∀ (roster : Roster) (a : α), roster.Kept (f roster a))
    (roster : Roster) (items : List α) : roster.Kept (items.foldl f roster) := by
  induction items generalizing roster with
  | nil => exact .refl roster
  | cons a items ih => exact (step roster a).trans (ih (f roster a))

theorem here_withSet (roster : Roster) (id : ReceiverId) (modules : Option (Finset ModuleId))
    (other : ReceiverId) : (roster.withSet id modules).here other =
      if other = id then modules.isSome else roster.here other := by
  change (Function.update roster.sets id modules other).isSome = _
  rw [Function.update_apply]
  split <;> rfl

theorem kept_withSet {roster : Roster} {id : ReceiverId} (here : roster.here id = true)
    (modules : Finset ModuleId) : roster.Kept (roster.withSet id (some modules)) := by
  refine ⟨rfl, fun other => ?_⟩
  rw [here_withSet]
  split
  · next same => rw [same, here, Option.isSome_some]
  · rfl

theorem kept_register (roster : Roster) (id : ReceiverId) (module : ModuleId) :
    roster.Kept (roster.register id module).2 := by
  unfold register
  split
  · exact .refl roster
  · next found => exact kept_withSet (by rw [here, found, Option.isSome_some]) _

theorem kept_deregister (roster : Roster) (id : ReceiverId) (module : ModuleId) :
    roster.Kept (roster.deregister id module).2 := by
  unfold deregister
  split
  · exact .refl roster
  · next found => exact kept_withSet (by rw [here, found, Option.isSome_some]) _

theorem kept_applyName (available : Bool) (id : ReceiverId) (roster : Roster) (triple : Triple) :
    roster.Kept (roster.applyName available id triple) := by
  unfold applyName
  cases ModuleId.ofTriple triple with
  | error e => exact .refl roster
  | ok module =>
    cases available with
    | true => exact roster.kept_register id module
    | false => exact roster.kept_deregister id module

theorem kept_announceAll (roster : Roster) (id : ReceiverId)
    (announcements : List ModuleAvailability) : roster.Kept (roster.announceAll id announcements) := by
  refine kept_foldl (fun roster announcement => ?_) roster announcements
  exact kept_foldl (kept_applyName announcement.available id) roster announcement.modules

inductive Turnover (before after : Roster) : Prop
  | kept (kept : before.Kept after)
  | joined (joined : after.joined = before.joined + 1)
      (here : ∀ id, after.here id = if id = ⟨before.joined + 1⟩ then true else before.here id)
  | left (id : ReceiverId) (joined : after.joined = before.joined)
      (here : ∀ other, after.here other = if other = id then false else before.here other)

def Known (roster : Roster) : Prop := ∀ id, roster.here id = true → id ∈ roster.ids

def Left (roster : Roster) (id : ReceiverId) : Prop := id ∈ roster.ids ∧ roster.here id = false

theorem Known.fresh {roster : Roster} (known : roster.Known) :
    roster.sets ⟨roster.joined + 1⟩ = none := by
  cases found : roster.sets ⟨roster.joined + 1⟩ with
  | none => rfl
  | some modules =>
    have mem := known ⟨roster.joined + 1⟩ (by rw [here, found, Option.isSome_some])
    exact absurd (mem_ids.mp mem).2 (Nat.not_succ_le_self _)

theorem Turnover.known {before after : Roster} (turnover : before.Turnover after)
    (known : before.Known) : after.Known := by
  intro id here
  have old (there : before.here id = true) := mem_ids.mp (known id there)
  rw [mem_ids]
  cases turnover with
  | kept kept => exact kept.joined ▸ old (kept.here id ▸ here)
  | joined joined here' =>
    rw [here'] at here
    rw [joined]
    split at here
    · next same => exact same ▸ ⟨Nat.succ_pos _, Nat.le_refl _⟩
    · exact (old here).imp_right Nat.le_succ_of_le
  | left gone joined here' =>
    rw [here'] at here
    rw [joined]
    split at here
    · cases here
    · exact old here

theorem Turnover.mem_ids {before after : Roster} (turnover : before.Turnover after)
    {id : ReceiverId} (mem : id ∈ before.ids) : id ∈ after.ids := by
  rw [Roster.mem_ids] at mem ⊢
  cases turnover with
  | kept kept => exact kept.joined ▸ mem
  | joined joined here => exact joined ▸ mem.imp_right Nat.le_succ_of_le
  | left other joined here => exact joined ▸ mem

/-- Numbers are not given twice, so nothing brings a receiver back. -/
theorem Turnover.left_of_left {before after : Roster} (turnover : before.Turnover after)
    {id : ReceiverId} (left : before.Left id) : after.Left id := by
  obtain ⟨mem, gone⟩ := left
  refine ⟨turnover.mem_ids mem, ?_⟩
  cases turnover with
  | kept kept => exact (kept.here id).trans gone
  | joined joined here =>
    have old : id ≠ ⟨before.joined + 1⟩ := by
      rintro rfl
      exact Nat.not_succ_le_self _ (Roster.mem_ids.mp mem).2
    rw [here, if_neg old, gone]
  | left other joined here => rw [here, gone, ite_self]

end Roster

/-! ## Registries -/

theorem ReceiverId.number_ne {id other : ReceiverId} (ne : other ≠ id) :
    id.number ≠ other.number := by
  intro same
  obtain ⟨number⟩ := id
  exact ne (congrArg ReceiverId.mk same.symm)

namespace Registry

/-- The sets of a registry are those of a map, each module once. -/
structure Holds (registry : Registry) (sets : ReceiverId → Option (Finset ModuleId)) : Prop where
  same : ∀ id : ReceiverId, (registry.sets[id.number]?).map List.toFinset = sets id
  once : ∀ (id : ReceiverId) (modules : List ModuleId),
    registry.sets[id.number]? = some modules → modules.Nodup

namespace Holds

variable {registry : Registry} {sets : ReceiverId → Option (Finset ModuleId)}

theorem tracks (holds : registry.Holds sets) (id : ReceiverId) :
    registry.tracks id = (sets id).isSome := by
  rw [Registry.tracks, Std.TreeMap.contains_eq_isSome_getElem?, ← holds.same, Option.isSome_map]

theorem nodup (holds : registry.Holds sets) (id : ReceiverId) : (registry.modules id).Nodup := by
  unfold modules
  cases found : registry.sets[id.number]? with
  | none => exact List.nodup_nil
  | some modules => exact holds.once id modules found

theorem mem_modules (holds : registry.Holds sets) (id : ReceiverId) (module : ModuleId) :
    module ∈ registry.modules id ↔ module ∈ (sets id).getD ∅ := by
  rw [modules, ← holds.same]
  cases registry.sets[id.number]? <;> simp

theorem absent (holds : registry.Holds sets) {id : ReceiverId}
    (found : registry.sets[id.number]? = none) : sets id = none := by
  rw [← holds.same, found, Option.map_none]

theorem present (holds : registry.Holds sets) {id : ReceiverId} {modules : List ModuleId}
    (found : registry.sets[id.number]? = some modules) : sets id = some modules.toFinset := by
  rw [← holds.same, found, Option.map_some]

theorem untouched (holds : registry.Holds sets) {id : ReceiverId} {modules : List ModuleId}
    (found : registry.sets[id.number]? = some modules) :
    registry.Holds (Function.update sets id (some modules.toFinset)) := by
  rw [← holds.present found, Function.update_eq_self]
  exact holds

theorem insert (holds : registry.Holds sets) (id : ReceiverId) {modules : List ModuleId}
    (nodup : modules.Nodup) : Registry.Holds ⟨registry.sets.insert id.number modules⟩
      (Function.update sets id (some modules.toFinset)) := by
  constructor
  · intro other
    by_cases own : other = id
    · subst own
      simp
    · rw [Function.update_of_ne own, ← holds.same]
      simp [Std.TreeMap.getElem?_insert, ReceiverId.number_ne own]
  · intro other modules' found
    by_cases own : other = id
    · subst own
      simp only [Std.TreeMap.getElem?_insert_self, Option.some.injEq] at found
      exact found ▸ nodup
    · simp only [Std.TreeMap.getElem?_insert, Nat.compare_eq_eq, ReceiverId.number_ne own,
        if_false] at found
      exact holds.once other modules' found

theorem add (holds : registry.Holds sets) {id : ReceiverId} (fresh : sets id = none) :
    (registry.add id).2.Holds (Function.update sets id (some ∅)) := by
  have untracked : registry.tracks id = false := by rw [holds.tracks, fresh, Option.isSome_none]
  rw [Registry.add, untracked]
  exact holds.insert id List.nodup_nil

theorem remove (holds : registry.Holds sets) (id : ReceiverId) :
    (registry.remove id).2.Holds (Function.update sets id none) := by
  unfold Registry.remove
  cases found : registry.sets[id.number]? with
  | none =>
    rw [← holds.absent found, Function.update_eq_self]
    exact holds
  | some modules =>
    constructor
    · intro other
      by_cases own : other = id
      · subst own
        simp
      · rw [Function.update_of_ne own, ← holds.same]
        simp [Std.TreeMap.getElem?_erase, ReceiverId.number_ne own]
    · intro other modules' found'
      refine holds.once other modules' ?_
      rw [Std.TreeMap.getElem?_erase] at found'
      split at found'
      · cases found'
      · exact found'

variable {roster : Roster}

theorem register (holds : registry.Holds roster.sets) (id : ReceiverId) (module : ModuleId) :
    (registry.register id module).1 = (roster.register id module).1 ∧
      (registry.register id module).2.Holds (roster.register id module).2.sets := by
  unfold Registry.register Roster.register
  cases found : registry.sets[id.number]? with
  | none =>
    rw [holds.absent found]
    exact ⟨rfl, holds⟩
  | some modules =>
    simp only [holds.present found, List.contains_eq_mem, List.mem_toFinset, decide_eq_true_eq]
    by_cases there : module ∈ modules
    · rw [if_pos there, Finset.insert_eq_of_mem (List.mem_toFinset.mpr there)]
      exact ⟨(decide_eq_false (not_not_intro there)).symm, holds.untouched found⟩
    · have nodup : (modules ++ [module]).Nodup := by
        refine (holds.once id modules found).append (List.nodup_singleton module) ?_
        simpa using there
      have set : (modules ++ [module]).toFinset = Insert.insert module modules.toFinset := by
        ext other
        simp only [List.mem_toFinset, List.mem_append, List.mem_singleton, Finset.mem_insert]
        exact or_comm
      rw [if_neg there, ← set]
      exact ⟨(decide_eq_true there).symm, holds.insert id nodup⟩

theorem deregister (holds : registry.Holds roster.sets) (id : ReceiverId) (module : ModuleId) :
    (registry.deregister id module).1 = (roster.deregister id module).1 ∧
      (registry.deregister id module).2.Holds (roster.deregister id module).2.sets := by
  unfold Registry.deregister Roster.deregister
  cases found : registry.sets[id.number]? with
  | none =>
    rw [holds.absent found]
    exact ⟨rfl, holds⟩
  | some modules =>
    simp only [holds.present found, List.contains_eq_mem, List.mem_toFinset, decide_eq_true_eq]
    by_cases there : module ∈ modules
    · have set : (modules.filter (· ≠ module)).toFinset = modules.toFinset.erase module := by
        ext other
        simp [and_comm]
      rw [if_pos there, ← set]
      exact ⟨(decide_eq_true there).symm, holds.insert id ((holds.once id modules found).filter _)⟩
    · rw [if_neg there, Finset.erase_eq_of_notMem (by simpa using there)]
      exact ⟨(decide_eq_false there).symm, holds.untouched found⟩

theorem applyName (holds : registry.Holds roster.sets) (available : Bool) (id : ReceiverId)
    (triple : Triple) : (ModuleAvailability.applyName available id registry triple).Holds
      (roster.applyName available id triple).sets := by
  unfold ModuleAvailability.applyName Roster.applyName
  cases ModuleId.ofTriple triple with
  | error e => exact holds
  | ok module =>
    cases available with
    | true => exact (holds.register id module).2
    | false => exact (holds.deregister id module).2

theorem announce (holds : registry.Holds roster.sets) (id : ReceiverId)
    (announcement : ModuleAvailability) :
    (announcement.apply id registry).Holds (roster.announce id announcement).sets := by
  unfold ModuleAvailability.apply Roster.announce
  induction announcement.modules generalizing registry roster with
  | nil => exact holds
  | cons triple triples ih => exact ih (holds.applyName announcement.available id triple)

theorem announceAll (holds : registry.Holds roster.sets) (id : ReceiverId)
    (announcements : List ModuleAvailability) :
    (registry.announceAll id announcements).Holds (roster.announceAll id announcements).sets := by
  induction announcements generalizing registry roster with
  | nil => exact holds
  | cons announcement announcements ih => exact ih (holds.announce id announcement)

end Holds

theorem ascending_accepting (registry : Registry) (module : ModuleId) :
    (registry.accepting module).Pairwise fun a b => a.number < b.number := by
  refine List.pairwise_map.mpr (List.Pairwise.filter _ ?_)
  refine Std.TreeMap.ordered_keys_toList.imp ?_
  exact fun less => Nat.compare_eq_lt.mp less

theorem mem_accepting {registry : Registry} {module : ModuleId} {id : ReceiverId} :
    id ∈ registry.accepting module ↔ registry.accepts id module = true := by
  obtain ⟨number⟩ := id
  rw [accepts_iff]
  simp [accepting, Std.TreeMap.mem_toList_iff_getElem?_eq_some]

end Registry

end Farcall
