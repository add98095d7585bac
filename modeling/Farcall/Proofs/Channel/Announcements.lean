import Farcall.Channel.Association

set_option autoImplicit false

/-!
# What an announcement does

An announcement adds modules to the set of one receiver, or takes them out of it. It does so name by
name, and a name that no module can have is passed over.
-/

namespace Farcall

namespace Registry

theorem accepts_iff {registry : Registry} {receiver : ReceiverId} {module : ModuleId} :
    registry.accepts receiver module = true ↔
      ∃ modules, registry.sets[receiver.number]? = some modules ∧ module ∈ modules := by
  unfold accepts modules
  cases registry.sets[receiver.number]? <;> simp

theorem tracks_iff {registry : Registry} {receiver : ReceiverId} :
    registry.tracks receiver = true ↔ ∃ modules, registry.sets[receiver.number]? = some modules := by
  rw [tracks, Std.TreeMap.contains_eq_isSome_getElem?, Option.isSome_iff_exists]

def Reset (registry : Registry) (receiver : ReceiverId) (modules : List ModuleId)
    (after : Registry) : Prop :=
  ∀ number, after.sets[number]? =
    if receiver.number = number then some modules else registry.sets[number]?

theorem reset_insert (registry : Registry) (receiver : ReceiverId) (modules : List ModuleId) :
    registry.Reset receiver modules ⟨registry.sets.insert receiver.number modules⟩ := by
  intro number
  simp [Std.TreeMap.getElem?_insert]

theorem reset_self {registry : Registry} {receiver : ReceiverId} {modules : List ModuleId}
    (found : registry.sets[receiver.number]? = some modules) :
    registry.Reset receiver modules registry := by
  intro number
  split
  · next same => rw [← same, found]
  · rfl

theorem register_of_untracked {registry : Registry} {receiver : ReceiverId} (module : ModuleId)
    (untracked : registry.sets[receiver.number]? = none) :
    (registry.register receiver module).2 = registry := by
  simp only [register, untracked]

theorem deregister_of_untracked {registry : Registry} {receiver : ReceiverId} (module : ModuleId)
    (untracked : registry.sets[receiver.number]? = none) :
    (registry.deregister receiver module).2 = registry := by
  simp only [deregister, untracked]

theorem register_resets {registry : Registry} {receiver : ReceiverId} {modules : List ModuleId}
    (found : registry.sets[receiver.number]? = some modules) (module : ModuleId) :
    ∃ modules', registry.Reset receiver modules' (registry.register receiver module).2 ∧
      ∀ m, m ∈ modules' ↔ m ∈ modules ∨ m = module := by
  by_cases there : module ∈ modules
  · have same : (registry.register receiver module).2 = registry := by
      simp only [register, found, List.contains_eq_mem, there, decide_true, ↓reduceIte]
    rw [same]
    refine ⟨modules, reset_self found, ?_⟩
    intro m
    constructor
    · exact .inl
    · rintro (old | rfl)
      · exact old
      · exact there
  · have added : (registry.register receiver module).2 =
        ⟨registry.sets.insert receiver.number (modules ++ [module])⟩ := by
      simp only [register, found, List.contains_eq_mem, there, decide_false, Bool.false_eq_true,
        ↓reduceIte]
    rw [added]
    exact ⟨modules ++ [module], reset_insert _ _ _, by simp⟩

theorem deregister_resets {registry : Registry} {receiver : ReceiverId} {modules : List ModuleId}
    (found : registry.sets[receiver.number]? = some modules) (module : ModuleId) :
    ∃ modules', registry.Reset receiver modules' (registry.deregister receiver module).2 ∧
      ∀ m, m ∈ modules' ↔ m ∈ modules ∧ m ≠ module := by
  by_cases there : module ∈ modules
  · have removed : (registry.deregister receiver module).2 =
        ⟨registry.sets.insert receiver.number (modules.filter (· ≠ module))⟩ := by
      simp only [deregister, found, List.contains_eq_mem, there, decide_true, ↓reduceIte]
    rw [removed]
    exact ⟨modules.filter (· ≠ module), reset_insert _ _ _, by simp⟩
  · have same : (registry.deregister receiver module).2 = registry := by
      simp only [deregister, found, List.contains_eq_mem, there, decide_false, Bool.false_eq_true,
        ↓reduceIte]
    rw [same]
    refine ⟨modules, reset_self found, ?_⟩
    intro m
    constructor
    · intro old
      exact ⟨old, fun same => there (same ▸ old)⟩
    · exact And.left

end Registry

def Announces (triples : List Triple) (module : ModuleId) : Prop :=
  ∃ triple ∈ triples, ModuleId.ofTriple triple = .ok module

/-- What announced names do to the modules that receivers accept: those of one receiver that are
named come or go, and nothing else does. -/
structure Announced (available : Bool) (triples : List Triple) (receiver : ReceiverId)
    (registry after : Registry) : Prop where
  others : ∀ number, number ≠ receiver.number → after.sets[number]? = registry.sets[number]?
  tracks : after.tracks receiver = registry.tracks receiver
  named : ∀ module, Announces triples module →
    after.accepts receiver module = (available && registry.tracks receiver)
  unnamed : ∀ module, ¬ Announces triples module →
    after.accepts receiver module = registry.accepts receiver module

theorem Announced.nothing (available : Bool) {triples : List Triple} (receiver : ReceiverId)
    (registry : Registry) (unnamed : ∀ module, ¬ Announces triples module) :
    Announced available triples receiver registry registry :=
  ⟨fun _ _ => rfl, rfl, fun module named => absurd named (unnamed module), fun _ _ => rfl⟩

theorem Announced.append {available : Bool} {first second : List Triple} {receiver : ReceiverId}
    {registry mid after : Registry} (h : Announced available first receiver registry mid)
    (h' : Announced available second receiver mid after) :
    Announced available (first ++ second) receiver registry after := by
  have split : ∀ module, Announces (first ++ second) module ↔
      Announces first module ∨ Announces second module := by
    intro module
    simp [Announces, or_and_right, exists_or]
  refine ⟨?_, h'.tracks.trans h.tracks, ?_, ?_⟩
  · intro number other
    rw [h'.others number other, h.others number other]
  · intro module named
    by_cases again : Announces second module
    · rw [h'.named module again, h.tracks]
    · rw [h'.unnamed module again]
      exact h.named module (((split module).mp named).resolve_right again)
  · intro module unnamed
    rw [split, not_or] at unnamed
    rw [h'.unnamed module unnamed.2, h.unnamed module unnamed.1]

theorem Announced.of_reset {available : Bool} {triples : List Triple} {receiver : ReceiverId}
    {registry after : Registry} {modules modules' : List ModuleId}
    (found : registry.sets[receiver.number]? = some modules)
    (reset : registry.Reset receiver modules' after)
    (named : ∀ module, Announces triples module → (module ∈ modules' ↔ available = true))
    (unnamed : ∀ module, ¬ Announces triples module → (module ∈ modules' ↔ module ∈ modules)) :
    Announced available triples receiver registry after := by
  have own : after.sets[receiver.number]? = some modules' := (reset _).trans (if_pos rfl)
  have tracked : registry.tracks receiver = true := Registry.tracks_iff.mpr ⟨_, found⟩
  have accepts : ∀ module, after.accepts receiver module = true ↔ module ∈ modules' := by
    intro module
    rw [Registry.accepts_iff, own]
    simp
  have accepted : ∀ module, registry.accepts receiver module = true ↔ module ∈ modules := by
    intro module
    rw [Registry.accepts_iff, found]
    simp
  refine ⟨?_, ?_, ?_, ?_⟩
  · intro number other
    exact (reset number).trans (if_neg (Ne.symm other))
  · rw [tracked]
    exact Registry.tracks_iff.mpr ⟨_, own⟩
  · intro module announced
    rw [tracked, Bool.and_true, Bool.eq_iff_iff, accepts]
    exact named module announced
  · intro module announced
    rw [Bool.eq_iff_iff, accepts, accepted]
    exact unnamed module announced

theorem announces_singleton {triple : Triple} {own : ModuleId}
    (named : ModuleId.ofTriple triple = .ok own) (module : ModuleId) :
    Announces [triple] module ↔ module = own := by
  unfold Announces
  simp only [List.mem_singleton, exists_eq_left, named, Except.ok.injEq]
  exact eq_comm

theorem announced_applyName (available : Bool) (receiver : ReceiverId) (registry : Registry)
    (triple : Triple) : Announced available [triple] receiver registry
      (ModuleAvailability.applyName available receiver registry triple) := by
  unfold ModuleAvailability.applyName
  cases named : ModuleId.ofTriple triple with
  | error e =>
    refine .nothing available receiver registry ?_
    rintro module ⟨triple', mem, same⟩
    rw [List.mem_singleton.mp mem, named] at same
    cases same
  | ok own =>
    have only := announces_singleton named
    cases found : registry.sets[receiver.number]? with
    | none =>
      have same : (if available then (registry.register receiver own).2
          else (registry.deregister receiver own).2) = registry := by
        rw [Registry.register_of_untracked own found, Registry.deregister_of_untracked own found,
          ite_self]
      have untracked : registry.tracks receiver = false := by
        rw [Registry.tracks, Std.TreeMap.contains_eq_isSome_getElem?, found]
        rfl
      change Announced available [triple] receiver registry
        (if available then (registry.register receiver own).2
          else (registry.deregister receiver own).2)
      rw [same]
      refine ⟨fun _ _ => rfl, rfl, ?_, fun _ _ => rfl⟩
      intro module _
      rw [untracked, Bool.and_false, Registry.accepts, Registry.modules, found]
      rfl
    | some modules =>
      cases available with
      | true =>
        obtain ⟨modules', reset, mem⟩ := Registry.register_resets found own
        refine .of_reset found reset ?_ ?_
        · intro module announced
          simp [mem, (only module).mp announced]
        · intro module announced
          rw [only] at announced
          simp [mem, announced]
      | false =>
        obtain ⟨modules', reset, mem⟩ := Registry.deregister_resets found own
        refine .of_reset found reset ?_ ?_
        · intro module announced
          simp [mem, (only module).mp announced]
        · intro module announced
          rw [only] at announced
          simp [mem, announced]

theorem announced_apply (announcement : ModuleAvailability) (receiver : ReceiverId)
    (registry : Registry) : Announced announcement.available announcement.modules receiver registry
      (announcement.apply receiver registry) := by
  obtain ⟨available, triples⟩ := announcement
  unfold ModuleAvailability.apply
  change Announced available triples receiver registry
    (triples.foldl (ModuleAvailability.applyName available receiver) registry)
  induction triples generalizing registry with
  | nil =>
    refine .nothing available receiver registry ?_
    rintro module ⟨triple, mem, -⟩
    cases mem
  | cons triple triples ih =>
    exact (announced_applyName available receiver registry triple).append (ih _)

end Farcall
