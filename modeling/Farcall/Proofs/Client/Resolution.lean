import Farcall.Client.Core
import Farcall.Proofs.Client.Roster

set_option autoImplicit false

/-!
# Which receiver a module is found at

Receivers join a client and leave it, and whoever was once given a receiver goes on to register and to
deregister modules for it, also after it left. All the time the client answers as a roster does. A
module is found at the receiver that joined first of those that have it now, and a receiver that left
is never found again.
-/

namespace Farcall

/-- What is done to the receivers of a client. The names of a module come as they are given. -/
inductive Roster.Step where
  | join (endpoint : Endpoint)
  | leave (id : ReceiverId)
  | register (id : ReceiverId) (app : Option String) (name : String) (distinct : Option String)
  | deregister (id : ReceiverId) (app : Option String) (name : String) (distinct : Option String)

inductive Roster.Answer where
  | joined (id : ReceiverId)
  | flag (b : Bool)
  | refused (e : IdentityError)
deriving DecidableEq

def Endpoint.backlog (endpoint : Endpoint) : List ModuleAvailability :=
  match endpoint.kind with
  | .linked link => link.association.backlog
  | _ => []

namespace Client

def keep (client : Client) : Roster.Step → Roster.Answer × Client
  | .join endpoint =>
    let (id, client) := client.join endpoint
    (.joined id, client)
  | .leave id =>
    let (found, client) := client.leave id
    (.flag found, client)
  | .register id app name distinct =>
    match ModuleId.of app name distinct with
    | .error e => (.refused e, client)
    | .ok module =>
      let (added, registry) := client.registry.register id module
      (.flag added, client.withRegistry registry)
  | .deregister id app name distinct =>
    match ModuleId.of app name distinct with
    | .error e => (.refused e, client)
    | .ok module =>
      let (removed, registry) := client.registry.deregister id module
      (.flag removed, client.withRegistry registry)

def keepAll (client : Client) : List Roster.Step → List Roster.Answer × Client
  | [] => ([], client)
  | step :: steps =>
    ((client.keep step).1 :: ((client.keep step).2.keepAll steps).1,
      ((client.keep step).2.keepAll steps).2)

end Client

namespace Roster

def keep (roster : Roster) : Step → Answer × Roster
  | .join endpoint =>
    let (id, roster) := roster.join
    (.joined id, roster.announceAll id endpoint.backlog)
  | .leave id =>
    let (found, roster) := roster.leave id
    (.flag found, roster)
  | .register id app name distinct =>
    match ModuleId.of app name distinct with
    | .error e => (.refused e, roster)
    | .ok module =>
      let (added, roster) := roster.register id module
      (.flag added, roster)
  | .deregister id app name distinct =>
    match ModuleId.of app name distinct with
    | .error e => (.refused e, roster)
    | .ok module =>
      let (removed, roster) := roster.deregister id module
      (.flag removed, roster)

def keepAll (roster : Roster) : List Step → List Answer × Roster
  | [] => ([], roster)
  | step :: steps =>
    ((roster.keep step).1 :: ((roster.keep step).2.keepAll steps).1,
      ((roster.keep step).2.keepAll steps).2)

theorem turnover_keep (roster : Roster) (step : Step) : roster.Turnover (roster.keep step).2 := by
  cases step with
  | join endpoint =>
    have kept := roster.join.2.kept_announceAll ⟨roster.joined + 1⟩ endpoint.backlog
    exact .joined kept.joined fun id => (kept.here id).trans (roster.here_withSet _ _ id)
  | leave id => exact .left id rfl fun other => roster.here_withSet id none other
  | register id app name distinct =>
    simp only [keep]
    split
    · exact .kept (.refl roster)
    · exact .kept (roster.kept_register id _)
  | deregister id app name distinct =>
    simp only [keep]
    split
    · exact .kept (.refl roster)
    · exact .kept (roster.kept_deregister id _)

theorem keepAll_append (roster : Roster) (steps steps' : List Step) :
    (roster.keepAll (steps ++ steps')).2 = ((roster.keepAll steps).2.keepAll steps').2 := by
  induction steps generalizing roster with
  | nil => rfl
  | cons step steps ih => exact ih (roster.keep step).2

theorem keepAll_keeps {P : Roster → Prop}
    (step : ∀ before after : Roster, before.Turnover after → P before → P after) {roster : Roster}
    (given : P roster) (steps : List Step) : P (roster.keepAll steps).2 := by
  induction steps generalizing roster with
  | nil => exact given
  | cons first steps ih => exact ih (step _ _ (roster.turnover_keep first) given)

theorem mem_ids_of_keep {roster : Roster} {step : Step} {id : ReceiverId}
    (given : (roster.keep step).1 = .joined id) : id ∈ (roster.keep step).2.ids := by
  cases step with
  | join endpoint =>
    obtain rfl : ⟨roster.joined + 1⟩ = id := Answer.joined.inj given
    have kept := roster.join.2.kept_announceAll ⟨roster.joined + 1⟩ endpoint.backlog
    exact mem_ids.mpr ⟨Nat.succ_pos _, Nat.le_of_eq kept.joined.symm⟩
  | leave other => cases given
  | register other app name distinct | deregister other app name distinct =>
    simp only [keep] at given
    split at given <;> cases given

theorem mem_ids_of_joined {roster : Roster} {steps : List Step} {id : ReceiverId}
    (given : .joined id ∈ (roster.keepAll steps).1) : id ∈ (roster.keepAll steps).2.ids := by
  induction steps generalizing roster with
  | nil => cases given
  | cons step steps ih =>
    rcases List.mem_cons.mp given with own | later
    · exact keepAll_keeps (fun _ _ turnover => turnover.mem_ids) (mem_ids_of_keep own.symm) steps
    · exact ih later

/-- A receiver that joined, and that then left, has left for good. -/
theorem left_of_leave {roster : Roster} {earlier : List Step} {id : ReceiverId}
    (given : .joined id ∈ (roster.keepAll earlier).1) (later : List Step) :
    (roster.keepAll (earlier ++ .leave id :: later)).2.Left id := by
  rw [keepAll_append]
  refine keepAll_keeps (fun _ _ turnover => turnover.left_of_left) ⟨?_, ?_⟩ later
  · exact (turnover_keep _ _).mem_ids (mem_ids_of_joined given)
  · exact (here_withSet _ id none id).trans (if_pos rfl)

end Roster

/-! ## The client as a roster -/

namespace Directory

variable {ρ : Type}

theorem isSome_member?_join (directory : Directory ρ) (receiver : ρ) (id : ReceiverId) :
    ((directory.join receiver).2.member? id).isSome =
      if id = ⟨directory.nextNumber⟩ then true else (directory.member? id).isSome := by
  split
  · next own =>
    subst own
    simp [member?, join]
  · next other => simp [member?, join, Std.TreeMap.getElem?_insert, ReceiverId.number_ne other]

theorem isSome_member?_leave (directory : Directory ρ) (gone id : ReceiverId) :
    ((directory.leave gone).2.member? id).isSome =
      if id = gone then false else (directory.member? id).isSome := by
  split
  · next own =>
    subst own
    simp [member?, leave]
  · next other => simp [member?, leave, Std.TreeMap.getElem?_erase, ReceiverId.number_ne other]

end Directory

namespace Client

structure Mirrors (client : Client) (roster : Roster) : Prop where
  holds : client.registry.Holds roster.sets
  members : ∀ id, (client.directory.member? id).isSome = roster.here id
  next : client.directory.nextNumber = roster.joined + 1
  known : roster.Known

theorem directory_associate (client : Client) (id : ReceiverId) (endpoint : Endpoint) :
    (client.associate id endpoint).directory =
      { client.directory with registry := client.registry.announceAll id endpoint.backlog } := by
  unfold associate Endpoint.backlog
  cases endpoint.kind <;> rfl

variable {client : Client} {roster : Roster}

theorem Mirrors.withRegistry (mirrors : client.Mirrors roster) {registry : Registry}
    {after : Roster} (kept : roster.Kept after) (holds : registry.Holds after.sets) :
    (client.withRegistry registry).Mirrors after where
  holds := holds
  members id := (mirrors.members id).trans (kept.here id).symm
  next := mirrors.next.trans (congrArg Nat.succ kept.joined.symm)
  known := (Roster.Turnover.kept kept).known mirrors.known

theorem Mirrors.join (mirrors : client.Mirrors roster) (endpoint : Endpoint) :
    (client.join endpoint).1 = roster.join.1 ∧
      (client.join endpoint).2.Mirrors (roster.keep (.join endpoint)).2 := by
  have number : (⟨client.directory.nextNumber⟩ : ReceiverId) = ⟨roster.joined + 1⟩ :=
    congrArg ReceiverId.mk mirrors.next
  have kept := roster.join.2.kept_announceAll ⟨roster.joined + 1⟩ endpoint.backlog
  have directory : (client.join endpoint).2.directory = { (client.directory.join ()).2 with
      registry := (client.registry.add ⟨roster.joined + 1⟩).2.announceAll ⟨roster.joined + 1⟩
        endpoint.backlog } := by
    rw [← number]
    exact directory_associate _ _ endpoint
  refine ⟨number, ?_, ?_, ?_, (roster.turnover_keep (.join endpoint)).known mirrors.known⟩
  · unfold registry
    rw [directory]
    exact (mirrors.holds.add mirrors.known.fresh).announceAll ⟨roster.joined + 1⟩ endpoint.backlog
  · intro id
    rw [directory]
    refine (client.directory.isSome_member?_join () id).trans ?_
    rw [number, mirrors.members]
    exact ((kept.here id).trans (roster.here_withSet _ _ id)).symm
  · rw [directory]
    exact congrArg Nat.succ (mirrors.next.trans kept.joined.symm)

theorem Mirrors.leave (mirrors : client.Mirrors roster) (id : ReceiverId) :
    (client.leave id).1 = roster.here id ∧ (client.leave id).2.Mirrors (roster.leave id).2 := by
  refine ⟨?_, mirrors.holds.remove id, ?_, mirrors.next,
    (roster.turnover_keep (.leave id)).known mirrors.known⟩
  · exact (Std.TreeMap.contains_eq_isSome_getElem?).trans (mirrors.members id)
  · intro other
    refine (client.directory.isSome_member?_leave id other).trans ?_
    rw [mirrors.members]
    exact (roster.here_withSet id none other).symm

theorem Mirrors.keep (mirrors : client.Mirrors roster) (step : Roster.Step) :
    (client.keep step).1 = (roster.keep step).1 ∧
      (client.keep step).2.Mirrors (roster.keep step).2 := by
  cases step with
  | join endpoint =>
    obtain ⟨same, mirrors'⟩ := mirrors.join endpoint
    exact ⟨congrArg Roster.Answer.joined same, mirrors'⟩
  | leave id =>
    obtain ⟨same, mirrors'⟩ := mirrors.leave id
    exact ⟨congrArg Roster.Answer.flag same, mirrors'⟩
  | register id app name distinct =>
    simp only [Client.keep, Roster.keep]
    cases ModuleId.of app name distinct with
    | error e => exact ⟨rfl, mirrors⟩
    | ok module =>
      obtain ⟨same, holds⟩ := mirrors.holds.register id module
      exact ⟨congrArg Roster.Answer.flag same,
        mirrors.withRegistry (roster.kept_register id module) holds⟩
  | deregister id app name distinct =>
    simp only [Client.keep, Roster.keep]
    cases ModuleId.of app name distinct with
    | error e => exact ⟨rfl, mirrors⟩
    | ok module =>
      obtain ⟨same, holds⟩ := mirrors.holds.deregister id module
      exact ⟨congrArg Roster.Answer.flag same,
        mirrors.withRegistry (roster.kept_deregister id module) holds⟩

theorem Mirrors.keepAll (mirrors : client.Mirrors roster) (steps : List Roster.Step) :
    (client.keepAll steps).1 = (roster.keepAll steps).1 ∧
      (client.keepAll steps).2.Mirrors (roster.keepAll steps).2 := by
  induction steps generalizing client roster with
  | nil => exact ⟨rfl, mirrors⟩
  | cons step steps ih =>
    obtain ⟨same, next⟩ := mirrors.keep step
    obtain ⟨same', next'⟩ := ih next
    exact ⟨congrArg₂ List.cons same same', next'⟩

theorem mirrors_ofConfig (config : Config) : (ofConfig config).Mirrors .empty where
  holds := ⟨fun id => by simp [registry, ofConfig, Directory.empty, Registry.empty, Roster.empty],
    fun id modules found => by
      simp [registry, ofConfig, Directory.empty, Registry.empty] at found⟩
  members id := by
    simp [ofConfig, Directory.empty, Directory.member?, Roster.here, Roster.empty]
  next := rfl
  known id here := by cases here

/-! ## What a client says of its receivers -/

/-- All that can be asked of a client about receivers and modules is answered from the roster. -/
structure Reflects (client : Client) (roster : Roster) : Prop where
  tracks : ∀ id, client.registry.tracks id = roster.here id
  member : ∀ id, client.member id =
    if roster.here id then .ok id else .error (.unknownReceiver id)
  nodup : ∀ id, (client.registry.modules id).Nodup
  modules : ∀ id, (client.registry.modules id).toFinset = roster.modules id
  accepts : ∀ id module, client.registry.accepts id module = decide (module ∈ roster.modules id)
  accepting : ∀ module, client.registry.accepting module = roster.accepting module
  resolve : ∀ module, client.resolve module =
    match roster.earliest? module with
    | some id => .ok id
    | none => .error (.noSuchReceiver module)

theorem Mirrors.accepts (mirrors : client.Mirrors roster) (id : ReceiverId) (module : ModuleId) :
    client.registry.accepts id module = decide (module ∈ roster.modules id) := by
  rw [Registry.accepts, List.contains_eq_mem]
  exact decide_eq_decide.mpr (mirrors.holds.mem_modules id module)

theorem Mirrors.accepting (mirrors : client.Mirrors roster) (module : ModuleId) :
    client.registry.accepting module = roster.accepting module := by
  -- Both lists are in ascending order, so they are the same if they have the same members.
  have irrefl : Std.Irrefl fun a b : ReceiverId => a.number < b.number :=
    ⟨fun _ => Nat.lt_irrefl _⟩
  have antisymm : Std.Antisymm fun a b : ReceiverId => a.number < b.number :=
    ⟨fun _ _ less less' => absurd less (Nat.lt_asymm less')⟩
  refine (client.registry.ascending_accepting module).eq_of_mem_iff
    (roster.ascending_ids.filter _) fun id => ?_
  rw [Registry.mem_accepting, mirrors.accepts, decide_eq_true_iff, Roster.mem_accepting]
  constructor
  · intro mem
    exact ⟨mirrors.known id (Roster.here_of_mem mem), mem⟩
  · exact And.right

theorem Mirrors.resolve (mirrors : client.Mirrors roster) (module : ModuleId) :
    client.resolve module =
      match roster.earliest? module with
      | some id => .ok id
      | none => .error (.noSuchReceiver module) := by
  have accepting : client.directory.registry.accepting module = roster.accepting module :=
    mirrors.accepting module
  unfold Client.resolve Directory.resolve?
  rw [accepting, roster.earliest?_eq]
  cases all : roster.accepting module with
  | nil => rfl
  | cons id ids =>
    have mem : id ∈ roster.accepting module := all ▸ List.mem_cons_self
    have member := mirrors.members id
    rw [Roster.here_of_mem (Roster.mem_accepting.mp mem).2] at member
    obtain ⟨found, there⟩ := Option.isSome_iff_exists.mp member
    simp [there]

theorem Mirrors.reflects (mirrors : client.Mirrors roster) : client.Reflects roster where
  tracks id := mirrors.holds.tracks id
  member id := by
    rw [member, ← mirrors.members]
    cases client.directory.member? id <;> rfl
  nodup id := mirrors.holds.nodup id
  modules id := by
    ext module
    rw [List.mem_toFinset, mirrors.holds.mem_modules]
    rfl
  accepts := mirrors.accepts
  accepting := mirrors.accepting
  resolve := mirrors.resolve

structure Lacks (client : Client) (id : ReceiverId) : Prop where
  untracked : client.registry.tracks id = false
  unknown : client.member id = .error (.unknownReceiver id)
  accepts : ∀ module, client.registry.accepts id module = false
  accepting : ∀ module, id ∉ client.registry.accepting module
  resolve : ∀ module, client.resolve module ≠ .ok id

theorem Reflects.lacks (reflects : client.Reflects roster) {id : ReceiverId}
    (gone : roster.here id = false) : client.Lacks id := by
  have none (module : ModuleId) : module ∉ roster.modules id := by
    intro mem
    rw [Roster.here_of_mem mem] at gone
    cases gone
  have accepts (module : ModuleId) : client.registry.accepts id module = false := by
    rw [reflects.accepts, decide_eq_false (none module)]
  refine ⟨(reflects.tracks id).trans gone, ?_, accepts, ?_, ?_⟩
  · rw [reflects.member, gone]
    rfl
  · intro module mem
    rw [Registry.mem_accepting, accepts] at mem
    cases mem
  · intro module found
    rw [reflects.resolve] at found
    split at found
    · next chosen first =>
      obtain rfl := Except.ok.inj found
      exact none module (Roster.mem_of_earliest? first)
    · cases found

/-- Whatever receivers join and leave and whatever modules come and go, the client answers as the
roster does, and a receiver that left is never found again. -/
theorem resolution (config : Config) (steps : List Roster.Step) :
    ((ofConfig config).keepAll steps).1 = (Roster.empty.keepAll steps).1 ∧
      ((ofConfig config).keepAll steps).2.Reflects (Roster.empty.keepAll steps).2 ∧
      (∀ module, (((ofConfig config).keepAll steps).2.registry.accepting module).Pairwise
        fun a b => a.number < b.number) ∧
      ∀ (earlier later : List Roster.Step) (id : ReceiverId),
        steps = earlier ++ .leave id :: later →
        .joined id ∈ ((ofConfig config).keepAll earlier).1 →
        ((ofConfig config).keepAll steps).2.Lacks id := by
  obtain ⟨same, mirrors⟩ := (mirrors_ofConfig config).keepAll steps
  refine ⟨same, mirrors.reflects, fun module => Registry.ascending_accepting _ module, ?_⟩
  rintro earlier later id rfl joined
  rw [((mirrors_ofConfig config).keepAll earlier).1] at joined
  exact mirrors.reflects.lacks (Roster.left_of_leave joined later).2

/-- Two receivers have a module, the first of them leaves, and then registers it once more. -/
theorem resolution_of_two_receivers :
    let endpoint : Endpoint := ⟨"near", .bare (.empty 4), []⟩
    let earlier : List Roster.Step := [.join endpoint, .register ⟨1⟩ none "m" none, .join endpoint,
      .register ⟨2⟩ (some "m") "m" (some "")]
    let steps := earlier ++ [.leave ⟨1⟩, .register ⟨1⟩ none "m" none]
    let module : ModuleId := ⟨"m", "m", "", by decide⟩
    ((ofConfig .default).keepAll steps).1 =
        [.joined ⟨1⟩, .flag true, .joined ⟨2⟩, .flag true, .flag true, .flag false] ∧
      ((ofConfig .default).keepAll earlier).2.resolve module = .ok ⟨1⟩ ∧
      ((ofConfig .default).keepAll steps).2.resolve module = .ok ⟨2⟩ ∧
      ((ofConfig .default).keepAll steps).2.Lacks ⟨1⟩ := by
  intro endpoint earlier steps module
  obtain ⟨same, reflects, -, gone⟩ := resolution .default steps
  obtain ⟨same', reflects', -⟩ := resolution .default earlier
  have joined : .joined ⟨1⟩ ∈ ((ofConfig .default).keepAll earlier).1 := by
    rw [same']
    decide
  refine ⟨same.trans (by decide), (reflects'.resolve module).trans ?_,
    (reflects.resolve module).trans ?_, gone earlier _ ⟨1⟩ rfl joined⟩
  · rfl
  · rfl

end Client

end Farcall
