import Farcall.Proofs.Client.Invariant
import Farcall.Proofs.Client.Resolution

set_option autoImplicit false

/-!
# Names that are asked for and names that are announced

A client asks for a module under the name that its caller spelled, and a host announces the name that
it was sent. On the wire an empty application name counts as an absent one, which is the name of the
module itself. A caller who gives an empty name is not understood like this: the module keeps it, goes
out with it, and what comes back is another module.
-/

namespace Farcall

namespace ModuleId

theorem ofTriple_toTriple (id : ModuleId) : ofTriple id.toTriple =
    .ok (if id.app = "" then ⟨id.name, id.name, id.distinct, id.name_ne⟩ else id) := by
  unfold ofTriple of
  rw [toTriple, dif_neg id.name_ne]
  split <;> rfl

theorem ofTriple_toTriple_eq_self_iff {id : ModuleId} :
    ofTriple id.toTriple = .ok id ↔ id.app ≠ "" := by
  rw [ofTriple_toTriple, Except.ok.injEq]
  split
  · next silent =>
    refine iff_of_false (fun same => id.name_ne ?_) (not_not_intro silent)
    rw [← silent, ← same]
  · next spoken => exact iff_of_true rfl spoken

/-- A module has no application name only if its caller gave it an empty one. -/
theorem app_eq_empty_iff {app distinct : Option String} {name : String} {id : ModuleId}
    (given : of app name distinct = .ok id) : id.app = "" ↔ app = some "" := by
  unfold of at given
  split at given
  · cases given
  · next named =>
    obtain rfl := Except.ok.inj given
    cases app with
    | none => exact iff_of_false named (Option.some_ne_none _).symm
    | some app => exact (Option.some_inj).symm

end ModuleId

theorem announces_own_iff {id : ModuleId} : Announces [id.toTriple] id ↔ id.app ≠ "" := by
  rw [← ModuleId.ofTriple_toTriple_eq_self_iff, Announces]
  simp only [List.mem_singleton, exists_eq_left]

namespace Client

variable {client : Client} {receiver : ReceiverId}

def hear (client : Client) (receiver : ReceiverId) (message : Bytes) : Client :=
  client.onLink receiver fun link registry => (LinkTurn.receive message).apply link registry

structure Bound (client : Client) (receiver : ReceiverId) : Prop where
  link : ∃ link, client.link? receiver = some link ∧ link.association.receiver = some receiver
  tracked : client.registry.tracks receiver = true
  member : (client.directory.member? receiver).isSome

theorem resolve_ok_iff {module : ModuleId} : (∃ chosen, client.resolve module = .ok chosen) ↔
    ∃ receiver, (client.directory.member? receiver).isSome ∧
      client.registry.accepts receiver module = true := by
  have found : (∃ chosen, client.resolve module = .ok chosen) ↔
      (client.directory.resolve? module).isSome := by
    unfold resolve
    cases client.directory.resolve? module with
    | none => exact iff_of_false nofun nofun
    | some chosen => exact iff_of_true ⟨chosen.1, rfl⟩ rfl
  rw [found, Directory.resolve?, List.isSome_findSome?]
  simp only [List.any_eq_true, Option.isSome_map, Registry.mem_accepting, registry]
  exact exists_congr fun receiver => and_comm

theorem member_hear (message : Bytes) (other : ReceiverId) :
    (client.hear receiver message).directory.member? other = client.directory.member? other := by
  unfold hear onLink
  split
  · rfl
  · split <;> rfl

theorem Bound.registry_hear (bound : client.Bound receiver) {announcement : ModuleAvailability}
    {message : Bytes} (written : (Message.moduleAvailability announcement).encode = .ok message) :
    (client.hear receiver message).registry = announcement.apply receiver client.registry := by
  obtain ⟨link, linked, own⟩ := bound.link
  have decoded : Message.decode (Input.ofBytes message).pending =
      .ok (.moduleAvailability announcement) := Message.decode_of_encode written
  have heard := Input.announcement?_of_decode (Input.steady_ofBytes message) decoded
  have step := Association.advance_announcement? (link.association, client.registry) (.ofBytes message)
  rw [heard] at step
  simp only [Association.modulesChanged, own] at step
  exact (client.onLink_of_link _ linked).registry.trans (congrArg Prod.snd step)

/-- Behind the announcement of a name that was sent, the receiver accepts the module or no longer
does; with an empty application name nothing changes for it. -/
theorem Bound.accepts_hear (bound : client.Bound receiver) {id : ModuleId} {available : Bool}
    {message : Bytes}
    (written : (Message.moduleAvailability ⟨available, [id.toTriple]⟩).encode = .ok message) :
    (client.hear receiver message).registry.accepts receiver id =
      if id.app = "" then client.registry.accepts receiver id else available := by
  rw [bound.registry_hear written]
  have announced := announced_apply ⟨available, [id.toTriple]⟩ receiver client.registry
  split
  · next silent =>
    exact announced.unnamed id fun named => announces_own_iff.mp named silent
  · next spoken =>
    rw [announced.named id (announces_own_iff.mpr spoken), bound.tracked, Bool.and_true]

theorem Bound.accepts_hear_other (bound : client.Bound receiver) {announcement : ModuleAvailability}
    {message : Bytes} (written : (Message.moduleAvailability announcement).encode = .ok message)
    {other : ReceiverId} (ne : other ≠ receiver) (id : ModuleId) :
    (client.hear receiver message).registry.accepts other id = client.registry.accepts other id := by
  have announced := announced_apply announcement receiver client.registry
  rw [bound.registry_hear written, Registry.accepts, Registry.modules,
    announced.others other.number (Ne.symm (ReceiverId.number_ne ne)), Registry.accepts,
    Registry.modules]

theorem Bound.resolve_hear_iff (bound : client.Bound receiver) {id : ModuleId} {message : Bytes}
    (written : (Message.moduleAvailability ⟨true, [id.toTriple]⟩).encode = .ok message) :
    (∃ chosen, (client.hear receiver message).resolve id = .ok chosen) ↔
      id.app ≠ "" ∨ ∃ chosen, client.resolve id = .ok chosen := by
  simp only [resolve_ok_iff, member_hear]
  by_cases silent : id.app = ""
  · -- the host announced another module, so every receiver accepts what it accepted before
    rw [or_iff_right (not_not_intro silent)]
    refine exists_congr fun other => and_congr_right fun _ => ?_
    by_cases own : other = receiver
    · rw [own, bound.accepts_hear written, if_pos silent]
    · rw [bound.accepts_hear_other written own]
  · refine iff_of_true ⟨receiver, bound.member, ?_⟩ (.inl silent)
    rw [bound.accepts_hear written, if_neg silent]

theorem Mirrors.bound_join {roster : Roster} (mirrors : client.Mirrors roster) {endpoint : Endpoint}
    {link : Link} (linked : endpoint.kind = .linked link) :
    (client.join endpoint).2.Bound (client.join endpoint).1 := by
  obtain ⟨number, joined⟩ := mirrors.join endpoint
  have here : (roster.keep (.join endpoint)).2.here (client.join endpoint).1 = true := by
    have kept := roster.join.2.kept_announceAll ⟨roster.joined + 1⟩ endpoint.backlog
    rw [number]
    exact (kept.here _).trans ((roster.here_withSet _ _ _).trans (if_pos rfl))
  let bound : Link := { link with association :=
    (link.association.associate (client.directory.join ()).2.registry (client.join endpoint).1).1 }
  have put := endpoints_withEndpoint { client with directory := (client.directory.join ()).2 }
    (client.join endpoint).1 (endpoint.withLink bound)
  refine ⟨⟨bound, ?_, rfl⟩, (joined.holds.tracks _).trans here, (joined.members _).trans here⟩
  have after : (client.join endpoint).2.link? (client.join endpoint).1 =
      (associate { client with directory := (client.directory.join ()).2 }
        (client.join endpoint).1 endpoint).link? (client.join endpoint).1 := rfl
  rw [after, associate, linked]
  exact (link_of_endpoints put _).trans (if_pos rfl)

/-- The module that a caller names is the one that an announcement of its sent name makes available
or takes away, exactly if the caller did not give an empty application name. -/
theorem Bound.announcement_meets_request (bound : client.Bound receiver) {app distinct : Option String}
    {name : String} {id : ModuleId} (given : ModuleId.of app name distinct = .ok id) :
    (ModuleId.ofTriple id.toTriple = .ok id ↔ app ≠ some "") ∧
    (∀ message, (Message.moduleAvailability ⟨true, [id.toTriple]⟩).encode = .ok message →
      ((client.hear receiver message).registry.accepts receiver id = true ↔
        app ≠ some "" ∨ client.registry.accepts receiver id = true) ∧
      ((∃ chosen, (client.hear receiver message).resolve id = .ok chosen) ↔
        app ≠ some "" ∨ ∃ chosen, client.resolve id = .ok chosen)) ∧
    ∀ message, (Message.moduleAvailability ⟨false, [id.toTriple]⟩).encode = .ok message →
      ((client.hear receiver message).registry.accepts receiver id = false ↔
        app ≠ some "" ∨ client.registry.accepts receiver id = false) := by
  have spelled : app ≠ some "" ↔ id.app ≠ "" := not_congr (ModuleId.app_eq_empty_iff given).symm
  rw [spelled]
  refine ⟨ModuleId.ofTriple_toTriple_eq_self_iff, ?available, ?unavailable⟩
  case available =>
    intro message written
    refine ⟨?_, bound.resolve_hear_iff written⟩
    rw [bound.accepts_hear written]
    by_cases silent : id.app = "" <;> simp [silent]
  case unavailable =>
    intro message written
    rw [bound.accepts_hear written]
    by_cases silent : id.app = "" <;> simp [silent]

namespace OneHost

def joined : Client :=
  ((ofConfig .default).join ⟨"host", .linked (.named "host" 4 none none), []⟩).2

theorem bound : joined.Bound ⟨1⟩ := (mirrors_ofConfig .default).bound_join rfl

theorem announcement_meets_request_of_absent :
    let id : ModuleId := ⟨"m", "m", "", by decide⟩
    let message : Bytes := [8, 1, 1, 0x6d, 1, 0x6d, 0]
    ModuleId.of none "m" none = .ok id ∧
      (Message.moduleAvailability ⟨true, [id.toTriple]⟩).encode = .ok message ∧
      joined.Bound ⟨1⟩ ∧ ∃ chosen, (joined.hear ⟨1⟩ message).resolve id = .ok chosen := by
  intro id message
  have given : ModuleId.of none "m" none = .ok id := by rfl
  have written : (Message.moduleAvailability ⟨true, [id.toTriple]⟩).encode = .ok message := by rfl
  obtain ⟨-, available, -⟩ := bound.announcement_meets_request given
  exact ⟨given, written, bound, (available message written).2.mpr (.inl nofun)⟩

/-- The host announces what it was sent, and the caller is told that there is no receiver. -/
theorem empty_name_is_not_reached :
    let id : ModuleId := ⟨"", "m", "", by decide⟩
    let message : Bytes := [8, 1, 0, 1, 0x6d, 0]
    ModuleId.of (some "") "m" none = .ok id ∧
      (Message.moduleAvailability ⟨true, [id.toTriple]⟩).encode = .ok message ∧
      joined.Bound ⟨1⟩ ∧ ModuleId.ofTriple id.toTriple = .ok ⟨"m", "m", "", by decide⟩ ∧
      (joined.hear ⟨1⟩ message).registry.accepts ⟨1⟩ id = false ∧
      (joined.hear ⟨1⟩ message).resolve id = .error (.noSuchReceiver id) :=
  ⟨rfl, rfl, bound, rfl, rfl, rfl⟩

end OneHost

end Client

end Farcall
