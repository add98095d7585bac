import Farcall.Client.Core
import Farcall.Proofs.Value.Codec

set_option autoImplicit false

/-!
# The identity of handlers

Synchronous handlers are told apart by their locators, by the bytes they are reduced to and by the
proxies over them, and all three agree. The bytes hold the whole locator: each text and key comes
behind its length, so no two locators share a form, no form is the beginning of another, and what
was read from a longer one is written in the shortest.
-/

namespace Farcall

open Decoder Written

namespace Handler

variable {a b handler : Handler} {bytes : Bytes}

theorem same_iff : a.same b = true ↔ a.locator = b.locator := decide_eq_true_iff

theorem same_iff_eq (sync : a.mode = .sync) (sync' : b.mode = .sync) : a.same b = true ↔ a = b := by
  obtain ⟨locator, mode⟩ := a
  obtain ⟨locator', mode'⟩ := b
  obtain rfl : mode = .sync := sync
  obtain rfl : mode' = .sync := sync'
  rw [same_iff, mk.injEq, and_iff_left rfl]

/-! ## Bytes -/

theorem serialize_eq_ok_iff :
    handler.serialize = .ok bytes ↔ handler.mode = .sync ∧ handler.locator.encode = .ok bytes := by
  unfold serialize
  cases handler.mode with
  | async => exact iff_of_false nofun nofun
  | sync =>
    cases handler.locator.encode with
    | error fault => exact iff_of_false nofun nofun
    | ok written =>
      exact ⟨fun given => ⟨rfl, congrArg Except.ok (Except.ok.inj given)⟩,
        fun ⟨_, given⟩ => congrArg Except.ok (Except.ok.inj given)⟩

theorem deserialize_eq_ok_iff : deserialize bytes = .ok handler ↔
    handler.mode = .sync ∧ Locator.decoder.run bytes = (.ok handler.locator, []) := by
  obtain ⟨target, mode⟩ := handler
  unfold deserialize ofLocator
  constructor
  · intro given
    split at given
    · next locator whole =>
      obtain ⟨rfl, rfl⟩ := (Handler.mk.injEq ..).mp (Except.ok.inj given)
      exact ⟨rfl, whole⟩
    · cases given
    · cases given
  · rintro ⟨rfl, whole⟩
    rw [whole]

theorem serialize_ok_iff : (∃ bytes, handler.serialize = .ok bytes) ↔
    handler.mode = .sync ∧ ∀ size ∈ handler.locator.sizes, size < Bytes.wordBound := by
  have fits : (∀ size ∈ handler.locator.sizes, size < Bytes.wordBound) ↔
      handler.locator.encode.isOk = true := by
    rw [Locator.isOk_encode, announced, List.all_eq_true]
    simp only [decide_eq_true_iff]
  simp only [serialize_eq_ok_iff, exists_and_left, fits]
  refine and_congr_right fun _ => ?_
  cases handler.locator.encode with
  | ok written => exact iff_of_true ⟨written, rfl⟩ rfl
  | error fault =>
    refine iff_of_false ?_ Bool.false_ne_true
    rintro ⟨_, ⟨⟩⟩

section Written

variable (written : handler.serialize = .ok bytes)
include written

theorem reads_of_serialize : Locator.decoder.Reads bytes handler.locator :=
  handler.locator.conveys_encode bytes (serialize_eq_ok_iff.mp written).2

theorem deserialize_of_serialize : deserialize bytes = .ok handler :=
  deserialize_eq_ok_iff.mpr ⟨(serialize_eq_ok_iff.mp written).1, (reads_of_serialize written).alone⟩

theorem deserialize_of_cut {cut : Bytes} (shorter : cut <+: bytes) (short : cut ≠ bytes) :
    deserialize cut = .error (.wire .endOfInput) := by
  rw [deserialize,
    (reads_of_serialize written).run_of_cut Locator.direct_decoder shorter short]
  rfl

theorem deserialize_of_padded {padding : Bytes} (more : padding ≠ []) :
    deserialize (bytes ++ padding) = .error (.trailingBytes padding.length) := by
  rw [deserialize, reads_of_serialize written padding]
  cases padding with
  | nil => exact absurd rfl more
  | cons first rest => rfl

end Written

theorem serialize_of_deserialize (restored : deserialize bytes = .ok handler) :
    ∃ shorter, handler.serialize = .ok shorter ∧ shorter.length ≤ bytes.length := by
  obtain ⟨sync, whole⟩ := deserialize_eq_ok_iff.mp restored
  obtain ⟨n, all, shorter, written, short⟩ := Locator.spends_decoder.of_run whole
  rw [List.length_nil] at all
  exact ⟨shorter, serialize_eq_ok_iff.mpr ⟨sync, written⟩, by omega⟩

theorem same_iff_serialize (sync : a.mode = .sync) (sync' : b.mode = .sync)
    (written : a.serialize = .ok bytes) : a.same b = true ↔ b.serialize = .ok bytes := by
  rw [same_iff_eq sync sync']
  constructor
  · rintro rfl
    exact written
  · intro written'
    have restored := deserialize_of_serialize written
    rw [deserialize_of_serialize written'] at restored
    exact (Except.ok.inj restored).symm

end Handler

/-! ## Answers of proxies -/

theorem LocalMethod.ofMethod?_of_key {localMethod : LocalMethod} {method : Method}
    (named : method.key = localMethod.key) : ofMethod? method = some localMethod := by
  rw [ofMethod?, named]
  cases localMethod <;> rfl

/-- The methods of a proxy that compare it with another. -/
def LocalMethod.Compares (view : ViewKind) (method : Method) : Prop :=
  method.key = equals.key ∨ method.key = isIdentical.key ∧ view = .remoteObject

theorem Proxy.answer?_of_compares (proxy : Proxy) {method : Method}
    (compares : LocalMethod.Compares proxy.view method) (arguments : List Value) :
    proxy.answer? method arguments = some (.ok (.bool (LocalMethod.sameTarget proxy arguments))) := by
  rcases compares with named | ⟨named, view⟩
  · rw [answer?, LocalMethod.ofMethod?_of_key named]
    rfl
  · rw [answer?, LocalMethod.ofMethod?_of_key named, view]
    rfl

/-- A call that compares a proxy over `a` with one over `b` is answered, within a client and without
one, by whether their targets are the same. The modes of the proxies and the view of the argument
do not matter. -/
theorem Handler.answer_same (a b : Handler) (client : Client) (mode mine theirs : Mode)
    (view view' : ViewKind) {method : Method} (compares : LocalMethod.Compares view method)
    (more : List Value) :
    let arguments := .proxy ⟨{ b with mode := theirs }, view'⟩ :: more
    let answer := Start.ended (.value (.bool (a.same b)))
    client.dispatch ⟨{ a with mode := mine }, view⟩ method arguments mode = (answer, client) ∧
      Client.dispatchAlone ⟨{ a with mode := mine }, view⟩ method arguments = answer := by
  intro arguments answer
  have same : LocalMethod.sameTarget ⟨{ a with mode := mine }, view⟩ arguments = a.same b :=
    decide_eq_decide.mpr eq_comm
  have given := Proxy.answer?_of_compares ⟨{ a with mode := mine }, view⟩ compares arguments
  rw [Client.dispatch, Client.dispatchAlone, given, same]
  exact ⟨rfl, rfl⟩

/-- Two synchronous handlers are the same exactly if they have the same bytes, and this is what every
comparison between proxies over them answers. The bytes restore the handler, asynchronous handlers
have none, and of all byte strings only those that hold one locator and nothing else are taken; what
they restore has bytes of its own, which are no longer. -/
theorem Handler.same_iff_bytes {a b : Handler} (sync : a.mode = .sync) (sync' : b.mode = .sync) :
    (a.same b = true ↔ a = b) ∧
    ((∃ bytes, a.serialize = .ok bytes) ↔ ∀ size ∈ a.locator.sizes, size < 2 ^ 32) ∧
    (∀ bytes, a.serialize = .ok bytes → (a.same b = true ↔ b.serialize = .ok bytes)) ∧
    (∀ (client : Client) (mode mine theirs : Mode) (view view' : ViewKind) (method : Method)
      (more : List Value), LocalMethod.Compares view method →
      let arguments := .proxy ⟨{ b with mode := theirs }, view'⟩ :: more
      let answer := Start.ended (.value (.bool (a.same b)))
      client.dispatch ⟨{ a with mode := mine }, view⟩ method arguments mode = (answer, client) ∧
        Client.dispatchAlone ⟨{ a with mode := mine }, view⟩ method arguments = answer) ∧
    (∀ bytes, a.serialize = .ok bytes → deserialize bytes = .ok a) ∧
    (∀ handler : Handler, handler.asAsync.serialize = .error .notSerializable) ∧
    (∀ bytes handler, deserialize bytes = .ok handler → handler.mode = .sync ∧
      ∃ shorter, handler.serialize = .ok shorter ∧ shorter.length ≤ bytes.length ∧
        deserialize shorter = .ok handler) ∧
    (∀ bytes cut, a.serialize = .ok bytes → cut <+: bytes → cut ≠ bytes →
      deserialize cut = .error (.wire .endOfInput)) ∧
    (∀ bytes padding, a.serialize = .ok bytes → padding ≠ [] →
      deserialize (bytes ++ padding) = .error (.trailingBytes padding.length)) := by
  refine ⟨same_iff_eq sync sync', ?fits, ?bytes, ?answers, ?restored, ?refused, ?again, ?cut, ?padded⟩
  case fits => rw [serialize_ok_iff, and_iff_right sync, Bytes.wordBound]; rfl
  case bytes => exact fun bytes written => same_iff_serialize sync sync' written
  case answers =>
    intro client mode mine theirs view view' method more compares
    exact answer_same a b client mode mine theirs view view' compares more
  case restored => exact fun bytes written => deserialize_of_serialize written
  case refused => exact fun handler => rfl
  case again =>
    intro bytes handler restored
    obtain ⟨shorter, written, short⟩ := serialize_of_deserialize restored
    exact ⟨(deserialize_eq_ok_iff.mp restored).1, shorter, written, short,
      deserialize_of_serialize written⟩
  case cut => exact fun bytes cut written shorter short => deserialize_of_cut written shorter short
  case padded => exact fun bytes padding written more => deserialize_of_padded written more

/-- A session and an entity key of the same bytes are told apart, under an empty application name. -/
theorem Handler.same_iff_bytes_of_keys :
    let session := ofLocator ⟨⟨"", "m", "", by decide⟩, "b", "v", .stateful ⟨[7]⟩⟩
    let entity := ofLocator ⟨⟨"", "m", "", by decide⟩, "b", "v", .entity ⟨[7]⟩⟩
    let bytes := [0, 1, 109, 0, 1, 98, 1, 118, 1, 1, 7]
    session.serialize = .ok bytes ∧ deserialize bytes = .ok session ∧ session.same entity = false ∧
      entity.serialize ≠ .ok bytes := by
  intro session entity bytes
  have written : session.serialize = .ok bytes := by rfl
  have apart : session.same entity = false := by decide
  have ⟨_, _, same, _, restored, _⟩ := same_iff_bytes (a := session) (b := entity) rfl rfl
  refine ⟨written, restored bytes written, apart, fun given => ?_⟩
  rw [(same bytes written).mpr given] at apart
  cases apart

end Farcall
