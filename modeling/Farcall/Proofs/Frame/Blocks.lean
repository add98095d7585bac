import Farcall.Frame.Attachments
import Farcall.Proofs.Wire.Fields

set_option autoImplicit false

/-!
# Attachment blocks read back

A block is written if it has at most 255 entries and each value fits. The entries stand in block
order, so the reader puts every one behind the others and ends with the block that was written.
-/

namespace Farcall

theorem insertEntry_of_last {code : UInt16} (value : Bytes) {entries : List (UInt16 × Bytes)}
    (last : ∀ entry ∈ entries, codeRank entry.1 < codeRank code) :
    insertEntry code value entries = entries ++ [(code, value)] := by
  induction entries with
  | nil => rfl
  | cons first rest ih =>
    have before : codeRank first.1 < codeRank code := last first List.mem_cons_self
    have lower : ¬ codeRank code < codeRank first.1 := by omega
    have other : code ≠ first.1 := by
      rintro rfl
      omega
    have behind := ih fun entry mem => last entry (List.mem_cons_of_mem first mem)
    rw [insertEntry, if_neg lower, if_neg other, behind, List.cons_append]

namespace Attachments

theorem ext_entries {a b : Attachments} (same : a.entries = b.entries) : a = b := by
  cases a
  cases b
  cases same
  rfl

theorem entries_putAll (block : Attachments) {entries : List (UInt16 × Bytes)}
    (ordered : InBlockOrder (block.entries ++ entries)) :
    (block.putAll entries).entries = block.entries ++ entries := by
  induction entries generalizing block with
  | nil => exact (List.append_nil _).symm
  | cons entry entries ih =>
    have last : ∀ earlier ∈ block.entries, codeRank earlier.1 < codeRank entry.1 :=
      fun earlier mem => (List.pairwise_append.mp ordered).2.2 earlier mem entry List.mem_cons_self
    have put : (block.put entry.1 entry.2).entries = block.entries ++ [entry] :=
      insertEntry_of_last entry.2 last
    have split : block.entries ++ entry :: entries = block.entries ++ [entry] ++ entries := by
      simp
    rw [split, ← put] at ordered
    change ((block.put entry.1 entry.2).putAll entries).entries = _
    rw [ih _ ordered, put, split]

theorem empty_putAll (block : Attachments) : empty.putAll block.entries = block := by
  have ordered : InBlockOrder (empty.entries ++ block.entries) := block.inBlockOrder
  exact ext_entries (entries_putAll empty ordered)

theorem conveys_entryBytes (entry : UInt16 × Bytes) :
    Conveys (entryBytes entry) entryDecoder entry :=
  .behind (Decoder.reads_u16 entry.1) ((Wire.conveys_blob entry.2).map fun value => (entry.1, value))

theorem readsEach_entriesBytes {entries : List (UInt16 × Bytes)} {bytes : Bytes}
    (given : entriesBytes entries = .ok bytes) : entryDecoder.ReadsEach bytes entries := by
  induction entries generalizing bytes with
  | nil =>
    rw [← Except.ok.inj given]
    exact .nil
  | cons entry entries ih =>
    rw [entriesBytes] at given
    obtain ⟨front, rest, first, others, rfl⟩ := of_append_eq_ok given
    exact .cons (conveys_entryBytes entry front first) (ih others)

theorem isOk_entriesBytes (entries : List (UInt16 × Bytes)) :
    (entriesBytes entries).isOk =
      entries.all fun entry => decide (entry.2.length < Bytes.wordBound) := by
  induction entries with
  | nil => rfl
  | cons entry entries ih =>
    rw [entriesBytes, isOk_append, ih, entryBytes, isOk_behind, Wire.isOk_blob, List.all_cons]

theorem conveys_encode (block : Attachments) : Conveys block.encode decoder block := by
  intro bytes given
  unfold encode at given
  split at given
  · cases given
  · next few =>
    split at given
    · next body written =>
      have size : (UInt8.ofNat block.size).toNat = block.entries.length := by
        unfold maxEntries at few
        have small : block.size < 256 := by omega
        rw [UInt8.toNat_ofNat', Nat.mod_eq_of_lt small]
        rfl
      have reads : Decoder.Reads (do return empty.putAll (← Decoder.replicate
          (UInt8.ofNat block.size).toNat entryDecoder)) body block := by
        have all := (Decoder.reads_replicate (readsEach_entriesBytes written)).map empty.putAll
        rwa [empty_putAll, ← size] at all
      rw [← Except.ok.inj given]
      exact (Decoder.reads_u8 _).bind reads
    · cases given

theorem isOk_encode (block : Attachments) : block.encode.isOk =
    (decide (block.size ≤ maxEntries) &&
      block.entries.all fun entry => decide (entry.2.length < Bytes.wordBound)) := by
  rw [← isOk_entriesBytes]
  unfold encode
  by_cases many : maxEntries < block.size
  · simp only [many, ↓reduceIte, Nat.not_le.mpr many, decide_false, Bool.false_and]
    rfl
  · simp only [many, ↓reduceIte, Nat.not_lt.mp many, decide_true, Bool.true_and]
    cases entriesBytes block.entries <;> rfl

theorem direct_decoder : decoder.Direct :=
  Decoder.direct_u8.bind fun _ => (Decoder.direct_replicate
    (Decoder.direct_u16.bind fun _ => Decoder.direct_blob.bind fun _ => Decoder.direct_pure _)
      _).bind fun _ => Decoder.direct_pure _

end Attachments

end Farcall
