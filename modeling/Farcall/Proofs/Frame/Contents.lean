import Farcall.Proofs.Frame.Blocks
import Mathlib.Data.Finmap
import Mathlib.Data.List.Sort

set_option autoImplicit false

/-!
# Blocks of attachments as finite maps

Two keys can spell one code, and the order of keys is not that of codes. A block hides both: after
every history of insertions, removals, merges and reads it is the finite map from codes to values
in which the later write wins. It holds each code under its own key alone, also where keys are
stored just as they come, which merging and reading do.

The entries of a block stand in one order, so they are known from the map, and with them the bytes.
-/

namespace Farcall

abbrev CodeMap := Finmap fun _ : UInt16 => Bytes

/-- The value under each key, which keeps its spelling. -/
abbrev KeyMap := Finmap fun _ : AttachmentKey => Bytes

/-- The key is how its code is spelled by the reader. -/
def AttachmentKey.Normal (key : AttachmentKey) : Prop := key = ofCode key.code

theorem AttachmentKey.normal_ofCode (code : UInt16) : (ofCode code).Normal := by
  rw [Normal, code_ofCode]

theorem AttachmentKey.eq_ofCode_iff {key : AttachmentKey} {code : UInt16} :
    key = ofCode code ↔ key.Normal ∧ key.code = code := by
  constructor
  · rintro rfl
    exact ⟨normal_ofCode code, code_ofCode code⟩
  · rintro ⟨normal, rfl⟩
    exact normal

instance (key : AttachmentKey) : Decidable key.Normal := inferInstanceAs (Decidable (_ = _))

theorem AttachmentKey.normal_iff (key : AttachmentKey) :
    key.Normal ↔ key ≠ .custom 1 ∧ key ≠ .custom 2 := by
  cases key with
  | transactionId => exact iff_of_true rfl ⟨nofun, nofun⟩
  | sessionAffinity => exact iff_of_true rfl ⟨nofun, nofun⟩
  | custom code =>
    change custom code = ofCode code ↔ _
    unfold ofCode
    by_cases first : code = 1
    · simp [first]
    · by_cases second : code = 2 <;> simp [first, second]

/-! ## Looking up entries -/

section Entries

variable {code other : UInt16} {value : Bytes} {entries : List (UInt16 × Bytes)}

theorem lookup_entries_cons (first : UInt16 × Bytes) (rest : List (UInt16 × Bytes)) :
    (first :: rest).lookup other =
      if other = first.1 then some first.2 else rest.lookup other := by
  obtain ⟨key, value⟩ := first
  by_cases here : other = key
  · rw [here, List.lookup_cons_self, if_pos rfl]
  · rw [List.lookup_cons, beq_false_of_ne here, if_neg here]

theorem lookup_insertEntry : (insertEntry code value entries).lookup other =
    if other = code then some value else entries.lookup other := by
  induction entries with
  | nil => exact lookup_entries_cons (code, value) []
  | cons first rest ih =>
    rw [insertEntry]
    split
    · exact lookup_entries_cons (code, value) (first :: rest)
    · split
      · next taken => simp +contextual only [lookup_entries_cons, taken, if_false]
      · next free =>
        rw [lookup_entries_cons, lookup_entries_cons, ih]
        by_cases here : other = first.1
        · have apart : other ≠ code := fun same => free (same ▸ here)
          rw [if_pos here, if_neg apart, if_pos here]
        · rw [if_neg here, if_neg here]

theorem lookup_filter_ne : (entries.filter (·.1 ≠ code)).lookup other =
    if other = code then none else entries.lookup other := by
  induction entries with
  | nil => exact (ite_self none).symm
  | cons first rest ih =>
    by_cases dropped : first.1 = code
    · rw [List.filter_cons_of_neg (by simpa using dropped), ih, lookup_entries_cons, dropped]
      by_cases same : other = code
      · rw [if_pos same, if_pos same]
      · rw [if_neg same, if_neg same, if_neg same]
    · rw [List.filter_cons_of_pos (by simpa using dropped), lookup_entries_cons, ih,
        lookup_entries_cons]
      by_cases here : other = first.1
      · have apart : other ≠ code := fun same => dropped (here ▸ same)
        rw [if_pos here, if_neg apart, if_pos here]
      · rw [if_neg here, if_neg here]

theorem lookup_eq_some_iff_mem (distinct : (entries.map Prod.fst).Nodup) :
    entries.lookup code = some value ↔ (code, value) ∈ entries := by
  induction entries with
  | nil => simp
  | cons first rest ih =>
    have ⟨fresh, others⟩ := List.nodup_cons.mp distinct
    rw [lookup_entries_cons, List.mem_cons, Prod.ext_iff]
    by_cases here : code = first.1
    · have absent : (code, value) ∉ rest := fun mem =>
        fresh (here ▸ List.mem_map_of_mem (f := Prod.fst) mem)
      rw [if_pos here, Option.some.injEq, eq_comm]
      exact ⟨fun same => .inl ⟨here, same⟩, fun found => (found.resolve_right absent).2⟩
    · rw [if_neg here, ih others]
      exact ⟨.inr, fun found => found.resolve_left fun same => here same.1⟩

end Entries

/-! ## Looking up in finite maps -/

section Maps

variable {α β : Type} [DecidableEq α] (map other : Finmap fun _ : α => β) (key wanted : α)

theorem map_lookup_insert (value : β) : (map.insert key value).lookup wanted =
    if wanted = key then some value else map.lookup wanted := by
  split
  · next here => rw [here, Finmap.lookup_insert]
  · next apart => rw [Finmap.lookup_insert_of_ne map apart]

theorem map_lookup_erase : (map.erase key).lookup wanted =
    if wanted = key then none else map.lookup wanted := by
  split
  · next here => rw [here, Finmap.lookup_erase]
  · next apart => rw [Finmap.lookup_erase_ne apart]

theorem map_lookup_union :
    (map ∪ other).lookup wanted = (map.lookup wanted).or (other.lookup wanted) := by
  by_cases inside : wanted ∈ map
  · obtain ⟨value, found⟩ := Finmap.mem_iff.mp inside
    rw [Finmap.lookup_union_left inside, found, Option.some_or]
  · rw [Finmap.lookup_union_right inside, Finmap.lookup_eq_none.mpr inside, Option.none_or]

end Maps

/-! ## Blocks and their histories -/

namespace Attachments

theorem distinct_codes (block : Attachments) : (block.entries.map Prod.fst).Nodup :=
  List.pairwise_map.mpr <| block.inBlockOrder.imp fun before same => by
    rw [same] at before
    exact Nat.lt_irrefl _ before

theorem find?_eq_some_iff {block : Attachments} {code : UInt16} {value : Bytes} :
    block.find? code = some value ↔ (code, value) ∈ block.entries :=
  lookup_eq_some_iff_mem block.distinct_codes

theorem find?_put (block : Attachments) (code other : UInt16) (value : Bytes) :
    (block.put code value).find? other = if other = code then some value else block.find? other :=
  lookup_insertEntry

theorem find?_erase (block : Attachments) (code other : UInt16) :
    (block.erase code).find? other = if other = code then none else block.find? other :=
  lookup_filter_ne

theorem find?_putAll (block : Attachments) (entries : List (UInt16 × Bytes)) (code : UInt16) :
    (block.putAll entries).find? code = (entries.reverse.lookup code).or (block.find? code) := by
  induction entries generalizing block with
  | nil => rfl
  | cons first rest ih =>
    change ((block.put first.1 first.2).putAll rest).find? code = _
    rw [ih, find?_put, List.reverse_cons, List.lookup_append, Option.or_assoc, lookup_entries_cons]
    by_cases here : code = first.1 <;> simp [here]

theorem find?_merge (block other : Attachments) (code : UInt16) :
    (block.merge other).find? code = (other.find? code).or (block.find? code) := by
  -- the other block has no code twice, so the last entry with a code is the first one
  have distinct : (other.entries.reverse.map Prod.fst).Nodup := by
    rw [List.map_reverse]
    exact List.nodup_reverse.mpr other.distinct_codes
  have once : other.entries.reverse.lookup code = other.find? code := by
    ext value
    rw [lookup_eq_some_iff_mem distinct, List.mem_reverse, find?_eq_some_iff]
  rw [merge, find?_putAll, once]

theorem ext_find? {a b : Attachments} (same : ∀ code, a.find? code = b.find? code) : a = b := by
  apply ext_entries
  have irrefl : Std.Irrefl fun a b : UInt16 × Bytes => codeRank a.1 < codeRank b.1 :=
    ⟨fun entry => Nat.lt_irrefl _⟩
  refine List.Pairwise.eq_of_mem_iff a.inBlockOrder b.inBlockOrder fun entry => ?_
  rw [← find?_eq_some_iff, ← find?_eq_some_iff, same]

def listing : Decoder FrameError (List (UInt16 × Bytes)) := do
  Decoder.replicate (← Decoder.u8).toNat entryDecoder

theorem run_decoder (source : Bytes) :
    decoder.run source = ((listing.run source).1.map empty.putAll, (listing.run source).2) := by
  have staged : decoder = listing >>= fun entries => pure (empty.putAll entries) := by
    rw [listing, bind_assoc]
    rfl
  rw [staged, Decoder.run_map]

/-- How a block came to be, with the history of each block that was merged into it. -/
inductive History where
  | new
  | insert (past : History) (key : AttachmentKey) (value : Bytes)
  | remove (past : History) (key : AttachmentKey)
  | merge (past other : History)
  /-- The block that is read takes the place of the earlier one; a failed read changes nothing. -/
  | read (past : History) (source : Bytes)

namespace History

def block : History → Attachments
  | new => .empty
  | insert past key value => (past.block.insert key value).2
  | remove past key => (past.block.remove key).2
  | merge past other => past.block.merge other.block
  | read past source =>
    match (decoder.run source).1 with
    | .ok block => block
    | .error _ => past.block

/-- What the steps mean for a map from codes to values: the later write wins. -/
def contents : History → CodeMap
  | new => ∅
  | insert past key value => past.contents.insert key.code value
  | remove past key => past.contents.erase key.code
  | merge past other => other.contents ∪ past.contents
  | read past source =>
    match (listing.run source).1 with
    | .ok entries => entries.foldl (fun map entry => map.insert entry.1 entry.2) ∅
    | .error _ => past.contents

/-- The keys as a map that does not know codes stores them. Insertion and removal go through the
code; merging and reading store the keys just as they come. -/
def stored : History → KeyMap
  | new => ∅
  | insert past key value => past.stored.insert (.ofCode key.code) value
  | remove past key => past.stored.erase (.ofCode key.code)
  | merge past other => other.stored ∪ past.stored
  | read past source =>
    match (listing.run source).1 with
    | .ok entries => entries.foldl (fun map entry => map.insert (.ofCode entry.1) entry.2) ∅
    | .error _ => past.stored

end History

/-! ## Blocks as maps -/

def Reflects (block : Attachments) (map : CodeMap) : Prop :=
  ∀ code, block.find? code = map.lookup code

theorem reflects_empty : Reflects .empty ∅ := fun _ => rfl

theorem Reflects.putAll {block : Attachments} {map : CodeMap} (reflects : block.Reflects map)
    (entries : List (UInt16 × Bytes)) :
    (block.putAll entries).Reflects
      (entries.foldl (fun map entry => map.insert entry.1 entry.2) map) := by
  induction entries generalizing block map with
  | nil => exact reflects
  | cons first rest ih =>
    refine @ih (block.put first.1 first.2) (map.insert first.1 first.2) fun code => ?_
    rw [find?_put, map_lookup_insert, reflects]

theorem History.reflects (history : History) : history.block.Reflects history.contents := by
  induction history with
  | new => exact fun code => rfl
  | insert past key value ih =>
    intro code
    rw [block, contents, map_lookup_insert, ← ih]
    exact find?_put past.block key.code code value
  | remove past key ih =>
    intro code
    rw [block, contents, map_lookup_erase, ← ih]
    exact find?_erase past.block key.code code
  | merge past other ih ihOther =>
    intro code
    rw [block, contents, find?_merge, map_lookup_union, ih, ihOther]
  | read past source ih =>
    rw [block, contents, run_decoder]
    cases (listing.run source).1 with
    | ok entries => exact reflects_empty.putAll entries
    | error fault => exact ih

/-- Under each normal key stands the value of its code, and nothing else is stored. -/
def Spells (stored : KeyMap) (map : CodeMap) : Prop :=
  ∀ key, stored.lookup key = if key.Normal then map.lookup key.code else none

theorem spells_empty : Spells ∅ ∅ := fun _ => (ite_self none).symm

section Spells

variable {stored : KeyMap} {map : CodeMap} (spells : Spells stored map)
include spells

theorem Spells.insert (code : UInt16) (value : Bytes) :
    Spells (stored.insert (.ofCode code) value) (map.insert code value) := by
  intro key
  rw [map_lookup_insert, map_lookup_insert, spells]
  by_cases normal : key.Normal <;> simp [AttachmentKey.eq_ofCode_iff, normal]

theorem Spells.erase (code : UInt16) :
    Spells (stored.erase (.ofCode code)) (map.erase code) := by
  intro key
  rw [map_lookup_erase, map_lookup_erase, spells]
  by_cases normal : key.Normal <;> simp [AttachmentKey.eq_ofCode_iff, normal]

theorem Spells.union {others : KeyMap} {other : CodeMap} (spelled : Spells others other) :
    Spells (others ∪ stored) (other ∪ map) := by
  intro key
  rw [map_lookup_union, map_lookup_union, spells, spelled]
  by_cases normal : key.Normal <;> simp [normal]

theorem Spells.insertAll (entries : List (UInt16 × Bytes)) :
    Spells (entries.foldl (fun map entry => map.insert (.ofCode entry.1) entry.2) stored)
      (entries.foldl (fun map entry => map.insert entry.1 entry.2) map) := by
  induction entries generalizing stored map with
  | nil => exact spells
  | cons first rest ih => exact ih (spells.insert first.1 first.2)

end Spells

theorem History.spells (history : History) : Spells history.stored history.contents := by
  induction history with
  | new => exact spells_empty
  | insert past key value ih => exact ih.insert key.code value
  | remove past key ih => exact ih.erase key.code
  | merge past other ih ihOther => exact ih.union ihOther
  | read past source ih =>
    rw [stored, contents]
    cases (listing.run source).1 with
    | ok entries => exact spells_empty.insertAll entries
    | error fault => exact ih

theorem History.normal_of_mem (history : History) {key : AttachmentKey}
    (mem : key ∈ history.stored) : key.Normal := by
  by_contra other
  obtain ⟨value, found⟩ := Finmap.mem_iff.mp mem
  rw [history.spells, if_neg other] at found
  cases found

theorem History.mem_toList (history : History) (key : AttachmentKey) (value : Bytes) :
    (key, value) ∈ history.block.toList ↔ history.stored.lookup key = some value := by
  have listed : (key, value) ∈ history.block.toList ↔
      key.Normal ∧ (key.code, value) ∈ history.block.entries := by
    simp only [toList, List.mem_map, Prod.mk.injEq, Prod.exists]
    constructor
    · rintro ⟨code, _, mem, rfl, rfl⟩
      exact ⟨AttachmentKey.normal_ofCode code, by rwa [AttachmentKey.code_ofCode]⟩
    · rintro ⟨normal, mem⟩
      exact ⟨key.code, value, mem, normal.symm, rfl⟩
  rw [listed, ← find?_eq_some_iff, history.reflects, history.spells]
  by_cases normal : key.Normal <;> simp [normal]

theorem History.size_block (history : History) :
    history.block.size = history.contents.keys.card := by
  have keys : history.contents.keys = (history.block.entries.map Prod.fst).toFinset := by
    ext code
    rw [Finmap.mem_keys, Finmap.mem_iff, List.mem_toFinset, List.mem_map]
    simp only [← history.reflects code, find?_eq_some_iff]
    constructor
    · rintro ⟨value, mem⟩
      exact ⟨(code, value), mem, rfl⟩
    · rintro ⟨entry, mem, rfl⟩
      exact ⟨entry.2, mem⟩
  rw [keys, List.toFinset_card_of_nodup history.block.distinct_codes, List.length_map, size]

theorem History.block_congr {a b : History} (same : a.contents = b.contents) :
    a.block = b.block :=
  ext_find? fun code => by rw [a.reflects, b.reflects, same]

theorem History.isOk_encode_block (history : History) : history.block.encode.isOk = true ↔
    history.contents.keys.card ≤ maxEntries ∧
    ∀ code value, history.contents.lookup code = some value → value.length < Bytes.wordBound := by
  rw [isOk_encode, Bool.and_eq_true, decide_eq_true_iff, history.size_block, List.all_eq_true]
  simp only [decide_eq_true_iff, Prod.forall, ← history.reflects _, find?_eq_some_iff]

/-- A block is the finite map from codes to values that its history spells out. The keys in it are
normal, what its operations answer is what the map holds, its bytes depend on the map alone and
can be written up to 255 entries of values that fit a blob, and they read back to the block, also
in front of other bytes. -/
theorem History.block_is_map (history : History) :
    (∀ key value,
      (key, value) ∈ history.block.toList ↔ history.stored.lookup key = some value) ∧
    (∀ key ∈ history.stored, key ≠ .custom 1 ∧ key ≠ .custom 2) ∧
    (∀ key, history.block.get? key = history.contents.lookup key.code) ∧
    (∀ key, (history.block.remove key).1 = history.contents.lookup key.code) ∧
    (∀ key value, (history.block.insert key value).1 = history.contents.lookup key.code) ∧
    history.block.size = history.contents.keys.card ∧
    (∀ other : History, other.contents = history.contents →
      other.block.encode = history.block.encode) ∧
    (history.block.encode.isOk = true ↔ history.block.size ≤ 255 ∧
      ∀ code value, history.contents.lookup code = some value → value.length < 2 ^ 32) ∧
    (∀ bytes, history.block.encode = .ok bytes →
      ∀ rest, decoder.run (bytes ++ rest) = (.ok history.block, rest)) := by
  refine ⟨history.mem_toList, ?keys, ?found, ?found, ?replaced, history.size_block, ?same, ?written,
    ?readBack⟩
  case keys => exact fun key mem => key.normal_iff.mp (history.normal_of_mem mem)
  case found => exact fun key => history.reflects key.code
  case replaced => exact fun key _ => history.reflects key.code
  case same => exact fun other same => by rw [block_congr same]
  case written => rw [history.size_block]; exact history.isOk_encode_block
  case readBack =>
    intro bytes given rest
    exact conveys_encode history.block bytes given rest

example : ((History.new.insert .transactionId [7]).insert (.custom 1) [8]).block.toList =
    [(.transactionId, [8])] := by decide

end Attachments

end Farcall
