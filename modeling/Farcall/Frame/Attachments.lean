import Farcall.Frame.Header
import Farcall.Wire.Field

set_option autoImplicit false

/-!
# Attachments

Metadata that rides along with a message, as a finite map from 16-bit codes to byte strings. Two
codes are reserved and come first in a block; the others follow in ascending order. The entries of
a block are kept sorted, so blocks with the same contents are equal and are written alike.

A block is written as its number of entries in one byte and then each entry as its code and a
blob. Reading accepts any order; the last of several entries with one code wins.
-/

namespace Farcall

inductive AttachmentKey where
  | transactionId
  | sessionAffinity
  | custom (code : UInt16)
deriving DecidableEq, Repr

namespace AttachmentKey

def code : AttachmentKey → UInt16
  | transactionId => 1
  | sessionAffinity => 2
  | custom code => code

/-- The key of a code; reserved codes give their own keys. -/
def ofCode (code : UInt16) : AttachmentKey :=
  if code = 1 then transactionId
  else if code = 2 then sessionAffinity
  else custom code

def rank : AttachmentKey → Nat
  | transactionId => 0
  | sessionAffinity => 1
  | custom code => 2 + code.toNat

instance : Ord AttachmentKey := ⟨fun a b => compare a.rank b.rank⟩

theorem code_ofCode (c : UInt16) : (ofCode c).code = c := by
  unfold ofCode
  split
  · simp_all [code]
  · split <;> simp_all [code]

theorem rank_injective {a b : AttachmentKey} (h : a.rank = b.rank) : a = b := by
  cases a with
  | custom c =>
    cases b with
    | custom d =>
      have : c.toNat = d.toNat := by simpa [rank] using h
      rw [UInt16.toNat_inj.mp this]
    | _ => simp only [rank] at h; omega
  | _ => cases b <;> simp only [rank] at h ⊢ <;> omega

end AttachmentKey

def codeRank (code : UInt16) : Nat := (AttachmentKey.ofCode code).rank

theorem codeRank_injective {a b : UInt16} (h : codeRank a = codeRank b) : a = b := by
  have := AttachmentKey.rank_injective h
  rw [← AttachmentKey.code_ofCode a, ← AttachmentKey.code_ofCode b, this]

def InBlockOrder (entries : List (UInt16 × Bytes)) : Prop :=
  entries.Pairwise fun a b => codeRank a.1 < codeRank b.1

/-- Puts an entry in its place; an entry of the same code is replaced. -/
def insertEntry (code : UInt16) (value : Bytes) :
    List (UInt16 × Bytes) → List (UInt16 × Bytes)
  | [] => [(code, value)]
  | entry :: rest =>
    if codeRank code < codeRank entry.1 then (code, value) :: entry :: rest
    else if code = entry.1 then (code, value) :: rest
    else entry :: insertEntry code value rest

theorem mem_insertEntry {code : UInt16} {value : Bytes} {entries : List (UInt16 × Bytes)}
    {entry : UInt16 × Bytes} (h : entry ∈ insertEntry code value entries) :
    entry = (code, value) ∨ entry ∈ entries := by
  induction entries with
  | nil => simpa [insertEntry] using h
  | cons first rest ih =>
    simp only [insertEntry] at h
    split at h
    · simpa using h
    · split at h
      · have := List.mem_cons.mp h
        exact this.imp id (List.mem_cons_of_mem _)
      · rcases List.mem_cons.mp h with rfl | h
        · exact .inr List.mem_cons_self
        · exact (ih h).imp id (List.mem_cons_of_mem _)

theorem inBlockOrder_insertEntry {code : UInt16} {value : Bytes}
    {entries : List (UInt16 × Bytes)} (h : InBlockOrder entries) :
    InBlockOrder (insertEntry code value entries) := by
  induction entries with
  | nil => simp [insertEntry, InBlockOrder]
  | cons first rest ih =>
    have ⟨hfirst, hrest⟩ := List.pairwise_cons.mp h
    simp only [insertEntry]
    split
    · rename_i hlt
      refine List.pairwise_cons.mpr ⟨?_, h⟩
      intro entry hentry
      rcases List.mem_cons.mp hentry with rfl | hentry
      · exact hlt
      · exact Nat.lt_trans hlt (hfirst entry hentry)
    · rename_i hge
      split
      · rename_i heq
        subst heq
        exact List.pairwise_cons.mpr ⟨hfirst, hrest⟩
      · rename_i hne
        refine List.pairwise_cons.mpr ⟨?_, ih hrest⟩
        intro entry hentry
        rcases mem_insertEntry hentry with rfl | hentry
        · exact Nat.lt_of_le_of_ne (Nat.le_of_not_lt hge)
            fun heq => hne (codeRank_injective heq).symm
        · exact hfirst entry hentry

structure Attachments where
  entries : List (UInt16 × Bytes)
  inBlockOrder : InBlockOrder entries
deriving DecidableEq

namespace Attachments

def empty : Attachments := ⟨[], List.Pairwise.nil⟩

instance : Inhabited Attachments := ⟨empty⟩

/-- The number of entries that a written block can have. -/
def maxEntries : Nat := 255

def size (block : Attachments) : Nat := block.entries.length

def isEmpty (block : Attachments) : Bool := block.entries.isEmpty

def toList (block : Attachments) : List (AttachmentKey × Bytes) :=
  block.entries.map fun entry => (AttachmentKey.ofCode entry.1, entry.2)

def find? (block : Attachments) (code : UInt16) : Option Bytes :=
  block.entries.lookup code

def put (block : Attachments) (code : UInt16) (value : Bytes) : Attachments :=
  ⟨insertEntry code value block.entries, inBlockOrder_insertEntry block.inBlockOrder⟩

def erase (block : Attachments) (code : UInt16) : Attachments :=
  ⟨block.entries.filter (·.1 ≠ code), List.Pairwise.filter _ block.inBlockOrder⟩

def get? (block : Attachments) (key : AttachmentKey) : Option Bytes :=
  block.find? key.code

/-- Stores a value; keys with one code are one key. Also gives the value that was there. -/
def insert (block : Attachments) (key : AttachmentKey) (value : Bytes) :
    Option Bytes × Attachments :=
  (block.find? key.code, block.put key.code value)

def remove (block : Attachments) (key : AttachmentKey) : Option Bytes × Attachments :=
  (block.find? key.code, block.erase key.code)

def putAll (block : Attachments) (entries : List (UInt16 × Bytes)) : Attachments :=
  entries.foldl (fun block entry => block.put entry.1 entry.2) block

/-- Adds all entries of another block, which wins over this one. -/
def merge (block other : Attachments) : Attachments :=
  block.putAll other.entries

/-- The block that holds these entries, later ones winning. -/
def ofList (entries : List (AttachmentKey × Bytes)) : Attachments :=
  empty.putAll (entries.map fun entry => (entry.1.code, entry.2))

def entryBytes (entry : UInt16 × Bytes) : Except WireError Bytes := do
  return Wire.u16 entry.1 ++ (← Wire.blob entry.2)

def entriesBytes : List (UInt16 × Bytes) → Except WireError Bytes
  | [] => .ok []
  | entry :: rest => do
    let front ← entryBytes entry
    return front ++ (← entriesBytes rest)

def encode (block : Attachments) : Except FrameError Bytes :=
  if maxEntries < block.size then
    .error (.violation s!"{block.size} attachments exceed the limit of {maxEntries}")
  else
    match entriesBytes block.entries with
    | .ok body => .ok (Wire.u8 (UInt8.ofNat block.size) ++ body)
    | .error fault => .error (.wire fault)

def entryDecoder : Decoder FrameError (UInt16 × Bytes) := do
  let code ← Decoder.u16
  return (code, ← Decoder.blob)

def decoder : Decoder FrameError Attachments := do
  let count ← Decoder.u8
  return empty.putAll (← Decoder.replicate count.toNat entryDecoder)

end Attachments

end Farcall
