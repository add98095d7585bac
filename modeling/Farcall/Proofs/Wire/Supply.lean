import Farcall.Proofs.Wire.Reading
import Farcall.Input

set_option autoImplicit false

/-!
# What a stream still holds

A stream whose reads always bring a byte hands over a certain front part of its bytes, and every
attempt to read beyond ends with one and the same error, however the reads are cut and interrupted.
`Input.supply` finds both, and a decoder on the stream does what it does on them.
-/

namespace Farcall

/-- Bytes, and what an attempt to read beyond them ends with. -/
structure Supply where
  bytes : Bytes
  error : WireError

namespace Supply

def behind (supply : Supply) (count : Nat) : Supply :=
  { supply with bytes := supply.bytes.drop count }

instance : ByteSource Supply where
  fetch count supply :=
    if count ≤ supply.bytes.length then (.ok (supply.bytes.take count), supply.behind count)
    else (.error supply.error, supply.behind supply.bytes.length)

theorem fetch_of_long {supply : Supply} {count : Nat} (long : count ≤ supply.bytes.length) :
    ByteSource.fetch count supply = (.ok (supply.bytes.take count), supply.behind count) :=
  if_pos long

theorem fetch_of_short {supply : Supply} {count : Nat} (short : supply.bytes.length < count) :
    ByteSource.fetch count supply = (.error supply.error, supply.behind supply.bytes.length) :=
  if_neg (by omega)

theorem behind_behind (supply : Supply) (n m : Nat) :
    (supply.behind n).behind m = supply.behind (n + m) := by
  simp only [behind, List.drop_drop]

def ofBytes (bytes : Bytes) : Supply := ⟨bytes, .endOfInput⟩

theorem run_ofBytes {ε α : Type} (decoder : Decoder ε α) (bytes : Bytes) :
    decoder.run (ofBytes bytes) = ((decoder.run bytes).1, ofBytes (decoder.run bytes).2) := by
  induction decoder generalizing bytes with
  | done result => rfl
  | need count fault next ih =>
    simp only [Decoder.run]
    by_cases long : count ≤ bytes.length
    · have long' : count ≤ (ofBytes bytes).bytes.length := long
      rw [Decoder.fetch_of_long long, fetch_of_long long']
      exact ih (bytes.take count) (bytes.drop count)
    · have short : bytes.length < count := Nat.lt_of_not_le long
      have short' : (ofBytes bytes).bytes.length < count := short
      rw [Decoder.fetch_of_short short, fetch_of_short short', behind, List.drop_length]
      rfl

end Supply

namespace Input

/-! ## Where a stream stops -/

/-- How far a stream comes from where it stands until it breaks for good, and with which fault. -/
def stop? (position : Nat) : List Breakdown → Option (Nat × IoFault)
  | [] => none
  | b :: later =>
    if b.passing then stop? (max position b.after) later
    else some (max position b.after, b.fault)

/-- A breakdown that lies behind the last byte is not met. -/
def supply (input : Input) : Supply :=
  match stop? input.delivered input.breakdowns with
  | none => .ofBytes input.pending
  | some (position, fault) =>
    if position - input.delivered ≤ input.pending.length then
      ⟨input.pending.take (position - input.delivered), .ofFault fault⟩
    else .ofBytes input.pending

theorem stop?_eq_none_iff (position : Nat) (breakdowns : List Breakdown) :
    stop? position breakdowns = none ↔ ∀ b ∈ breakdowns, b.passing = true := by
  induction breakdowns generalizing position with
  | nil => simp [stop?]
  | cons b later ih =>
    by_cases passing : b.passing = true
    · simp only [stop?, passing, ↓reduceIte, ih, List.mem_cons, forall_eq_or_imp, true_and]
    · simp [stop?, passing]

theorem le_of_stop? {position position' : Nat} {fault : IoFault} {breakdowns : List Breakdown}
    (stops : stop? position breakdowns = some (position', fault)) : position ≤ position' := by
  induction breakdowns generalizing position with
  | nil => cases stops
  | cons b later ih =>
    rw [stop?] at stops
    split at stops
    · have further := ih stops
      omega
    · obtain ⟨rfl, -⟩ := Prod.mk.inj (Option.some.inj stops)
      omega

theorem stop?_of_le {b : Breakdown} {later : List Breakdown} {position position' : Nat}
    (near : position ≤ b.after) (near' : position' ≤ b.after) :
    stop? position (b :: later) = stop? position' (b :: later) := by
  simp only [stop?, Nat.max_eq_right near, Nat.max_eq_right near']

theorem stop?_resumed (position : Nat) (breakdowns : List Breakdown) :
    stop? position (breakdowns.dropWhile fun b => b.passing && b.after ≤ position) =
      stop? position breakdowns := by
  induction breakdowns with
  | nil => rfl
  | cons b later ih =>
    rw [List.dropWhile_cons]
    split
    · next met =>
      simp only [Bool.and_eq_true, decide_eq_true_eq] at met
      rw [ih, stop?, if_pos met.1, Nat.max_eq_left met.2]
    · rfl

theorem supply_resumed (input : Input) : input.resumed.supply = input.supply := by
  have same : stop? input.resumed.delivered input.resumed.breakdowns =
      stop? input.delivered input.breakdowns := stop?_resumed _ _
  unfold supply
  rw [same]
  rfl

theorem supply_of_unbroken {input : Input} (unbroken : ∀ b ∈ input.breakdowns, b.passing = true) :
    input.supply = .ofBytes input.pending := by
  rw [supply, (stop?_eq_none_iff _ _).mpr unbroken]

theorem supply_of_stop {input : Input} {position : Nat} {fault : IoFault}
    (stops : stop? input.delivered input.breakdowns = some (position, fault))
    (met : position ≤ input.delivered + input.pending.length) :
    input.supply = ⟨input.pending.take (position - input.delivered), .ofFault fault⟩ := by
  rw [supply, stops]
  exact if_pos (by omega)

theorem bytes_of_supply (input : Input) : input.supply.bytes <+: input.pending := by
  unfold supply
  split
  · exact List.prefix_rfl
  · split
    · exact List.take_prefix _ _
    · exact List.prefix_rfl

/-! ## Reads -/

structure Onward (input : Input) (count : Nat) (rest : Input) : Prop where
  enough : count ≤ input.supply.bytes.length
  pending : rest.pending = input.pending.drop count
  delivered : rest.delivered = input.delivered + count
  supply : rest.supply = input.supply.behind count
  chunk : rest.chunk = input.chunk
  breakdowns : rest.breakdowns <:+ input.breakdowns
  closeFault : rest.closeFault = input.closeFault

theorem Onward.refl (input : Input) : input.Onward 0 input where
  enough := Nat.zero_le _
  pending := rfl
  delivered := rfl
  supply := rfl
  chunk := rfl
  breakdowns := List.suffix_rfl
  closeFault := rfl

theorem Onward.trans {input mid rest : Input} {n m : Nat} (first : input.Onward n mid)
    (second : mid.Onward m rest) : input.Onward (n + m) rest where
  enough := by
    have enough := first.enough
    have enough' := second.enough
    rw [first.supply, Supply.behind, List.length_drop] at enough'
    omega
  pending := by rw [second.pending, first.pending, List.drop_drop]
  delivered := by rw [second.delivered, first.delivered, Nat.add_assoc]
  supply := by rw [second.supply, first.supply, Supply.behind_behind]
  chunk := second.chunk.trans first.chunk
  breakdowns := second.breakdowns.trans first.breakdowns
  closeFault := second.closeFault.trans first.closeFault

theorem onward_resumed (input : Input) : input.Onward 0 input.resumed where
  enough := Nat.zero_le _
  pending := rfl
  delivered := rfl
  supply := input.supply_resumed
  chunk := rfl
  breakdowns := List.dropWhile_suffix _
  closeFault := rfl

theorem onward_of_deliver {input : Input} {count n : Nat} (small : n ≤ count)
    (held : n ≤ input.pending.length)
    (apart : ∀ m ≤ count, stop? (input.delivered + m) input.breakdowns =
      stop? input.delivered input.breakdowns)
    (far : ∀ position fault, stop? input.delivered input.breakdowns = some (position, fault) →
      input.delivered + count ≤ position) :
    input.Onward n
        { input with pending := input.pending.drop n, delivered := input.delivered + n } ∧
      input.supply.bytes.take n = input.pending.take n := by
  have same : ∀ rest : Input, rest.delivered = input.delivered + n →
      rest.breakdowns = input.breakdowns → rest.pending = input.pending.drop n →
      rest.supply = input.supply.behind n ∧ n ≤ input.supply.bytes.length ∧
        input.supply.bytes.take n = input.pending.take n := by
    intro rest delivered breakdowns pending
    unfold supply
    rw [delivered, breakdowns, pending, apart n small]
    cases stops : stop? input.delivered input.breakdowns with
    | none => exact ⟨rfl, held, rfl⟩
    | some stop =>
      obtain ⟨position, fault⟩ := stop
      have behind := far position fault stops
      simp only [List.length_drop, Supply.behind]
      by_cases met : position - input.delivered ≤ input.pending.length
      · have met' : position - (input.delivered + n) ≤ input.pending.length - n := by omega
        have shorter : position - input.delivered - n = position - (input.delivered + n) := by omega
        rw [if_pos met, if_pos met']
        refine ⟨?_, ?_, ?_⟩
        · rw [List.drop_take, shorter]
        · rw [List.length_take]
          omega
        · rw [List.take_take, Nat.min_eq_left (by omega)]
      · have met' : ¬ position - (input.delivered + n) ≤ input.pending.length - n := by omega
        rw [if_neg met, if_neg met']
        exact ⟨rfl, held, rfl⟩
  obtain ⟨supply, enough, front⟩ := same
    { input with pending := input.pending.drop n, delivered := input.delivered + n } rfl rfl rfl
  exact ⟨⟨enough, rfl, rfl, supply, rfl, List.suffix_rfl, rfl⟩, front⟩

/-- Every read brings a byte at least, or the stream is at its end. -/
def Moves (input : Input) : Prop := ∀ n, input.chunk n ≠ some 0

theorem Onward.moves {input rest : Input} {n : Nat} (onward : input.Onward n rest)
    (moves : input.Moves) : rest.Moves := by
  intro m
  rw [onward.chunk]
  exact moves m

inductive Served (input : Input) (count : Nat) : Reading × Input → Prop
  | some {n : Nat} {rest : Input} (small : n + 1 ≤ count) (onward : input.Onward (n + 1) rest) :
    Served input count (.bytes (input.supply.bytes.take (n + 1)), rest)
  | none {rest : Input} (used : input.supply.bytes = []) (error : input.supply.error = .endOfInput)
    (onward : input.Onward 0 rest) : Served input count (.bytes [], rest)
  | failed {fault : IoFault} {rest : Input} (used : input.supply.bytes = [])
    (error : input.supply.error = .ofFault fault) (onward : input.Onward 0 rest) :
    Served input count (.failed fault, rest)

theorem served_of_deliver {input : Input} {count : Nat} (moves : input.Moves) (wanted : 0 < count)
    (apart : ∀ m ≤ count, stop? (input.delivered + m) input.breakdowns =
      stop? input.delivered input.breakdowns)
    (far : ∀ position fault, stop? input.delivered input.breakdowns = some (position, fault) →
      input.delivered + count ≤ position) :
    Served input count (input.deliver count) := by
  have bounded : ∃ bound, 0 < bound ∧ bound ≤ count ∧ input.deliver count =
      (.bytes (input.pending.take bound), { input with
        pending := input.pending.drop bound
        delivered := input.delivered + (input.pending.take bound).length }) := by
    unfold deliver
    cases bound : input.chunk input.delivered with
    | none => exact ⟨count, wanted, Nat.le_refl _, rfl⟩
    | some bound' =>
      have moving : bound' ≠ 0 := by
        rintro rfl
        exact moves _ bound
      exact ⟨min count bound', by omega, Nat.min_le_left _ _, rfl⟩
  obtain ⟨bound, positive, small, given⟩ := bounded
  rw [given, List.length_take]
  cases pending : input.pending with
  | nil =>
    have used : input.supply.bytes = [] := List.prefix_nil.mp (pending ▸ input.bytes_of_supply)
    have error : input.supply.error = .endOfInput := by
      unfold supply
      split
      · rfl
      · next position fault stops =>
        have behind := far position fault stops
        rw [if_neg (by rw [pending, List.length_nil]; omega)]
        rfl
    have onward := (onward_of_deliver (Nat.zero_le count) (Nat.zero_le _) apart far).1
    rw [pending] at onward
    simp only [List.drop_nil, List.take_nil, List.length_nil, Nat.min_zero]
    exact .none used error onward
  | cons b more =>
    rw [← pending]
    have length : input.pending.length = more.length + 1 := by rw [pending, List.length_cons]
    obtain ⟨n, least⟩ : ∃ n, min bound input.pending.length = n + 1 :=
      Nat.exists_eq_succ_of_ne_zero (by omega)
    have trimmed : input.pending.take bound = input.pending.take (n + 1) ∧
        input.pending.drop bound = input.pending.drop (n + 1) := by
      rw [← least]
      by_cases long : bound ≤ input.pending.length
      · rw [Nat.min_eq_left long]
        exact ⟨rfl, rfl⟩
      · rw [Nat.min_eq_right (by omega), List.take_of_length_le (by omega), List.take_length,
          List.drop_of_length_le (by omega), List.drop_length]
        exact ⟨rfl, rfl⟩
    obtain ⟨onward, front⟩ :=
      onward_of_deliver (by omega : n + 1 ≤ count) (by omega) apart far
    rw [least, trimmed.1, trimmed.2, ← front]
    exact .some (by omega) onward

theorem served_resumed {input : Input} {count : Nat} {read : Reading × Input}
    (served : Served input.resumed count read) : Served input count read := by
  have onward := input.onward_resumed
  have same : input.resumed.supply = input.supply := onward.supply
  cases served with
  | some small further =>
    have whole := onward.trans further
    rw [Nat.zero_add] at whole
    rw [same]
    exact .some small whole
  | none used error further => exact .none (same ▸ used) (same ▸ error) (onward.trans further)
  | failed used error further => exact .failed (same ▸ used) (same ▸ error) (onward.trans further)

theorem served_readOn {input : Input} (moves : input.Moves) {count : Nat} (wanted : 0 < count) :
    Served input count (input.readOn count) := by
  have moves' : input.resumed.Moves := input.onward_resumed.moves moves
  apply served_resumed
  unfold readOn read
  cases met : input.resumed.breakdowns with
  | nil =>
    refine served_of_deliver moves' wanted ?_ ?_
    · intro m _
      rw [met]
      rfl
    · rw [met]
      nofun
  | cons b later =>
    dsimp only
    split
    · next due =>
      -- An interruption that is due was left behind, so this breakdown lasts.
      have lasting : b.passing = false := by
        have first := List.head?_dropWhile_not
          (fun b : Breakdown => b.passing && b.after ≤ input.delivered) input.breakdowns
        have same : input.breakdowns.dropWhile (fun b => b.passing && b.after ≤ input.delivered) =
            b :: later := met
        rw [same] at first
        have due' : b.after ≤ input.delivered := due
        simpa [due'] using first
      have stops : stop? input.resumed.delivered input.resumed.breakdowns =
          some (input.resumed.delivered, b.fault) := by
        rw [met, stop?, if_neg (by simp [lasting]), Nat.max_eq_left due]
      have found := supply_of_stop stops (Nat.le_add_right _ _)
      rw [Nat.sub_self, List.take_zero] at found
      rw [if_neg (by simp [lasting])]
      exact .failed (by rw [found]) (by rw [found]) (.refl _)
    · next ahead =>
      have served : Served input.resumed (min count (b.after - input.resumed.delivered))
          (input.resumed.deliver (min count (b.after - input.resumed.delivered))) := by
        refine served_of_deliver moves' (by omega) ?_ ?_
        · intro m small
          rw [met]
          exact stop?_of_le (by omega) (by omega)
        · intro position fault stops
          rw [met, stop?_of_le (by omega) (Nat.le_refl b.after)] at stops
          have further := le_of_stop? stops
          omega
      revert served
      generalize input.resumed.deliver (min count (b.after - input.resumed.delivered)) = read
      intro served
      cases served with
      | some small onward => exact .some (by omega) onward
      | none used error onward => exact .none used error onward
      | failed used error onward => exact .failed used error onward

/-! ## Whole fields -/

theorem gather_of_moves {fuel missing : Nat} {input : Input} (moves : input.Moves)
    (enough : missing ≤ fuel) (got : Bytes) :
    (gather fuel missing got input).1 =
        (if missing ≤ input.supply.bytes.length then
          .ok (got.reverse ++ input.supply.bytes.take missing)
        else .error input.supply.error) ∧
      input.Onward (min missing input.supply.bytes.length) (gather fuel missing got input).2 := by
  -- on the reads that are left: each brings a front part of the supply, or the field ends there
  induction fuel generalizing missing input got with
  | zero =>
    obtain rfl : missing = 0 := by omega
    rw [Nat.zero_min]
    exact ⟨by simp [gather], .refl input⟩
  | succ fuel ih =>
    cases missing with
    | zero =>
      rw [Nat.zero_min]
      exact ⟨by simp [gather], .refl input⟩
    | succ missing =>
      have served := served_readOn moves (Nat.succ_pos missing)
      rw [gather]
      revert served
      generalize input.readOn (missing + 1) = read
      intro served
      cases served with
      | none used error onward =>
        rw [used, List.length_nil, Nat.min_zero, if_neg (by omega), error]
        exact ⟨rfl, onward⟩
      | failed used error onward =>
        rw [used, List.length_nil, Nat.min_zero, if_neg (by omega), error]
        exact ⟨rfl, onward⟩
      | @some n rest small onward =>
        have held := onward.enough
        cases data : input.supply.bytes.take (n + 1) with
        | nil =>
          have length := congrArg List.length data
          rw [List.length_take, List.length_nil] at length
          omega
        | cons b more =>
          have length : (b :: more).length = n + 1 := by
            rw [← data, List.length_take, Nat.min_eq_left held]
          have fewer : missing + 1 - (b :: more).length ≤ fuel := by omega
          obtain ⟨given, further⟩ := ih (onward.moves moves) fewer ((b :: more).reverse ++ got)
          have left : rest.supply.bytes = input.supply.bytes.drop (n + 1) := by
            rw [onward.supply]
            rfl
          dsimp only
          refine ⟨?_, ?_⟩
          · rw [given, left, List.length_drop, length]
            by_cases long : missing + 1 ≤ input.supply.bytes.length
            · rw [if_pos (by omega), if_pos long, List.reverse_append, List.reverse_reverse,
                List.append_assoc, ← data, ← List.take_add, Nat.add_sub_cancel' (by omega)]
            · rw [if_neg (by omega), if_neg long, onward.supply]
              rfl
          · have whole := onward.trans further
            rw [left, List.length_drop, length] at whole
            have sum : n + 1 + min (missing + 1 - (n + 1)) (input.supply.bytes.length - (n + 1)) =
                min (missing + 1) input.supply.bytes.length := by
              omega
            rw [sum] at whole
            rw [length]
            exact whole

theorem fetch_of_moves {input : Input} (moves : input.Moves) (count : Nat) :
    (ByteSource.fetch count input).1 = (ByteSource.fetch count input.supply).1 ∧
      (ByteSource.fetch count input).2.supply = (ByteSource.fetch count input.supply).2 ∧
      ∃ n, input.Onward n (ByteSource.fetch count input).2 := by
  obtain ⟨given, onward⟩ := gather_of_moves moves (Nat.le_refl count) []
  change (gather count count [] input).1 = _ ∧ (gather count count [] input).2.supply = _ ∧
    ∃ n, input.Onward n (gather count count [] input).2
  rw [given, onward.supply]
  by_cases long : count ≤ input.supply.bytes.length
  · rw [if_pos long, Supply.fetch_of_long long, Nat.min_eq_left long]
    exact ⟨rfl, rfl, _, onward⟩
  · have short : input.supply.bytes.length < count := by omega
    rw [if_neg long, Supply.fetch_of_short short, Nat.min_eq_right (by omega)]
    exact ⟨rfl, rfl, _, onward⟩

end Input

/-- A decoder finds on a stream what it finds on the supply of the stream. -/
theorem Decoder.run_of_moves {ε α : Type} (decoder : Decoder ε α) {input : Input}
    (moves : input.Moves) : (decoder.run input).1 = (decoder.run input.supply).1 ∧
      (decoder.run input).2.supply = (decoder.run input.supply).2 ∧
      ∃ n, input.Onward n (decoder.run input).2 := by
  induction decoder generalizing input with
  | done result => exact ⟨rfl, rfl, 0, .refl input⟩
  | need count fault next ih =>
    obtain ⟨given, supply, n, onward⟩ := input.fetch_of_moves moves count
    simp only [run]
    cases fetched : ByteSource.fetch count input with
    | mk result rest =>
      cases fetched' : ByteSource.fetch count input.supply with
      | mk result' rest' =>
        rw [fetched, fetched'] at given supply
        rw [fetched] at onward
        obtain rfl : result = result' := given
        obtain rfl : rest.supply = rest' := supply
        cases result with
        | error e => exact ⟨rfl, rfl, n, onward⟩
        | ok data =>
          obtain ⟨same, left, m, further⟩ := ih data (onward.moves moves)
          exact ⟨same, left, n + m, onward.trans further⟩

end Farcall
