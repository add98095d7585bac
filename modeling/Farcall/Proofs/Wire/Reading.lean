import Farcall.Wire.Decoder

set_option autoImplicit false

/-!
# Reading byte strings

What a decoder makes of a byte string does not depend on what comes behind the bytes it reads, and
where the string is cut short inside these bytes it stops with the end of the input. So what a
decoder *reads* can be said of a front part alone, and is put together field by field.
-/

namespace Farcall

namespace Decoder

variable {ε ε' α β : Type}

section Sequence

variable {σ : Type} [ByteSource σ]

theorem run_bind (decoder : Decoder ε α) (f : α → Decoder ε β) (source : σ) :
    (decoder >>= f).run source =
      match decoder.run source with
      | (.ok a, rest) => (f a).run rest
      | (.error e, rest) => (.error e, rest) := by
  change (decoder.bind f).run source = _
  induction decoder generalizing source with
  | done result => cases result <;> rfl
  | need count fault next ih =>
    simp only [Decoder.bind, run]
    cases ByteSource.fetch count source with
    | mk fetched rest =>
      cases fetched with
      | ok bytes => exact ih bytes rest
      | error e => rfl

theorem run_bind_ok {decoder : Decoder ε α} {source rest : σ} {a : α}
    (given : decoder.run source = (.ok a, rest)) (f : α → Decoder ε β) :
    (decoder >>= f).run source = (f a).run rest := by
  rw [run_bind, given]

theorem of_run_bind {decoder : Decoder ε α} {f : α → Decoder ε β} {source rest : σ} {b : β}
    (given : (decoder >>= f).run source = (.ok b, rest)) :
    ∃ a middle, decoder.run source = (.ok a, middle) ∧ (f a).run middle = (.ok b, rest) := by
  rw [run_bind] at given
  split at given
  · next a middle first => exact ⟨a, middle, first, given⟩
  · cases (Prod.mk.inj given).1

theorem run_map (decoder : Decoder ε α) (f : α → β) (source : σ) :
    (decoder >>= fun a => pure (f a)).run source =
      ((decoder.run source).1.map f, (decoder.run source).2) := by
  rw [run_bind]
  cases decoder.run source with
  | mk decoded rest => cases decoded <;> rfl

theorem run_mapError (decoder : Decoder ε α) (f : ε → ε') (source : σ) :
    (decoder.mapError f).run source =
      ((decoder.run source).1.mapError f, (decoder.run source).2) := by
  induction decoder generalizing source with
  | done result => cases result <;> rfl
  | need count fault next ih =>
    simp only [mapError, run]
    cases ByteSource.fetch count source with
    | mk fetched rest =>
      cases fetched with
      | ok bytes => exact ih bytes rest
      | error e => rfl

end Sequence

/-- The nodes in front of the end stay as they are, so the laws hold by induction on the tree. -/
instance : LawfulMonad (Decoder ε) := by
  refine .mk' (Decoder ε) ?id_map ?pure_bind ?bind_assoc
  case id_map =>
    intro α decoder
    change decoder.bind (fun a => Decoder.pure a) = decoder
    induction decoder with
    | done result => cases result <;> rfl
    | need count fault next ih =>
      simp only [Decoder.bind, need.injEq, true_and]
      funext bytes
      exact ih bytes
  case pure_bind =>
    intro α β a f
    rfl
  case bind_assoc =>
    intro α β γ decoder f g
    change (decoder.bind f).bind g = decoder.bind fun a => (f a).bind g
    induction decoder with
    | done result => cases result <;> rfl
    | need count fault next ih =>
      simp only [Decoder.bind, need.injEq, true_and]
      funext bytes
      exact ih bytes

/-! ## What a decoder gives -/

def Gives : Decoder ε α → (α → Prop) → Prop
  | done (.ok a), P => P a
  | done (.error _), _ => True
  | need _ _ next, P => ∀ bytes, (next bytes).Gives P

theorem gives_of_forall (decoder : Decoder ε α) {P : α → Prop} (all : ∀ a, P a) :
    decoder.Gives P := by
  induction decoder with
  | done result =>
    cases result with
    | ok a => exact all a
    | error e => trivial
  | need count fault next ih => exact ih

theorem Gives.mono {decoder : Decoder ε α} {P Q : α → Prop} (gives : decoder.Gives P)
    (weaker : ∀ a, P a → Q a) : decoder.Gives Q := by
  induction decoder with
  | done result =>
    cases result with
    | ok a => exact weaker a gives
    | error e => trivial
  | need count fault next ih => exact fun bytes => ih bytes (gives bytes)

theorem Gives.bind {decoder : Decoder ε α} {f : α → Decoder ε β} {Q : β → Prop}
    (first : decoder.Gives fun a => (f a).Gives Q) : (decoder >>= f).Gives Q := by
  change (decoder.bind f).Gives Q
  induction decoder with
  | done result =>
    cases result with
    | ok a => exact first
    | error e => trivial
  | need count fault next ih => exact fun bytes => ih bytes (first bytes)

theorem Gives.of_run {σ : Type} [ByteSource σ] {decoder : Decoder ε α} {P : α → Prop}
    (gives : decoder.Gives P) {source rest : σ} {a : α}
    (given : decoder.run source = (.ok a, rest)) : P a := by
  induction decoder generalizing source with
  | done result =>
    obtain ⟨rfl, -⟩ := Prod.mk.inj given
    exact gives
  | need count fault next ih =>
    rw [run] at given
    split at given
    · next bytes middle fetched => exact ih bytes (gives bytes) given
    · cases (Prod.mk.inj given).1

/-! ## Bytes in front -/

theorem fetch_append {front : Bytes} {count : Nat} (full : front.length = count)
    (behind : Bytes) : ByteSource.fetch count (front ++ behind) = (.ok front, behind) := by
  simp [ByteSource.fetch, ← full]

theorem fetch_of_short {bytes : Bytes} {count : Nat} (short : bytes.length < count) :
    ByteSource.fetch count bytes = (.error .endOfInput, ([] : Bytes)) := by
  have cut : min count bytes.length ≠ count := by omega
  simp only [ByteSource.fetch, List.length_take, cut, ↓reduceIte]

theorem fetch_of_long {bytes : Bytes} {count : Nat} (long : count ≤ bytes.length) :
    ByteSource.fetch count bytes = (.ok (bytes.take count), bytes.drop count) := by
  simp only [ByteSource.fetch, List.length_take, Nat.min_eq_left long, ↓reduceIte]

theorem run_append {decoder : Decoder ε α} {bytes rest : Bytes} {a : α}
    (given : decoder.run bytes = (.ok a, rest)) (behind : Bytes) :
    decoder.run (bytes ++ behind) = (.ok a, rest ++ behind) := by
  induction decoder generalizing bytes with
  | done result =>
    obtain ⟨rfl, rfl⟩ := Prod.mk.inj given
    rfl
  | need count fault next ih =>
    simp only [run] at given ⊢
    by_cases long : count ≤ bytes.length
    · rw [fetch_of_long long] at given
      have longer : count ≤ (bytes ++ behind).length := by
        rw [List.length_append]
        omega
      rw [fetch_of_long longer, List.take_append_of_le_length long,
        List.drop_append_of_le_length long]
      exact ih _ given
    · rw [fetch_of_short (by omega)] at given
      cases (Prod.mk.inj given).1

theorem run_suffix {decoder : Decoder ε α} {bytes rest : Bytes} {a : α}
    (given : decoder.run bytes = (.ok a, rest)) : ∃ front, bytes = front ++ rest ∧
      decoder.run front = (.ok a, []) := by
  induction decoder generalizing bytes with
  | done result =>
    obtain ⟨rfl, rfl⟩ := Prod.mk.inj given
    exact ⟨[], rfl, rfl⟩
  | need count fault next ih =>
    simp only [run] at given ⊢
    by_cases long : count ≤ bytes.length
    · rw [fetch_of_long long] at given
      obtain ⟨front, split, alone⟩ := ih _ given
      have full : (bytes.take count).length = count := by
        rw [List.length_take, Nat.min_eq_left long]
      refine ⟨bytes.take count ++ front, ?_, ?_⟩
      · rw [List.append_assoc, ← split, List.take_append_drop]
      · rw [fetch_append full]
        exact alone
    · rw [fetch_of_short (by omega)] at given
      cases (Prod.mk.inj given).1

/-- The decoder reads exactly these bytes, whatever comes behind them. -/
def Reads (decoder : Decoder ε α) (front : Bytes) (a : α) : Prop :=
  ∀ behind, decoder.run (front ++ behind) = (.ok a, behind)

theorem Reads.alone {decoder : Decoder ε α} {front : Bytes} {a : α}
    (reads : decoder.Reads front a) : decoder.run front = (.ok a, []) := by
  have whole := reads []
  rwa [List.append_nil] at whole

theorem reads_pure (a : α) : (pure a : Decoder ε α).Reads [] a := fun _ => rfl

theorem Reads.bind {decoder : Decoder ε α} {f : α → Decoder ε β} {front next : Bytes} {a : α}
    {b : β} (first : decoder.Reads front a) (second : (f a).Reads next b) :
    (decoder >>= f).Reads (front ++ next) b := by
  intro behind
  rw [List.append_assoc, run_bind_ok (first (next ++ behind))]
  exact second behind

theorem Reads.bind_of_nil {decoder : Decoder ε α} {f : α → Decoder ε β} {front : Bytes} {a : α}
    {b : β} (first : decoder.Reads front a) (second : (f a).Reads [] b) :
    (decoder >>= f).Reads front b := by
  have both := first.bind second
  rwa [List.append_nil] at both

theorem Reads.map {decoder : Decoder ε α} {front : Bytes} {a : α} (reads : decoder.Reads front a)
    (f : α → β) : (decoder >>= fun x => pure (f x)).Reads front (f a) :=
  reads.bind_of_nil (reads_pure (f a))

theorem Reads.mapError {decoder : Decoder ε α} {front : Bytes} {a : α}
    (reads : decoder.Reads front a) (f : ε → ε') : (decoder.mapError f).Reads front a := by
  intro behind
  rw [run_mapError, reads behind]
  rfl

/-! ## Bytes cut short -/

variable [FromWire ε]

def Direct : Decoder ε α → Prop
  | done _ => True
  | need _ fault next => fault = FromWire.ofWire ∧ ∀ bytes, (next bytes).Direct

theorem direct_pure (a : α) : (pure a : Decoder ε α).Direct := trivial

theorem direct_getD (e : ε) (found : Option α) : (getD e found).Direct := by
  cases found <;> trivial

theorem Direct.bind {decoder : Decoder ε α} {f : α → Decoder ε β} (first : decoder.Direct)
    (second : ∀ a, (f a).Direct) : (decoder >>= f).Direct := by
  change (decoder.bind f).Direct
  induction decoder with
  | done result =>
    cases result with
    | ok a => exact second a
    | error e => trivial
  | need count fault next ih => exact ⟨first.1, fun bytes => ih bytes (first.2 bytes)⟩

/-- The input ends where a decoder still needs some of the bytes that it had read otherwise. -/
theorem run_of_cut {decoder : Decoder ε α} (direct : decoder.Direct) {front behind rest : Bytes}
    {result : Except ε α} (given : decoder.run (front ++ behind) = (result, rest))
    (cut : rest.length < behind.length) :
    decoder.run front = (.error (FromWire.ofWire .endOfInput), []) := by
  induction decoder generalizing front with
  | done result' =>
    obtain ⟨-, rfl⟩ := Prod.mk.inj given
    rw [List.length_append] at cut
    omega
  | need count fault next ih =>
    obtain ⟨same, direct⟩ := direct
    simp only [run] at given ⊢
    -- A demand is met within the front, or it is the first that runs over its end and faults.
    by_cases long : count ≤ front.length
    · have longer : count ≤ (front ++ behind).length := by
        rw [List.length_append]
        omega
      rw [fetch_of_long longer, List.take_append_of_le_length long,
        List.drop_append_of_le_length long] at given
      rw [fetch_of_long long]
      exact ih _ (direct _) given
    · rw [fetch_of_short (by omega), same]

theorem Reads.run_of_cut {decoder : Decoder ε α} (direct : decoder.Direct) {whole front : Bytes}
    {a : α} (reads : decoder.Reads whole a) (shorter : front <+: whole) (cut : front ≠ whole) :
    decoder.run front = (.error (FromWire.ofWire .endOfInput), []) := by
  obtain ⟨behind, rfl⟩ := shorter
  have missing : behind ≠ [] := by
    rintro rfl
    exact cut (List.append_nil front).symm
  exact Decoder.run_of_cut direct reads.alone (List.length_pos_iff.mpr missing)

end Decoder

end Farcall
