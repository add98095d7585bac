import Farcall.Proofs.Client.Hearing

set_option autoImplicit false

/-!
# Verdicts on the steps of a transaction

A step takes the answer to its request apart in a fixed order: what cannot be read decides first,
then a stream that fails to close, and only then the value. `Verdict` lists what comes of it, and it
leaves no two outcomes to one answer.
-/

namespace Farcall

/-! ## Answers -/

/-- What a step makes of a value: a prepare takes the code of a vote, any other step takes nothing or
any number. -/
inductive TxStep.Takes : TxStep → Value → Option Vote → Prop
  | vote {v : Int64} {vote : Vote} (code : v.toInt = vote.code) : Takes prepare (.long v) (some vote)
  | nothing {step : TxStep} (other : step ≠ prepare) : Takes step .unit none
  | number {step : TxStep} {v : Int64} (other : step ≠ prepare) : Takes step (.long v) none

def InvocationError.Undecoded : InvocationError → Prop
  | protocol _ | codec _ => True
  | _ => False

theorem Vote.ofCode_eq_some_iff {code : Int} {vote : Vote} :
    ofCode? code = some vote ↔ code = vote.code := by
  unfold ofCode?
  constructor
  · intro given
    split at given
    · next same =>
      obtain rfl := Option.some.inj given
      exact same
    · split at given
      · next same =>
        obtain rfl := Option.some.inj given
        exact same
      · cases given
  · rintro rfl
    cases vote <;> rfl

/-- Reading an answer gives a value, the failure that the host reports, or an error of decoding. -/
theorem AnswerKind.read_cases (kind : AnswerKind) (input : Input) :
    (∃ value, kind.read input = .ok value) ∨
      (∃ failure text, kind.read input = .error (.remote failure text)) ∨
      ∃ e : InvocationError, kind.read input = .error e ∧ e.Undecoded := by
  cases kind with
  | session =>
    simp only [read]
    cases (SessionOpenTail.decoder.run input).1 with
    | ok tail => exact .inl ⟨_, rfl⟩
    | error e => exact .inr (.inr ⟨_, rfl, trivial⟩)
  | response =>
    simp only [read]
    cases (ResponseTail.decoder.run input).1 with
    | ok tail =>
      dsimp only
      cases Payload.decodeResult tail.payload with
      | ok value => exact .inl ⟨value, rfl⟩
      | error e => exact .inr (.inr ⟨_, rfl, trivial⟩)
    | error e => exact .inr (.inr ⟨_, rfl, trivial⟩)
  | failure failure =>
    simp only [read]
    cases ((FailureTail.decoder failure).run input).1 with
    | ok tail => exact .inr (.inl ⟨failure, _, rfl⟩)
    | error e => exact .inr (.inr ⟨_, rfl, trivial⟩)
  | transaction =>
    simp only [read]
    cases (outcomeDecoder.run input).1 with
    | ok value => cases value <;> exact .inl ⟨_, rfl⟩
    | error e => exact .inr (.inr ⟨_, rfl, trivial⟩)

namespace Site

variable {step : TxStep} {value : Value}

theorem stepOutcome_of_takes {vote : Option Vote} (takes : step.Takes value vote) :
    stepOutcome step (.ok value) = .ok vote := by
  cases takes with
  | @vote v vote code =>
    simp only [stepOutcome, Option.bind_some, Vote.ofCode_eq_some_iff.mpr code]
  | nothing other => cases step <;> first | rfl | exact absurd rfl other
  | number other => cases step <;> first | rfl | exact absurd rfl other

theorem stepOutcome_of_other (other : ∀ vote, ¬ step.Takes value vote) :
    stepOutcome step (.ok value) = .error ⟨.proto, step⟩ := by
  by_cases prepares : step = .prepare
  · subst prepares
    cases value with
    | long v =>
      have none : Vote.ofCode? v.toInt = none := by
        cases given : Vote.ofCode? v.toInt with
        | none => rfl
        | some vote => exact absurd (.vote (Vote.ofCode_eq_some_iff.mp given)) (other (some vote))
      simp only [stepOutcome, Option.bind_some, none]
    | _ => rfl
  · cases value with
    | unit => exact absurd (.nothing prepares) (other none)
    | long v => exact absurd (.number prepares) (other none)
    | _ => cases step <;> rfl

theorem stepOutcome_error (step : TxStep) (e : InvocationError) :
    stepOutcome step (.error e) = .error ⟨xaCode e, step⟩ := by
  cases step <;> rfl

theorem xaCode_of_undecoded {e : InvocationError} (undecoded : e.Undecoded) : xaCode e = .proto := by
  cases e <;> first | rfl | exact undecoded.elim

end Site

/-! ## What a look reports -/

/-- What a look at a step comes to, where `resolved` says what resolved its slot. -/
inductive Verdict (step : TxStep) (resolved : Word → Prop) (late : Prop) : Outcome → Prop
  | stepped {kind : AnswerKind} {rest : Input} {value : Value} {vote : Option Vote}
      (came : resolved (.answer kind rest)) (read : kind.read rest = .ok value)
      (closes : rest.closeFault = none) (takes : step.Takes value vote) :
      Verdict step resolved late (.stepped vote)
  | unsuited {kind : AnswerKind} {rest : Input} {value : Value}
      (came : resolved (.answer kind rest)) (read : kind.read rest = .ok value)
      (closes : rest.closeFault = none) (other : ∀ vote, ¬ step.Takes value vote) :
      Verdict step resolved late (.stepFailed ⟨.proto, step⟩)
  /-- Whether the answer closes makes no difference then. -/
  | undecoded {kind : AnswerKind} {rest : Input} {e : InvocationError}
      (came : resolved (.answer kind rest)) (read : kind.read rest = .error e)
      (undecoded : e.Undecoded) : Verdict step resolved late (.stepFailed ⟨.proto, step⟩)
  | failure {kind : AnswerKind} {rest : Input} {failure : FailureKind} {text : String}
      (came : resolved (.answer kind rest)) (read : kind.read rest = .error (.remote failure text)) :
      Verdict step resolved late (.stepFailed ⟨.rmErr, step⟩)
  /-- It makes no difference then what the value is. -/
  | unclosed {kind : AnswerKind} {rest : Input} {value : Value} {fault : IoFault}
      (came : resolved (.answer kind rest)) (read : kind.read rest = .ok value)
      (fails : rest.closeFault = some fault) : Verdict step resolved late (.stepFailed ⟨.rmErr, step⟩)
  | closed {reason : String} (came : resolved (.closed reason)) :
      Verdict step resolved late (.stepFailed ⟨.rmFail, step⟩)
  | expired (silent : ∀ word, ¬ resolved word) (elapsed : late) :
      Verdict step resolved late (.stepFailed ⟨.rbTimeout, step⟩)

def Word.verdict (step : TxStep) (word : Word) : Outcome :=
  .ofStep (Site.stepOutcome step (.ofArrived word.delivery.toExcept))

namespace Word

variable {step : TxStep} {kind : AnswerKind} {rest : Input}

theorem verdict_of_error {e : InvocationError} (read : kind.read rest = .error e) :
    verdict step (.answer kind rest) = .stepFailed ⟨Site.xaCode e, step⟩ := by
  have given : CallResult.ofArrived (delivery (.answer kind rest)).toExcept = .error e := by
    change (rest.finish (kind.read rest)).1 = .error e
    rw [read]
    rfl
  rw [verdict, given, Site.stepOutcome_error]
  rfl

theorem verdict_of_value {value : Value} (read : kind.read rest = .ok value)
    (closes : rest.closeFault = none) :
    verdict step (.answer kind rest) = .ofStep (Site.stepOutcome step (.ok value)) := by
  have given : CallResult.ofArrived (delivery (.answer kind rest)).toExcept = .ok value := by
    change (rest.finish (kind.read rest)).1 = .ok value
    simp only [read, Input.finish, Input.close, closes]
  rw [verdict, given]

theorem verdict_of_unclosed {value : Value} {fault : IoFault} (read : kind.read rest = .ok value)
    (fails : rest.closeFault = some fault) :
    verdict step (.answer kind rest) = .stepFailed ⟨.rmErr, step⟩ := by
  have given : CallResult.ofArrived (delivery (.answer kind rest)).toExcept =
      .error (.close fault) := by
    change (rest.finish (kind.read rest)).1 = .error (.close fault)
    simp only [read, Input.finish, Input.close, fails]
  rw [verdict, given, Site.stepOutcome_error]
  rfl

theorem verdict_of_closed (reason : String) :
    verdict step (.closed reason) = .stepFailed ⟨.rmFail, step⟩ := by
  rw [verdict, show CallResult.ofArrived (delivery (.closed reason)).toExcept =
    .error (.channelClosed reason) from rfl, Site.stepOutcome_error]
  rfl

end Word

namespace Verdict

variable {step : TxStep} {resolved : Word → Prop} {late : Prop} {outcome : Outcome}

theorem of_word {word : Word} (came : resolved word) :
    Verdict step resolved late (word.verdict step) := by
  cases word with
  | closed reason =>
    rw [Word.verdict_of_closed]
    exact .closed came
  | answer kind rest =>
    rcases kind.read_cases rest with ⟨value, read⟩ | ⟨failure, text, read⟩ | ⟨e, read, undecoded⟩
    · cases closes : rest.closeFault with
      | some fault =>
        rw [Word.verdict_of_unclosed read closes]
        exact .unclosed came read closes
      | none =>
        rw [Word.verdict_of_value read closes]
        by_cases takes : ∃ vote, step.Takes value vote
        · obtain ⟨vote, takes⟩ := takes
          rw [Site.stepOutcome_of_takes takes]
          exact .stepped came read closes takes
        · rw [Site.stepOutcome_of_other (not_exists.mp takes)]
          exact .unsuited came read closes (not_exists.mp takes)
    · rw [Word.verdict_of_error read]
      exact .failure came read
    · rw [Word.verdict_of_error read, Site.xaCode_of_undecoded undecoded]
      exact .undecoded came read undecoded

/-- A verdict is the verdict on something that came, or nothing came in time. -/
theorem cases (verdict : Verdict step resolved late outcome) :
    (∃ word, resolved word ∧ outcome = word.verdict step) ∨
      (∀ word, ¬ resolved word) ∧ late ∧ outcome = .stepFailed ⟨.rbTimeout, step⟩ := by
  cases verdict with
  | stepped came read closes takes =>
    refine .inl ⟨_, came, ?_⟩
    rw [Word.verdict_of_value read closes, Site.stepOutcome_of_takes takes]
    rfl
  | unsuited came read closes other =>
    refine .inl ⟨_, came, ?_⟩
    rw [Word.verdict_of_value read closes, Site.stepOutcome_of_other other]
    rfl
  | undecoded came read undecoded =>
    refine .inl ⟨_, came, ?_⟩
    rw [Word.verdict_of_error read, Site.xaCode_of_undecoded undecoded]
  | failure came read => exact .inl ⟨_, came, (Word.verdict_of_error read).symm⟩
  | unclosed came read fails => exact .inl ⟨_, came, (Word.verdict_of_unclosed read fails).symm⟩
  | closed came => exact .inl ⟨_, came, (Word.verdict_of_closed _).symm⟩
  | expired silent elapsed => exact .inr ⟨silent, elapsed, rfl⟩

theorem iff_of_word {word : Word} (resolved_iff : ∀ w, resolved w ↔ w = word) :
    Verdict step resolved late outcome ↔ outcome = word.verdict step := by
  constructor
  · intro verdict
    rcases verdict.cases with ⟨other, came, rfl⟩ | ⟨silent, -, -⟩
    · rw [(resolved_iff other).mp came]
    · exact absurd ((resolved_iff word).mpr rfl) (silent word)
  · rintro rfl
    exact of_word ((resolved_iff word).mpr rfl)

theorem iff_of_silent (silent : ∀ word, ¬ resolved word) :
    Verdict step resolved late outcome ↔ late ∧ outcome = .stepFailed ⟨.rbTimeout, step⟩ := by
  constructor
  · intro verdict
    rcases verdict.cases with ⟨word, came, -⟩ | ⟨-, elapsed, same⟩
    · exact absurd came (silent word)
    · exact ⟨elapsed, same⟩
  · rintro ⟨elapsed, rfl⟩
    exact .expired silent elapsed

end Verdict

end Farcall
