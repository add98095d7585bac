set_option autoImplicit false

/-!
# Transactions

The codes of the distributed-transaction standard: why a step failed, and how a resource votes in
the first phase. The codes from 100 to 107 say that the branch is rolled back.
-/

namespace Farcall

inductive XaCode where
  | rbRollback
  | rbCommFail
  | rbDeadlock
  | rbIntegrity
  | rbOther
  | rbProto
  | rbTimeout
  | rbTransient
  | rmErr
  | noTa
  | inval
  | proto
  | rmFail
deriving DecidableEq, Repr

namespace XaCode

def all : List XaCode :=
  [rbRollback, rbCommFail, rbDeadlock, rbIntegrity, rbOther, rbProto, rbTimeout, rbTransient,
    rmErr, noTa, inval, proto, rmFail]

def code : XaCode → Int
  | rbRollback => 100
  | rbCommFail => 101
  | rbDeadlock => 102
  | rbIntegrity => 103
  | rbOther => 104
  | rbProto => 105
  | rbTimeout => 106
  | rbTransient => 107
  | rmErr => -3
  | noTa => -4
  | inval => -5
  | proto => -6
  | rmFail => -7

def ofCode? (code : Int) : Option XaCode := all.find? (·.code = code)

def isRollback (c : XaCode) : Bool := 100 ≤ c.code ∧ c.code ≤ 107

def name : XaCode → String
  | rbRollback => "RbRollback"
  | rbCommFail => "RbCommFail"
  | rbDeadlock => "RbDeadlock"
  | rbIntegrity => "RbIntegrity"
  | rbOther => "RbOther"
  | rbProto => "RbProto"
  | rbTimeout => "RbTimeout"
  | rbTransient => "RbTransient"
  | rmErr => "RmErr"
  | noTa => "NoTa"
  | inval => "Inval"
  | proto => "Proto"
  | rmFail => "RmFail"

def text (c : XaCode) : String := s!"{c.name} ({c.code})"

end XaCode

inductive TxStep where
  | prepare
  | commit
  | rollback
  | forget
  | beforeCompletion
deriving DecidableEq, Repr

def TxStep.all : List TxStep := [prepare, commit, rollback, forget, beforeCompletion]

def TxStep.name : TxStep → String
  | prepare => "prepare"
  | commit => "commit"
  | rollback => "rollback"
  | forget => "forget"
  | beforeCompletion => "before_completion"

structure XaError where
  code : XaCode
  step : TxStep
deriving DecidableEq, Repr

namespace XaError

def unsupported (step : TxStep) : XaError := ⟨.rbOther, step⟩

def kind (e : XaError) : String := "Xa." ++ e.code.name

def message (e : XaError) : String :=
  "transaction " ++ e.step.name ++ " failed: " ++ e.code.text

end XaError

inductive Vote where
  /-- The branch changed nothing, so no commit will follow. -/
  | readOnly
  | ok
deriving DecidableEq, Repr

namespace Vote

def code : Vote → Int
  | readOnly => 3
  | ok => 0

def ofCode? (code : Int) : Option Vote :=
  if code = 3 then some readOnly else if code = 0 then some ok else none

def name : Vote → String
  | readOnly => "ReadOnly"
  | ok => "Ok"

end Vote

end Farcall
