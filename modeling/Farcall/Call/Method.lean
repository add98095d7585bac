import Farcall.Call.Error

set_option autoImplicit false

/-!
# Methods

A method is named by its name and its parameter types; what it returns decides only how a call
completes. A few methods are answered by the proxy itself: a method is in that table when its name
and parameters match, and the view of the proxy decides whether the table answers it.
-/

namespace Farcall

inductive ReturnType where
  /-- There is no result; an asynchronous call is fire-and-forget. -/
  | unit
  | value
  | future
deriving DecidableEq, Repr

def ReturnType.name : ReturnType → String
  | unit => "Unit"
  | value => "Value"
  | future => "Future"

structure Method where
  name : String
  params : List String
  returns : ReturnType
deriving DecidableEq, Repr

namespace Method

/-- What identifies a method: all but the return type. -/
def key (method : Method) : String × List String := (method.name, method.params)

def text (method : Method) : String :=
  method.name ++ "(" ++ ", ".intercalate method.params ++ ")"

end Method

inductive LocalMethod where
  | equals
  | hashCode
  | toText
  | getPrimaryKey
  | getHandle
  | isIdentical
  | getHomeHandle
deriving DecidableEq, Repr

namespace LocalMethod

def all : List LocalMethod :=
  [equals, hashCode, toText, getPrimaryKey, getHandle, isIdentical, getHomeHandle]

def key : LocalMethod → String × List String
  | equals => ("equals", ["any"])
  | hashCode => ("hash_code", [])
  | toText => ("to_string", [])
  | getPrimaryKey => ("get_primary_key", [])
  | getHandle => ("get_handle", [])
  | isIdentical => ("is_identical", ["remote-object"])
  | getHomeHandle => ("get_home_handle", [])

def name : LocalMethod → String
  | equals => "Equals"
  | hashCode => "HashCode"
  | toText => "ToString"
  | getPrimaryKey => "GetPrimaryKey"
  | getHandle => "GetHandle"
  | isIdentical => "IsIdentical"
  | getHomeHandle => "GetHomeHandle"

def ofMethod? (method : Method) : Option LocalMethod :=
  all.find? (·.key = method.key)

def offeredBy : LocalMethod → ViewKind → Bool
  | equals, _ | hashCode, _ | toText, _ => true
  | getPrimaryKey, view | getHandle, view | isIdentical, view => view = .remoteObject
  | getHomeHandle, view => view = .home

def sameTarget (proxy : Proxy) (args : List Value) : Bool :=
  match args.head?.bind Value.asProxy? with
  | some other => other.handler.same proxy.handler
  | none => false

def refusal (method : String) (proxy : Proxy) : InvocationError :=
  .remoteInvocation ("cannot invoke " ++ method ++ " on " ++ proxy.text)

def invoke (method : LocalMethod) (proxy : Proxy) (args : List Value) : CallResult :=
  match method with
  | equals | isIdentical => .ok (.bool (sameTarget proxy args))
  | hashCode => .ok (.long proxy.locator.hashCode.toInt64)
  | toText => .ok (.text proxy.text)
  | getPrimaryKey =>
    match proxy.locator.primaryKey with
    | some key => .ok (.primaryKey key)
    | none => .error (refusal "get_primary_key" proxy)
  | getHandle => .ok (.handle proxy.locator)
  | getHomeHandle =>
    if proxy.locator.isHome then .ok (.homeHandle proxy.locator)
    else .error (refusal "get_home_handle" proxy)

end LocalMethod

/-- The answer of a proxy to a call that it handles itself; `none` sends the call on. -/
def Proxy.answer? (proxy : Proxy) (method : Method) (args : List Value) : Option CallResult :=
  match LocalMethod.ofMethod? method with
  | some localMethod =>
    if localMethod.offeredBy proxy.view then some (localMethod.invoke proxy args) else none
  | none => none

end Farcall
