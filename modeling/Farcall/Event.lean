set_option autoImplicit false

/-!
# Events

What becomes of labelled things that are used at most once: a message input is closed; a result is
decoded, discarded, or dropped without either.
-/

namespace Farcall

inductive Event where
  | closed (label : String)
  | got (label : String)
  | discarded (label : String)
  /-- The result of that label went away, neither decoded nor discarded. -/
  | dropped (label : String)
deriving DecidableEq, Repr

namespace Event

def text : Event → String
  | closed label => "closed " ++ label
  | got label => "got " ++ label
  | discarded label => "discarded " ++ label
  | dropped label => "dropped " ++ label

end Event

end Farcall
