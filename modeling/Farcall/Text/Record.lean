set_option autoImplicit false

/-!
# Record text

The diagnostic text of a value with named fields: `Name`, then the fields between braces, each as
`field: value`, separated by commas.
-/

namespace Farcall.Text

def fieldText (field : String × String) : String :=
  field.1 ++ ": " ++ field.2

def recordText (name : String) (fields : List (String × String)) : String :=
  name ++ " \x7b " ++ ", ".intercalate (fields.map fieldText) ++ " \x7d"

def boolText (b : Bool) : String :=
  if b then "true" else "false"

end Farcall.Text
