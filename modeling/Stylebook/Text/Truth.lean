/-!
# Truth values in words
-/

set_option autoImplicit false

namespace Stylebook.Text

/-- The word for a truth value. -/
def truth (b : Bool) : String :=
  if b then "true" else "false"

end Stylebook.Text
