/-
The environment: variables with a text each.
-/
namespace NativeBridge

/-- variables by name -/
abbrev Environment := List (String × String)

namespace Environment

/-- the text of a variable, if it is set -/
def get? (env : Environment) (name : String) : Option String := env.lookup name

end Environment

end NativeBridge
