/-
  Events, as listeners receive them.
-/

namespace DataBinding

/-- An event: its type and, where there is one, a value. -/
structure Event where
  /-- The type. -/
  type : String
  /-- The value. -/
  value : Option String
  deriving DecidableEq

end DataBinding
