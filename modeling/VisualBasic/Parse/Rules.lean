import VisualBasic.Parse.State

/-!
The phrases nested in phrases.  Expressions, types and array elements hold each other, so their
rules are tied together in one place.
-/

set_option autoImplicit false

namespace VisualBasic

/-- The rules for the phrases nested in a phrase.  Every rule is stated for given nested rules, so
none calls itself: `Rules.ofDepth` ties them together up to a depth of nesting. -/
structure Rules where
  version : Version
  /-- An expression of operators that bind tighter than the given level. -/
  expression : Precedence → Parse Expression
  /-- An expression without operators. -/
  operand : Parse Expression
  typeName : Parse TypeName
  elements : Parse Aggregate

/-- A complete expression. -/
def Rules.value (r : Rules) : Parse Expression := r.expression .lowest

end VisualBasic
