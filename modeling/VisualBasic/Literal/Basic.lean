import VisualBasic.Literal.Integer
import VisualBasic.Literal.Decimal
import VisualBasic.Literal.Date

/-!
The values of literals, one case per kind of literal.
-/

set_option autoImplicit false

namespace VisualBasic

/-- The values that a literal token can have.  Numbers keep how they were written: the base of an
integer and the type character. -/
inductive Literal where
  | integer (value : IntegerValue) (base : IntegerBase) (suffix : Option TypeCharacter)
  | floatingPoint (value : Binary64) (suffix : Option TypeCharacter)
  | decimal (value : DecimalValue) (suffix : Option TypeCharacter)
  | character (value : Char)
  | string (value : String)
  | date (value : DateValue)
deriving DecidableEq, Inhabited

end VisualBasic
