/-!
Type characters: symbols behind names and numbers, and letters behind numbers only.
-/

set_option autoImplicit false

namespace VisualBasic

/-- A character after a name or number that fixes its type: a symbol such as `%`, or one of the
letter suffixes that only numbers take. -/
inductive TypeCharacter where
  | integerSymbol
  | longSymbol
  | decimalSymbol
  | singleSymbol
  | doubleSymbol
  | stringSymbol
  | shortChar
  | unsignedShortChar
  | integerChar
  | unsignedIntegerChar
  | longChar
  | unsignedLongChar
  | singleChar
  | doubleChar
  | decimalChar
deriving DecidableEq, Inhabited

namespace TypeCharacter

def isIntegral : TypeCharacter → Bool
  | integerSymbol | longSymbol | shortChar | unsignedShortChar | integerChar
  | unsignedIntegerChar | longChar | unsignedLongChar => true
  | _ => false

def isUnsigned : TypeCharacter → Bool
  | unsignedShortChar | unsignedIntegerChar | unsignedLongChar => true
  | _ => false

def isSymbol : TypeCharacter → Bool
  | integerSymbol | longSymbol | decimalSymbol | singleSymbol | doubleSymbol | stringSymbol => true
  | _ => false

/-- The marks `F` and `!` ask for single precision. -/
def isSingle : TypeCharacter → Bool
  | singleSymbol | singleChar => true
  | _ => false

def ofSymbol? : Char → Option TypeCharacter
  | '%' => some integerSymbol
  | '&' => some longSymbol
  | '@' => some decimalSymbol
  | '!' => some singleSymbol
  | '#' => some doubleSymbol
  | '$' => some stringSymbol
  | _ => none

end TypeCharacter

end VisualBasic
