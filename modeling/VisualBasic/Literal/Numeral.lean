/-!
The digits of a number as they were written, before a type is chosen for it.
-/

set_option autoImplicit false

namespace VisualBasic

/-- The number that a list of digits denotes in the given base, the leading digit first. -/
def ofDigits (base : Nat) (digits : List Nat) : Nat :=
  digits.foldl (fun value digit => value * base + digit) 0

/-- A decimal numeral: digits, perhaps a point with more digits, perhaps a power of ten. -/
structure Numeral where
  whole : List Nat
  fraction : Option (List Nat)
  exponent : Option Int
deriving DecidableEq, Inhabited

namespace Numeral

def isWhole (n : Numeral) : Bool := n.fraction.isNone && n.exponent.isNone

def fractionDigits (n : Numeral) : List Nat := n.fraction.getD []

/-- All digits read as one integer, the point ignored. -/
def significand (n : Numeral) : Nat := ofDigits 10 (n.whole ++ n.fractionDigits)

/-- The numeral denotes its significand times this power of ten. -/
def power (n : Numeral) : Int := n.exponent.getD 0 - n.fractionDigits.length

end Numeral

end VisualBasic
