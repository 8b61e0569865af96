import VisualBasic.Literal.TypeCharacter

/-!
The values of integer literals.  A decimal literal has to fit its type.  A hexadecimal or octal one
names a bit pattern, which a signed type reads in two's complement.
-/

set_option autoImplicit false

namespace VisualBasic

inductive IntegerBase where
  | decimal
  | octal
  | hexadecimal
deriving DecidableEq, Inhabited

def IntegerBase.radix : IntegerBase → Nat
  | .decimal => 10
  | .octal => 8
  | .hexadecimal => 16

inductive IntegerValue where
  | signed (value : Int)
  | unsigned (value : Nat)
deriving DecidableEq, Inhabited

namespace IntegerValue

/-- A signed value of the given number of bits. -/
def ofSigned? (bits : Nat) (base : IntegerBase) (n : Nat) : Option IntegerValue :=
  match base with
  | .decimal => if n < Nat.pow 2 (bits - 1) then some (signed n) else none
  | _ => if n < Nat.pow 2 bits then some (signed (Int.bmod n (Nat.pow 2 bits))) else none

def ofUnsigned? (bits : Nat) (n : Nat) : Option IntegerValue :=
  if n < Nat.pow 2 bits then some (unsigned n) else none

/-- The value of the digits `n` with the given suffix.  Without one a bit pattern that fits 32 bits
is read as such, and every other literal has 64 bits. -/
def ofLiteral? (n : Nat) (base : IntegerBase) : Option TypeCharacter → Option IntegerValue
  | some .unsignedShortChar => ofUnsigned? 16 n
  | some .unsignedIntegerChar => ofUnsigned? 32 n
  | some .unsignedLongChar => ofUnsigned? 64 n
  | some .shortChar => ofSigned? 16 base n
  | some .integerSymbol | some .integerChar => ofSigned? 32 base n
  | some .longSymbol | some .longChar => ofSigned? 64 base n
  | _ => if base ≠ .decimal ∧ n < Nat.pow 2 32 then ofSigned? 32 base n else ofSigned? 64 base n

end IntegerValue

end VisualBasic
