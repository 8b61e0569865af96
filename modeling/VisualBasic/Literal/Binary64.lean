import VisualBasic.Literal.Numeral

/-!
Double-precision values as bit patterns, rounded exactly: the nearest representable value, and of
two equally near ones the even one.
-/

set_option autoImplicit false

namespace VisualBasic

structure Binary64 where
  bits : Nat
deriving DecidableEq, Inhabited

namespace Binary64

/-- The pattern of infinity; smaller patterns are the finite values in ascending order. -/
def infinity : Nat := 0x7FF * Nat.pow 2 52

/-- The largest single-precision value. -/
def maxSingle : Binary64 := ⟨0x47EFFFFFE0000000⟩

/-- The integer nearest to a quotient, the even one when two are equally near. -/
def roundQuotient (num den : Nat) : Nat :=
  let quotient := num / den
  let twice := 2 * (num % den)
  if den < twice ∨ (twice = den ∧ quotient % 2 = 1) then quotient + 1 else quotient

/-- The exponent of the last place of a value: its significand has 53 bits, fewer only for the
smallest values. -/
def lastPlace (num den : Nat) : Int :=
  let estimate : Int := (num.log2 : Int) - den.log2 - 52
  let below : Bool :=
    if 0 ≤ estimate then num < den * Nat.pow 2 (52 + estimate.toNat)
    else num * Nat.pow 2 (-estimate).toNat < den * Nat.pow 2 52
  max (if below then estimate - 1 else estimate) (-1074)

/-- The finite value nearest to `num / den`, or nothing when it lies beyond the largest one. -/
def nearest? (num den : Nat) : Option Binary64 :=
  if num = 0 then some ⟨0⟩
  else
    let place := lastPlace num den
    let significand :=
      if 0 ≤ place then roundQuotient num (den * Nat.pow 2 place.toNat)
      else roundQuotient (num * Nat.pow 2 (-place).toNat) den
    let bits := (place + 1074).toNat * Nat.pow 2 52 + significand
    if bits < infinity then some ⟨bits⟩ else none

/-- A natural number rounded to 53 significant bits. -/
def roundNat (n : Nat) : Nat :=
  if n < Nat.pow 2 53 then n
  else
    let unit := Nat.pow 2 (n.log2 - 52)
    roundQuotient n unit * unit

/-- Powers of ten from here on exceed the largest value, whatever the digits. -/
def greatestPower : Int := 309

/-- Powers of ten up to here are nearer to zero than to any other value. -/
def leastPower : Int := -330

/-- The finite value nearest to a numeral. -/
def ofNumeral? (n : Numeral) : Option Binary64 :=
  let digits := (Nat.toDigits 10 n.significand).length
  if n.significand = 0 then some ⟨0⟩
  else if greatestPower < digits + n.power then none
  else if digits + n.power < leastPower then some ⟨0⟩
  else if 0 ≤ n.power then nearest? (n.significand * Nat.pow 10 n.power.toNat) 1
  else nearest? n.significand (Nat.pow 10 (-n.power).toNat)

end Binary64

end VisualBasic
