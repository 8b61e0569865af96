import VisualBasic.Literal.Numeral
import VisualBasic.Literal.Binary64

/-!
Decimal values: an integer of 96 bits over a power of ten.
-/

set_option autoImplicit false

namespace VisualBasic

/-- The value `mantissa / 10 ^ scale`. -/
structure DecimalValue where
  mantissa : Nat
  scale : Nat
deriving DecidableEq, Inhabited

namespace DecimalValue

def maxMantissa : Nat := Nat.pow 2 96 - 1

def maxScale : Nat := 28

-- While a literal is read its digits are held in 128 bits.
def wordLimit : Nat := Nat.pow 2 128

/-- Powers of ten below this exponent fit the word. -/
def wordPowers : Nat := 39

/-- The exponents that a literal may have. -/
def exponentInRange (exponent : Int) : Bool := -0x80000000 ≤ exponent && exponent < 0x80000000

/-- Drops fraction digits until the mantissa fits, or fails when no fraction digit is left. -/
def fit? (mantissa : Nat) : Nat → Option DecimalValue
  | 0 => if mantissa ≤ maxMantissa then some ⟨mantissa, 0⟩ else none
  | scale + 1 =>
    if mantissa ≤ maxMantissa then some ⟨mantissa, scale + 1⟩ else fit? (mantissa / 10) scale

/-- The value of `mantissa * 10 ^ -scale`, rounded down to the digits that can be kept. -/
def ofScaled? (mantissa : Nat) (scale : Int) : Option DecimalValue :=
  if mantissa = 0 then some ⟨0, (min scale maxScale).toNat⟩
  else if scale < 0 then
    let zeros := (-scale).toNat
    if zeros < wordPowers ∧ mantissa * Nat.pow 10 zeros < wordLimit then
      fit? (mantissa * Nat.pow 10 zeros) 0
    else none
  else if scale ≤ maxScale then fit? mantissa scale.toNat
  else
    let excess := scale.toNat - maxScale
    fit? (if excess < wordPowers then mantissa / Nat.pow 10 excess else 0) maxScale

def ofNumeral? (n : Numeral) : Option DecimalValue :=
  if !exponentInRange (n.exponent.getD 0) then none
  else if wordLimit ≤ n.significand then none
  else ofScaled? n.significand (-n.power)

/-- The digits, with a point before the last `scale` of them. -/
def render (d : DecimalValue) : String :=
  let digits := Nat.toDigits 10 d.mantissa
  if d.scale = 0 then String.ofList digits
  else
    let padded := List.replicate (d.scale + 1 - digits.length) '0' ++ digits
    let point := padded.length - d.scale
    String.ofList (padded.take point ++ '.' :: padded.drop point)

/-- The mantissa is rounded to double precision before it is divided. -/
def toBinary64? (d : DecimalValue) : Option Binary64 :=
  Binary64.nearest? (Binary64.roundNat d.mantissa) (Nat.pow 10 d.scale)

end DecimalValue

end VisualBasic
