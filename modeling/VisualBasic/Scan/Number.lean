import VisualBasic.Token.Basic
import VisualBasic.Text.Class

/-!
Number tokens.  The digits decide how far a number reaches, its suffix which type it has, and only
then is its value checked: a number that does not fit its type is still a single token.
-/

set_option autoImplicit false

namespace VisualBasic

/-- A lexeme at the front of a text and the number of characters it takes. -/
structure Match where
  lexeme : Lexeme
  length : Nat
deriving DecidableEq, Inhabited

namespace Scan

/-- The digits that the text starts with. -/
def leadingDigits (radix : Nat) : List Char → List Nat
  | [] => []
  | c :: rest =>
    match digitValue? radix c with
    | some digit => digit :: leadingDigits radix rest
    | none => []

/-- The text after one of the given half-width characters. -/
def afterOne (marks : List Char) : List Char → Option (List Char)
  | c :: rest => if halfWidth c ∈ marks then some rest else none
  | [] => none

/-- Digits after a point; a point without them is not part of the number. -/
def fractionDigits? (cs : List Char) : Option (List Nat) :=
  match afterOne ['.'] cs with
  | some rest => some (leadingDigits 10 rest) |>.filter (· ≠ [])
  | none => none

/-- A power of ten and the number of characters it takes. -/
def exponentPart? (cs : List Char) : Option (Int × Nat) := do
  let rest ← afterOne ['e', 'E'] cs
  match leadingDigits 10 rest with
  | [] =>
    let digits := leadingDigits 10 (rest.drop 1)
    if digits = [] then none
    else match rest.head?.map halfWidth with
      | some '+' => some (ofDigits 10 digits, digits.length + 2)
      | some '-' => some (-(ofDigits 10 digits : Int), digits.length + 2)
      | _ => none
  | digits => some (ofDigits 10 digits, digits.length + 1)

def readNumeral (cs : List Char) : Numeral × Nat :=
  let whole := leadingDigits 10 cs
  let rest := cs.drop whole.length
  let fraction := fractionDigits? rest
  let fractionLength := fraction.elim 0 (·.length + 1)
  let exponent := exponentPart? (rest.drop fractionLength)
  (⟨whole, fraction, exponent.map (·.1)⟩, whole.length + fractionLength + exponent.elim 0 (·.2))

/-- An exclamation mark before a name looks a member up, and types nothing. -/
def startsMember (cs : List Char) : Bool :=
  match cs with
  | c :: _ => isIdentifierStart c || halfWidth c == '['
  | [] => false

/-- A symbol behind a number; digits of another base take only the integral ones. -/
def symbolSuffix? (integralOnly : Bool) (symbol : TypeCharacter) (rest : List Char) : Bool :=
  match symbol with
  | .integerSymbol | .longSymbol => true
  | .singleSymbol => !integralOnly && !startsMember rest
  | .stringSymbol => false
  | _ => !integralOnly

/-- The letters that a number can end with. -/
def letterSuffix? (version : Version) (integralOnly : Bool) (first : Char) (second : Option Char) :
    Option (TypeCharacter × Nat) :=
  match first.toUpper with
  | 'S' => some (.shortChar, 1)
  | 'I' => some (.integerChar, 1)
  | 'L' => some (.longChar, 1)
  | 'F' => if integralOnly then none else some (.singleChar, 1)
  | 'R' => if integralOnly then none else some (.doubleChar, 1)
  | 'D' => if integralOnly then none else some (.decimalChar, 1)
  | 'U' =>
    if version.supportsV8 then
      match second.map Char.toUpper with
      | some 'S' => some (.unsignedShortChar, 2)
      | some 'I' => some (.unsignedIntegerChar, 2)
      | some 'L' => some (.unsignedLongChar, 2)
      | _ => none
    else none
  | _ => none

/-- The type character behind a number and its length.  Letters that run on into a longer word are
no suffix. -/
def numberSuffix? (version : Version) (integralOnly : Bool) :
    List Char → Option (TypeCharacter × Nat)
  | [] => none
  | c :: rest =>
    match TypeCharacter.ofSymbol? (halfWidth c) with
    | some symbol => if symbolSuffix? integralOnly symbol rest then some (symbol, 1) else none
    | none =>
      (letterSuffix? version integralOnly (halfWidth c) (rest.head?.map halfWidth)).filter
        fun suffix => !((rest.drop (suffix.2 - 1)).head?.any isIdentifierPart)

/-- The number, if 64 bits hold it. -/
def checked64? (n : Nat) : Option Nat := if n < Nat.pow 2 64 then some n else none

/-- The value of digits, taken one by one.  Once it has left 64 bits no further digit brings it
back. -/
def accumulate? (radix : Nat) (digits : List Nat) : Option Nat :=
  digits.foldlM (fun value digit => do checked64? ((← checked64? (value * radix)) + digit)) 0

/-- The literal that the digits denote in the base, with the given suffix. -/
def integerLexeme (digits : List Nat) (base : IntegerBase) (suffix : Option TypeCharacter) : Lexeme :=
  match (accumulate? base.radix digits).bind fun n => IntegerValue.ofLiteral? n base suffix with
  | some value => .literal (.integer value base suffix)
  | none => .fault .invalidIntegerLiteral

def floatingLexeme (n : Numeral) (suffix : Option TypeCharacter) : Lexeme :=
  let tooLarge (value : Binary64) : Bool :=
    suffix.any TypeCharacter.isSingle && Binary64.maxSingle.bits < value.bits
  match (Binary64.ofNumeral? n).filter (fun value => !tooLarge value) with
  | some value => .literal (.floatingPoint value suffix)
  | none => .fault .invalidFloatingPointLiteral

def decimalLexeme (n : Numeral) (suffix : Option TypeCharacter) : Lexeme :=
  match DecimalValue.ofNumeral? n with
  | some value => .literal (.decimal value suffix)
  | none => .fault .invalidDecimalLiteral

/-- The meaning of a numeral under its suffix. -/
def numeralLexeme (n : Numeral) (suffix : Option TypeCharacter) : Lexeme :=
  match suffix with
  | some .decimalSymbol | some .decimalChar => decimalLexeme n suffix
  | some .singleSymbol | some .singleChar | some .doubleSymbol | some .doubleChar =>
    floatingLexeme n suffix
  | none => if n.isWhole then integerLexeme n.whole .decimal none else floatingLexeme n none
  | some _ =>
    if n.isWhole then integerLexeme n.whole .decimal suffix
    else .fault .invalidFloatingPointLiteral

def decimalNumber (version : Version) (cs : List Char) : Match :=
  let (numeral, length) := readNumeral cs
  let suffix := numberSuffix? version false (cs.drop length)
  ⟨numeralLexeme numeral (suffix.map (·.1)), length + suffix.elim 0 (·.2)⟩

/-- A number in another base: an ampersand, perhaps a letter for the base, and digits. -/
def radixNumber (version : Version) (cs : List Char) : Match :=
  let rest := cs.drop 1
  let (base, introducer) : IntegerBase × Nat :=
    match rest.head?.map halfWidth with
    | some 'h' | some 'H' => (.hexadecimal, 1)
    | some 'o' | some 'O' => (.octal, 1)
    | _ => (.octal, 0)
  let digits := leadingDigits base.radix (rest.drop introducer)
  let length := 1 + introducer + digits.length
  let suffix := numberSuffix? version true (cs.drop length)
  let lexeme :=
    if digits = [] then .fault .invalidIntegerLiteral
    else integerLexeme digits base (suffix.map (·.1))
  ⟨lexeme, length + suffix.elim 0 (·.2)⟩

end Scan

end VisualBasic
