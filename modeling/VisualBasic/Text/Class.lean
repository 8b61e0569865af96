import VisualBasic.Text.Width
import VisualBasic.Text.Letter
import VisualBasic.Text.Numeral

/-!
The classes of characters that the lexical grammar speaks of.  Letters and digits are classified
after their width is dropped, so a full-width word is a word.
-/

set_option autoImplicit false

namespace VisualBasic

def isLineTerminator (c : Char) : Bool :=
  c == '\r' || c == '\n' || c == '\u2028' || c == '\u2029'

-- The form feed and the vertical tab are white space in other settings, but separate nothing here.
def isBlank (c : Char) : Bool :=
  c == ' ' || c == '\t' || c == '\u0085' || c == '\u00A0' || c == '\u1680'
    || ('\u2000' ≤ c && c ≤ '\u200A') || c == '\u202F' || c == '\u205F' || c == '\u3000'

def isDoubleQuote (c : Char) : Bool :=
  c == '"' || c == '\u201C' || c == '\u201D' || c == '\uFF02'

def isSingleQuote (c : Char) : Bool :=
  c == '\x27' || c == '\u2018' || c == '\u2019' || c == '\uFF07'

def isDecimalDigit (c : Char) : Bool := (halfWidth c).isDigit

/-- The value of a digit below the radix, for radices up to sixteen. -/
def digitValue? (radix : Nat) (c : Char) : Option Nat :=
  let c := halfWidth c
  let value? : Option Nat :=
    if c.isDigit then some (c.toNat - '0'.toNat)
    else if 'a' ≤ c && c ≤ 'f' then some (c.toNat - 'a'.toNat + 10)
    else if 'A' ≤ c && c ≤ 'F' then some (c.toNat - 'A'.toNat + 10)
    else none
  value?.filter (· < radix)

def isIdentifierStart (c : Char) : Bool :=
  let c := halfWidth c
  isLetter c || c == '_'

def isIdentifierPart (c : Char) : Bool :=
  let c := halfWidth c
  isLetter c || isNumeral c || c == '_'

end VisualBasic
