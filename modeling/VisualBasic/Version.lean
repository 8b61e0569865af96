/-!
The versions of the language and their numbers.
-/

set_option autoImplicit false

namespace VisualBasic

/-- The language versions that differ in which words are keywords and which constructs parse. -/
inductive Version where
  | v71
  | v80
deriving DecidableEq, Inhabited

namespace Version

def latest : Version := .v80

/-- Generics, operators, `Using` and the other additions of version 8.0 are available. -/
def supportsV8 : Version → Bool
  | .v71 => false
  | .v80 => true

def render : Version → String
  | .v71 => "Visual Basic 7.1"
  | .v80 => "Visual Basic 8.0"

def code : Version → Nat
  | .v71 => 71
  | .v80 => 80

def ofCode? : Nat → Option Version
  | 71 => some .v71
  | 80 => some .v80
  | _ => none

/-- The message for a number that is no version. -/
def unknownCode (code : Nat) : String :=
  "No discriminant in enum `LanguageVersion` matches the value `" ++ toString code ++ "`"

theorem ofCode?_code (v : Version) : ofCode? v.code = some v := by cases v <;> rfl

end Version

end VisualBasic
