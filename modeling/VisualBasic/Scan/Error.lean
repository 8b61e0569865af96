import VisualBasic.Location

/-!
Misuse of a scanner.  Faults of the text itself are tokens, not errors.
-/

set_option autoImplicit false

namespace VisualBasic

inductive ScanError where
  | unknownToken (span : Span)
  | invalidMark (mark length : Nat)
  | noPreviousToken
  | invalidTabWidth (width : Nat)
  | invalidEncoding
deriving DecidableEq, Inhabited

def ScanError.message : ScanError → String
  | .unknownToken span => "token at " ++ span.render ++ " was not produced by this scanner"
  | .invalidMark mark length =>
    "mark " ++ toString mark ++ " is outside the token log of length " ++ toString length
  | .noPreviousToken => "no token has been read yet"
  | .invalidTabWidth width => "tab width must be at least 1, got " ++ toString width
  | .invalidEncoding => "stream did not contain valid UTF-8"

end VisualBasic
