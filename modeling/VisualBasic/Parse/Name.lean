import VisualBasic.Parse.State

/-!
Names, labels and the literals that stand where only a literal may.
-/

set_option autoImplicit false

namespace VisualBasic.Parse

def missingName : Parse SimpleName := do
  reportUnexpected .expectedIdentifier
  return .missing (← placeholder)

/-- A name.  A reserved word is reported but taken for the name it spells. -/
def identifier : Parse SimpleName := do
  let token ← peek
  match token.kind with
  | .identifier =>
    skip
    return .ofToken token
  | .word _ =>
    report .invalidUseOfKeyword token.span
    skip
    return .ofToken token
  | _ => missingName

/-- A name behind a dot or exclamation mark, where every word is a name. -/
def memberName : Parse SimpleName := do
  let token ← peek
  if token.name?.isSome then
    skip
    return .ofToken token
  else missingName

/-- Further parts of a name, each behind a dot; nothing follows a part that is missing. -/
def nameParts : Nat → Name → Parse Name
  | 0, name => return name
  | n + 1, name => do
    match ← eatPlace (.mark .period) with
    | none => return name
    | some dot =>
      let part ← memberName
      let name := .qualified name dot part (name.span.upTo part.span)
      if part.isMissing then return name else nameParts n name

/-- A name with or without qualifier. -/
def name : Parse Name := do
  let token ← peek
  match token.kind with
  | .identifier =>
    skip
    nameParts (← get).remaining (.simple (.ofToken token))
  | .word .kwGlobal =>
    skip
    unless ← check (.mark .period) do reportUnexpected .expectedPeriod
    nameParts (← get).remaining (.globalNamespace token.span)
  | _ => return .simple (← missingName)

/-- The text of a string literal. -/
def stringLiteral : Parse (Option String) := do
  match (← peek).lexeme with
  | .literal (.string text) =>
    skip
    return some text
  | _ =>
    reportUnexpected .expectedStringLiteral
    return none

/-- The value of a signed integer literal. -/
def integerOf? (t : Token) : Option Int :=
  match t.lexeme with
  | .literal (.integer (.signed value) _ _) => some value
  | _ => none

/-- A name or a line number. -/
def label : Parse Label := do
  let token ← peek
  match token.kind, integerOf? token with
  | .identifier, _ =>
    skip
    return .name (.ofToken token)
  | _, some value =>
    skip
    return .lineNumber value token.span
  | _, none =>
    reportUnexpected .expectedLabel
    return .name (.missing (← placeholder))

end VisualBasic.Parse
