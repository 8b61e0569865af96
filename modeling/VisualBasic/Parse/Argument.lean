import VisualBasic.Parse.Name
import VisualBasic.Parse.Rules
import VisualBasic.Parse.Sequence

/-!
The arguments of calls.  An argument can be left out or named; behind a named argument all are
named.
-/

set_option autoImplicit false

namespace VisualBasic.Parse

/-- One argument, given whether a named one came before it, and whether one has come with it. -/
def argument (r : Rules) (named : Bool) : Parse (Argument Expression × Bool) := do
  let s ← get
  let token := s.current
  if s.kind == .mark .comma || s.kind == .mark .rightParenthesis || s.atStatementEnd then
    if named then reportUnexpected .expectedNamedArgument
    let place ← placeholder
    return (⟨none, none, none, .point place⟩, named)
  else if token.name?.isSome && s.kindAfter == .mark .colonEquals then
    skip
    let colonEquals := (← read).span.start
    let value ← r.value
    let span ← spanFrom token.span.start
    return (⟨some (.ofToken token), some colonEquals, some value, span⟩, true)
  else
    if named then report .expectedNamedArgument token.span
    let value ← r.value
    return (⟨none, none, some value, value.span⟩, named)

def separatedArguments (r : Rules) : Parse (Separated (Argument Expression)) := do
  let item (named : Bool) : Parse (Argument Expression × Option Bool) := do
    let (found, named) ← argument r named
    return (found, some named)
  separatedFrom item (← get).remaining false

/-- Arguments in parentheses.  When the closing one is missing, the statement is searched for it. -/
def argumentList (r : Rules) : Parse Arguments := do
  let openParen := (← read).span.start
  let arguments ←
    if ← check (.mark .rightParenthesis) then pure (.empty openParen)
    else do pure ((← separatedArguments r).toHullList Argument.span)
  let closeParen ← match ← closeParenthesis with
    | some place => pure (some place)
    | none => do
      resync [.mark .rightParenthesis]
      eatPlace (.mark .rightParenthesis)
  return ⟨some openParen, arguments, closeParen, ← spanFrom openParen⟩

/-- Arguments without parentheses, up to the end of the statement. -/
def bareArguments (r : Rules) : Parse Arguments := do
  let start ← here
  if ← atStatementEnd then return ⟨none, .empty start, none, .point start⟩
  else
    let arguments ← separatedArguments r
    return ⟨none, arguments.toHullList Argument.span, none, ← spanFrom start⟩

/-- Arguments without parentheses, the first of which has been read. -/
def bareArgumentsFrom (r : Rules) (first : Argument Expression) : Parse Arguments := do
  let arguments ← match ← eatPlace (.mark .comma) with
    | none => pure ⟨first, []⟩
    | some comma => do pure ((← separatedArguments r).cons first comma)
  return ⟨none, arguments.toHullList Argument.span, none, ← spanFrom first.span.start⟩

end VisualBasic.Parse
