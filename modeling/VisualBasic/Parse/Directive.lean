import VisualBasic.Parse.Expression

/-!
Directive lines.  Conditions are read and forgotten: every branch of a conditional block is part of
the source, and only the order of the branches is checked.
-/

set_option autoImplicit false

namespace VisualBasic.Parse

def modifyDirectives (f : OpenDirectives → OpenDirectives) : Parse Unit :=
  modify fun s => { s with directives := f s.directives }

def modifyTables (f : DirectiveTables → DirectiveTables) : Parse Unit :=
  modify fun s => { s with tables := f s.tables }

def directiveCondition (r : Rules) : Parse Unit := do
  let _ ← r.value
  let _ ← eat (.word .kwThen)

/-- A further branch of the innermost conditional block. -/
def conditionalBranch (start : Location) (isElse : Bool) : Parse Unit := do
  let directive ← spanFrom start
  match (← get).directives.conditionals with
  | [] => report (if isElse then .ccElseWithoutCcIf else .ccElseIfWithoutCcIf) directive
  | innermost :: outer =>
    modifyDirectives fun d =>
      { d with conditionals := ⟨innermost.directive, innermost.inElse || isElse⟩ :: outer }
    if innermost.inElse then
      report (if isElse then .ccElseAfterCcElse else .ccElseIfAfterCcElse) directive

def endConditional (start : Location) : Parse Unit := do
  let span ← spanFrom start
  match (← get).directives.conditionals with
  | [] => report .ccEndIfWithoutCcIf span
  | _ :: outer => modifyDirectives fun d => { d with conditionals := outer }

def endRegion (start : Location) : Parse Unit := do
  let span ← spanFrom start
  match (← get).directives.regions with
  | [] => report .endRegionWithoutRegion span
  | region :: outer =>
    modifyDirectives fun d => { d with regions := outer }
    modifyTables fun t =>
      { t with regions := t.regions ++ [⟨region.description, region.directive.upTo span⟩] }

def endMapping (start : Location) : Parse Unit := do
  let span ← spanFrom start
  match (← get).directives.mapping with
  | none => report .endExternalSourceWithoutExternalSource span
  | some mapping =>
    modifyDirectives fun d => { d with mapping := none }
    modifyTables fun t => { t with
      lineMappings :=
        t.lineMappings ++ [⟨mapping.file, mapping.line, mapping.directive.upTo span⟩] }

def invalidDirective (start : Location) : Parse Unit := do
  report .invalidPreprocessorDirective ((← spanFrom start).merge (← peek).span)

def endDirective (start : Location) : Parse Unit := do
  let token ← peek
  if token.kind = .word .kwIf then
    skip
    endConditional start
  else if token.isContextual .kwRegion then
    skip
    endRegion start
  else if token.isContextual .kwExternalSource then
    skip
    endMapping start
  else invalidDirective start

def directiveInteger : Parse (Option Int) := do
  match integerOf? (← peek) with
  | some value =>
    skip
    return some value
  | none =>
    reportUnexpected .expectedIntegerLiteral
    return none

/-- The file and line of a mapping, as far as they are given. -/
def mappingSource : Parse (Option String × Option Int) := do
  match ← expect (.mark .leftParenthesis) .expectedLeftParenthesis with
  | none => return (none, none)
  | some _ =>
    let file ← stringLiteral
    let line ← match ← expect (.mark .comma) .expectedComma with
      | some _ => directiveInteger
      | none => pure none
    let _ ← closeParenthesis
    return (file, line)

def beginMapping (start : Location) : Parse Unit := do
  let (file, line) ← mappingSource
  let directive ← spanFrom start
  if (← get).directives.mapping.isSome then report .nestedExternalSourceStatement directive
  else modifyDirectives fun d => { d with mapping := some ⟨file.getD "", line.getD 0, directive⟩ }

/-- Strings with commas between them, up to the first that is missing. -/
def directiveStrings : Nat → Parse (List String)
  | 0 => return []
  | 1 => do return (← stringLiteral).toList
  | n + 1 => do
    match ← stringLiteral with
    | none => return []
    | some text =>
      match ← expect (.mark .comma) .expectedComma with
      | none => return [text]
      | some _ => return text :: (← directiveStrings n)

def checksum (start : Location) : Parse Unit := do
  match ← expect (.mark .leftParenthesis) .expectedLeftParenthesis with
  | none => return
  | some _ =>
    let parts ← directiveStrings 3
    let closed ← closeParenthesis
    let span ← spanFrom start
    match parts, closed with
    | [file, guid, sum], some _ =>
      modifyTables fun t => { t with checksums := t.checksums ++ [⟨file, guid, sum, span⟩] }
    | _, _ => return

def conditionalConstant (r : Rules) : Parse Unit := do
  let name ← identifier
  let _ ← match ← expect (.mark .equals) .expectedEquals with
    | some _ => some <$> r.value
    | none => pure none
  unless name.isMissing do
    modifyTables fun t => { t with constants := t.constants ++ [name.text] }

def beginConditional (r : Rules) (start : Location) : Parse Unit := do
  directiveCondition r
  let directive ← spanFrom start
  modifyDirectives fun d => { d with conditionals := ⟨directive, false⟩ :: d.conditionals }

def beginRegion (start : Location) : Parse Unit := do
  let description ← stringLiteral
  let directive ← spanFrom start
  modifyDirectives fun d => { d with regions := ⟨description.getD "", directive⟩ :: d.regions }

/-- A directive that begins with a word which is no keyword elsewhere. -/
def namedDirective (start : Location) : Parse Unit := do
  let token ← peek
  if token.isContextual .kwRegion then
    skip
    beginRegion start
  else if token.isContextual .kwExternalSource then
    skip
    beginMapping start
  else if token.isContextual .kwExternalChecksum then
    skip
    checksum start
  else invalidDirective start

/-- What stands behind the number sign. -/
def directiveBody (r : Rules) (start : Location) : Parse Unit := do
  match ← peekKind with
  | .word .kwIf =>
    skip
    beginConditional r start
  | .word .kwElseIf =>
    skip
    directiveCondition r
    conditionalBranch start false
  | .word .kwElse =>
    skip
    match ← eat (.word .kwIf) with
    | some _ =>
      directiveCondition r
      conditionalBranch start false
    | none => conditionalBranch start true
  | .word .kwEnd =>
    skip
    endDirective start
  | .word .kwConst =>
    skip
    conditionalConstant r
  | _ => namedDirective start

/-- A directive line. -/
def directive (r : Rules) : Parse Unit := do
  beginConstruct
  let start := (← read).span.start
  directiveBody r start
  unless (← peekKind).endsLine do reportUnexpected .expectedEndOfStatement
  modify fun s => s.advanceWhile (fun s => !s.kind.endsLine) s.remaining

/-- Passes what stands between statements: ends of lines, colons and directives.  Gives the places
of the colons. -/
def separatorsWithin (r : Rules) : Nat → Parse (List Location)
  | 0 => return []
  | n + 1 => do
    let token ← peek
    match token.kind with
    | .lineTerminator =>
      skip
      separatorsWithin r n
    | .mark .colon =>
      skip
      return token.span.start :: (← separatorsWithin r n)
    | .mark .pound =>
      if (← get).atLineStart then
        directive r
        separatorsWithin r n
      else return []
    | _ => return []

def separators (r : Rules) : Parse (List Location) := do separatorsWithin r (← get).remaining

def reportAll (problem : Problem) : List Span → Parse Unit
  | [] => return
  | span :: rest => do
    beginConstruct
    report problem span
    reportAll problem rest

/-- Reports the directives that the source leaves open. -/
def finishDirectives : Parse Unit := do
  let d := (← get).directives
  reportAll .expectedCcEndIf (d.conditionals.reverse.map OpenConditional.directive)
  reportAll .expectedEndRegion (d.regions.reverse.map OpenRegion.directive)
  reportAll .expectedEndExternalSource (d.mapping.map OpenMapping.directive).toList

end VisualBasic.Parse
