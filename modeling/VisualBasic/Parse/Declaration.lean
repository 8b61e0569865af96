import VisualBasic.Parse.Bodies
import VisualBasic.Parse.Directive
import VisualBasic.Parse.Signature

/-!
Declarations.
-/

set_option autoImplicit false

namespace VisualBasic.Parse

def badDeclaration (start : Location) (problem : Problem) : Parse Declaration := do
  reportUnexpected problem
  resync []
  return .bad (← spanFrom start)

-- The top of a file

def optionKind? (t : Token) : Option OptionKind :=
  if t.isContextual .kwExplicit then some .explicit
  else if t.isContextual .kwStrict then some .strict
  else if t.isContextual .kwCompare then some .compare
  else none

/-- A setting that is on unless it says otherwise. -/
def switchSetting : Parse (Option OptionSetting) := do
  let token ← peek
  if ← atStatementEnd then return none
  else if token.kind = .word .kwOn then
    skip
    return some .turnedOn
  else if token.isContextual .kwOff then
    skip
    return some .turnedOff
  else
    reportUnexpected .expectedOnOrOff
    return none

def compareSetting : Parse (Option OptionSetting) := do
  let token ← peek
  if token.isContextual .kwBinary then
    skip
    return some .binary
  else if token.isContextual .kwText then
    skip
    return some .text
  else
    reportUnexpected .expectedBinaryOrText
    return none

def optionDeclaration : Parse Declaration := do
  let start := (← read).span.start
  match optionKind? (← peek) with
  | none =>
    reportUnexpected .expectedOptionKind
    resync []
    return .option none none (← spanFrom start)
  | some kind =>
    skip
    let setting ← if kind = .compare then compareSetting else switchSetting
    return .option (some kind) setting (← endStatement start)

def importsClause (r : Rules) : Parse ImportsClause := do
  let start ← here
  if (← check .identifier) && (← kindAfter) == .mark .equals then
    let aliasName ← identifier
    let equals := (← read).span.start
    let target ← elementType r
    return ⟨some aliasName, some equals, target, ← spanFrom start⟩
  else
    let target ← elementType r
    return ⟨none, none, target, ← spanFrom start⟩

def importsDeclaration (r : Rules) : Parse Declaration := do
  let start := (← read).span.start
  let clauses ← commaList ImportsClause.span (importsClause r)
  return .imports clauses (← endStatement start)

-- Base types and interfaces

def typeList (r : Rules) (kind : TypeListKind) (container : Container) : Parse Declaration := do
  let keyword := (← read).span
  unless kind.isAllowedIn container do report kind.misplaced keyword
  let types ← commaList TypeName.span (elementType r)
  match kind, container, types.items with
  | .inheritsFrom, .type .classType, _ :: second :: _ => report .noMultipleInheritance second.span
  | _, _, _ => pure ()
  return .typeList ⟨kind, types, ← endStatement keyword.start⟩

-- Members

def fieldDeclaration (r : Rules) (start : Location) (head : DeclarationHead) :
    Parse Declaration := do
  let declarators ← variableDeclarators r true
  return .variableList ⟨head, declarators, ← endStatement start⟩

def namespaceDeclaration (b : Bodies) (start : Location) : Parse Declaration := do
  skip
  let name ← name
  let header ← endStatement start
  let (members, terminator) ← declarationBody b .namespaceBlock header .namespaceBody
  let ending ← takeEnd .namespaceBlock terminator
  return .namespaceBlock ⟨name, members, ending, ← spanFrom start⟩

def typeDeclaration (r : Rules) (b : Bodies) (start : Location) (head : DeclarationHead)
    (kind : TypeKind) : Parse Declaration := do
  skip
  let name ← identifier
  let parameters ← if kind = .moduleType then pure none else typeParameters r
  let header ← endStatement start
  let (members, terminator) ← declarationBody b kind.block header (.type kind)
  let ending ← takeEnd kind.block terminator
  return .type ⟨kind, head, name, parameters, members, ending, ← spanFrom start⟩

def enumDeclaration (r : Rules) (b : Bodies) (start : Location) (head : DeclarationHead) :
    Parse Declaration := do
  skip
  let name ← identifier
  let underlying ← whenEaten (.word .kwAs) (elementType r)
  let header ← endStatement start
  let (members, terminator) ← declarationBody b .enumBlock header .enumBody
  let ending ← takeEnd .enumBlock terminator
  return .enum ⟨head, name, underlying, members, ending, ← spanFrom start⟩

def enumValue (r : Rules) (start : Location) (attributes : List AttributeBlock) :
    Parse Declaration := do
  let token ← peek
  if token.kind = .identifier then
    let name ← identifier
    let value ← whenEaten (.mark .equals) r.value
    return .enumValue ⟨attributes, name, value, ← endStatement start⟩
  else
    report .invalidInsideEnum token.span
    skipStatement
    return .bad (← spanFrom start)

/-- The members of interfaces, and those that derived types must supply, have no bodies. -/
def isBodiless (head : DeclarationHead) (container : Container) : Bool :=
  container == .type .interfaceType || head.modifiers.contains .modMustOverride

def methodDeclaration (r : Rules) (b : Bodies) (start : Location) (head : DeclarationHead)
    (kind : MethodKind) (container : Container) : Parse Declaration := do
  let block := kind.block
  skip
  let name ← if kind = .constructor then do pure (.ofToken (← read)) else identifier
  let typeParameters ← if kind = .constructor then pure none else typeParameters r
  let parameters ← parameterList r
  let result ← if kind = .function then returnType r else pure none
  let handled ← handlesClause r
  let implemented ← implementsClause
  let header ← endStatement start
  let (body, ending) ←
    if isBodiless head container then pure (none, none)
    else do
      let (body, terminator) ← statementBody b block header
      pure (some body, ← takeEnd block terminator)
  return .method ⟨kind, head, name, typeParameters, parameters, result, handled, implemented, body,
    ending, ← spanFrom start⟩

/-- The operator that a declaration defines, with its place. -/
def operatorName : Parse (Option OverloadableOperator × Span) := do
  let token ← peek
  match OverloadableOperator.ofToken? token.kind token.contextualKind with
  | some op =>
    skip
    return (some op, token.span)
  | none =>
    reportUnexpected .expectedOverloadableOperator
    if (← check (.mark .leftParenthesis)) || (← atStatementEnd) then
      return (none, .point (← placeholder))
    else
      skip
      return (none, token.span)

def operatorDeclaration (r : Rules) (b : Bodies) (start : Location) (head : DeclarationHead) :
    Parse Declaration := do
  skip
  let (operator, operatorSpan) ← operatorName
  let parameters ← parameterList r
  let result ← returnType r
  let header ← endStatement start
  let (body, terminator) ← statementBody b .operatorBlock header
  let ending ← takeEnd .operatorBlock terminator
  return .operator
    ⟨head, operator, operatorSpan, parameters, result, body, ending, ← spanFrom start⟩

/-- A property with one accessor, whose statements are those of the property itself. -/
def singleAccessorProperty (r : Rules) (b : Bodies) (start : Location) (head : DeclarationHead) :
    Parse Declaration := do
  let keyword ← read
  let isGet := keyword.kind == .word .kwGet
  let name ← identifier
  let parameters ← parameterList r
  let result ← if isGet then returnType r else pure none
  let header ← endStatement start
  let (body, terminator) ← statementBody b .propertyBlock header
  let ending ← takeEnd .propertyBlock terminator
  let span := keyword.span.merge body.span
  let accessor : AccessorDeclaration Statement :=
    ⟨if isGet then .get else .set, ⟨[], .empty keyword.span.start⟩, none, body, none, span⟩
  return .property ⟨head, name, parameters, result, none, some ⟨[.accessor accessor], span⟩, ending,
    ← spanFrom start⟩

def propertyDeclaration (r : Rules) (b : Bodies) (start : Location) (head : DeclarationHead)
    (container : Container) : Parse Declaration := do
  skip
  match ← peekKind with
  | .word .kwGet | .word .kwSet | .word .kwLet => singleAccessorProperty r b start head
  | _ =>
    let name ← identifier
    let parameters ← parameterList r
    let result ← returnType r
    let implemented ← implementsClause
    let header ← endStatement start
    let (accessors, ending) ←
      if isBodiless head container then pure (none, none)
      else do
        let (accessors, terminator) ← declarationBody b .propertyBlock header .propertyBody
        pure (some accessors, ← takeEnd .propertyBlock terminator)
    return .property
      ⟨head, name, parameters, result, implemented, accessors, ending, ← spanFrom start⟩

def accessorDeclaration (r : Rules) (b : Bodies) (start : Location) (head : DeclarationHead)
    (kind : AccessorKind) : Parse Declaration := do
  skip
  checkModifiers head.modifiers (if kind.isOfProperty then Modifier.access else [])
  let parameters ← parameterList r
  let header ← endStatement start
  let (body, terminator) ← statementBody b kind.block header
  let ending ← takeEnd kind.block terminator
  return .accessor ⟨kind, head, parameters, body, ending, ← spanFrom start⟩

/-- An accessor of a property or an event, reported if there is none. -/
def accessorIn (r : Rules) (b : Bodies) (start : Location) (head : DeclarationHead)
    (ofProperty : Bool) : Parse Declaration := do
  let kind := AccessorKind.ofKind? (← peekKind)
  match kind.filter fun k => k.isOfProperty == ofProperty with
  | some kind => accessorDeclaration r b start head kind
  | none =>
    badDeclaration start (if ofProperty then .expectedGetOrSet else .expectedEventAccessor)

def eventDeclaration (r : Rules) (start : Location) (head : DeclarationHead) :
    Parse Declaration := do
  skip
  let name ← identifier
  let parameters ← parameterList r
  let type ← if parameters.isNone then whenEaten (.word .kwAs) (elementType r) else pure none
  let implemented ← implementsClause
  return .event ⟨head, name, parameters, type, implemented, ← endStatement start⟩

def customEventDeclaration (r : Rules) (b : Bodies) (start : Location) (head : DeclarationHead) :
    Parse Declaration := do
  let customKeyword := (← read).span
  skip
  let name ← identifier
  let type ← match ← expect (.word .kwAs) .expectedAs with
    | some _ => some <$> elementType r
    | none => pure none
  let implemented ← implementsClause
  let header ← endStatement start
  let (accessors, terminator) ← declarationBody b .eventBlock header .eventBody
  let ending ← takeEnd .eventBlock terminator
  return .customEvent
    ⟨head, customKeyword, name, type, implemented, accessors, ending, ← spanFrom start⟩

/-- Tells `Function` from `Sub`. -/
def isFunction? : TokenKind → Option Bool
  | .word .kwSub => some false
  | .word .kwFunction => some true
  | _ => none

def delegateDeclaration (r : Rules) (start : Location) (head : DeclarationHead) :
    Parse Declaration := do
  skip
  match isFunction? (← peekKind) with
  | none => badDeclaration start .expectedSubOrFunction
  | some isFunction =>
    skip
    let name ← identifier
    let typeParameters ← typeParameters r
    let parameters ← parameterList r
    let result ← if isFunction then returnType r else pure none
    return .delegate
      ⟨isFunction, head, name, typeParameters, parameters, result, ← endStatement start⟩

def charset : Parse (Option Charset) := do
  let token ← peek
  let found :=
    if token.isContextual .kwAnsi then some .ansi
    else if token.isContextual .kwUnicode then some .unicode
    else if token.isContextual .kwAuto then some .auto
    else none
  if found.isSome then skip
  return found

def externalDeclaration (r : Rules) (start : Location) (head : DeclarationHead) :
    Parse Declaration := do
  skip
  let charset ← charset
  match isFunction? (← peekKind) with
  | none => badDeclaration start .expectedSubOrFunction
  | some isFunction =>
    skip
    let name ← identifier
    let library ← match ← expect (.word .kwLib) .expectedLib with
      | some _ => stringLiteral
      | none => pure none
    let aliasName ← match ← eat (.word .kwAlias) with
      | some _ => stringLiteral
      | none => pure none
    let parameters ← parameterList r
    let result ← if isFunction then returnType r else pure none
    return .external ⟨isFunction, head, charset, name, library, aliasName, parameters, result,
      ← endStatement start⟩

/-- The member that the tokens behind attributes and modifiers introduce. -/
def member? (s : ParseState) (isModified : Bool) : Option Member :=
  match s.kind with
  | .word .kwNamespace => some .namespaceBlock
  | .word .kwClass => some (.type .classType)
  | .word .kwStructure => some (.type .structureType)
  | .word .kwModule => some (.type .moduleType)
  | .word .kwInterface => some (.type .interfaceType)
  | .word .kwEnum => some .enum
  | .word .kwSub => some (if s.kindAfter = .word .kwNew then .constructor else .method)
  | .word .kwFunction => some .method
  | .word .kwOperator => some .operator
  | .word .kwProperty => some .property
  | .word .kwEvent => some .event
  | .word .kwDelegate => some .delegate
  | .word .kwDeclare => some .external
  | .identifier =>
    if s.current.isContextual .kwCustom && s.kindAfter == .word .kwEvent then some .customEvent
    else if isModified then some .field
    else none
  | _ => none

def memberDeclaration (r : Rules) (b : Bodies) (start : Location) (head : DeclarationHead)
    (container : Container) (member : Member) : Parse Declaration := do
  let token ← peek
  match member.placementProblem? container with
  | some problem => report problem token.span
  | none => pure ()
  checkModifiers head.modifiers (member.modifiersIn container)
  match member with
  | .namespaceBlock => namespaceDeclaration b start
  | .type kind => typeDeclaration r b start head kind
  | .enum => enumDeclaration r b start head
  | .field => fieldDeclaration r start head
  | .method =>
    let kind := if token.kind = .word .kwFunction then .function else .subroutine
    methodDeclaration r b start head kind container
  | .constructor => methodDeclaration r b start head .constructor container
  | .operator => operatorDeclaration r b start head
  | .property => propertyDeclaration r b start head container
  | .event => eventDeclaration r start head
  | .customEvent => customEventDeclaration r b start head
  | .delegate => delegateDeclaration r start head
  | .external => externalDeclaration r start head

/-- The keywords before which `Custom` is reported. -/
def rejectsCustom : TokenKind → Bool
  | .word k => [.kwSub, .kwFunction, .kwProperty, .kwOperator, .kwDelegate, .kwDeclare, .kwClass,
      .kwStructure, .kwModule, .kwInterface, .kwEnum, .kwNamespace].contains k
  | _ => false

/-- Reports and passes a `Custom` that stands before anything but an event. -/
def rejectCustom : Parse Unit := do
  let s ← get
  if s.current.isContextual .kwCustom && rejectsCustom s.kindAfter then
    report .invalidUseOfCustomModifier s.current.span
    skip

/-- All attributes of the blocks are attributes of the whole file. -/
def areFileAttributes (blocks : List AttributeBlock) : Bool :=
  !blocks.isEmpty && blocks.all fun b => b.attributes.items.all fun a => a.target.isSome

def reportHeading (container : Container) (span : Span) : Parse Unit := do
  match container.headingProblem? with
  | some problem => report problem span
  | none => return

/-- A declaration behind its attributes. -/
def declarationAfter (r : Rules) (b : Bodies) (start : Location) (attributes : List AttributeBlock)
    (container : Container) : Parse Declaration := do
  if container = .enumBody then enumValue r start attributes
  else
    let modifiers ← modifiers
    let head := ⟨attributes, modifiers⟩
    if container = .propertyBody then accessorIn r b start head true
    else if container = .eventBody then accessorIn r b start head false
    else
      rejectCustom
      match member? (← get) (!modifiers.isEmpty) with
      | none => badDeclaration start .expectedDeclaration
      | some member => memberDeclaration r b start head container member

/-- A declaration that begins with no terminator and with no word for the top of a file or type. -/
def attributedDeclaration (r : Rules) (b : Bodies) (container : Container) :
    Parse Declaration := do
  let start ← here
  let attributes ← attributeBlocks r
  match attributes.head?, areFileAttributes attributes && (← atStatementEnd) with
  | some first, true =>
    reportHeading container first.span
    return .attributes attributes (← spanFrom start)
  | _, _ => declarationAfter r b start attributes container

def declaration (r : Rules) (b : Bodies) (container : Container) : Parse Declaration := do
  let token ← peek
  match (← get).terminator? with
  | some (.endOf kind) =>
    report (.stray (.endOf kind)) token.span
    return .endBlock (← endBlock kind)
  | some _ => badDeclaration token.span.start .expectedDeclaration
  | none =>
    match token.kind with
    | .word .kwOption =>
      reportHeading container token.span
      optionDeclaration
    | .word .kwImports =>
      reportHeading container token.span
      importsDeclaration r
    | .word .kwInherits => typeList r .inheritsFrom container
    | .word .kwImplements => typeList r .implementsAll container
    | _ => attributedDeclaration r b container

end VisualBasic.Parse
