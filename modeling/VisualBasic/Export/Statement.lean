import VisualBasic.Export.Clause

/-!
Statements and declarations as data.
-/

set_option autoImplicit false

namespace VisualBasic

def CompoundOperator.datum (op : CompoundOperator) : Datum := .text op.title

def OverloadableOperator.datum : OverloadableOperator → Datum
  | unary op => .tagged "Unary" op.datum
  | binary op => .tagged "Binary" op.datum
  | isTrue => .text "IsTrue"
  | isFalse => .text "IsFalse"
  | conversion => .text "Conversion"

def OptionKind.datum : OptionKind → Datum
  | explicit => .text "Explicit"
  | strict => .text "Strict"
  | compare => .text "Compare"

def OptionSetting.datum : OptionSetting → Datum
  | turnedOn => .text "On"
  | turnedOff => .text "Off"
  | binary => .text "Binary"
  | text => .text "Text"

def Charset.datum : Charset → Datum
  | ansi => .text "Ansi"
  | unicode => .text "Unicode"
  | auto => .text "Auto"

/-- A keyword with an operand that can be left out. -/
def operandDatum (kind : NodeKind) (operand : Option Expression) (span : Span) : Datum :=
  .record [("tree_type", kind.datum), ("operand", optionExpressionDatum operand),
    ("span", span.datum)]

/-- A declaration with what stands in front of it. -/
def DeclarationHead.record (h : DeclarationHead) (fields : List (String × Datum)) : Datum :=
  .record (("attributes", .ofList AttributeBlock.datum h.attributes) ::
    ("modifiers", h.modifiers.datum) :: fields)

def endingDatum (ending : Option EndBlock) : Datum := .ofOption EndBlock.datum ending

def TypeList.datum (d : TypeList) : Datum :=
  .record [("tree_type", d.kind.kind.datum), ("types", d.types.datum TypeName.datum),
    ("span", d.span.datum)]

def EnumValue.datum (d : EnumValue) : Datum :=
  .record [("attributes", .ofList AttributeBlock.datum d.attributes), ("name", d.name.datum),
    ("value", optionExpressionDatum d.value), ("span", d.span.datum)]

def VariableListDeclaration.datum (d : VariableListDeclaration) : Datum :=
  d.head.record [("declarators", d.declarators.datum VariableDeclarator.datum),
    ("span", d.span.datum)]

/-- The fields for parameters and result. -/
def signatureFields (parameters : Option ParameterList) (result : Option ReturnType) :
    List (String × Datum) :=
  [("parameters", .ofOption ParameterList.datum parameters),
    ("return_type", .ofOption ReturnType.datum result)]

def ExternalDeclaration.datum (d : ExternalDeclaration) : Datum :=
  d.head.record ([("tree_type", d.kind.datum), ("charset", .ofOption Charset.datum d.charset),
    ("name", d.name.datum), ("lib", .ofOption .text d.library),
    ("alias", .ofOption .text d.aliasName), ("span", d.span.datum)] ++ signatureFields d.parameters d.returnType)

def DelegateDeclaration.datum (d : DelegateDeclaration) : Datum :=
  d.head.record ([("tree_type", d.kind.datum), ("name", d.name.datum),
    ("type_parameters", .ofOption TypeParameterList.datum d.typeParameters),
    ("span", d.span.datum)] ++ signatureFields d.parameters d.returnType)

def EventDeclaration.datum (d : EventDeclaration) : Datum :=
  d.head.record [("name", d.name.datum),
    ("parameters", .ofOption ParameterList.datum d.parameters),
    ("as_type", .ofOption TypeName.datum d.type),
    ("implements", .ofOption ImplementsClause.datum d.implemented), ("span", d.span.datum)]

namespace Statement

def ofAssignment (s : Assignment) : Datum :=
  .record [("keyword", .ofOption Span.datum s.keyword), ("target", s.target.datum),
    ("equals", s.equals.datum), ("source", s.source.datum), ("span", s.span.datum)]

def ofCompoundAssignment (s : CompoundAssignment) : Datum :=
  .record [("target", s.target.datum), ("op", s.op.datum), ("op_span", s.opSpan.datum),
    ("source", s.source.datum), ("span", s.span.datum)]

def ofMidAssignment (s : MidAssignment) : Datum :=
  .record [("has_type_char", .flag s.hasTypeCharacter), ("target", s.target.datum),
    ("start", s.start.datum), ("length", optionExpressionDatum s.length),
    ("source", s.source.datum), ("span", s.span.datum)]

def ofCall (s : CallStatement) : Datum :=
  .record [("call_keyword", Location.optionDatum s.callKeyword), ("target", s.target.datum),
    ("arguments", optionArgumentsDatum s.arguments), ("span", s.span.datum)]

def ofLocalDeclaration (s : LocalDeclaration) : Datum :=
  .record [("modifiers", s.modifiers.datum),
    ("declarators", s.declarators.datum VariableDeclarator.datum), ("span", s.span.datum)]

def ofHandler (s : HandlerStatement) : Datum :=
  .record [("tree_type", s.kind.datum), ("event", s.event.datum),
    ("comma", Location.optionDatum s.comma), ("handler", s.handler.datum), ("span", s.span.datum)]

/-- The data of a statement that holds no other statements. -/
def simpleDatum : Statement → Datum
  | assignment s => .tagged "Assignment" (ofAssignment s)
  | compoundAssignment s => .tagged "CompoundAssignment" (ofCompoundAssignment s)
  | midAssignment s => .tagged "MidAssignment" (ofMidAssignment s)
  | call s => .tagged "Call" (ofCall s)
  | localDeclaration s => .tagged "LocalDeclaration" (ofLocalDeclaration s)
  | label l span => .tagged "Label" (.record [("label", l.datum), ("span", span.datum)])
  | goTo l span => .tagged "GoTo" (.record [("label", l.datum), ("span", span.datum)])
  | exitBlock b span =>
    .tagged "Exit" (.record [("kind", .ofOption BlockKind.datum b), ("span", span.datum)])
  | continueBlock b span =>
    .tagged "Continue" (.record [("kind", .ofOption BlockKind.datum b), ("span", span.datum)])
  | stop span =>
    .tagged "Keyword" (.record [("tree_type", NodeKind.stopStatement.datum), ("span", span.datum)])
  | endProgram span =>
    .tagged "Keyword" (.record [("tree_type", NodeKind.endStatement.datum), ("span", span.datum)])
  | returnValue e span => .tagged "Return" (operandDatum .returnStatement e span)
  | throwException e span => .tagged "Throw" (operandDatum .throwStatement e span)
  | raiseError e span => .tagged "Error" (operandDatum .errorStatement e span)
  | raiseEvent n arguments span => .tagged "RaiseEvent" (.record [("name", n.datum),
      ("arguments", optionArgumentsDatum arguments), ("span", span.datum)])
  | handler s => .tagged "Handler" (ofHandler s)
  | onError action span =>
    .tagged "OnError" (.record [("kind", action.datum), ("span", span.datum)])
  | resume target span =>
    .tagged "Resume" (.record [("kind", target.datum), ("span", span.datum)])
  | reDim preserve arrays span => .tagged "ReDim" (.record [
      ("preserve", .ofOption Span.datum preserve), ("variables", arrays.datum Expression.datum),
      ("span", span.datum)])
  | erase arrays span => .tagged "Erase" (.record [
      ("variables", arrays.datum Expression.datum), ("span", span.datum)])
  | endBlock e => .tagged "EndBlock" e.datum
  | loop s => .tagged "Loop" s.datum
  | next s => .tagged "Next" s.datum
  | elseIf s => .tagged "ElseIf" s.datum
  | elsePart span => .tagged "Else" span.datum
  | case s => .tagged "Case" s.datum
  | caseElse span => .tagged "CaseElse" span.datum
  | catchPart s => .tagged "Catch" s.datum
  | finallyPart span => .tagged "Finally" span.datum
  | bad span => .tagged "Bad" span.datum
  | _ => .null

end Statement

/-- A list of statements, given the statements as data. -/
def statementsDatum (statements : List Datum) (colons : List Location) (span : Span) : Datum :=
  .record [("statements", .list statements), ("colons", .ofList Location.datum colons),
    ("span", span.datum)]

def declarationsDatum (declarations : List Datum) (span : Span) : Datum :=
  .record [("declarations", .list declarations), ("span", span.datum)]

mutual

def statementData : List Statement → List Datum
  | [] => []
  | s :: rest => s.datum :: statementData rest

def StatementList.datum : StatementList Statement → Datum
  | ⟨statements, colons, span⟩ => statementsDatum (statementData statements) colons span

def optionStatementsDatum : Option (StatementList Statement) → Datum
  | some statements => statements.datum
  | none => .null

def declarationData : List Declaration → List Datum
  | [] => []
  | d :: rest => d.datum :: declarationData rest

def DeclarationList.datum : DeclarationList Declaration → Datum
  | ⟨declarations, span⟩ => declarationsDatum (declarationData declarations) span

def optionDeclarationsDatum : Option (DeclarationList Declaration) → Datum
  | some declarations => declarations.datum
  | none => .null

def ifPartData : List (IfPart Statement) → List Datum
  | [] => []
  | .elseIf header body span :: rest => .tagged "ElseIf" (.record [("header", header.datum),
      ("body", body.datum), ("span", span.datum)]) :: ifPartData rest
  | .elsePart header body span :: rest => .tagged "Else" (.record [("else_span", header.datum),
      ("body", body.datum), ("span", span.datum)]) :: ifPartData rest

def tryPartData : List (TryPart Statement) → List Datum
  | [] => []
  | .catchPart header body span :: rest => .tagged "Catch" (.record [("header", header.datum),
      ("body", body.datum), ("span", span.datum)]) :: tryPartData rest
  | .finallyPart header body span :: rest => .tagged "Finally" (.record [
      ("finally_span", header.datum), ("body", body.datum), ("span", span.datum)])
      :: tryPartData rest

def caseData : List (CaseBlock Statement) → List Datum
  | [] => []
  | ⟨header, body, span⟩ :: rest => .record [("header", header.datum), ("body", body.datum),
      ("span", span.datum)] :: caseData rest

def Statement.datum : Statement → Datum
  | .ifBlock ⟨condition, thenKeyword, body, parts, ending, span⟩ => .tagged "If" (.record [
      ("condition", condition.datum), ("then", Location.optionDatum thenKeyword),
      ("body", body.datum), ("parts", .list (ifPartData parts)), ("end", endingDatum ending),
      ("span", span.datum)])
  | .lineIf ⟨condition, thenKeyword, statements, elseKeyword, elseStatements, ending, span⟩ =>
    .tagged "LineIf" (.record [("condition", condition.datum), ("then", thenKeyword.datum),
      ("statements", statements.datum), ("else_location", Location.optionDatum elseKeyword),
      ("else_statements", optionStatementsDatum elseStatements), ("end", endingDatum ending),
      ("span", span.datum)])
  | .doBlock ⟨condition, body, ending, span⟩ => .tagged "Do" (.record [
      ("condition", .ofOption LoopCondition.datum condition), ("body", body.datum),
      ("end", .ofOption LoopStatement.datum ending), ("span", span.datum)])
  | .forBlock ⟨control, equals, lower, toKeyword, upper, step, body, ending, closed, span⟩ =>
    .tagged "For" (.record [("control", control.datum), ("equals", Location.optionDatum equals),
      ("lower", lower.datum), ("to", Location.optionDatum toKeyword), ("upper", upper.datum),
      ("step", optionExpressionDatum step), ("body", body.datum),
      ("next", .ofOption NextStatement.datum ending),
      ("next_variable", optionExpressionDatum closed), ("span", span.datum)])
  | .forEachBlock ⟨control, inKeyword, collection, body, ending, closed, span⟩ =>
    .tagged "ForEach" (.record [("control", control.datum),
      ("in_location", Location.optionDatum inKeyword), ("collection", collection.datum),
      ("body", body.datum), ("next", .ofOption NextStatement.datum ending),
      ("next_variable", optionExpressionDatum closed), ("span", span.datum)])
  | .whileBlock ⟨condition, body, ending, span⟩ => .tagged "While" (.record [
      ("condition", condition.datum), ("body", body.datum), ("end", endingDatum ending),
      ("span", span.datum)])
  | .objectBlock ⟨kind, object, body, ending, span⟩ => .tagged "ExpressionBlock" (.record [
      ("tree_type", kind.kind.datum), ("expression", object.datum), ("body", body.datum),
      ("end", endingDatum ending), ("span", span.datum)])
  | .usingBlock ⟨resource, body, ending, span⟩ => .tagged "Using" (.record [
      ("resource", resource.datum), ("body", body.datum), ("end", endingDatum ending),
      ("span", span.datum)])
  | .tryBlock ⟨body, parts, ending, span⟩ => .tagged "Try" (.record [("body", body.datum),
      ("parts", .list (tryPartData parts)), ("end", endingDatum ending), ("span", span.datum)])
  | .selectBlock ⟨caseKeyword, subject, leading, blocks, ending, span⟩ =>
    .tagged "Select" (.record [("case_keyword", Location.optionDatum caseKeyword),
      ("expression", subject.datum), ("leading", leading.datum), ("cases", .list (caseData blocks)),
      ("end", endingDatum ending), ("span", span.datum)])
  | .declaration d => .tagged "Declaration" d.datum
  | s => s.simpleDatum

def Declaration.datum : Declaration → Datum
  | .option kind setting span => .tagged "Option" (.record [
      ("kind", .ofOption OptionKind.datum kind), ("setting", .ofOption OptionSetting.datum setting),
      ("span", span.datum)])
  | .imports clauses span => .tagged "Imports" (.record [
      ("clauses", clauses.datum ImportsClause.datum), ("span", span.datum)])
  | .attributes blocks span => .tagged "Attribute" (.record [
      ("blocks", .ofList AttributeBlock.datum blocks), ("span", span.datum)])
  | .namespaceBlock ⟨name, members, ending, span⟩ => .tagged "Namespace" (.record [
      ("name", name.datum), ("members", members.datum), ("end", endingDatum ending),
      ("span", span.datum)])
  | .type ⟨kind, head, name, parameters, members, ending, span⟩ => .tagged "Type" (head.record [
      ("tree_type", kind.kind.datum), ("name", name.datum),
      ("type_parameters", .ofOption TypeParameterList.datum parameters),
      ("members", members.datum), ("end", endingDatum ending), ("span", span.datum)])
  | .enum ⟨head, name, underlying, members, ending, span⟩ => .tagged "Enum" (head.record [
      ("name", name.datum), ("underlying", .ofOption TypeName.datum underlying),
      ("members", members.datum), ("end", endingDatum ending), ("span", span.datum)])
  | .enumValue d => .tagged "EnumValue" d.datum
  | .typeList d => .tagged "TypeList" d.datum
  | .variableList d => .tagged "Variables" d.datum
  | .method ⟨kind, head, name, typeParameters, parameters, result, handled, implemented, body,
      ending, span⟩ => .tagged "Method" (head.record ([("tree_type", kind.kind.datum),
      ("name", name.datum),
      ("type_parameters", .ofOption TypeParameterList.datum typeParameters),
      ("handles", .ofOption HandlesClause.datum handled),
      ("implements", .ofOption ImplementsClause.datum implemented),
      ("body", optionStatementsDatum body), ("end", endingDatum ending), ("span", span.datum)]
      ++ signatureFields parameters result))
  | .operator ⟨head, operator, operatorSpan, parameters, result, body, ending, span⟩ =>
    .tagged "Operator" (head.record ([
      ("operator", .ofOption OverloadableOperator.datum operator),
      ("operator_span", operatorSpan.datum), ("body", body.datum), ("end", endingDatum ending),
      ("span", span.datum)] ++ signatureFields parameters result))
  | .external d => .tagged "External" d.datum
  | .delegate d => .tagged "Delegate" d.datum
  | .event d => .tagged "Event" d.datum
  | .customEvent ⟨head, customKeyword, name, type, implemented, accessors, ending, span⟩ =>
    .tagged "CustomEvent" (head.record [("custom", customKeyword.datum), ("name", name.datum),
      ("as_type", .ofOption TypeName.datum type),
      ("implements", .ofOption ImplementsClause.datum implemented),
      ("accessors", accessors.datum), ("end", endingDatum ending), ("span", span.datum)])
  | .property ⟨head, name, parameters, result, implemented, accessors, ending, span⟩ =>
    .tagged "Property" (head.record ([("name", name.datum),
      ("implements", .ofOption ImplementsClause.datum implemented),
      ("accessors", optionDeclarationsDatum accessors), ("end", endingDatum ending),
      ("span", span.datum)] ++ signatureFields parameters result))
  | .accessor ⟨kind, head, parameters, body, ending, span⟩ => .tagged "Accessor" (head.record [
      ("tree_type", kind.kind.datum), ("parameters", .ofOption ParameterList.datum parameters),
      ("body", body.datum), ("end", endingDatum ending), ("span", span.datum)])
  | .endBlock e => .tagged "EndBlock" e.datum
  | .bad span => .tagged "Bad" span.datum

end

end VisualBasic
