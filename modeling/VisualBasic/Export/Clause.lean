import VisualBasic.Export.Expression

/-!
The parts of statements and declarations as data.
-/

set_option autoImplicit false

namespace VisualBasic

def ModifierList.datum (l : ModifierList) : Datum :=
  .record [("modifiers", .ofList (fun m =>
      .record [("kind", .ofNat m.value.flag), ("span", m.span.datum)]) l.modifiers),
    ("flags", .ofNat l.flags), ("span", l.span.datum)]

def VariableName.datum (n : VariableName) : Datum :=
  .record [("name", n.name.datum), ("array", optionBoundsDatum n.array), ("span", n.span.datum)]

def AsClause.datum (c : AsClause) : Datum :=
  .record [("as_location", c.asKeyword.datum), ("new", Location.optionDatum c.newKeyword),
    ("type_name", c.type.datum), ("arguments", optionArgumentsDatum c.arguments),
    ("span", c.span.datum)]

def VariableDeclarator.datum (d : VariableDeclarator) : Datum :=
  .record [("names", d.names.datum VariableName.datum),
    ("as_clause", .ofOption AsClause.datum d.asClause), ("equals", Location.optionDatum d.equals),
    ("initializer", .ofOption Initializer.datum d.initializer), ("span", d.span.datum)]

def AttributeTarget.datum : AttributeTarget → Datum
  | assembly => .text "Assembly"
  | module => .text "Module"

def Attribute.datum (a : Attribute) : Datum :=
  .record [("target", .ofOption AttributeTarget.datum a.target), ("name", a.name.datum),
    ("arguments", optionArgumentsDatum a.arguments), ("span", a.span.datum)]

def AttributeBlock.datum (b : AttributeBlock) : Datum :=
  .record [("open", b.openAngle.datum), ("attributes", b.attributes.datum Attribute.datum),
    ("close", Location.optionDatum b.closeAngle), ("span", b.span.datum)]

def Parameter.datum (p : Parameter) : Datum :=
  .record [("attributes", .ofList AttributeBlock.datum p.attributes),
    ("modifiers", .ofList (fun m =>
      .record [("kind", .ofNat m.value.flag), ("span", m.span.datum)]) p.modifiers),
    ("flags", .ofNat p.flags), ("name", p.name.datum), ("as_type", .ofOption TypeName.datum p.type),
    ("default", .ofOption Expression.datum p.defaultValue), ("span", p.span.datum)]

def ParameterList.datum (l : ParameterList) : Datum :=
  .record [("open", l.openParen.datum), ("parameters", l.parameters.datum Parameter.datum),
    ("close", Location.optionDatum l.closeParen), ("span", l.span.datum)]

def ReturnType.datum (r : ReturnType) : Datum :=
  .record [("as_location", r.asKeyword.datum),
    ("attributes", .ofList AttributeBlock.datum r.attributes), ("type_name", r.type.datum),
    ("span", r.span.datum)]

def Constraint.datum : Constraint → Datum
  | isClass span => .tagged "Class" span.datum
  | isStructure span => .tagged "Structure" span.datum
  | hasNew span => .tagged "New" span.datum
  | type t => .tagged "Type" t.datum

def ConstraintList.datum (l : ConstraintList) : Datum :=
  .record [("as_location", l.asKeyword.datum), ("open_brace", Location.optionDatum l.openBrace),
    ("constraints", l.constraints.datum Constraint.datum),
    ("close_brace", Location.optionDatum l.closeBrace), ("span", l.span.datum)]

def TypeParameter.datum (p : TypeParameter) : Datum :=
  .record [("name", p.name.datum), ("constraints", .ofOption ConstraintList.datum p.constraints),
    ("span", p.span.datum)]

def TypeParameterList.datum (l : TypeParameterList) : Datum :=
  .record [("open", l.openParen.datum), ("of", l.ofKeyword.datum),
    ("parameters", l.parameters.datum TypeParameter.datum),
    ("close", Location.optionDatum l.closeParen), ("span", l.span.datum)]

def HandlesItem.datum (i : HandlesItem) : Datum :=
  .record [("source", i.source.datum), ("dot", Location.optionDatum i.dot),
    ("event", i.event.datum), ("span", i.span.datum)]

def HandlesClause.datum (c : HandlesClause) : Datum :=
  .record [("handles", c.keyword.datum), ("events", c.events.datum HandlesItem.datum),
    ("span", c.span.datum)]

def ImplementsClause.datum (c : ImplementsClause) : Datum :=
  .record [("implements", c.keyword.datum), ("members", c.members.datum Name.datum),
    ("span", c.span.datum)]

def ImportsClause.datum (c : ImportsClause) : Datum :=
  .record [("alias", .ofOption SimpleName.datum c.aliasName),
    ("equals", Location.optionDatum c.equals), ("target", c.target.datum), ("span", c.span.datum)]

def EndBlock.datum (e : EndBlock) : Datum :=
  .record [("kind", e.kind.datum), ("span", e.span.datum)]

def OnErrorAction.datum : OnErrorAction → Datum
  | goToLabel l => .tagged "GoToLabel" l.datum
  | goToZero => .text "GoToZero"
  | goToMinusOne => .text "GoToMinusOne"
  | resumeNext => .text "ResumeNext"
  | bad => .text "Bad"

def ResumeTarget.datum : ResumeTarget → Datum
  | plain => .text "Plain"
  | next => .text "Next"
  | label l => .tagged "Label" l.datum

def ElseIfStatement.datum (s : ElseIfStatement) : Datum :=
  .record [("condition", s.condition.datum), ("then", Location.optionDatum s.thenKeyword),
    ("span", s.span.datum)]

def LoopCondition.datum (c : LoopCondition) : Datum :=
  .record [("is_while", .flag c.isWhile), ("keyword", c.keyword.datum),
    ("condition", c.condition.datum), ("span", c.span.datum)]

def LoopStatement.datum (s : LoopStatement) : Datum :=
  .record [("condition", .ofOption LoopCondition.datum s.condition), ("span", s.span.datum)]

def NextStatement.datum (s : NextStatement) : Datum :=
  .record [("variables", s.loopVariables.datum Expression.datum), ("span", s.span.datum)]

def ForControl.datum : ForControl → Datum
  | expression e => .tagged "Expression" e.datum
  | declarator d => .tagged "Declarator" d.datum

def UsingResource.datum : UsingResource → Datum
  | expression e => .tagged "Expression" e.datum
  | declarators l => .tagged "Declarators" (l.datum VariableDeclarator.datum)

def CatchStatement.datum (s : CatchStatement) : Datum :=
  .record [("name", .ofOption SimpleName.datum s.name),
    ("exception_type", .ofOption TypeName.datum s.exceptionType),
    ("filter", .ofOption Expression.datum s.filter), ("span", s.span.datum)]

def CaseClause.datum : CaseClause → Datum
  | value e => .tagged "Expression" e.datum
  | range lower toKeyword upper span => .tagged "Range" (.record [("lower", lower.datum),
      ("to", toKeyword.datum), ("upper", upper.datum), ("span", span.datum)])
  | relational isKeyword op e span => .tagged "Relational" (.record [
      ("is_keyword", Location.optionDatum isKeyword), ("op", op.datum), ("operand", e.datum),
      ("span", span.datum)])

def CaseStatement.datum (s : CaseStatement) : Datum :=
  .record [("clauses", s.clauses.datum CaseClause.datum), ("span", s.span.datum)]

def CaseHeader.datum : CaseHeader → Datum
  | case s => .tagged "Case" s.datum
  | caseElse span => .tagged "Else" span.datum

end VisualBasic
