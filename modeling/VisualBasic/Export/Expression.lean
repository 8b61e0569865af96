import VisualBasic.Export.Token
import VisualBasic.Syntax.Node

/-!
Names, types and expressions as data.
-/

set_option autoImplicit false

namespace VisualBasic

/-- Items with commas between them, given the items as data. -/
def commaDatum (items : List Datum) (separators : List Location) (span : Span) : Datum :=
  .record [("items", .list items), ("separators", .ofList Location.datum separators),
    ("span", span.datum)]

def CommaList.datum {α : Type} (f : α → Datum) (l : CommaList α) : Datum :=
  commaDatum (l.items.map f) l.separators l.span

def NodeKind.datum (k : NodeKind) : Datum := .text k.title

def BlockKind.datum (b : BlockKind) : Datum := .text b.spelling

def SimpleName.datum (n : SimpleName) : Datum :=
  .record [("text", .text n.text), ("type_char", TypeCharacter.optionDatum n.typeCharacter),
    ("escaped", .flag n.escaped), ("span", n.span.datum)]

def Name.datum : Name → Datum
  | .simple n => .tagged "Simple" n.datum
  | .qualified q dot n span => .tagged "Qualified" (.record [("qualifier", q.datum),
      ("dot", dot.datum), ("name", n.datum), ("span", span.datum)])
  | .globalNamespace span => .tagged "Global" (.record [("span", span.datum)])
  | .special k span =>
    .tagged "Special" (.record [("kind", .text k.spelling), ("span", span.datum)])

def Label.datum : Label → Datum
  | .name n => .tagged "Name" n.datum
  | .lineNumber value span =>
    .tagged "LineNumber" (.record [("value", .ofInteger value), ("span", span.datum)])

def Constant.datum : Constant → Datum
  | .boolean b => .tagged "Boolean" (.flag b)
  | .literal l => l.datum

def UnaryOperator.datum (op : UnaryOperator) : Datum := .text op.title

def BinaryOperator.datum (op : BinaryOperator) : Datum := .text op.title

def IntrinsicType.datum (t : IntrinsicType) : Datum := .text t.spelling

mutual

def TypeName.datum : TypeName → Datum
  | .intrinsic t span =>
    .tagged "Intrinsic" (.record [("intrinsic", t.datum), ("span", span.datum)])
  | .named n span => .tagged "Named" (.record [("name", n.datum), ("span", span.datum)])
  | .constructed n arguments span => .tagged "Constructed" (.record [("name", n.datum),
      ("arguments", arguments.datum), ("span", span.datum)])
  | .array element rank bounds span => .tagged "Array" (.record [("element", element.datum),
      ("rank", .ofNat rank), ("bounds", optionBoundsDatum bounds), ("span", span.datum)])
  | .bad span => .tagged "Bad" span.datum

def typeData : List TypeName → List Datum
  | [] => []
  | t :: rest => t.datum :: typeData rest

def TypeArgumentList.datum : TypeArgumentList TypeName → Datum
  | ⟨openParen, ofKeyword, ⟨types, separators, listSpan⟩, closeParen, span⟩ => .record [
      ("open", openParen.datum), ("of", ofKeyword.datum),
      ("arguments", commaDatum (typeData types) separators listSpan),
      ("close", Location.optionDatum closeParen), ("span", span.datum)]

def optionTypeArgumentsDatum : Option (TypeArgumentList TypeName) → Datum
  | some arguments => arguments.datum
  | none => .null

def ArrayBounds.datum : ArrayBounds Expression → Datum
  | ⟨openParen, rank, ⟨bounds, separators, listSpan⟩, closeParen, span⟩ => .record [
      ("open", openParen.datum), ("rank", .ofNat rank),
      ("bounds", commaDatum (boundData bounds) separators listSpan),
      ("close", Location.optionDatum closeParen), ("span", span.datum)]

def optionBoundsDatum : Option (ArrayBounds Expression) → Datum
  | some bounds => bounds.datum
  | none => .null

def boundData : List (ArrayBound Expression) → List Datum
  | [] => []
  | ⟨lower, toKeyword, upper, span⟩ :: rest => .record [("lower", optionExpressionDatum lower),
      ("to", Location.optionDatum toKeyword), ("upper", upper.datum), ("span", span.datum)]
      :: boundData rest

def argumentData : List (Argument Expression) → List Datum
  | [] => []
  | ⟨name, colonEquals, value, span⟩ :: rest => .record [("name", .ofOption SimpleName.datum name),
      ("colon_equals", Location.optionDatum colonEquals), ("value", optionExpressionDatum value),
      ("span", span.datum)] :: argumentData rest

def ArgumentList.datum : ArgumentList Expression → Datum
  | ⟨openParen, ⟨arguments, separators, listSpan⟩, closeParen, span⟩ => .record [
      ("open", Location.optionDatum openParen),
      ("arguments", commaDatum (argumentData arguments) separators listSpan),
      ("close", Location.optionDatum closeParen), ("span", span.datum)]

def optionArgumentsDatum : Option (ArgumentList Expression) → Datum
  | some arguments => arguments.datum
  | none => .null

def Initializer.datum : Initializer → Datum
  | .expression e => .tagged "Expression" e.datum
  | .aggregate a => .tagged "Aggregate" a.datum

def initializerData : List Initializer → List Datum
  | [] => []
  | i :: rest => i.datum :: initializerData rest

def AggregateInitializer.datum : AggregateInitializer Initializer → Datum
  | ⟨openBrace, ⟨elements, separators, listSpan⟩, closeBrace, span⟩ => .record [
      ("open", openBrace.datum),
      ("elements", commaDatum (initializerData elements) separators listSpan),
      ("close", Location.optionDatum closeBrace), ("span", span.datum)]

def optionExpressionDatum : Option Expression → Datum
  | some e => e.datum
  | none => .null

def Expression.datum : Expression → Datum
  | .literal value span =>
    .tagged "Literal" (.record [("value", value.datum), ("span", span.datum)])
  | .simpleName n arguments span => .tagged "SimpleName" (.record [("name", n.datum),
      ("type_arguments", optionTypeArgumentsDatum arguments), ("span", span.datum)])
  | .qualified q dot n arguments span => .tagged "Qualified" (.record [
      ("qualifier", optionExpressionDatum q), ("dot", dot.datum), ("name", n.datum),
      ("type_arguments", optionTypeArgumentsDatum arguments), ("span", span.datum)])
  | .dictionaryLookup q bang n span => .tagged "DictionaryLookup" (.record [
      ("qualifier", optionExpressionDatum q), ("bang", bang.datum), ("name", n.datum),
      ("span", span.datum)])
  | .callOrIndex target arguments span => .tagged "CallOrIndex" (.record [
      ("target", target.datum), ("arguments", arguments.datum), ("span", span.datum)])
  | .currentInstance k span =>
    .tagged "Instance" (.record [("tree_type", k.kind.datum), ("span", span.datum)])
  | .globalNamespace span => .tagged "Global" span.datum
  | .nothing span => .tagged "Nothing" span.datum
  | .parenthesized e closeParen span => .tagged "Parenthesized" (.record [("operand", e.datum),
      ("close", Location.optionDatum closeParen), ("span", span.datum)])
  | .unary op e span => .tagged "Unary" (.record [("op", op.datum), ("operand", e.datum),
      ("span", span.datum)])
  | .binary left op opSpan right span => .tagged "Binary" (.record [("left", left.datum),
      ("op", op.datum), ("op_span", opSpan.datum), ("right", right.datum), ("span", span.datum)])
  | .typeOf e isKeyword type span => .tagged "TypeOf" (.record [("operand", e.datum),
      ("is_location", Location.optionDatum isKeyword), ("type_name", type.datum),
      ("span", span.datum)])
  | .getType type closeParen span => .tagged "GetType" (.record [("type_name", type.datum),
      ("close", Location.optionDatum closeParen), ("span", span.datum)])
  | .cast k e comma type closeParen span => .tagged "Cast" (.record [("tree_type", k.kind.datum),
      ("operand", e.datum), ("comma", Location.optionDatum comma), ("type_name", type.datum),
      ("close", Location.optionDatum closeParen), ("span", span.datum)])
  | .intrinsicCast target e closeParen span => .tagged "IntrinsicCast" (.record [
      ("intrinsic", target.datum), ("operand", e.datum),
      ("close", Location.optionDatum closeParen), ("span", span.datum)])
  | .newObject type arguments span => .tagged "New" (.record [("type_name", type.datum),
      ("arguments", optionArgumentsDatum arguments), ("span", span.datum)])
  | .newArray type elements span => .tagged "NewAggregate" (.record [("array_type", type.datum),
      ("initializer", elements.datum), ("span", span.datum)])
  | .addressOf e span =>
    .tagged "AddressOf" (.record [("operand", e.datum), ("span", span.datum)])
  | .bad span => .tagged "Bad" span.datum

end

end VisualBasic
