import VisualBasic.Export.Statement
import VisualBasic.Parse.Source

/-!
Diagnostics, directives and the classes of tokens as data.
-/

set_option autoImplicit false

namespace VisualBasic

def Region.datum (r : Region) : Datum :=
  .record [("description", .text r.description), ("span", r.span.datum)]

def LineMapping.datum (m : LineMapping) : Datum :=
  .record [("file", .text m.file), ("line", .ofInteger m.line), ("span", m.span.datum)]

def Checksum.datum (c : Checksum) : Datum :=
  .record [("file", .text c.file), ("guid", .text c.guid), ("checksum", .text c.checksum),
    ("span", c.span.datum)]

def DirectiveTables.datum (t : DirectiveTables) : Datum :=
  .record [("conditional_constants", .ofList .text t.constants),
    ("regions", .ofList Region.datum t.regions),
    ("line_mappings", .ofList LineMapping.datum t.lineMappings),
    ("checksums", .ofList Checksum.datum t.checksums)]

/-- Some diagnostic has the problem. -/
def Diagnostic.anyHas (ds : List Diagnostic) (p : Problem) : Bool := ds.any fun d => d.problem == p

/-- A list of diagnostics with the ways to show it. -/
def Diagnostic.listDatum (source : String) (ds : List Diagnostic) : Datum :=
  .record [("text", .text (renderAll ds)), ("kinds", .ofList (fun d => d.problem.datum) ds),
    ("len", .ofNat ds.length), ("empty", .flag ds.isEmpty),
    ("lexical", .ofList (fun d => .flag d.problem.isLexical) ds),
    ("first_of_kind", .ofOption (fun d => .flag (anyHas ds d.problem)) ds.head?),
    ("shown", .ofList (fun d => .text (d.renderIn source)) ds)]

namespace Token

/-- What a token is by itself. -/
def facts (t : Token) : Datum :=
  let suffix (test : TypeCharacter → Bool) : Datum := .flag (t.typeCharacter.any test)
  .record [("unreserved", t.contextualKind.datum),
    ("type_character", TypeCharacter.optionDatum t.typeCharacter),
    ("text", .ofOption (fun name => .text name.text) t.name?),
    ("end_of_statement", .flag t.kind.endsStatement), ("end_of_line", .flag t.kind.endsLine),
    ("error", .ofOption (fun f => Problem.datum (.lexical f)) t.fault?),
    ("spelling", .text t.kind.spelling), ("keyword", .flag t.kind.isKeyword),
    ("custom", .flag (t.isContextual .kwCustom)),
    ("char_integral", suffix TypeCharacter.isIntegral),
    ("char_unsigned", suffix TypeCharacter.isUnsigned),
    ("char_symbol", suffix TypeCharacter.isSymbol)]

def unaryFacts (op : UnaryOperator) : Datum :=
  .list [.text op.title, .text op.spelling, .text op.operandPrecedence.title]

def binaryFacts (op : BinaryOperator) : Datum :=
  .list [.text op.title, .text op.spelling, .text op.precedence.title, .flag op.isRelational]

def compoundFacts (op : CompoundOperator) : Datum :=
  .list [.text op.title, .text op.spelling, .text op.binary.title]

/-- What a token can stand for in the grammar. -/
def roles (t : Token) : Datum :=
  let kind := t.kind
  .record [("kind", kind.datum), ("spelling", .text kind.spelling),
    ("keyword", .flag kind.isKeyword),
    ("unary", .ofOption unaryFacts (UnaryOperator.ofKind? kind)),
    ("binary", .ofOption binaryFacts (BinaryOperator.ofKind? kind)),
    ("compound", .ofOption compoundFacts (CompoundOperator.ofKind? kind)),
    ("overloadable", .ofOption (fun op => .list [op.datum, .text op.spelling])
      (OverloadableOperator.ofToken? kind t.contextualKind)),
    ("intrinsic", .ofOption IntrinsicType.datum (IntrinsicType.ofKind? kind)),
    ("cast", .ofOption IntrinsicType.datum (IntrinsicType.ofCastKind? kind)),
    ("end", .ofOption BlockKind.datum (BlockKind.ofEndKind? kind)),
    ("exit", .ofOption BlockKind.datum (BlockKind.ofExitKind? kind)),
    ("continue", .ofOption BlockKind.datum (BlockKind.ofContinueKind? kind)),
    ("modifier", .ofOption (fun m => .ofNat m.flag) (Modifier.ofKind? kind)),
    ("parameter_modifier", .ofOption (fun m => .ofNat m.flag) (ParameterModifier.ofKind? kind))]

end Token

end VisualBasic
