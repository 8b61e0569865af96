import VisualBasic.Export.Datum
import VisualBasic.Export.KindTitle
import VisualBasic.Export.ProblemTitle

/-!
Tokens and diagnostics as data.
-/

set_option autoImplicit false

namespace VisualBasic

def Problem.datum (p : Problem) : Datum := .text p.title

def Diagnostic.datum (d : Diagnostic) : Datum :=
  .record [("kind", d.problem.datum), ("span", d.span.datum)]

def TokenKind.datum (k : TokenKind) : Datum := .text k.title

def TypeCharacter.optionDatum (c : Option TypeCharacter) : Datum :=
  .text ((c.map title).getD "None")

/-- The bit pattern in sixteen hexadecimal digits. -/
def Binary64.datum (b : Binary64) : Datum :=
  let digits := Nat.toDigits 16 b.bits
  .text (String.ofList (List.replicate (16 - digits.length) '0' ++ digits))

def DecimalValue.datum (d : DecimalValue) : Datum :=
  .record [("mantissa", .ofInteger d.mantissa), ("scale", .ofNat d.scale),
    ("text", .text d.render)]

def IntegerBase.datum (b : IntegerBase) : Datum := .text b.title

def Literal.datum : Literal → Datum
  | .integer (.signed n) base suffix => .list
      [.text "Integer", .ofInteger n, base.datum, TypeCharacter.optionDatum suffix]
  | .integer (.unsigned n) base suffix => .list
      [.text "UnsignedInteger", .ofInteger n, base.datum, TypeCharacter.optionDatum suffix]
  | .floatingPoint b suffix => .list
      [.text "FloatingPoint", b.datum, TypeCharacter.optionDatum suffix]
  | .decimal d suffix => .list [.text "Decimal", d.datum, TypeCharacter.optionDatum suffix]
  | .character c => .tagged "Character" (.text (String.singleton c))
  | .string text => .tagged "String" (.text text)
  | .date d => .tagged "Date" (.text d.render)

namespace Token

def nameDatum (t : Token) (name : Identifier) : Datum :=
  .tagged "Identifier" (.record [("text", .text name.text),
    ("type_char", TypeCharacter.optionDatum name.typeCharacter), ("escaped", .flag name.escaped),
    ("unreserved", t.contextualKind.datum)])

def valueDatum (t : Token) : Datum :=
  match t.lexeme with
  | .fault f => .tagged "Error" (Problem.datum (.lexical f))
  | .endOfStream | .lineTerminator | .punctuator _ => .null
  | .comment text isRem => .list [.text "Comment", .text text, .flag isRem]
  | .identifier _ | .keyword _ _ => .ofOption t.nameDatum t.name?
  | .literal l => l.datum

def datum (t : Token) : Datum := .list [t.kind.datum, t.span.datum, t.valueDatum]

end Token

end VisualBasic
