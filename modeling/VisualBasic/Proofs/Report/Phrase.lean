import VisualBasic.Parse.Signature
import VisualBasic.Proofs.Report.Rule

/-!
Names, types, expressions and what they are parts of.  None of these phrases begins a construct, however
deep it is nested, so a phrase as a whole gets one diagnostic at most.
-/

set_option autoImplicit false

namespace VisualBasic

/-- The rules for nested phrases stay within the construct. -/
structure Rules.Quiet (r : Rules) : Prop where
  expression : ∀ pending, VisualBasic.Quiet (r.expression pending)
  operand : VisualBasic.Quiet r.operand
  typeName : VisualBasic.Quiet r.typeName
  elements : VisualBasic.Quiet r.elements

theorem Rules.Quiet.value {r : Rules} (phrases : r.Quiet) : VisualBasic.Quiet r.value :=
  phrases.expression _

namespace Quiet

open Parse

variable {α : Type} {r : Rules}

-- Names

theorem missingName : Quiet missingName :=
  .bind (.reportUnexpected rfl) fun _ => .bind .placeholder fun _ => .pure

theorem identifier : Quiet identifier := by
  refine .bind .peek fun token => ?_
  split
  · exact .bind .skip fun _ => .pure
  · exact .bind (.report rfl) fun _ => .bind .skip fun _ => .pure
  · exact .missingName

theorem memberName : Quiet memberName := by
  refine .bind .peek fun token => ?_
  split
  · exact .bind .skip fun _ => .pure
  · exact .missingName

theorem nameParts (n : Nat) (name : Name) : Quiet (nameParts n name) := by
  induction n generalizing name with
  | zero => exact .pure
  | succ n ih =>
    refine .bind (.eatPlace _) fun dot => ?_
    split
    · exact .pure
    · refine .bind .memberName fun part => ?_
      extract_lets name
      split
      · exact .pure
      · exact ih name

theorem name : Quiet name := by
  refine .bind .peek fun token => ?_
  split
  · exact .bind .skip fun _ => .get (fun _ _ => rfl) fun _ => .nameParts _ _
  · refine .bind .skip fun _ => .bind (.check _) fun dotted => ?_
    extract_lets rest
    have parts : Quiet (rest ()) := .get (fun _ _ => rfl) fun _ => .nameParts _ _
    split
    · exact parts
    · exact .bind (.reportUnexpected rfl) fun _ => parts
  · exact .bind .missingName fun _ => .pure

theorem stringLiteral : Quiet stringLiteral := by
  refine .bind .peek fun token => ?_
  split
  · exact .bind .skip fun _ => .pure
  · exact .bind (.reportUnexpected rfl) fun _ => .pure

theorem label : Quiet label := by
  refine .bind .peek fun token => ?_
  split
  · exact .bind .skip fun _ => .pure
  · exact .bind .skip fun _ => .pure
  · exact .bind (.reportUnexpected rfl) fun _ => .bind .placeholder fun _ => .pure

-- Arguments

theorem argument (phrases : r.Quiet) (named : Bool) : Quiet (argument r named) := by
  refine .get (fun _ _ => rfl) fun s => ?_
  extract_lets token leftOut given
  have leaves : Quiet (leftOut ()) := .bind .placeholder fun _ => .pure
  have gives : Quiet (given ()) := .bind phrases.value fun _ => .pure
  split
  · split
    · exact .bind (.reportUnexpected rfl) fun _ => leaves
    · exact leaves
  · split
    · exact .bind .skip fun _ => .bind .read fun _ => .bind phrases.value fun _ =>
        .bind (.spanFrom _) fun _ => .pure
    · split
      · exact .bind (.report rfl) fun _ => gives
      · exact gives

theorem separatedArguments (phrases : r.Quiet) : Quiet (separatedArguments r) := by
  refine .get (fun _ _ => rfl) fun s => .separatedFrom (fun named => ?_) _ _
  exact .bind (.argument phrases named) fun _ => .pure

theorem argumentList (phrases : r.Quiet) : Quiet (argumentList r) := by
  refine .bind .read fun token => .bind (.check _) fun empty => ?_
  extract_lets rest
  have closed (arguments : CommaList (Argument Expression)) : Quiet (rest arguments) := by
    refine .bind .closeParenthesis fun closeParen => ?_
    split
    · exact .bind .pure fun _ => .bind (.spanFrom _) fun _ => .pure
    · exact .bind (.resync _) fun _ => .bind (.eatPlace _) fun _ => .bind (.spanFrom _) fun _ => .pure
  split
  · exact .bind .pure fun _ => closed _
  · exact .bind (.separatedArguments phrases) fun _ => .bind .pure fun _ => closed _

theorem bareArguments (phrases : r.Quiet) : Quiet (bareArguments r) := by
  refine .bind .here fun start => .bind .atStatementEnd fun ends => ?_
  split
  · exact .pure
  · exact .bind (.separatedArguments phrases) fun _ => .bind (.spanFrom _) fun _ => .pure

theorem bareArgumentsFrom (phrases : r.Quiet) (first : Argument Expression) :
    Quiet (bareArgumentsFrom r first) := by
  refine .bind (.eatPlace _) fun comma => ?_
  extract_lets rest
  have list (arguments : Separated (Argument Expression)) : Quiet (rest arguments) :=
    .bind (.spanFrom _) fun _ => .pure
  split
  · exact .bind .pure fun _ => list _
  · exact .bind (.separatedArguments phrases) fun _ => .bind .pure fun _ => list _

-- Types

theorem badType {problem : Problem} (quiet : problem.isOrder = false) : Quiet (badType problem) :=
  .bind (.reportUnexpected quiet) fun _ => .bind .placeholder fun _ => .pure

theorem genericList {item : Parse α} (span : α → Span) (items : Quiet item) :
    Quiet (genericList span item) :=
  .bind .read fun _ => .bind .read fun _ => .bind (.separated items) fun _ =>
    .bind (.spanFrom _) fun _ => .bind .closeParenthesis fun _ => .pure

theorem typeArguments (phrases : r.Quiet) : Quiet (typeArguments r) :=
  .bind (.genericList _ phrases.typeName) fun _ => .bind (.spanFrom _) fun _ => .pure

theorem elementType (phrases : r.Quiet) : Quiet (elementType r) := by
  refine .bind .peek fun token => ?_
  split
  · exact .bind .skip fun _ => .pure
  · split
    · refine .bind .name fun name => .get (fun _ _ => rfl) fun s => ?_
      split
      · exact .bind (.typeArguments phrases) fun _ => .bind (.spanFrom _) fun _ => .pure
      · exact .pure
    · exact .badType rfl

theorem arrayBound (phrases : r.Quiet) : Quiet (arrayBound r) := by
  refine .bind phrases.value fun first => .bind (.eatPlace _) fun toKeyword => ?_
  split
  · exact .bind phrases.value fun _ => .bind (.spanFrom _) fun _ => .pure
  · exact .pure

theorem dimension (phrases : r.Quiet) : Quiet (dimension r) :=
  .get (fun _ _ => rfl) fun _ => .optionally (.arrayBound phrases)

theorem arrayBounds (phrases : r.Quiet) (allowBounds : Bool) : Quiet (arrayBounds r allowBounds) := by
  refine .bind .read fun token => .bind (.separated (.dimension phrases)) fun dimensions => ?_
  extract_lets rank bounds rest
  have closed (list : CommaList (ArrayBound Expression)) : Quiet (rest list) :=
    .bind .closeParenthesis fun _ => .bind (.spanFrom _) fun _ => .pure
  split
  · extract_lets span taken checked
    have takes : Quiet (taken ()) := .bind .pure fun _ => closed _
    have checks : Quiet (checked ()) := by
      unfold checked
      split
      · exact takes
      · exact .bind (.report rfl) fun _ => takes
    split
    · exact .bind .placeholder fun _ => .bind (.report rfl) fun _ => checks
    · exact checks
  · exact .bind .pure fun _ => closed _

theorem arraySuffixes (phrases : r.Quiet) (n : Nat) (element : TypeName) :
    Quiet (arraySuffixes r n element) := by
  induction n generalizing element with
  | zero => exact .pure
  | succ n ih =>
    refine .get (fun _ _ => rfl) fun s => ?_
    split
    · exact .bind (.arrayBounds phrases _) fun _ => .bind (.spanFrom _) fun _ => ih _
    · exact .pure

theorem typeName (phrases : r.Quiet) : Quiet (typeName r) := by
  refine .bind (.elementType phrases) fun element => ?_
  split
  · exact .pure
  · exact .get (fun _ _ => rfl) fun _ => .arraySuffixes phrases _ _

theorem constraint (phrases : r.Quiet) : Quiet (constraint r) := by
  refine .bind .peek fun token => ?_
  split
  · exact .bind .skip fun _ => .pure
  · exact .bind .skip fun _ => .pure
  · exact .bind .skip fun _ => .pure
  · exact .bind (.elementType phrases) fun _ => .pure
  · exact .bind (.elementType phrases) fun _ => .pure
  · split
    · exact .bind (.elementType phrases) fun _ => .pure
    · exact .bind (.badType rfl) fun _ => .pure

theorem constraints (phrases : r.Quiet) (asKeyword : Location) :
    Quiet (constraints r asKeyword) := by
  refine .bind (.eatPlace _) fun openBrace => ?_
  split
  · exact .bind (.constraint phrases) fun _ => .bind (.spanFrom _) fun _ => .pure
  · exact .bind (.separated (.constraint phrases)) fun _ => .bind (.spanFrom _) fun _ =>
      .bind (.expectPlace _ rfl) fun _ => .bind (.spanFrom _) fun _ => .pure

theorem typeParameter (phrases : r.Quiet) : Quiet (typeParameter r) := by
  refine .bind .identifier fun name => .bind (.eatPlace _) fun asKeyword => ?_
  extract_lets rest
  have ended (found : Option ConstraintList) : Quiet (rest found) :=
    .bind (.spanFrom _) fun _ => .pure
  split
  · exact .mapBind (.constraints phrases _) fun _ => ended _
  · exact .bind .pure fun _ => ended _

theorem typeParameters (phrases : r.Quiet) : Quiet (typeParameters r) := by
  refine .get (fun _ _ => rfl) fun s => ?_
  split
  · exact .bind (.genericList _ (.typeParameter phrases)) fun _ => .bind (.spanFrom _) fun _ => .pure
  · exact .pure

-- Expressions

theorem nameExpression (phrases : r.Quiet) (token : Token) : Quiet (nameExpression r token) :=
  .get (fun _ _ => rfl) fun _ => .bind (.optionally (.typeArguments phrases)) fun _ =>
    .bind (.spanFrom _) fun _ => .pure

theorem memberAccess (phrases : r.Quiet) (qualifier : Option Expression) (dot : Location) :
    Quiet (memberAccess r qualifier dot) :=
  .bind .memberName fun _ => .get (fun _ _ => rfl) fun _ =>
    .bind (.optionally (.typeArguments phrases)) fun _ => .bind (.spanFrom _) fun _ => .pure

theorem dictionaryLookup (qualifier : Option Expression) (bang : Location) :
    Quiet (dictionaryLookup qualifier bang) :=
  .bind .memberName fun _ => .bind (.spanFrom _) fun _ => .pure

theorem parenthesized (phrases : r.Quiet) : Quiet (parenthesized r) :=
  .bind .read fun _ => .bind phrases.value fun _ => .bind .closeParenthesis fun _ =>
    .bind (.spanFrom _) fun _ => .pure

theorem openParenthesis : Quiet openParenthesis := .bind (.expect _ rfl) fun _ => .pure

theorem typeTest (phrases : r.Quiet) : Quiet (typeTest r) := by
  refine .bind .read fun token => .bind (phrases.expression _) fun operand =>
    .bind (.expectPlace _ rfl) fun isKeyword => ?_
  extract_lets rest
  have ended (type : TypeName) : Quiet (rest type) := .bind (.spanFrom _) fun _ => .pure
  split
  · exact .bind phrases.typeName fun _ => ended _
  · exact .bind .placeholder fun _ => .bind .pure fun _ => ended _

theorem typeObject (phrases : r.Quiet) : Quiet (typeObject r) :=
  .bind .read fun _ => .bind .openParenthesis fun _ => .bind phrases.typeName fun _ =>
    .bind .closeParenthesis fun _ => .bind (.spanFrom _) fun _ => .pure

theorem cast (phrases : r.Quiet) (kind : CastKind) : Quiet (cast r kind) :=
  .bind .read fun _ => .bind .openParenthesis fun _ => .bind phrases.value fun _ =>
    .bind (.expectPlace _ rfl) fun _ => .bind phrases.typeName fun _ =>
      .bind .closeParenthesis fun _ => .bind (.spanFrom _) fun _ => .pure

theorem intrinsicCast (phrases : r.Quiet) (target : IntrinsicType) :
    Quiet (intrinsicCast r target) :=
  .bind .read fun _ => .bind .openParenthesis fun _ => .bind phrases.value fun _ =>
    .bind .closeParenthesis fun _ => .bind (.spanFrom _) fun _ => .pure

theorem initializer (phrases : r.Quiet) : Quiet (initializer r) := by
  refine .bind (.check _) fun braced => ?_
  split
  · exact .bind phrases.elements fun _ => .pure
  · exact .bind phrases.value fun _ => .pure

theorem missingElements : Quiet missingElements :=
  .bind (.reportUnexpected rfl) fun _ => .bind .placeholder fun _ => .pure

theorem elements (phrases : r.Quiet) : Quiet (elements r) := by
  refine .bind (.eatPlace _) fun openBrace => ?_
  split
  · exact .missingElements
  · refine .bind (.check _) fun empty => ?_
    extract_lets rest
    have closed (list : CommaList Initializer) : Quiet (rest list) :=
      .bind (.expectPlace _ rfl) fun _ => .bind (.spanFrom _) fun _ => .pure
    split
    · exact .bind .here fun _ => .bind .pure fun _ => closed _
    · exact .bind (.commaList _ (.initializer phrases)) fun _ => closed _

theorem creation (phrases : r.Quiet) : Quiet (creation r) := by
  refine .bind .read fun token => .bind (.elementType phrases) fun type =>
    .get (fun _ _ => rfl) fun s => ?_
  split
  · exact .bind (.arrayBounds phrases _) fun _ => .bind (.spanFrom _) fun _ =>
      .get (fun _ _ => rfl) fun _ => .bind (.arraySuffixes phrases _ _) fun _ =>
        .bind (.elements phrases) fun _ => .bind (.spanFrom _) fun _ => .pure
  · exact .bind (.check _) fun _ => .bind (.optionally (.argumentList phrases)) fun _ =>
      .bind (.spanFrom _) fun _ => .pure

theorem badExpression : Quiet badExpression :=
  .bind (.reportUnexpected rfl) fun _ => .bind .placeholder fun _ => .pure

theorem keywordExpression (phrases : r.Quiet) (token : Token) (keyword : Keyword) :
    Quiet (keywordExpression r token keyword) := by
  unfold Parse.keywordExpression
  split
  · refine .bind .skip fun _ => .bind (.check _) fun dotted => ?_
    split
    · exact .pure
    · exact .bind (.reportUnexpected rfl) fun _ => .pure
  · exact .bind .skip fun _ => .pure
  · exact .typeTest phrases
  · exact .typeObject phrases
  · exact .cast phrases _
  · exact .cast phrases _
  · exact .cast phrases _
  · exact .creation phrases
  · exact .bind .skip fun _ => .bind phrases.operand fun _ => .bind (.spanFrom _) fun _ => .pure
  · split
    · exact .bind .skip fun _ => .pure
    · exact .intrinsicCast phrases _
    · refine .bind .kindAfter fun after => ?_
      split
      · exact .bind .skip fun _ => .nameExpression phrases _
      · exact .badExpression

theorem primary (phrases : r.Quiet) : Quiet (primary r) := by
  refine .bind .peek fun token => ?_
  split
  · exact .bind .skip fun _ => .pure
  · split
    · exact .bind .skip fun _ => .nameExpression phrases _
    · exact .keywordExpression phrases _ _
    · exact .parenthesized phrases
    · exact .bind .skip fun _ => .memberAccess phrases _ _
    · exact .bind .skip fun _ => .dictionaryLookup _ _
    · exact .bind (.reportUnexpected rfl) fun _ => .bind .skip fun _ => .pure
    · exact .badExpression

theorem postfixes (phrases : r.Quiet) (n : Nat) (target : Expression) :
    Quiet (postfixes r n target) := by
  induction n generalizing target with
  | zero => exact .pure
  | succ n ih =>
    refine .bind .peek fun token => ?_
    split
    · refine .bind .skip fun _ => .bind (.memberAccess phrases _ _) fun member => ?_
      split
      · exact .pure
      · exact ih _
    · refine .bind .skip fun _ => .bind (.dictionaryLookup _ _) fun key => ?_
      split
      · exact .pure
      · exact ih _
    · exact .bind (.argumentList phrases) fun _ => .bind (.spanFrom _) fun _ => ih _
    · exact .pure

theorem operand (phrases : r.Quiet) : Quiet (operand r) := by
  refine .bind (.primary phrases) fun target => ?_
  split
  · exact .pure
  · exact .get (fun _ _ => rfl) fun _ => .postfixes phrases _ _

theorem unary (phrases : r.Quiet) : Quiet (unary r) := by
  refine .bind .peek fun token => ?_
  split
  · exact .operand phrases
  · exact .bind .skip fun _ => .bind (phrases.expression _) fun _ => .bind (.spanFrom _) fun _ => .pure

theorem binaries (phrases : r.Quiet) (pending : Precedence) (n : Nat) (left : Expression) :
    Quiet (binaries r pending n left) := by
  induction n generalizing left with
  | zero => exact .pure
  | succ n ih =>
    refine .bind .peek fun token => ?_
    split
    · exact .pure
    · split
      · exact .pure
      · exact .bind .skip fun _ => .bind (phrases.expression _) fun _ => .bind (.spanFrom _) fun _ =>
          ih _

theorem expression (phrases : r.Quiet) (pending : Precedence) : Quiet (expression r pending) :=
  .bind (.unary phrases) fun _ => .get (fun _ _ => rfl) fun _ => .binaries phrases _ _ _

end Quiet

/-- Phrases stay within the construct, however deep they are nested. -/
theorem Rules.quiet_ofDepth (version : Version) (n : Nat) : (Rules.ofDepth version n).Quiet := by
  induction n with
  | zero => exact ⟨fun _ => .badExpression, .badExpression, .badType rfl, .missingElements⟩
  | succ n ih => exact ⟨.expression ih, .operand ih, .typeName ih, .elements ih⟩

end VisualBasic
