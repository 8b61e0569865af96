import VisualBasic.Parse.Signature
import VisualBasic.Proofs.Report.Phrase

/-!
Declared variables and the parts of a member's first line stay within the construct too.
-/

set_option autoImplicit false

namespace VisualBasic.Quiet

open Parse

variable {r : Rules}

-- Variables

theorem modifiersAfter (n : Nat) (found : List (Placed Modifier)) : Quiet (modifiersAfter n found) := by
  induction n generalizing found with
  | zero => exact .pure
  | succ n ih =>
    refine .bind .peek fun token => ?_
    split
    · exact .pure
    · refine .bind .skip fun _ => ?_
      split
      · exact .bind (.report rfl) fun _ => ih _
      · exact ih _

theorem modifiers : Quiet modifiers :=
  .bind .here fun _ => .get (fun _ _ => rfl) fun _ => .bind (.modifiersAfter _ _) fun _ => .pure

theorem checkModifiers (list : ModifierList) (allowed : List Modifier) :
    Quiet (checkModifiers list allowed) := by
  unfold Parse.checkModifiers
  split
  · exact .report rfl
  · exact .pure

theorem variableName (phrases : r.Quiet) (allowBounds : Bool) : Quiet (variableName r allowBounds) :=
  .bind .identifier fun _ => .bind (.check _) fun _ =>
    .bind (.optionally (.arrayBounds phrases _)) fun _ => .bind (.spanFrom _) fun _ => .pure

theorem constructorArguments (phrases : r.Quiet) (type : TypeName) :
    Quiet (constructorArguments r type) :=
  .bind (.check _) fun _ => .optionally (.argumentList phrases)

theorem asClause (phrases : r.Quiet) (allowNew : Bool) : Quiet (asClause r allowNew) := by
  refine .bind (.eatPlace _) fun asKeyword => ?_
  split
  · exact .pure
  · extract_lets rest
    have type (newKeyword : Option Location) : Quiet (rest newKeyword) := by
      unfold rest
      split
      · exact .bind (.elementType phrases) fun _ => .bind (.constructorArguments phrases _) fun _ =>
          .bind (.spanFrom _) fun _ => .pure
      · exact .bind phrases.typeName fun _ => .bind (.spanFrom _) fun _ => .pure
    split
    · exact .bind (.eatPlace _) fun _ => type _
    · exact .bind .pure fun _ => type _

theorem variableNames (phrases : r.Quiet) (allowBounds : Bool) :
    Quiet (variableNames r allowBounds) := by
  refine .get (fun _ _ => rfl) fun s => .bind (.separatedFrom (fun _ => ?_) _ _) fun _ => .pure
  exact .bind (.variableName phrases _) fun _ => .pure

theorem variableDeclarator (phrases : r.Quiet) (allowBounds : Bool) :
    Quiet (variableDeclarator r allowBounds) :=
  .bind .here fun _ => .bind (.variableNames phrases _) fun _ => .bind (.asClause phrases _) fun _ =>
    .bind (.eatPlace _) fun _ => .bind (.optionally (.initializer phrases)) fun _ =>
      .bind (.spanFrom _) fun _ => .pure

theorem variableDeclarators (phrases : r.Quiet) (allowBounds : Bool) :
    Quiet (variableDeclarators r allowBounds) :=
  .commaList _ (.variableDeclarator phrases _)

theorem loopDeclarator (phrases : r.Quiet) : Quiet (loopDeclarator r) :=
  .bind (.variableName phrases _) fun _ => .bind (.asClause phrases _) fun _ =>
    .bind (.spanFrom _) fun _ => .pure

-- Attributes and parameters

theorem appliedAttribute (phrases : r.Quiet) : Quiet (appliedAttribute r) := by
  refine .bind .here fun start => .get (fun _ _ => rfl) fun s => ?_
  extract_lets target rest
  have named : Quiet (rest ()) := .bind .name fun _ => .bind (.check _) fun _ =>
    .bind (.optionally (.argumentList phrases)) fun _ => .bind (.spanFrom _) fun _ => .pure
  split
  · exact .bind .skip fun _ => .bind .skip fun _ => named
  · exact named

theorem attributeBlock (phrases : r.Quiet) : Quiet (attributeBlock r) := by
  refine .bind .read fun token => .bind (.commaList _ (.appliedAttribute phrases)) fun attributes =>
    .bind (.expectPlace _ rfl) fun closeAngle => ?_
  extract_lets rest
  have ended : Quiet (rest ()) := .bind (.spanFrom _) fun _ => .pure
  split
  · exact .bind (.resync _) fun _ => .bind (.eat _) fun _ => ended
  · exact ended

theorem attributeBlocksWithin (phrases : r.Quiet) (n : Nat) : Quiet (attributeBlocksWithin r n) := by
  induction n with
  | zero => exact .pure
  | succ n ih =>
    refine .bind (.check _) fun more => ?_
    split
    · exact .bind (.attributeBlock phrases) fun _ => .bind ih fun _ => .pure
    · exact .pure

theorem attributeBlocks (phrases : r.Quiet) : Quiet (attributeBlocks r) :=
  .get (fun _ _ => rfl) fun _ => .attributeBlocksWithin phrases _

theorem parameterModifiersAfter (n : Nat) (found : List (Placed ParameterModifier)) :
    Quiet (parameterModifiersAfter n found) := by
  induction n generalizing found with
  | zero => exact .pure
  | succ n ih =>
    refine .bind .peek fun token => ?_
    split
    · exact .pure
    · refine .bind .skip fun _ => ?_
      extract_lets has rest
      have further : Quiet (rest ()) := ih _
      split
      · exact .bind (.report rfl) fun _ => further
      · split
        · exact .bind (.report rfl) fun _ => further
        · exact further

theorem parameter (phrases : r.Quiet) : Quiet (parameter r) := by
  refine .bind .here fun start => .bind (.attributeBlocks phrases) fun attributes =>
    .get (fun _ _ => rfl) fun s => .bind (.parameterModifiersAfter _ _) fun modifiers =>
      .bind (.variableName phrases _) fun name => .bind (.whenEaten phrases.typeName) fun type =>
        .bind (.whenEaten phrases.value) fun value => ?_
  extract_lets rest
  have ended : Quiet (rest ()) := .bind (.spanFrom _) fun _ => .pure
  split
  · exact .bind (.reportUnexpected rfl) fun _ => ended
  · exact ended

theorem checkParameters (parameters : List Parameter) : Quiet (checkParameters parameters) := by
  unfold Parse.checkParameters
  split
  · exact .report rfl
  · exact .pure

theorem parameterList (phrases : r.Quiet) : Quiet (parameterList r) := by
  refine .bind (.eatPlace _) fun openParen => ?_
  split
  · exact .pure
  · refine .bind (.check _) fun empty => ?_
    extract_lets rest
    have closed (parameters : CommaList Parameter) : Quiet (rest parameters) := by
      unfold rest
      refine .bind (.checkParameters _) fun _ => .bind .closeParenthesis fun closeParen => ?_
      extract_lets rest
      have ended : Quiet (rest ()) := .bind (.spanFrom _) fun _ => .pure
      split
      · exact .bind (.resync _) fun _ => .bind (.eat _) fun _ => ended
      · exact ended
    split
    · exact .bind .here fun _ => .bind .pure fun _ => closed _
    · exact .bind (.commaList _ (.parameter phrases)) fun _ => closed _

theorem returnType (phrases : r.Quiet) : Quiet (returnType r) := by
  refine .bind (.eatPlace _) fun asKeyword => ?_
  split
  · exact .pure
  · exact .bind (.attributeBlocks phrases) fun _ => .bind phrases.typeName fun _ =>
      .bind (.spanFrom _) fun _ => .pure

theorem handlesItem : Quiet (handlesItem r) := by
  refine .bind .peek fun token => ?_
  extract_lets rest
  have event (source : Name) : Quiet (rest source) := by
    refine .bind (.expectPlace _ rfl) fun dot => ?_
    extract_lets named
    have ended (name : SimpleName) : Quiet (named name) := .bind (.spanFrom _) fun _ => .pure
    split
    · exact .bind .memberName fun _ => ended _
    · exact .bind .placeholder fun _ => .bind .pure fun _ => ended _
  split
  · extract_lets special
    have passes : Quiet (special ()) := .bind .skip fun _ => .bind .pure fun _ => event _
    split
    · exact .bind (.report rfl) fun _ => passes
    · exact passes
  · exact .bind .identifier fun _ => .bind .pure fun _ => event _

theorem handlesClause : Quiet (handlesClause r) := by
  refine .bind (.eatPlace _) fun keyword => ?_
  split
  · exact .pure
  · exact .bind (.commaList _ .handlesItem) fun _ => .bind (.spanFrom _) fun _ => .pure

theorem implementsClause : Quiet implementsClause := by
  refine .bind (.eatPlace _) fun keyword => ?_
  split
  · exact .pure
  · exact .bind (.commaList _ .name) fun _ => .bind (.spanFrom _) fun _ => .pure

end VisualBasic.Quiet
