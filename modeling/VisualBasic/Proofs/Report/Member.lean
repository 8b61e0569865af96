import VisualBasic.Parse.Declaration
import VisualBasic.Proofs.Report.Block

/-!
Declarations keep account of the order of the parts in their bodies.  Their heads report nothing about
it.
-/

set_option autoImplicit false

namespace VisualBasic

/-- A rule for a declaration that keeps account of the parts in it. -/
abbrev TalliesDeclaration (k : Problem) (p : Parse Declaration) : Prop :=
  ∀ m, Tallies k m p fun d => m + Node.disorder k (.declaration d)

/-- No problem with the place of a member is about the order of parts. -/
theorem Member.isOrder_placementProblem {member : Member} {container : Container} {problem : Problem}
    (misplaced : member.placementProblem? container = some problem) : problem.isOrder = false := by
  unfold placementProblem? at misplaced
  split at misplaced <;> first | cases misplaced | skip
  all_goals split at misplaced <;> cases misplaced <;> rfl

namespace Quiet

open Parse

variable {r : Rules}

theorem switchSetting : Quiet switchSetting := by
  refine .bind .peek fun token => .bind .atStatementEnd fun ends => ?_
  split
  · exact .pure
  · split
    · exact .bind .skip fun _ => .pure
    · split
      · exact .bind .skip fun _ => .pure
      · exact .bind (.reportUnexpected rfl) fun _ => .pure

theorem compareSetting : Quiet compareSetting := by
  refine .bind .peek fun token => ?_
  split
  · exact .bind .skip fun _ => .pure
  · split
    · exact .bind .skip fun _ => .pure
    · exact .bind (.reportUnexpected rfl) fun _ => .pure

theorem importsClause (phrases : r.Quiet) : Quiet (importsClause r) := by
  refine .bind .here fun start => .bind (.check _) fun named => .bind .kindAfter fun after => ?_
  split
  · exact .bind .identifier fun _ => .bind .read fun _ => .bind (.elementType phrases) fun _ =>
      .bind (.spanFrom _) fun _ => .pure
  · exact .bind (.elementType phrases) fun _ => .bind (.spanFrom _) fun _ => .pure

theorem operatorName : Quiet operatorName := by
  refine .bind .peek fun token => ?_
  split
  · exact .bind .skip fun _ => .pure
  · refine .bind (.reportUnexpected rfl) fun _ => .bind (.check _) fun opens =>
      .bind .atStatementEnd fun ends => ?_
    split
    · exact .bind .placeholder fun _ => .pure
    · exact .bind .skip fun _ => .pure

theorem charset : Quiet charset := by
  refine .bind .peek fun token => ?_
  extract_lets found rest
  split
  · exact .bind .skip fun _ => .pure
  · exact .pure

theorem rejectCustom : Quiet rejectCustom := by
  refine .get (fun _ _ => rfl) fun s => ?_
  split
  · exact .bind (.report rfl) fun _ => .skip
  · exact .pure

theorem reportHeading (container : Container) (span : Span) : Quiet (reportHeading container span) := by
  unfold Parse.reportHeading
  split
  next problem heading =>
    refine .report ?_
    cases container with
    | type kind => cases kind <;> cases heading <;> rfl
    | _ => cases heading <;> rfl
  next => exact .pure

end Quiet

namespace Tallies

open Parse

variable {k : Problem} {r : Rules} {b : Bodies} (order : k.isOrder = true)
include order

theorem badDeclaration (start : Location) {problem : Problem} (quiet : problem.isOrder = false) :
    TalliesDeclaration k (badDeclaration start problem) := by
  intro m
  exact .quietly order (.reportUnexpected quiet) fun _ => .quietly order (.resync _) fun _ =>
    .quietly order (.spanFrom _) fun _ => .leaf rfl rfl rfl rfl

theorem optionDeclaration : TalliesDeclaration k optionDeclaration := by
  intro m
  refine .quietly order .read fun start => .quietly order .peek fun token => ?_
  split
  · exact .quietly order (.reportUnexpected rfl) fun _ => .quietly order (.resync _) fun _ =>
      .quietly order (.spanFrom _) fun _ => .leaf rfl rfl rfl rfl
  · refine .quietly order .skip fun _ => ?_
    extract_lets rest
    have ended (setting : Option OptionSetting) : Tallies k m (rest setting) fun d =>
        m + Node.disorder k (.declaration d) :=
      .quietly order (.endStatement _) fun _ => .leaf rfl rfl rfl rfl
    split
    · exact .quietly order .compareSetting ended
    · exact .quietly order .switchSetting ended

section

variable (phrases : r.Quiet)
include phrases

theorem importsDeclaration : TalliesDeclaration k (importsDeclaration r) := by
  intro m
  exact .quietly order .read fun start => .quietly order (.commaList _ (.importsClause phrases)) fun _ =>
    .quietly order (.endStatement _) fun _ => .leaf rfl rfl rfl rfl

theorem typeList (kind : TypeListKind) (container : Container) :
    TalliesDeclaration k (typeList r kind container) := by
  intro m
  refine .quietly order .read fun keyword => ?_
  extract_lets span rest
  have listed : Tallies k m (rest ()) fun d => m + Node.disorder k (.declaration d) := by
    refine .quietly order (.commaList _ (.elementType phrases)) fun types => ?_
    extract_lets rest'
    have ended : Tallies k m (rest' ()) fun d => m + Node.disorder k (.declaration d) :=
      .quietly order (.endStatement _) fun _ => .leaf rfl rfl rfl rfl
    split
    · exact .quietly order (.report rfl) fun _ => ended
    · exact ended
  split
  · exact listed
  · refine .quietly order (.report ?_) fun _ => listed
    cases kind <;> rfl

theorem fieldDeclaration (start : Location) (head : DeclarationHead) :
    TalliesDeclaration k (fieldDeclaration r start head) := by
  intro m
  exact .quietly order (.variableDeclarators phrases _) fun _ => .quietly order (.endStatement _) fun _ =>
    .leaf rfl rfl rfl rfl

theorem enumValue (start : Location) (attributes : List AttributeBlock) :
    TalliesDeclaration k (enumValue r start attributes) := by
  intro m
  refine .quietly order .peek fun token => ?_
  split
  · exact .quietly order .identifier fun _ => .quietly order (.whenEaten phrases.value) fun _ =>
      .quietly order (.endStatement _) fun _ => .leaf rfl rfl rfl rfl
  · exact .quietly order (.report rfl) fun _ => .quietly order .skipStatement fun _ =>
      .quietly order (.spanFrom _) fun _ => .leaf rfl rfl rfl rfl

theorem eventDeclaration (start : Location) (head : DeclarationHead) :
    TalliesDeclaration k (eventDeclaration r start head) := by
  intro m
  refine .quietly order .skip fun _ => .quietly order .identifier fun name =>
    .quietly order (.parameterList phrases) fun parameters => ?_
  extract_lets rest
  have typed (type : Option TypeName) : Tallies k m (rest type) fun d =>
      m + Node.disorder k (.declaration d) :=
    .quietly order .implementsClause fun _ => .quietly order (.endStatement _) fun _ =>
      .leaf rfl rfl rfl rfl
  split
  · exact .quietly order (.whenEaten (.elementType phrases)) typed
  · exact .quietly order .pure typed

theorem delegateDeclaration (start : Location) (head : DeclarationHead) :
    TalliesDeclaration k (delegateDeclaration r start head) := by
  intro m
  refine .quietly order .skip fun _ => .quietly order .peekKind fun kind => ?_
  split
  · exact badDeclaration order _ rfl m
  · refine .quietly order .skip fun _ => .quietly order .identifier fun name =>
      .quietly order (.typeParameters phrases) fun typeParameters =>
      .quietly order (.parameterList phrases) fun parameters => ?_
    extract_lets rest
    have returned (result : Option ReturnType) : Tallies k m (rest result) fun d =>
        m + Node.disorder k (.declaration d) :=
      .quietly order (.endStatement _) fun _ => .leaf rfl rfl rfl rfl
    split
    · exact .quietly order (.returnType phrases) returned
    · exact .quietly order .pure returned

theorem externalDeclaration (start : Location) (head : DeclarationHead) :
    TalliesDeclaration k (externalDeclaration r start head) := by
  intro m
  refine .quietly order .skip fun _ => .quietly order .charset fun charset =>
    .quietly order .peekKind fun kind => ?_
  split
  · exact badDeclaration order _ rfl m
  · refine .quietly order .skip fun _ => .quietly order .identifier fun name =>
      .quietly order (.expect _ rfl) fun lib => ?_
    extract_lets afterLibrary
    have library (text : Option String) : Tallies k m (afterLibrary text) fun d =>
        m + Node.disorder k (.declaration d) := by
      refine .quietly order (.eat _) fun found => ?_
      extract_lets afterAlias
      have named (text : Option String) : Tallies k m (afterAlias text) fun d =>
          m + Node.disorder k (.declaration d) := by
        refine .quietly order (.parameterList phrases) fun parameters => ?_
        extract_lets rest
        have returned (result : Option ReturnType) : Tallies k m (rest result) fun d =>
            m + Node.disorder k (.declaration d) :=
          .quietly order (.endStatement _) fun _ => .leaf rfl rfl rfl rfl
        split
        · exact .quietly order (.returnType phrases) returned
        · exact .quietly order .pure fun _ => returned _
      split
      · exact .quietly order .stringLiteral named
      · exact .quietly order .pure fun _ => named _
    split
    · exact .quietly order .stringLiteral library
    · exact .quietly order .pure fun _ => library _

end

-- Blocks

variable (bodies : b.Tallies k)
include bodies

theorem declarationBody (kind : BlockKind) (header : Span) (container : Container) (m : Nat) :
    Tallies k m (declarationBody b kind header container) fun found =>
      m + Node.disorders k (Node.ofDeclarations found.1) :=
  within order _ (bodies.declarations container m)

theorem namespaceDeclaration (start : Location) :
    TalliesDeclaration k (namespaceDeclaration b start) := by
  intro m
  exact .quietly order .skip fun _ => .quietly order .name fun name =>
    .quietly order (.endStatement _) fun header =>
    .bind (declarationBody order bodies _ _ _ m) fun found => .after order (.takeEnd _ _) fun ending =>
    .quietly order (.spanFrom _) fun span => .holds rfl rfl rfl rfl

variable (phrases : r.Quiet)
include phrases

theorem typeDeclaration (start : Location) (head : DeclarationHead) (kind : TypeKind) :
    TalliesDeclaration k (typeDeclaration r b start head kind) := by
  intro m
  refine .quietly order .skip fun _ => .quietly order .identifier fun name => ?_
  extract_lets rest
  have generic (parameters : Option TypeParameterList) : Tallies k m (rest parameters) fun d =>
      m + Node.disorder k (.declaration d) :=
    .quietly order (.endStatement _) fun header =>
    .bind (declarationBody order bodies _ _ _ m) fun found => .after order (.takeEnd _ _) fun ending =>
    .quietly order (.spanFrom _) fun span => .holds rfl rfl rfl rfl
  split
  · exact .quietly order .pure fun _ => generic _
  · exact .quietly order (.typeParameters phrases) generic

theorem enumDeclaration (start : Location) (head : DeclarationHead) :
    TalliesDeclaration k (enumDeclaration r b start head) := by
  intro m
  exact .quietly order .skip fun _ => .quietly order .identifier fun name =>
    .quietly order (.whenEaten (.elementType phrases)) fun underlying =>
    .quietly order (.endStatement _) fun header =>
    .bind (declarationBody order bodies _ _ _ m) fun found => .after order (.takeEnd _ _) fun ending =>
    .quietly order (.spanFrom _) fun span => .holds rfl rfl rfl rfl

theorem methodDeclaration (start : Location) (head : DeclarationHead) (kind : MethodKind)
    (container : Container) : TalliesDeclaration k (methodDeclaration r b start head kind container) := by
  intro m
  unfold Parse.methodDeclaration
  extract_lets block afterName
  have named (name : SimpleName) : Tallies k m (afterName name) fun d =>
      m + Node.disorder k (.declaration d) := by
    unfold afterName
    extract_lets afterGenerics
    have generic (typeParameters : Option TypeParameterList) : Tallies k m (afterGenerics typeParameters)
        fun d => m + Node.disorder k (.declaration d) := by
      refine .quietly order (.parameterList phrases) fun parameters => ?_
      extract_lets afterResult
      have returned (result : Option ReturnType) : Tallies k m (afterResult result) fun d =>
          m + Node.disorder k (.declaration d) := by
        refine .quietly order .handlesClause fun handled =>
          .quietly order .implementsClause fun implemented => .quietly order (.endStatement _) fun header => ?_
        extract_lets rest
        have ended (found : Option Statements × Option EndBlock) :
            Tallies k (m + Node.disorders k (found.1.map Node.ofStatements).toList.flatten) (rest found)
              fun d => m + Node.disorder k (.declaration d) := by
          refine .quietly order (.spanFrom _) fun span => .pure ?_
          rw [Node.disorder_of_isDirect rfl]
          simp [Node.lists, Node.misplaced, Node.parts]
        split
        · refine .bind (.pure ?_) ended
          rfl
        · refine .bind (statementBody order bodies _ _ m) fun found =>
            .after order (.takeEnd _ _) fun ending => .bind (.pure ?_) ended
          simp
      split
      · exact .quietly order (.returnType phrases) returned
      · exact .quietly order .pure fun _ => returned _
    split
    · exact .quietly order .pure fun _ => generic _
    · exact .quietly order (.typeParameters phrases) generic
  refine .quietly order .skip fun _ => ?_
  split
  · exact .quietly order .read fun _ => .quietly order .pure fun _ => named _
  · exact .quietly order .identifier named

theorem operatorDeclaration (start : Location) (head : DeclarationHead) :
    TalliesDeclaration k (operatorDeclaration r b start head) := by
  intro m
  exact .quietly order .skip fun _ => .quietly order .operatorName fun operator =>
    .quietly order (.parameterList phrases) fun parameters =>
    .quietly order (.returnType phrases) fun result => .quietly order (.endStatement _) fun header =>
    .bind (statementBody order bodies _ _ m) fun found => .after order (.takeEnd _ _) fun ending =>
    .quietly order (.spanFrom _) fun span => .holds rfl rfl rfl rfl

theorem singleAccessorProperty (start : Location) (head : DeclarationHead) :
    TalliesDeclaration k (singleAccessorProperty r b start head) := by
  intro m
  refine .quietly order .read fun keyword => ?_
  extract_lets isGet
  refine .quietly order .identifier fun name =>
    .quietly order (.parameterList phrases) fun parameters => ?_
  extract_lets rest
  have returned (result : Option ReturnType) : Tallies k m (rest result) fun d =>
      m + Node.disorder k (.declaration d) := by
    refine .quietly order (.endStatement _) fun header =>
      .bind (statementBody order bodies _ _ m) fun found => .after order (.takeEnd _ _) fun ending => ?_
    extract_lets span accessor
    refine .quietly order (.spanFrom _) fun _ => .pure ?_
    have statements : Node.disorder k (.declaration (.accessor accessor)) =
        Node.disorders k (Node.ofStatements found.1) := Node.disorder_of_list rfl rfl rfl rfl
    rw [Node.disorder_of_list rfl rfl rfl rfl, ← statements, Node.ofDeclarations, List.map_singleton,
      Node.disorders_cons, Node.disorders_nil, Nat.add_zero]
  split
  · exact .quietly order (.returnType phrases) returned
  · exact .quietly order .pure fun _ => returned _

theorem propertyDeclaration (start : Location) (head : DeclarationHead) (container : Container) :
    TalliesDeclaration k (propertyDeclaration r b start head container) := by
  intro m
  refine .quietly order .skip fun _ => .quietly order .peekKind fun kind => ?_
  split
  · exact singleAccessorProperty order bodies phrases _ _ m
  · exact singleAccessorProperty order bodies phrases _ _ m
  · exact singleAccessorProperty order bodies phrases _ _ m
  · refine .quietly order .identifier fun name =>
      .quietly order (.parameterList phrases) fun parameters =>
      .quietly order (.returnType phrases) fun result =>
      .quietly order .implementsClause fun implemented => .quietly order (.endStatement _) fun header => ?_
    extract_lets rest
    have ended (found : Option Declarations × Option EndBlock) :
        Tallies k (m + Node.disorders k (found.1.map Node.ofDeclarations).toList.flatten) (rest found)
          fun d => m + Node.disorder k (.declaration d) := by
      refine .quietly order (.spanFrom _) fun span => .pure ?_
      rw [Node.disorder_of_isDirect rfl]
      simp [Node.lists, Node.misplaced, Node.parts]
    split
    · refine .bind (.pure ?_) ended
      rfl
    · refine .bind (declarationBody order bodies _ _ _ m) fun found =>
        .after order (.takeEnd _ _) fun ending => .bind (.pure ?_) ended
      simp

theorem accessorDeclaration (start : Location) (head : DeclarationHead) (kind : AccessorKind) :
    TalliesDeclaration k (accessorDeclaration r b start head kind) := by
  intro m
  exact .quietly order .skip fun _ => .quietly order (.checkModifiers _ _) fun _ =>
    .quietly order (.parameterList phrases) fun parameters =>
    .quietly order (.endStatement _) fun header => .bind (statementBody order bodies _ _ m) fun found => .after order (.takeEnd _ _) fun ending =>
    .quietly order (.spanFrom _) fun span => .holds rfl rfl rfl rfl

theorem accessorIn (start : Location) (head : DeclarationHead) (ofProperty : Bool) :
    TalliesDeclaration k (accessorIn r b start head ofProperty) := by
  intro m
  refine .quietly order .peekKind fun token => ?_
  extract_lets kind
  split
  · exact accessorDeclaration order bodies phrases _ _ _ m
  · refine badDeclaration order _ ?_ m
    cases ofProperty <;> rfl

theorem customEventDeclaration (start : Location) (head : DeclarationHead) :
    TalliesDeclaration k (customEventDeclaration r b start head) := by
  intro m
  refine .quietly order .read fun token => ?_
  extract_lets customKeyword
  refine .quietly order .skip fun _ => .quietly order .identifier fun name =>
    .quietly order (.expect _ rfl) fun as => ?_
  extract_lets rest
  have typed (type : Option TypeName) : Tallies k m (rest type) fun d =>
      m + Node.disorder k (.declaration d) :=
    .quietly order .implementsClause fun implemented => .quietly order (.endStatement _) fun header =>
    .bind (declarationBody order bodies _ _ _ m) fun found => .after order (.takeEnd _ _) fun ending =>
    .quietly order (.spanFrom _) fun span => .holds rfl rfl rfl rfl
  split
  · exact .quietly order (.map (.elementType phrases)) typed
  · exact .quietly order .pure fun _ => typed _

-- Any declaration

theorem memberDeclaration (start : Location) (head : DeclarationHead) (container : Container)
    (member : Member) : TalliesDeclaration k (memberDeclaration r b start head container member) := by
  intro m
  refine .quietly order .peek fun token => ?_
  extract_lets kind rest
  have placed : Tallies k m (rest ()) fun d => m + Node.disorder k (.declaration d) := by
    refine .quietly order (.checkModifiers _ _) fun _ => ?_
    cases member with
    | namespaceBlock => exact namespaceDeclaration order bodies _ m
    | type kind => exact typeDeclaration order bodies phrases _ _ _ m
    | enum => exact enumDeclaration order bodies phrases _ _ m
    | field => exact fieldDeclaration order phrases _ _ m
    | method => exact methodDeclaration order bodies phrases _ _ _ _ m
    | constructor => exact methodDeclaration order bodies phrases _ _ _ _ m
    | operator => exact operatorDeclaration order bodies phrases _ _ m
    | property => exact propertyDeclaration order bodies phrases _ _ _ m
    | event => exact eventDeclaration order phrases _ _ m
    | customEvent => exact customEventDeclaration order bodies phrases _ _ m
    | delegate => exact delegateDeclaration order phrases _ _ m
    | external => exact externalDeclaration order phrases _ _ m
  split
  next problem misplaced =>
    exact .quietly order (.report (Member.isOrder_placementProblem misplaced)) fun _ => placed
  next => exact placed

theorem declarationAfter (start : Location) (attributes : List AttributeBlock) (container : Container) :
    TalliesDeclaration k (declarationAfter r b start attributes container) := by
  intro m
  unfold Parse.declarationAfter
  split
  · exact enumValue order phrases _ _ m
  · refine .quietly order .modifiers fun modifiers => ?_
    extract_lets head
    split
    · exact accessorIn order bodies phrases _ _ _ m
    · split
      · exact accessorIn order bodies phrases _ _ _ m
      · refine .quietly order .rejectCustom fun _ => .get (fun _ _ => rfl) fun s => ?_
        split
        · exact badDeclaration order _ rfl m
        · exact memberDeclaration order bodies phrases _ _ _ _ m

theorem attributedDeclaration (container : Container) :
    TalliesDeclaration k (attributedDeclaration r b container) := by
  intro m
  refine .quietly order .here fun start => .quietly order (.attributeBlocks phrases) fun attributes =>
    .quietly order .atStatementEnd fun ends => ?_
  split
  · exact .quietly order (.reportHeading _ _) fun _ => .quietly order (.spanFrom _) fun _ =>
      .leaf rfl rfl rfl rfl
  · exact declarationAfter order bodies phrases _ _ _ m

theorem declaration (container : Container) : TalliesDeclaration k (declaration r b container) := by
  intro m
  refine .quietly order .peek fun token => .get (fun _ _ => rfl) fun s => ?_
  split
  · exact .quietly order (.report rfl) fun _ => .quietly order (.endBlock _) fun _ =>
      .leaf rfl rfl rfl rfl
  · exact badDeclaration order _ rfl m
  · split
    · exact .quietly order (.reportHeading _ _) fun _ => optionDeclaration order m
    · exact .quietly order (.reportHeading _ _) fun _ => importsDeclaration order phrases m
    · exact typeList order phrases _ _ m
    · exact typeList order phrases _ _ m
    · exact attributedDeclaration order bodies phrases _ m

end Tallies

end VisualBasic
