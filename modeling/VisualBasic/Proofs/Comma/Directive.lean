import VisualBasic.Parse.Directive
import VisualBasic.Proofs.Comma.Expression

/-!
Directives write nothing, whatever they say.
-/

set_option autoImplicit false

namespace VisualBasic.Parse

variable {r : Rules}

theorem modifyDirectives_proceeds (f : OpenDirectives → OpenDirectives) :
    Proceeds (modifyDirectives f) :=
  fun s sane => sane.aside s.blocks s.lineIfDepth (f s.directives) s.tables

theorem modifyTables_proceeds (f : DirectiveTables → DirectiveTables) :
    Proceeds (modifyTables f) :=
  fun s sane => sane.aside s.blocks s.lineIfDepth s.directives (f s.tables)

theorem value_proceeds (rules : r.Punctuates) : Proceeds r.value := .ofWrites (value_writes rules)

theorem directiveCondition_proceeds (rules : r.Punctuates) : Proceeds (directiveCondition r) :=
  (value_proceeds rules).bind fun _ => (Proceeds.eat _).bind fun _ => .pure

theorem conditionalBranch_proceeds (start : Location) (isElse : Bool) :
    Proceeds (conditionalBranch start isElse) := by
  refine .bind (.spanFrom _) fun directive => .bind .get fun state => ?_
  split
  · exact .report _ _
  · refine .bind (modifyDirectives_proceeds _) fun _ => .ite (.report _ _) .pure

theorem endConditional_proceeds (start : Location) : Proceeds (endConditional start) := by
  refine .bind (.spanFrom _) fun span => .bind .get fun state => ?_
  split
  · exact .report _ _
  · exact modifyDirectives_proceeds _

theorem endRegion_proceeds (start : Location) : Proceeds (endRegion start) := by
  refine .bind (.spanFrom _) fun span => .bind .get fun state => ?_
  split
  · exact .report _ _
  · exact .bind (modifyDirectives_proceeds _) fun _ => modifyTables_proceeds _

theorem endMapping_proceeds (start : Location) : Proceeds (endMapping start) := by
  refine .bind (.spanFrom _) fun span => .bind .get fun state => ?_
  split
  · exact .report _ _
  · exact .bind (modifyDirectives_proceeds _) fun _ => modifyTables_proceeds _

theorem invalidDirective_proceeds (start : Location) : Proceeds (invalidDirective start) :=
  .bind (.spanFrom _) fun _ => .bind .peek fun _ => .report _ _

theorem endDirective_proceeds (start : Location) : Proceeds (endDirective start) :=
  .bind .peek fun _ => .ite (.bind .skip fun _ => endConditional_proceeds start)
    (.ite (.bind .skip fun _ => endRegion_proceeds start)
      (.ite (.bind .skip fun _ => endMapping_proceeds start) (invalidDirective_proceeds start)))

theorem directiveInteger_proceeds : Proceeds directiveInteger := by
  refine .bind .peek fun token => ?_
  split
  · exact .bind .skip fun _ => .pure
  · exact .bind (.reportUnexpected _) fun _ => .pure

theorem mappingSource_proceeds : Proceeds mappingSource := by
  refine .bind (.expect _ _) fun openParen => ?_
  split
  · exact .pure
  · refine .bind stringLiteral_proceeds fun file => .bind (.expect _ _) fun comma => ?_
    split
    · exact .bind directiveInteger_proceeds fun _ => .bind .closeParenthesis fun _ => .pure
    · exact .bind .pure fun _ => .bind .closeParenthesis fun _ => .pure

theorem beginMapping_proceeds (start : Location) : Proceeds (beginMapping start) :=
  .bind mappingSource_proceeds fun _ => .bind (.spanFrom _) fun _ => .bind .get fun _ =>
    .ite (.report _ _) (modifyDirectives_proceeds _)

theorem directiveStrings_proceeds (n : Nat) : Proceeds (directiveStrings n) := by
  fun_induction directiveStrings n with
  | case1 => exact .pure
  | case2 => exact .bind stringLiteral_proceeds fun _ => .pure
  | case3 n _ ih =>
    refine .bind stringLiteral_proceeds fun text => ?_
    split
    · exact .pure
    · refine .bind (.expect _ _) fun comma => ?_
      split
      · exact .pure
      · exact .bind ih fun _ => .pure

theorem checksum_proceeds (start : Location) : Proceeds (checksum start) := by
  refine .bind (.expect _ _) fun openParen => ?_
  split
  · exact .pure
  · refine .bind (directiveStrings_proceeds 3) fun parts => .bind .closeParenthesis fun closed => ?_
    refine .bind (.spanFrom _) fun span => ?_
    split
    · exact modifyTables_proceeds _
    · exact .pure

theorem conditionalConstant_proceeds (rules : r.Punctuates) : Proceeds (conditionalConstant r) := by
  refine .bind (.ofWrites identifier_writes) fun name => .bind (.expect _ _) fun equals => ?_
  extract_lets rest
  have noted (value : Option Expression) : Proceeds (rest value) := .ite .pure (modifyTables_proceeds _)
  split
  · exact .bind (.map (value_proceeds rules)) noted
  · exact noted none

theorem beginConditional_proceeds (rules : r.Punctuates) (start : Location) :
    Proceeds (beginConditional r start) :=
  .bind (directiveCondition_proceeds rules) fun _ => .bind (.spanFrom _) fun _ =>
    modifyDirectives_proceeds _

theorem beginRegion_proceeds (start : Location) : Proceeds (beginRegion start) :=
  .bind stringLiteral_proceeds fun _ => .bind (.spanFrom _) fun _ => modifyDirectives_proceeds _

theorem namedDirective_proceeds (start : Location) : Proceeds (namedDirective start) :=
  .bind .peek fun _ => .ite (.bind .skip fun _ => beginRegion_proceeds start)
    (.ite (.bind .skip fun _ => beginMapping_proceeds start)
      (.ite (.bind .skip fun _ => checksum_proceeds start) (invalidDirective_proceeds start)))

theorem directiveBody_proceeds (rules : r.Punctuates) (start : Location) :
    Proceeds (directiveBody r start) := by
  refine .bind .peekKind fun kind => ?_
  have branch : Proceeds (do directiveCondition r; conditionalBranch start false) :=
    .bind (directiveCondition_proceeds rules) fun _ => conditionalBranch_proceeds start false
  split
  · exact .bind .skip fun _ => beginConditional_proceeds rules start
  · exact .bind .skip fun _ => branch
  · refine .bind .skip fun _ => .bind (.eat _) fun again => ?_
    split
    · exact branch
    · exact conditionalBranch_proceeds start true
  · exact .bind .skip fun _ => endDirective_proceeds start
  · exact .bind .skip fun _ => conditionalConstant_proceeds rules
  · exact namedDirective_proceeds start

theorem directive_proceeds (rules : r.Punctuates) : Proceeds (directive r) := by
  refine .bind .beginConstruct fun _ => .bind .read fun token => ?_
  refine .bind (directiveBody_proceeds rules _) fun _ => .bind .peekKind fun kind => ?_
  have last : Proceeds (modify fun s => s.advanceWhile (fun s => !s.kind.endsLine) s.remaining) :=
    fun _ sane => sane.advanceWhile _ _
  extract_lets rest
  split
  · exact last
  · exact .bind (.reportUnexpected _) fun _ => last

theorem separatorsWithin_proceeds (rules : r.Punctuates) (n : Nat) :
    Proceeds (separatorsWithin r n) := by
  induction n with
  | zero => exact .pure
  | succ n ih =>
    refine .bind .peek fun token => ?_
    split
    · exact .bind .skip fun _ => ih
    · exact .bind .skip fun _ => .bind ih fun _ => .pure
    · exact .bind .get fun _ => .ite (.bind (directive_proceeds rules) fun _ => ih) .pure
    · exact .pure

theorem separators_proceeds (rules : r.Punctuates) : Proceeds (separators r) :=
  .bind .get fun _ => separatorsWithin_proceeds rules _

theorem reportAll_proceeds (problem : Problem) (spans : List Span) :
    Proceeds (reportAll problem spans) := by
  induction spans with
  | nil => exact .pure
  | cons span rest ih => exact .bind .beginConstruct fun _ => .bind (.report _ _) fun _ => ih

theorem finishDirectives_proceeds : Proceeds finishDirectives :=
  .bind .get fun _ => .bind (reportAll_proceeds _ _) fun _ => .bind (reportAll_proceeds _ _) fun _ =>
    reportAll_proceeds _ _

end VisualBasic.Parse
