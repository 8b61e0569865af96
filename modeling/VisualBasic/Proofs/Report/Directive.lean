import VisualBasic.Parse.Bodies
import VisualBasic.Proofs.Report.Account

/-!
Directives and what else stands between statements.  A directive is a construct of its own, so it begins
one wherever it stands.
-/

set_option autoImplicit false

namespace VisualBasic

namespace Quiet

open Parse

variable {r : Rules}

theorem modifyDirectives (f : OpenDirectives → OpenDirectives) : Quiet (modifyDirectives f) :=
  .modify fun _ _ beside =>
    beside.ofCore (g := fun s => { s with directives := f s.directives }) (fun _ _ => rfl) rfl rfl rfl

theorem modifyTables (f : DirectiveTables → DirectiveTables) : Quiet (modifyTables f) := by
  refine .modify fun s t beside => ⟨⟨?_, ?_⟩, rfl⟩
  · exact congrArg (fun u : ParseState => { u with tables := f t.tables }) beside.core
  · exact beside.marked.imp_right fun passed =>
      ⟨⟨passed.1.behind, passed.1.ahead⟩, ⟨passed.2.behind, passed.2.ahead⟩⟩

theorem directiveCondition (phrases : r.Quiet) : Quiet (directiveCondition r) :=
  .bind phrases.value fun _ => .bind (.eat _) fun _ => .pure

theorem conditionalBranch (start : Location) (isElse : Bool) : Quiet (conditionalBranch start isElse) := by
  refine .bind (.spanFrom _) fun directive => .get (fun _ _ => rfl) fun s => ?_
  split
  · refine .report ?_
    cases isElse <;> rfl
  · refine .bind (.modifyDirectives _) fun _ => ?_
    split
    · refine .report ?_
      cases isElse <;> rfl
    · exact .pure

theorem endConditional (start : Location) : Quiet (endConditional start) := by
  refine .bind (.spanFrom _) fun span => .get (fun _ _ => rfl) fun s => ?_
  split
  · exact .report rfl
  · exact .modifyDirectives _

theorem endRegion (start : Location) : Quiet (endRegion start) := by
  refine .bind (.spanFrom _) fun span => .get (fun _ _ => rfl) fun s => ?_
  split
  · exact .report rfl
  · exact .bind (.modifyDirectives _) fun _ => .modifyTables _

theorem endMapping (start : Location) : Quiet (endMapping start) := by
  refine .bind (.spanFrom _) fun span => .get (fun _ _ => rfl) fun s => ?_
  split
  · exact .report rfl
  · exact .bind (.modifyDirectives _) fun _ => .modifyTables _

theorem invalidDirective (start : Location) : Quiet (invalidDirective start) :=
  .bind (.spanFrom _) fun _ => .bind .peek fun _ => .report rfl

theorem endDirective (start : Location) : Quiet (endDirective start) := by
  refine .bind .peek fun token => ?_
  split
  · exact .bind .skip fun _ => .endConditional _
  · split
    · exact .bind .skip fun _ => .endRegion _
    · split
      · exact .bind .skip fun _ => .endMapping _
      · exact .invalidDirective _

theorem directiveInteger : Quiet directiveInteger := by
  refine .bind .peek fun token => ?_
  split
  · exact .bind .skip fun _ => .pure
  · exact .bind (.reportUnexpected rfl) fun _ => .pure

theorem mappingSource : Quiet mappingSource := by
  refine .bind (.expect _ rfl) fun openParen => ?_
  split
  · exact .pure
  · refine .bind .stringLiteral fun file => .bind (.expect _ rfl) fun comma => ?_
    extract_lets rest
    have closed (line : Option Int) : Quiet (rest line) := .bind .closeParenthesis fun _ => .pure
    split
    · exact .bind .directiveInteger fun _ => closed _
    · exact .bind .pure fun _ => closed _

theorem beginMapping (start : Location) : Quiet (beginMapping start) := by
  refine .bind .mappingSource fun source => .bind (.spanFrom _) fun directive =>
    .get (fun _ _ => rfl) fun s => ?_
  split
  · exact .report rfl
  · exact .modifyDirectives _

theorem directiveStrings (n : Nat) : Quiet (directiveStrings n) := by
  induction n with
  | zero => exact .pure
  | succ n ih =>
    cases n with
    | zero => exact .bind .stringLiteral fun _ => .pure
    | succ n =>
      refine .bind .stringLiteral fun text => ?_
      split
      · exact .pure
      · refine .bind (.expect _ rfl) fun comma => ?_
        split
        · exact .pure
        · exact .bind ih fun _ => .pure

theorem checksum (start : Location) : Quiet (checksum start) := by
  refine .bind (.expect _ rfl) fun openParen => ?_
  split
  · exact .pure
  · refine .bind (.directiveStrings 3) fun parts => .bind .closeParenthesis fun closed =>
      .bind (.spanFrom _) fun span => ?_
    split
    · exact .modifyTables _
    · exact .pure

theorem conditionalConstant (phrases : r.Quiet) : Quiet (conditionalConstant r) := by
  refine .bind .identifier fun name => .bind (.expect _ rfl) fun equals => ?_
  extract_lets rest
  have noted (value : Option Expression) : Quiet (rest value) := by
    unfold rest
    split
    · exact .pure
    · exact .modifyTables _
  split
  · exact .mapBind phrases.value fun value => noted (some value)
  · exact .bind .pure fun _ => noted none

theorem beginConditional (phrases : r.Quiet) (start : Location) : Quiet (beginConditional r start) :=
  .bind (.directiveCondition phrases) fun _ => .bind (.spanFrom _) fun _ => .modifyDirectives _

theorem beginRegion (start : Location) : Quiet (beginRegion start) :=
  .bind .stringLiteral fun _ => .bind (.spanFrom _) fun _ => .modifyDirectives _

theorem namedDirective (start : Location) : Quiet (namedDirective start) := by
  refine .bind .peek fun token => ?_
  split
  · exact .bind .skip fun _ => .beginRegion _
  · split
    · exact .bind .skip fun _ => .beginMapping _
    · split
      · exact .bind .skip fun _ => .checksum _
      · exact .invalidDirective _

theorem directiveBody (phrases : r.Quiet) (start : Location) : Quiet (directiveBody r start) := by
  refine .bind .peekKind fun kind => ?_
  split
  · exact .bind .skip fun _ => .beginConditional phrases _
  · exact .bind .skip fun _ => .bind (.directiveCondition phrases) fun _ => .conditionalBranch _ _
  · refine .bind .skip fun _ => .bind (.eat _) fun found => ?_
    split
    · exact .bind (.directiveCondition phrases) fun _ => .conditionalBranch _ _
    · exact .conditionalBranch _ _
  · exact .bind .skip fun _ => .endDirective _
  · exact .bind .skip fun _ => .conditionalConstant phrases
  · exact .namedDirective _

end Quiet

namespace Calm

open Parse

variable {r : Rules}

theorem directive (phrases : r.Quiet) : Calm (directive r) := by
  refine .bind .beginConstruct fun _ => .behind .read fun token =>
    .behind (.directiveBody phrases _) fun _ => .behind .peekKind fun kind => ?_
  extract_lets rest
  have ended : Calm (rest ()) := by
    refine .modify fun s t beside => ⟨?_, Quiet.log_advanceWhile _ _ t⟩
    have here : t.remaining = s.remaining := by rw [beside.core]; rfl
    rw [here]
    exact beside.advanceWhile (fun _ _ => rfl) _
  split
  · exact ended
  · exact .behind (.reportUnexpected rfl) fun _ => ended

theorem separatorsWithin (phrases : r.Quiet) (n : Nat) : Calm (separatorsWithin r n) := by
  induction n with
  | zero => exact .pure
  | succ n ih =>
    refine .behind .peek fun token => ?_
    split
    · exact .behind .skip fun _ => ih
    · exact .behind .skip fun _ => .bind ih fun _ => .pure
    · refine .get (fun _ _ => rfl) fun s => ?_
      split
      · exact .bind (.directive phrases) fun _ => ih
      · exact .pure
    · exact .pure

theorem separators (phrases : r.Quiet) : Calm (separators r) :=
  .get (fun _ _ => rfl) fun _ => .separatorsWithin phrases _

theorem reportAll {problem : Problem} (quiet : problem.isOrder = false) (spans : List Span) :
    Calm (reportAll problem spans) := by
  induction spans with
  | nil => exact .pure
  | cons span rest ih => exact .bind .beginConstruct fun _ => .behind (.report quiet) fun _ => ih

theorem finishDirectives : Calm finishDirectives :=
  .get (fun _ _ => rfl) fun _ => .bind (.reportAll rfl _) fun _ => .bind (.reportAll rfl _) fun _ =>
    .reportAll rfl _

theorem reportUnclosed (block : OpenBlock) : Calm (reportUnclosed block) :=
  .bind .beginConstruct fun _ => (Quiet.report rfl).calm

end Calm

end VisualBasic
