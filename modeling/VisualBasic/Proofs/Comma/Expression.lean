import VisualBasic.Proofs.Comma.Type
import VisualBasic.Proofs.Parse.Expression

/-!
Arguments and expressions.  Each rule writes what it gives for nested rules that do, so the rules for
any depth of nesting do.
-/

set_option autoImplicit false

namespace VisualBasic.Parse

variable {r : Rules} {s t : ParseState}

-- Arguments

theorem argument_writes (rules : r.Punctuates) (named : Bool) :
    Writes (argument r named) (fun a => [.argument a.1]) fun _ => [] := by
  intro s sane
  refine .get ?_
  extract_lets token leaveOut give
  have omitted (t : ParseState) (so : Writ s t [] []) :
      Ensures (leaveOut ()) t fun a u => Writ s u [.argument a.1] [] :=
    (so.missing (fun place => .argument ⟨none, none, none, .point place⟩) rfl).bind fun _ _ so => so
  have given (t : ParseState) (so : Writ s t [] []) :
      Ensures (give ()) t fun a u => Writ s u [.argument a.1] [] :=
    (so.part (value_writes rules)).bind fun _ _ so => so.around rfl rfl rfl rfl
  have so := Writ.refl sane
  split
  · split
    · exact (so.pass (.reportUnexpected _)).bind fun _ t so => omitted t so
    · exact omitted s so
  · split
    · have so := so.name.onto sane.advance.sane.advance
      refine .skip (.read ((so.part (value_writes rules)).bind fun value u so => .spanFrom ?_))
      exact so.node (fun _ => so.sane.spanSince (Nat.le_refl _) so.onward.here) rfl rfl
    · split
      · exact (so.pass (.report _ _)).bind fun _ t so => given t so
      · exact given s so

theorem separatedArguments_writes (rules : r.Punctuates) :
    Writes (separatedArguments r) (fun a => a.items.map .argument)
      fun a => [a.punctuation Argument.span] :=
  fun s sane => .get (separatedFrom_writes (fun _ => ⟨rfl, rfl⟩)
    (fun named s sane => (argument_writes rules named s sane).bind fun _ _ so => .pure so) _ _ s sane)

/-- The span of an argument list is all that has been read. -/
theorem argumentList_ensures (rules : r.Punctuates) (sane : s.Sane) :
    Ensures (argumentList r) s fun a t =>
      Writ s t (a.arguments.items.map .argument) (Punctuation.ofArguments (some a)) ∧
        a.span.Lies s.here t.here := by
  have so := (Writ.refl sane).onto sane.advance
  refine .read (.check ?_)
  extract_lets close
  have closes (arguments : CommaList (Argument Expression)) (u : ParseState)
      (so : Writ s u (arguments.items.map .argument) [.ofList Argument.span arguments]) :
      Ensures (close arguments) u fun a t =>
        Writ s t (a.arguments.items.map .argument) (Punctuation.ofArguments (some a)) ∧
          a.span.Lies s.here t.here := by
    refine (so.pass .closeParenthesis).bind fun place v so => ?_
    have ends (w : ParseState) (so : Writ s w (arguments.items.map .argument)
        [.ofList Argument.span arguments]) :
        (w.spanSince s.current.span.start).Lies s.here w.here :=
      so.sane.spanSince (Nat.le_refl _) so.onward.here
    cases place with
    | some place => exact ⟨so, ends v so⟩
    | none =>
      refine (so.pass (.resync _)).bind fun _ w so => ?_
      exact (so.pass (.eatPlace _)).bind fun _ x so => ⟨so, ends x so⟩
  split
  · exact closes _ _ (so.listed (Punctuation.holds_empty Argument.span _ _))
  · exact (so.part (separatedArguments_writes rules)).bind fun arguments t so => closes _ t so

theorem argumentList_writes (rules : r.Punctuates) :
    Writes (argumentList r) (fun a => Node.ofArguments (some a))
      fun a => Punctuation.ofArguments (some a) :=
  fun _ sane => (argumentList_ensures rules sane).mono fun _ _ facts => facts.1

theorem optionalArguments_writes (rules : r.Punctuates) (allowed : Bool) :
    Writes (optionally allowed (argumentList r)) Node.ofArguments Punctuation.ofArguments :=
  fun _ sane => (Writ.refl sane).optionally Node.ofArguments Punctuation.ofArguments rfl
    (argumentList_writes rules)

theorem bareArguments_writes (rules : r.Punctuates) :
    Writes (bareArguments r) (fun a => Node.ofArguments (some a))
      fun a => Punctuation.ofArguments (some a) := by
  intro s sane
  refine .here (.atStatementEnd ?_)
  split
  · exact (Writ.refl sane).listed (Punctuation.holds_empty Argument.span _ _)
  · exact (separatedArguments_writes rules s sane).bind fun _ _ so => .spanFrom (.pure so)

/-- The first argument has been read, and what is called. -/
theorem bareArgumentsFrom_writ {o : ParseState} {ns : List Node} {first : Argument Expression}
    (rules : r.Punctuates) (so : Writ o s (ns ++ [.argument first]) []) :
    Ensures (bareArgumentsFrom r first) s fun a t =>
      Writ o t (ns ++ Node.ofArguments (some a)) (Punctuation.ofArguments (some a)) := by
  have phrases (a : Argument Expression) : ∀ n ∈ [Node.argument a], n.isPhrase = true :=
    List.forall_mem_singleton.2 rfl
  have ends (arguments : CommaList (Argument Expression)) (t : ParseState)
      (so : Writ o t (ns ++ arguments.items.map .argument) [.ofList Argument.span arguments]) :
      Ensures (do return ⟨none, arguments, none, ← spanFrom first.span.start⟩) t fun a u =>
        Writ o u (ns ++ Node.ofArguments (some a)) (Punctuation.ofArguments (some a)) :=
    .spanFrom (.pure so)
  refine .eatPlace (fun comma => ?_) fun _ => ?_
  · have passed := so.onto so.sane.advance
    refine Ensures.bind (.get (separatedFrom_threads phrases (fun named s sane =>
      (argument_writes rules named s sane).bind fun _ _ so => .pure so) _ _ passed.sane))
      fun rest t facts => ?_
    obtain ⟨more, threads⟩ := facts
    have before := (so.spans _ (List.mem_append_right ns List.mem_cons_self) rfl).finish
    have threads := Threads.cons phrases so.sane (List.forall_mem_singleton.2 before) comma more
      threads
    have long := (passed.append more).listed
      (Separated.Threads.holds (a := rest.cons first s.current.span.start) (fun _ => rfl) threads _)
    rw [flatMap_node, List.append_assoc] at long
    exact ends _ t long
  · exact ends (.single first first.span) s (so.listed (Punctuation.holds_single Argument.span first _ _))

-- Names and members

theorem badExpression_writes : Writes badExpression (fun e => [.expression e]) fun _ => [] := by
  intro s sane
  refine ((Writ.refl sane).pass (.reportUnexpected _)).bind fun _ t so => ?_
  exact (so.missing (fun place => .expression (.bad (.point place))) rfl).bind fun _ _ so => so

theorem missingElements_writes : Writes missingElements (fun a => [.aggregate a]) fun _ => [] := by
  intro s sane
  refine ((Writ.refl sane).pass (.reportUnexpected _)).bind fun _ t so => ?_
  have marked := (so.onto so.sane.mark).listed
    (Punctuation.holds_empty Initializer.span t.current.span.start _)
  exact marked.node (fun _ => ⟨so.onward.here, Nat.le_refl _, Nat.le_refl _⟩) rfl rfl

/-- The name itself has been read. -/
theorem nameExpression_writes (rules : r.Punctuates)
    (so : Writ s t [.simpleName (.ofToken s.current)] []) :
    Ensures (nameExpression r s.current) t fun e u => Writ s u [.expression e] [] := by
  refine .get ((so.optionally Node.ofTypeArguments Punctuation.ofTypeArguments rfl
    (typeArguments_writes rules)).bind fun arguments u so => ?_)
  exact so.finish rfl rfl

section

variable {o : ParseState} (qualifier : Option Expression) (dot : Location)
  (so : Writ o s (Node.ofOption .expression qualifier) [])
  (lower : o.here ≤ ((qualifier.map fun q => q.span.start).getD dot).index)
  (reached : ((qualifier.map fun q => q.span.start).getD dot).index ≤ s.here)

include so lower reached

/-- What stands before the dot has been read. -/
theorem memberAccess_writes (rules : r.Punctuates) :
    Ensures (memberAccess r qualifier dot) s fun e t => Writ o t [.expression e] [] := by
  refine (memberName_writes s so.sane).bind fun name t more => .get ?_
  refine (more.optionally Node.ofTypeArguments Punctuation.ofTypeArguments rfl
    (typeArguments_writes rules)).bind fun arguments u more => ?_
  exact (so.append more).finishFrom lower (Nat.le_trans reached more.onward.here) rfl rfl

theorem dictionaryLookup_writes :
    Ensures (dictionaryLookup qualifier dot) s fun e t => Writ o t [.expression e] [] := by
  refine (memberName_writes s so.sane).bind fun name t more => ?_
  exact (so.append more).finishFrom lower (Nat.le_trans reached more.onward.here) rfl rfl

end

-- Keywords with operands

theorem openParenthesis_proceeds : Proceeds openParenthesis := (Proceeds.expect _ _).bind fun _ => .pure

theorem parenthesized_writes (rules : r.Punctuates) :
    Writes (parenthesized r) (fun e => [.expression e]) fun _ => [] := by
  intro s sane
  have so := (Writ.refl sane).onto sane.advance
  refine .read ((so.part (value_writes rules)).bind fun operand t so => ?_)
  refine (so.pass .closeParenthesis).bind fun closeParen u so => ?_
  exact so.finish rfl rfl

theorem typeTest_writes (rules : r.Punctuates) :
    Writes (typeTest r) (fun e => [.expression e]) fun _ => [] := by
  intro s sane
  have so := (Writ.refl sane).onto sane.advance
  refine .read ((so.part (rules.expression _)).bind fun operand t so => ?_)
  refine (so.pass (.expectPlace _ _)).bind fun isKeyword u so => ?_
  extract_lets finish
  have finishes (type : TypeName) (v : ParseState)
      (so : Writ s v [.expression operand, .typeName type] []) :
      Ensures (finish type) v fun e w => Writ s w [.expression e] [] :=
    so.finish rfl rfl
  split
  · exact (so.nodePart rules.typeName).bind fun type v so => finishes type v so
  · exact (so.missing (fun place => .typeName (.bad (.point place))) rfl).bind
      fun place v so => finishes _ v so

theorem typeObject_writes (rules : r.Punctuates) :
    Writes (typeObject r) (fun e => [.expression e]) fun _ => [] := by
  intro s sane
  have so := (Writ.refl sane).onto sane.advance
  refine .read ((so.pass openParenthesis_proceeds).bind fun _ t so => ?_)
  refine (so.part rules.typeName).bind fun type u so => ?_
  refine (so.pass .closeParenthesis).bind fun closeParen v so => ?_
  exact so.finish rfl rfl

theorem cast_writes (rules : r.Punctuates) (kind : CastKind) :
    Writes (cast r kind) (fun e => [.expression e]) fun _ => [] := by
  intro s sane
  have so := (Writ.refl sane).onto sane.advance
  refine .read ((so.pass openParenthesis_proceeds).bind fun _ t so => ?_)
  refine (so.part (value_writes rules)).bind fun operand u so => ?_
  refine (so.pass (.expectPlace _ _)).bind fun comma v so => ?_
  refine (so.part rules.typeName).bind fun type w so => ?_
  refine (so.pass .closeParenthesis).bind fun closeParen x so => ?_
  exact so.finish rfl rfl

theorem intrinsicCast_writes (rules : r.Punctuates) (target : IntrinsicType) :
    Writes (intrinsicCast r target) (fun e => [.expression e]) fun _ => [] := by
  intro s sane
  have so := (Writ.refl sane).onto sane.advance
  refine .read ((so.pass openParenthesis_proceeds).bind fun _ t so => ?_)
  refine (so.part (value_writes rules)).bind fun operand u so => ?_
  refine (so.pass .closeParenthesis).bind fun closeParen v so => ?_
  exact so.finish rfl rfl

-- Objects and arrays

theorem initializer_writes (rules : r.Punctuates) :
    Writes (initializer r) (fun i => [Node.ofInitializer i]) fun _ => [] := by
  intro s sane
  refine .check ?_
  split
  · exact (rules.elements s sane).bind fun _ _ so => so
  · exact (value_writes rules s sane).bind fun _ _ so => so

theorem shape_initializer (i : Initializer) :
    (Node.ofInitializer i).span = i.span ∧ (Node.ofInitializer i).isPhrase = true := by
  cases i <;> exact ⟨rfl, rfl⟩

theorem elements_writes (rules : r.Punctuates) :
    Writes (elements r) (fun a => [.aggregate a]) fun _ => [] := by
  intro s sane
  refine .eatPlace (fun _ => .check ?_) fun _ => missingElements_writes s sane
  have so := (Writ.refl sane).onto sane.advance
  extract_lets close
  have closes (elements : CommaList Initializer) (t : ParseState)
      (so : Writ s t (elements.items.map Node.ofInitializer) [.ofList Initializer.span elements]) :
      Ensures (close elements) t fun a u => Writ s u [.aggregate a] [] :=
    (so.pass (.expectPlace _ _)).bind fun closeBrace u so => so.finish rfl rfl
  split
  · exact .here (closes _ _ (so.listed (Punctuation.holds_empty _ _ _)))
  · exact (so.part (commaList_writes shape_initializer (initializer_writes rules))).bind
      fun elements t so => closes elements t so

theorem creation_writes (rules : r.Punctuates) :
    Writes (creation r) (fun e => [.expression e]) fun _ => [] := by
  intro s sane
  have begun := (Writ.refl sane).onto sane.advance
  refine .read ((elementType_writes rules _ begun.sane).bind fun type t typed => .get ?_)
  split
  · refine (arrayBounds_writes rules true t typed.sane).bind fun bounds u more => .spanFrom (.get ?_)
    refine (arraySuffixes_writes rules _ (array_writ typed more)).bind fun array v typed => ?_
    refine ((begun.append typed).part (elements_writes rules)).bind fun elements w so => ?_
    exact so.finish rfl rfl
  · refine .check (((begun.append typed).part (optionalArguments_writes rules _)).bind
      fun arguments u so => ?_)
    exact so.finish rfl rfl

/-- The current token is a whole expression. -/
theorem token_writ {e : Expression} (sane : s.Sane) (span : e.span = s.current.span)
    (bare : ((Node.expression e).children, (Node.expression e).punctuation) = ([], [])) :
    Writ s s.advance [.expression e] [] :=
  (Writ.refl sane).token span (by rw [Prod.mk.injEq] at bare; simp [bare, Node.closing?])

theorem keywordExpression_writes (rules : r.Punctuates) (keyword : Keyword) (sane : s.Sane) :
    Ensures (keywordExpression r s.current keyword) s fun e t => Writ s t [.expression e] [] := by
  unfold keywordExpression
  split
  · have so : Writ s s.advance [.expression (.globalNamespace s.current.span)] [] :=
      token_writ sane rfl rfl
    refine .skip (.check ?_)
    extract_lets give
    split
    · exact so
    · exact (so.pass (.reportUnexpected _)).bind fun _ _ so => so
  · exact token_writ sane rfl rfl
  · exact typeTest_writes rules s sane
  · exact typeObject_writes rules s sane
  · exact cast_writes rules _ s sane
  · exact cast_writes rules _ s sane
  · exact cast_writes rules _ s sane
  · exact creation_writes rules s sane
  · have so := (Writ.refl sane).onto sane.advance
    exact .skip ((so.part rules.operand).bind fun operand t so => so.finish rfl rfl)
  · split
    · exact token_writ sane rfl rfl
    · exact intrinsicCast_writes rules _ s sane
    · refine .kindAfter ?_
      split
      · exact nameExpression_writes rules (Writ.refl sane).name
      · exact badExpression_writes s sane

theorem primary_writes (rules : r.Punctuates) :
    Writes (primary r) (fun e => [.expression e]) fun _ => [] := by
  intro s sane
  have so := (Writ.refl sane).onto sane.advance
  refine .peek ?_
  split
  · exact token_writ sane rfl rfl
  · split
    · exact nameExpression_writes rules (Writ.refl sane).name
    next keyword _ => exact keywordExpression_writes rules keyword sane
    · exact parenthesized_writes rules s sane
    · exact memberAccess_writes none _ so (Nat.le_refl _) so.onward.here rules
    · exact dictionaryLookup_writes none _ so (Nat.le_refl _) so.onward.here
    · exact (Writ.refl sane).reportedToken (n := .expression (.bad s.current.span)) _ _ rfl rfl
    · exact badExpression_writes s sane

-- Members, keys and arguments behind an expression

/-- What is called has been read, and the arguments. -/
def HoldsCall (o t : ParseState) : Expression → Prop
  | .callOrIndex target arguments _ =>
    target.span.Lies o.here t.here ∧ arguments.span.Lies o.here t.here
  | _ => True

theorem holdsCall_of_not_call {o : ParseState} {e : Expression} (plain : isCall e = false) :
    HoldsCall o t e := by
  cases e with
  | callOrIndex => cases plain
  | _ => exact trivial

theorem postfixes_writes {o : ParseState} (rules : r.Punctuates) (n : Nat) {target : Expression}
    (so : Writ o s [.expression target] []) (within : HoldsCall o s target) :
    Ensures (postfixes r n target) s fun e t =>
      Writ o t [.expression e] [] ∧ HoldsCall o t e := by
  induction n generalizing s target with
  | zero => exact ⟨so, within⟩
  | succ n ih =>
    have lies := so.spans _ List.mem_cons_self rfl
    have passed := so.onto so.sane.advance
    have reached : target.span.start.index ≤ s.here := Nat.le_trans lies.order lies.finish
    have behind := Nat.le_trans reached so.sane.advance.here
    have goOn (t : ParseState) (e : Expression) (so : Writ o t [.expression e] [])
        (within : HoldsCall o t e) :
        Ensures (if endsInMissingName e then pure e else postfixes r n e) t fun e u =>
          Writ o u [.expression e] [] ∧ HoldsCall o u e := by
      split
      · exact ⟨so, within⟩
      · exact ih so within
    refine .peek ?_
    split
    · refine .skip ?_
      have member := memberAccess_writes (some target) s.current.span.start passed lies.start behind
        rules
      exact goOn _ _ member trivial
    · refine .skip ?_
      have member := dictionaryLookup_writes (some target) s.current.span.start passed lies.start
        behind
      exact goOn _ _ member trivial
    · refine (argumentList_ensures rules so.sane).bind fun arguments t facts => .spanFrom ?_
      obtain ⟨more, within⟩ := facts
      have spanned := more.sane.spanSince lies.start (Nat.le_trans reached more.onward.here)
      refine ih ((so.append more).node (fun _ => spanned) rfl rfl) ?_
      exact ⟨lies.mono (Nat.le_refl _) more.onward.here,
        within.mono so.onward.here (Nat.le_refl _)⟩
    · exact ⟨so, within⟩

theorem operand_ensures (rules : r.Punctuates) (sane : s.Sane) :
    Ensures (operand r) s fun e t => Writ s t [.expression e] [] ∧ HoldsCall s t e := by
  refine Ensures.bind (P := fun e t => Writ s t [.expression e] [] ∧ isCall e = false)
    ⟨primary_writes rules s sane, primary_isCall r s⟩ fun target t facts => ?_
  obtain ⟨so, plain⟩ := facts
  have within := holdsCall_of_not_call (o := s) (t := t) plain
  split
  · exact ⟨so, within⟩
  · exact .get (postfixes_writes rules _ so within)

theorem operand_writes (rules : r.Punctuates) :
    Writes (operand r) (fun e => [.expression e]) fun _ => [] :=
  fun _ sane => (operand_ensures rules sane).mono fun _ _ facts => facts.1

-- Operators

theorem unary_writes (rules : r.Punctuates) :
    Writes (unary r) (fun e => [.expression e]) fun _ => [] := by
  intro s sane
  refine .peek ?_
  split
  · exact operand_writes rules s sane
  · have so := (Writ.refl sane).onto sane.advance
    exact .skip ((so.part (rules.expression _)).bind fun operand t so => so.finish rfl rfl)

theorem binaries_writes {o : ParseState} (rules : r.Punctuates) (pending : Precedence) (n : Nat)
    {left : Expression} (so : Writ o s [.expression left] []) :
    Ensures (binaries r pending n left) s fun e t => Writ o t [.expression e] [] := by
  induction n generalizing s left with
  | zero => exact so
  | succ n ih =>
    refine .peek ?_
    split
    · exact so
    · split
      · exact so
      · have passed := so.onto so.sane.advance
        refine .skip ((passed.part (rules.expression _)).bind fun right t so => .spanFrom (ih ?_))
        have lies := so.spans (.expression left) List.mem_cons_self rfl
        exact so.node (fun _ => so.sane.spanSince lies.start (Nat.le_trans lies.order lies.finish))
          rfl rfl

theorem expression_writes (rules : r.Punctuates) (pending : Precedence) :
    Writes (expression r pending) (fun e => [.expression e]) fun _ => [] :=
  fun s sane => (unary_writes rules s sane).bind fun _ _ so =>
    .get (binaries_writes rules pending _ so)

end VisualBasic.Parse

namespace VisualBasic

open Parse

/-- The rules for phrases nested up to a depth write what they give: what is nested deeper is
reported. -/
theorem Rules.ofDepth_punctuates (version : Version) (n : Nat) :
    (Rules.ofDepth version n).Punctuates := by
  induction n with
  | zero =>
    exact ⟨fun _ => badExpression_writes, badExpression_writes, badType_writes _,
      missingElements_writes⟩
  | succ n rules =>
    exact ⟨fun pending => expression_writes rules pending, operand_writes rules,
      typeName_writes rules, elements_writes rules⟩

end VisualBasic
