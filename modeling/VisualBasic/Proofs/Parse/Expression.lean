import VisualBasic.Parse.Expression
import VisualBasic.Proofs.Parse.Argument

/-!
Expressions.  Each rule is sound for nested rules that are sound, so the rules for any depth of
nesting are.
-/

set_option autoImplicit false

namespace VisualBasic.Parse

variable {r : Rules} {s : ParseState}

theorem badExpression_yields (wf : s.Wf) : Yields badExpression s fun e => [.expression e] := by
  refine ((Stretch.refl wf).reportUnexpected rfl).bind fun _ t ⟨so, dirty, _⟩ => ?_
  exact (so.missing (fun place => .expression (.bad (.point place)))
    (fun none => absurd none dirty) rfl).bind fun _ _ facts => facts.1

theorem missingElements_yields (wf : s.Wf) : Yields missingElements s fun a => [.aggregate a] := by
  refine ((Stretch.refl wf).reportUnexpected rfl).bind fun _ t ⟨so, _, _⟩ => ?_
  exact (so.missing (fun place => .aggregate ⟨place, .empty place, none, .point place⟩)
    (fun _ => rfl) rfl).bind fun _ _ facts => facts.1

-- Names and members

/-- The name itself has been read. -/
theorem nameExpression_yields {o : ParseState} {token : Token} (sound : r.Sound)
    (so : Stretch token.span.start.index o s [.simpleName (.ofToken token)] []) :
    Ensures (nameExpression r token) s fun e t =>
      Stretch token.span.start.index o t [.expression e] [] := by
  refine .get ?_
  refine (so.optionally Node.ofTypeArguments rfl (typeArguments_yields sound so.wf)).bind
    fun arguments t so => ?_
  exact so.finish (so.reached List.mem_cons_self) rfl rfl

/-- The qualifier and the dot have been read. -/
theorem memberAccess_yields {lo : Nat} {o : ParseState} (qualifier : Option Expression)
    (dot : Location) (sound : r.Sound)
    (so : Stretch ((qualifier.map fun q => q.span.start).getD dot).index o s
      (Node.ofOption .expression qualifier) [])
    (lower : lo ≤ ((qualifier.map fun q => q.span.start).getD dot).index) :
    Ensures (memberAccess r qualifier dot) s fun e t => Stretch lo o t [.expression e] [] := by
  refine (so.part (memberName_yields so.wf)).bind fun name t so => .get ?_
  refine (so.optionally Node.ofTypeArguments rfl fun starts => ?_).bind fun arguments u so => ?_
  · exact typeArguments_yields sound so.wf (Bool.and_eq_true _ _ ▸ starts).2
  · have reached := so.reached (List.mem_append_left _ (List.mem_append_right _ List.mem_cons_self))
    rw [List.append_assoc] at so
    exact so.finishFrom lower reached rfl rfl

theorem dictionaryLookup_yields {lo : Nat} {o : ParseState} (qualifier : Option Expression)
    (bang : Location)
    (so : Stretch ((qualifier.map fun q => q.span.start).getD bang).index o s
      (Node.ofOption .expression qualifier) [])
    (lower : lo ≤ ((qualifier.map fun q => q.span.start).getD bang).index) :
    Ensures (dictionaryLookup qualifier bang) s fun e t => Stretch lo o t [.expression e] [] := by
  refine (so.part (memberName_yields so.wf)).bind fun name t so => ?_
  have reached := so.reached (List.mem_append_right _ List.mem_cons_self)
  exact so.finishFrom lower reached rfl rfl

-- Keywords with operands

theorem openParenthesis_stretch {lo : Nat} {o : ParseState} {ns : List Node}
    (so : Stretch lo o s ns []) :
    Ensures openParenthesis s fun _ t => Stretch lo o t ns [] :=
  (so.expect rfl rfl).bind fun _ _ facts => facts.1

theorem parenthesized_yields (sound : r.Sound) (wf : s.Wf) (solid : s.kind.isSolid = true) :
    Yields (parenthesized r) s fun e => [.expression e] := by
  refine .read wf solid fun so reached => ?_
  refine (so.part (value_yields sound so.wf)).bind fun operand t so => ?_
  refine so.closeParenthesis.bind fun closeParen u so => ?_
  exact so.finish (so.past reached) rfl rfl

theorem typeTest_yields (sound : r.Sound) (wf : s.Wf) (solid : s.kind.isSolid = true) :
    Yields (typeTest r) s fun e => [.expression e] := by
  refine .read wf solid fun so reached => ?_
  refine (so.part (sound.expression _ _ so.wf)).bind fun operand t so => ?_
  refine (so.expectPlace rfl rfl).bind fun isKeyword u ⟨so, present⟩ => ?_
  extract_lets finish
  have finishes (type : TypeName) (v : ParseState)
      (so : Stretch s.here s.advance v [.expression operand, .typeName type] []) :
      Ensures (finish type) v fun e w => Stretch s.here s.advance w [.expression e] [] :=
    so.finish (so.past reached) rfl rfl
  split
  · exact (so.part (sound.typeName _ so.wf)).bind fun type v so => finishes type v so
  next absent =>
    have dirty (none : u.diagnostics = []) : False := absent (present none)
    exact (so.missing (fun place => .typeName (.bad (.point place)))
      (fun none => (dirty none).elim) rfl).bind fun place v facts => finishes _ v facts.1

theorem typeObject_yields (sound : r.Sound) (wf : s.Wf) (solid : s.kind.isSolid = true) :
    Yields (typeObject r) s fun e => [.expression e] := by
  refine .read wf solid fun so reached => ?_
  refine (openParenthesis_stretch so).bind fun _ t so => ?_
  refine (so.part (sound.typeName _ so.wf)).bind fun type u so => ?_
  refine so.closeParenthesis.bind fun closeParen v so => ?_
  exact so.finish (so.past reached) rfl rfl

theorem cast_yields (sound : r.Sound) (kind : CastKind) (wf : s.Wf)
    (solid : s.kind.isSolid = true) : Yields (cast r kind) s fun e => [.expression e] := by
  refine .read wf solid fun so reached => ?_
  refine (openParenthesis_stretch so).bind fun _ t so => ?_
  refine (so.part (value_yields sound so.wf)).bind fun operand u so => ?_
  refine (so.expectPlace rfl rfl).bind fun comma v ⟨so, _⟩ => ?_
  refine (so.part (sound.typeName _ so.wf)).bind fun type w so => ?_
  refine so.closeParenthesis.bind fun closeParen x so => ?_
  refine so.finishWhen (so.past reached) rfl rfl fun _ => ?_
  cases kind <;> rfl

theorem intrinsicCast_yields (sound : r.Sound) (target : IntrinsicType) (wf : s.Wf)
    (solid : s.kind.isSolid = true) :
    Yields (intrinsicCast r target) s fun e => [.expression e] := by
  refine .read wf solid fun so reached => ?_
  refine (openParenthesis_stretch so).bind fun _ t so => ?_
  refine (so.part (value_yields sound so.wf)).bind fun operand u so => ?_
  refine so.closeParenthesis.bind fun closeParen v so => ?_
  exact so.finish (so.past reached) rfl rfl

-- Objects and arrays

theorem initializer_yields (sound : r.Sound) (wf : s.Wf) :
    Yields (initializer r) s fun i => [Node.ofInitializer i] := by
  refine .check ?_
  split
  · exact (sound.elements s wf).bind fun _ _ so => so
  · exact (value_yields sound wf).bind fun _ _ so => so

theorem elements_yields (sound : r.Sound) (wf : s.Wf) :
    Yields (elements r) s fun a => [.aggregate a] := by
  refine .eatPlace wf rfl (fun _ => missingElements_yields wf) fun so reached => .check ?_
  extract_lets close
  have closes (elements : CommaList Initializer) (t : ParseState)
      (so : Stretch s.here s.advance t (elements.items.map Node.ofInitializer) []) :
      Ensures (close elements) t fun a u => Stretch s.here s.advance u [.aggregate a] [] := by
    refine (so.expectPlace rfl rfl).bind fun closeBrace u ⟨so, _⟩ => ?_
    exact so.finish (so.past reached) rfl rfl
  split
  · exact .here (closes _ _ so)
  · refine (so.part (commaList_yields _ _ (fun _ wf => initializer_yields sound wf) so.wf)).bind
      fun elements t so => ?_
    exact closes elements t so

theorem isSolid_of_atArraySize (starts : s.atArraySize = true) : s.kind.isSolid = true := by
  simp only [ParseState.atArraySize, ParseState.ahead, Lookahead.kindBehindGroup?,
    Bool.and_eq_true] at starts
  by_cases paren : s.current.kind = .mark .leftParenthesis
  · rw [ParseState.kind, paren]
    rfl
  · simp [paren] at starts

theorem creation_yields (sound : r.Sound) (wf : s.Wf) (solid : s.kind.isSolid = true) :
    Yields (creation r) s fun e => [.expression e] := by
  refine .read wf solid fun so reached => ?_
  refine (elementType_yields sound so.wf).bind fun type t typed => .get ?_
  split
  next array =>
    have starts := (Bool.and_eq_true _ _ ▸ array).2
    refine (arrayBounds_yields sound true typed.wf (isSolid_of_atArraySize starts)).bind
      fun bounds u more => .spanFrom (.get ?_)
    refine (arraySuffixes_yields sound _ (array_type typed more)).bind fun array v typed => ?_
    have so := so.append typed
    refine (so.part (elements_yields sound so.wf)).bind fun elements w so => ?_
    exact so.finish (so.past reached) rfl rfl
  next =>
    have so := so.append typed
    refine .check ?_
    refine (optionalArguments_ensures sound _ so).bind fun arguments u facts => ?_
    obtain ⟨so, names⟩ := facts
    exact so.finishWhen (so.past reached) rfl rfl fun none =>
      Node.isProper_of_arguments (names none) rfl

/-- The current token is a whole expression. -/
theorem token_expression {e : Expression} (wf : s.Wf) (solid : s.kind.isSolid = true)
    (span : e.span = s.current.span) (leaf : (Node.expression e).children = [])
    (whole : (Node.expression e).isProper = true) :
    Stretch s.here s s.advance [.expression e] [] :=
  (Stretch.refl wf).token solid span leaf (fun _ => whole) rfl

theorem keywordExpression_yields (sound : r.Sound) {keyword : Keyword} (wf : s.Wf)
    (kind : s.kind = .word keyword) :
    Yields (keywordExpression r s.current keyword) s fun e => [.expression e] := by
  have solid : s.kind.isSolid = true := by rw [kind]; rfl
  have named : s.current.name?.isSome = true := name?_of_kind (.inr ⟨_, kind⟩)
  unfold keywordExpression
  split
  · have so : Stretch s.here s s.advance [.expression (.globalNamespace s.current.span)] [] :=
      token_expression wf solid rfl rfl rfl
    refine (Stretch.refl wf).skip solid fun _ => .check ?_
    extract_lets give
    split
    · exact so
    · exact (so.reportUnexpected rfl).bind fun _ _ facts => facts.1
  · exact token_expression wf solid rfl rfl rfl
  · exact typeTest_yields sound wf solid
  · exact typeObject_yields sound wf solid
  · exact cast_yields sound _ wf solid
  · exact cast_yields sound _ wf solid
  · exact cast_yields sound _ wf solid
  · exact creation_yields sound wf solid
  · refine .skip wf solid fun so reached => ?_
    refine (so.part (sound.operand _ so.wf)).bind fun operand t so => ?_
    exact so.finish (so.past reached) rfl rfl
  · split
    next instanceKind _ =>
      refine token_expression wf solid rfl rfl ?_
      cases instanceKind <;> rfl
    next target _ _ => exact intrinsicCast_yields sound target wf solid
    next =>
      refine .kindAfter ?_
      split
      · exact nameExpression_yields sound (named_token (.refl wf) named)
      · exact badExpression_yields wf

theorem isSolid_of_constant {k : Token} {value : Constant}
    (denotes : Constant.ofToken? k = some value) : k.kind.isSolid = true := by
  unfold Constant.ofToken? at denotes
  unfold Token.kind
  split at denotes
  next literal lexeme =>
    rw [lexeme]
    simp only [Lexeme.kind, Literal.tokenKind]
    split <;> rfl
  all_goals simp_all [Lexeme.kind, TokenKind.isSolid]

theorem isProper_constant (value : Constant) (span : Span) :
    (Node.expression (.literal value span)).isProper = true := by
  cases value with
  | boolean => rfl
  | literal literal => cases literal <;> rfl

theorem primary_yields (sound : r.Sound) (wf : s.Wf) :
    Yields (primary r) s fun e => [.expression e] := by
  refine .peek ?_
  split
  next value denotes =>
    exact token_expression wf (isSolid_of_constant denotes) rfl rfl (isProper_constant _ _)
  next =>
    split
    next kind =>
      exact nameExpression_yields sound (named_token (.refl wf) (name?_of_kind (.inl kind)))
    next keyword kind => exact keywordExpression_yields sound wf kind
    next kind => exact parenthesized_yields sound wf (by rw [ParseState.kind, kind]; rfl)
    next kind =>
      refine Yields.skip wf (by rw [ParseState.kind, kind]; rfl) fun so _ => ?_
      exact memberAccess_yields none _ sound so (Nat.le_refl _)
    next kind =>
      refine Yields.skip wf (by rw [ParseState.kind, kind]; rfl) fun so _ => ?_
      exact dictionaryLookup_yields none _ so (Nat.le_refl _)
    next kind =>
      -- the only token that is passed although it could not be understood
      refine ((Stretch.refl wf).reportUnexpected rfl).bind fun _ t facts => ?_
      obtain ⟨so, dirty, ahead⟩ := facts
      obtain ⟨current, -⟩ := List.cons.inj ahead
      have goesOn : t.kind ≠ .endOfStream := by
        rw [ParseState.kind, current, kind]
        simp
      have finish := ParseState.finish_le_limit_advance so.wf goesOn
      rw [current] at finish
      have inside : t.kind ≠ .lineTerminator := by
        rw [ParseState.kind, current, kind]
        simp
      exact (so.advance (fun _ => dirty) inside).leaf (n := .expression (.bad s.current.span))
        (Nat.le_refl _)
        (by simp) wf.stream.order finish rfl (fun none => absurd (t.diagnostics_advance ▸ none) dirty) rfl
    next => exact badExpression_yields wf

-- Members, keys and arguments behind an expression

def isCall : Expression → Bool
  | .callOrIndex _ _ _ => true
  | _ => false

theorem typeTest_isCall (r : Rules) (s : ParseState) :
    Ensures (typeTest r) s fun e _ => isCall e = false := by
  refine Ensures.any.bind fun _ t _ => Ensures.any.bind fun _ u _ => ?_
  refine Ensures.any.bind fun isKeyword v _ => ?_
  extract_lets finish
  split <;> exact rfl

theorem creation_isCall (r : Rules) (s : ParseState) :
    Ensures (creation r) s fun e _ => isCall e = false := by
  refine Ensures.any.bind fun _ t _ => Ensures.any.bind fun type u _ => .get ?_
  split <;> exact rfl

theorem keywordExpression_isCall (r : Rules) (token : Token) (keyword : Keyword) (s : ParseState) :
    Ensures (keywordExpression r token keyword) s fun e _ => isCall e = false := by
  unfold keywordExpression
  split
  · refine Ensures.any.bind fun _ t _ => .check ?_
    extract_lets give
    split <;> exact rfl
  · exact rfl
  · exact typeTest_isCall r s
  · exact rfl
  · exact rfl
  · exact rfl
  · exact rfl
  · exact creation_isCall r s
  · exact rfl
  · split
    · exact rfl
    · exact rfl
    · refine .kindAfter ?_
      split <;> exact rfl

/-- No call is a primary expression. -/
theorem primary_isCall (r : Rules) (s : ParseState) :
    Ensures (primary r) s fun e _ => isCall e = false := by
  refine .peek ?_
  split
  · exact rfl
  · split
    · exact rfl
    next keyword _ => exact keywordExpression_isCall r _ keyword s
    all_goals exact rfl

/-- The arguments of a call lie within their list, and the list within the call, behind what is
called. -/
def Groups : Expression → Prop
  | .callOrIndex target arguments span => ∀ a ∈ arguments.arguments.items,
      span.contains arguments.span = true ∧ arguments.span.contains a.span = true ∧
        target.span.finish.index ≤ arguments.span.start.index
  | _ => True

theorem groups_of_not_call {e : Expression} (plain : isCall e = false) : Groups e := by
  cases e with
  | callOrIndex => cases plain
  | _ => exact trivial

theorem call_groups {lo : Nat} {o t : ParseState} {target : Expression} {arguments : Arguments}
    (so : Stretch lo o s [.expression target] [])
    (more : Stretch s.here s t (arguments.arguments.items.map .argument) [])
    (span : arguments.span = t.spanSince s.current.span.start) :
    Groups (.callOrIndex target arguments (t.spanSince target.span.start)) := by
  intro a member
  have before := so.fits _ (List.mem_singleton.2 rfl)
  have inside := more.fits _ (List.mem_map_of_mem member)
  have order : target.span.start.index ≤ target.span.finish.index := before.order
  have finish : target.span.finish.index ≤ s.limit := before.finish
  have behind := so.wf.behind
  have reached := more.reached (List.mem_map_of_mem member)
  have start : s.here ≤ a.span.start.index := inside.start
  have last : a.span.finish.index ≤ t.limit := inside.finish
  rw [span, Node.contains_iff, Node.contains_iff, t.index_finishSince, t.index_finishSince]
  change (target.span.start.index ≤ s.here ∧ max s.here t.limit ≤ _) ∧
    (s.here ≤ a.span.start.index ∧ a.span.finish.index ≤ max s.here t.limit) ∧
      target.span.finish.index ≤ s.here
  omega

theorem postfixes_yields {lo : Nat} {o : ParseState} (sound : r.Sound) (n : Nat)
    {target : Expression} (so : Stretch lo o s [.expression target] []) (groups : Groups target) :
    Ensures (postfixes r n target) s fun e t =>
      Stretch lo o t [.expression e] [] ∧ Groups e := by
  induction n generalizing s target with
  | zero => exact ⟨so, groups⟩
  | succ n ih =>
    have lower := (so.fits _ (List.mem_singleton.2 rfl)).start
    have goOn (t : ParseState) (e : Expression) (so : Stretch lo o t [.expression e] [])
        (groups : Groups e) :
        Ensures (if endsInMissingName e then pure e else postfixes r n e) t fun e u =>
          Stretch lo o u [.expression e] [] ∧ Groups e := by
      split
      · exact ⟨so, groups⟩
      · exact ih so groups
    refine .peek ?_
    split
    next kind =>
      refine so.rebase.skip (by rw [ParseState.kind, kind]; rfl) fun so => ?_
      have member := memberAccess_yields (some target) s.current.span.start sound so lower
      exact goOn _ _ member trivial
    next kind =>
      refine so.rebase.skip (by rw [ParseState.kind, kind]; rfl) fun so => ?_
      have member := dictionaryLookup_yields (some target) s.current.span.start so lower
      exact goOn _ _ member trivial
    next kind =>
      have solid : s.kind.isSolid = true := by rw [ParseState.kind, kind]; rfl
      refine (argumentList_yields sound so.wf solid).bind fun arguments t facts => ?_
      obtain ⟨more, span, names⟩ := facts
      have long := so.rebase.append more
      have call := (long.wrap (n := .expression (.callOrIndex target arguments _))
        (long.reached List.mem_cons_self) rfl rfl
        (fun none => Node.isProper_of_arguments (names none) rfl) rfl rfl (fun _ _ => rfl)
        fun _ => Node.orderly_of_flat rfl _).weaken lower
      exact ih call (call_groups so more span)
    next => exact ⟨so, groups⟩

theorem operand_groups (sound : r.Sound) (wf : s.Wf) :
    Ensures (operand r) s fun e t => Stretch s.here s t [.expression e] [] ∧ Groups e := by
  have groups := (primary_isCall r s).mono fun _ _ plain => groups_of_not_call plain
  refine Ensures.bind (P := fun e t => Stretch s.here s t [.expression e] [] ∧ Groups e)
    ⟨primary_yields sound wf, groups⟩ fun target t ⟨so, groups⟩ => ?_
  split
  · exact ⟨so, groups⟩
  · exact .get (postfixes_yields sound _ so groups)

theorem operand_yields (sound : r.Sound) (wf : s.Wf) :
    Yields (operand r) s fun e => [.expression e] :=
  (operand_groups sound wf).mono fun _ _ facts => facts.1

-- Operators

theorem isSolid_of_unary {kind : TokenKind} {op : UnaryOperator}
    (denotes : UnaryOperator.ofKind? kind = some op) : kind.isSolid = true := by
  cases kind <;> first | rfl | simp [UnaryOperator.ofKind?] at denotes

theorem isSolid_of_binary {kind : TokenKind} {op : BinaryOperator}
    (denotes : BinaryOperator.ofKind? kind = some op) : kind.isSolid = true := by
  cases kind <;> first | rfl | simp [BinaryOperator.ofKind?] at denotes

theorem unary_yields (sound : r.Sound) (wf : s.Wf) :
    Yields (unary r) s fun e => [.expression e] := by
  refine .peek ?_
  split
  · exact operand_yields sound wf
  next op denotes =>
    refine Yields.skip wf (isSolid_of_unary denotes) fun so reached => ?_
    refine (so.part (sound.expression _ _ so.wf)).bind fun operand t so => ?_
    exact so.finish (so.past reached) rfl rfl

theorem binaries_yields {lo : Nat} {o : ParseState} (sound : r.Sound) (pending : Precedence)
    (n : Nat) {left : Expression} (so : Stretch lo o s [.expression left] []) :
    Ensures (binaries r pending n left) s fun e t => Stretch lo o t [.expression e] [] := by
  induction n generalizing s left with
  | zero => exact so
  | succ n ih =>
    refine .peek ?_
    split
    · exact so
    next op denotes =>
      split
      · exact so
      · have lower := (so.fits _ (List.mem_singleton.2 rfl)).start
        refine so.rebase.skip (isSolid_of_binary denotes) fun so => ?_
        refine (so.part (sound.expression _ _ so.wf)).bind fun right t so => .spanFrom (ih ?_)
        exact (so.wrap (so.reached List.mem_cons_self) rfl rfl (fun _ => rfl) rfl rfl
          (fun _ _ => rfl) fun _ => Node.orderly_of_flat rfl _).weaken lower

theorem expression_yields (sound : r.Sound) (pending : Precedence) (wf : s.Wf) :
    Yields (expression r pending) s fun e => [.expression e] :=
  (unary_yields sound wf).bind fun _ _ so => .get (binaries_yields sound pending _ so)

end VisualBasic.Parse

namespace VisualBasic

open Parse

/-- The rules for phrases nested up to a depth are sound: what is nested deeper is reported. -/
theorem Rules.ofDepth_sound (version : Version) (n : Nat) : (Rules.ofDepth version n).Sound := by
  induction n with
  | zero =>
    exact ⟨fun _ _ => badExpression_yields, fun _ => badExpression_yields,
      fun _ => badType_yields rfl, fun _ => missingElements_yields⟩
  | succ n sound =>
    exact ⟨fun pending _ => expression_yields sound pending, fun _ => operand_yields sound,
      fun _ => typeName_yields sound, fun _ => elements_yields sound⟩

end VisualBasic
