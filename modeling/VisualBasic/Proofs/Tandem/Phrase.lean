import VisualBasic.Parse.Expression
import VisualBasic.Proofs.Tandem.Rule

/-!
Names, types and expressions are read alike in a text and in a longer one: the tokens of a phrase
stand on one line, and where the text ends every phrase ends.
-/

set_option autoImplicit false

namespace VisualBasic

/-- The rules for nested phrases read alike, as long as fewer tokens are left than the given
number. -/
structure Rules.Agree (c : Seam) (k : Bound) (r r' : Rules) : Prop where
  version : r'.version = r.version
  expression : ∀ o pending X Y, Near c o k X Y →
    Tracks c o k (r.expression pending) (r'.expression pending) X Y
  operand : ∀ o X Y, Near c o k X Y → Tracks c o k r.operand r'.operand X Y
  typeName : ∀ o X Y, Near c o k X Y → Tracks c o k r.typeName r'.typeName X Y
  elements : ∀ o X Y, Near c o k X Y → Tracks c o k r.elements r'.elements X Y

/-- What is found at no end of a line is found within a line. -/
theorem TokenKind.inside_of {α : Type} {f : TokenKind → Option α} {kind : TokenKind} {a : α}
    (found : f kind = some a) (breaks : f .lineTerminator = none) (ends : f .endOfStream = none)
    (remark : f .comment = none) : kind.endsLine = false := by
  cases kind with
  | lineTerminator | endOfStream | comment => simp_all
  | _ => rfl

namespace Rules.Agree

variable {c : Seam} {o : ParseState} {k j : Bound} {r r' : Rules} {X Y : ParseState}

theorem mono (agree : Agree c k r r') (fewer : j ≤ k) : Agree c j r r' where
  version := agree.version
  expression o pending X Y near := (agree.expression o pending X Y (near.mono fewer)).within near
  operand o X Y near := (agree.operand o X Y (near.mono fewer)).within near
  typeName o X Y near := (agree.typeName o X Y (near.mono fewer)).within near
  elements o X Y near := (agree.elements o X Y (near.mono fewer)).within near

theorem value (agree : Agree c k r r') (near : Near c o k X Y) : Tracks c o k r.value r'.value X Y :=
  agree.expression o _ X Y near

end Rules.Agree

namespace Parse

variable {α β : Type} [Relocate α] [Relocate β] {c : Seam} {o : ParseState} {k : Bound}
  {r r' : Rules} {X Y : ParseState}

-- Names

theorem integerOf?_relocate (g : Location → Location) (t : Token) :
    integerOf? (relocate g t) = integerOf? t :=
  rfl

theorem missingName_tracks (near : Near c o k X Y) : Tracks c o k missingName missingName X Y :=
  near.reportUnexpected fun _ _ _ near => near.placeholder.bind fun _ _ _ near => near.pure rfl

theorem identifier_tracks (near : Near c o k X Y) : Tracks c o k identifier identifier X Y := by
  refine near.peek ?_ fun x y ends breaks _ _ => ?_
  · rw [Token.kind_relocate, SimpleName.ofToken_relocate]
    split
    next named => exact near.up.skipSolid named rfl fun X Y near => near.pure rfl
    next word named =>
      refine near.report (fun _ => rfl) fun X' Y' same near => ?_
      exact near.up.skipSolid ((ParseState.kind_of_ahead same).trans named) rfl fun X Y near => near.pure rfl
    next => exact missingName_tracks near
  · simp only [Token.kind, Lexeme.kind, ends, breaks]
    exact missingName_tracks near

theorem inside_of_named {t : Token} (named : t.name?.isSome = true) : t.kind.endsLine = false := by
  unfold Token.name? at named
  unfold Token.kind
  split at named
  all_goals simp_all [Lexeme.kind, TokenKind.endsLine]

theorem memberName_tracks (near : Near c o k X Y) : Tracks c o k memberName memberName X Y := by
  refine near.peek ?_ fun x y ends breaks _ _ => ?_
  · rw [SimpleName.ofToken_relocate]
    show Tracks c o _ _ (ite (X.current.name?.isSome = true) _ _) X Y
    split
    next named => exact near.up.skip (inside_of_named named) fun _ _ near => near.pure rfl
    next => exact missingName_tracks near
  · simp only [Token.name?, ends, breaks]
    exact missingName_tracks near

theorem run_nameParts_of_ne {s : ParseState} (other : s.kind ≠ .mark .period) (n : Nat) (name : Name) :
    (nameParts n name).run s = (name, s) := by
  cases n with
  | zero => rfl
  | succ n => exact Paired.run_eatPlace_of_ne other

theorem nameParts_tracks {n m : Nat} (near : Near c o (Bound.mk n m + 1) X Y) (name : Name) :
    Tracks c o (Bound.mk n m + 1) (nameParts n name) (nameParts m (relocate c.carry name)) X Y := by
  refine near.steps (motive := fun n m X Y => ∀ name, Tracks c o (Bound.mk n m + 1)
    (nameParts n name) (nameParts m (relocate c.carry name)) X Y)
    (fun n m X Y near ends name => ?_) (fun n m next X Y near name => ?_) name
  · obtain ⟨here, there⟩ := near.ended_ne ends (.mark .period) rfl
    exact (near.pure rfl).ofRun (run_nameParts_of_ne here ..) (run_nameParts_of_ne there ..)
  · refine near.eatPlace rfl (fun _ => near.pure rfl) fun _ X Y near => ?_
    refine (memberName_tracks near).bind fun part X Y near => ?_
    rw [Name.span_relocate, SimpleName.isMissing_relocate]
    dsimp only
    split
    · exact near.up.pure rfl
    · exact (next X Y near _).up

theorem name_tracks (near : Near c o k X Y) : Tracks c o k name name X Y := by
  have missing : Tracks c o k (missingName >>= fun n => pure (Name.simple n))
      (missingName >>= fun n => pure (Name.simple n)) X Y :=
    (missingName_tracks near).bind fun _ _ _ near => near.pure rfl
  refine near.peek ?_ fun x y ends breaks _ _ => ?_
  · rw [Token.kind_relocate, SimpleName.ofToken_relocate]
    split
    next named =>
      refine near.up.skipSolid named rfl fun X Y near => Paired.get ?_
      exact (nameParts_tracks near.fresh _).within near
    next word =>
      refine near.up.skipSolid word rfl fun X Y near => ?_
      refine near.check rfl (fun _ => Paired.get ?_) fun _ => ?_
      · exact (nameParts_tracks near.fresh _).within near
      · refine near.reportUnexpected fun X Y _ near => Paired.get ?_
        exact (nameParts_tracks near.fresh _).within near
    next => exact missing
  · simp only [Token.kind, Lexeme.kind, ends, breaks]
    exact missing

theorem stringLiteral_tracks (near : Near c o k X Y) : Tracks c o k stringLiteral stringLiteral X Y := by
  refine near.peek ?_ fun x y ends breaks _ _ => ?_
  · rw [Token.lexeme_relocate]
    split
    next text literal =>
      have kind : X.current.kind = .stringLiteral := by
        rw [Token.kind, literal]
        rfl
      exact near.up.skipSolid kind rfl fun _ _ near => near.pure rfl
    next => exact near.reportUnexpected fun _ _ _ near => near.pure rfl
  · simp only [ends, breaks]
    exact near.reportUnexpected fun _ _ _ near => near.pure rfl

theorem inside_of_integerOf? {t : Token} {value : Int} (number : integerOf? t = some value) :
    t.kind.endsLine = false := by
  unfold integerOf? at number
  split at number
  next literal =>
    rw [Token.kind, literal]
    rfl
  next => cases number

theorem label_tracks (near : Near c o k X Y) : Tracks c o k label label X Y := by
  have missing : Tracks c o k (reportUnexpected .expectedLabel >>= fun _ => placeholder >>= fun place =>
        pure (Label.name (.missing place)))
      (reportUnexpected .expectedLabel >>= fun _ => placeholder >>= fun place =>
        pure (Label.name (.missing place))) X Y :=
    near.reportUnexpected fun _ _ _ near => near.placeholder.bind fun _ _ _ near => near.pure rfl
  refine near.peek ?_ fun x y ends breaks _ _ => ?_
  · rw [Token.kind_relocate, SimpleName.ofToken_relocate, integerOf?_relocate]
    split
    next named => exact near.up.skipSolid named rfl fun _ _ near => near.pure rfl
    next value number _ =>
      exact near.up.skip (inside_of_integerOf? number) fun _ _ near => near.pure rfl
    next => exact missing
  · simp only [Token.kind, Lexeme.kind, integerOf?, ends, breaks]
    exact missing

-- Types

theorem badType_tracks (near : Near c o k X Y) (problem : Problem) :
    Tracks c o k (badType problem) (badType problem) X Y :=
  near.reportUnexpected fun _ _ _ near => near.placeholder.bind fun _ _ _ near => near.pure rfl

theorem genericList_tracks {span : α → Span} {item item' : Parse α} (near : Near c o (k + 1) X Y)
    (starts : X.atTypeArguments = true)
    (spans : ∀ a, span (relocate c.carry a) = relocate c.carry (span a))
    (each : ∀ X Y, Near c o k X Y → Tracks c o k item item' X Y) :
    Tracks c o k (genericList span item) (genericList span item') X Y := by
  obtain ⟨first, second⟩ := Bool.and_eq_true_iff.1 starts
  have parenthesis : X.kind.endsLine = false := Paired.endsLine_of rfl (beq_iff_eq.1 first)
  refine near.readOver parenthesis fun X' Y' behind near => ?_
  have word : X'.kind.endsLine = false := Paired.endsLine_of rfl (behind.trans (beq_iff_eq.1 second))
  refine near.up.read word fun X Y near => ?_
  refine (near.separated each).bind fun items X Y near => ?_
  refine (near.spanFrom rfl).bind fun list X Y near => ?_
  refine near.closeParenthesis.bind fun close X Y near => near.pure ?_
  have hull : (span (relocate c.carry items.first)).upTo (relocate c.carry list) =
      relocate c.carry ((span items.first).upTo list) := by
    rw [spans]
    rfl
  show (_, _, (relocate c.carry items).toCommaList
    ((span (relocate c.carry items.first)).upTo (relocate c.carry list)), _) = _
  rw [hull, Separated.toCommaList_relocate]
  rfl

theorem typeArguments_tracks (agree : r.Agree c k r') (near : Near c o (k + 1) X Y)
    (starts : X.atTypeArguments = true) :
    Tracks c o k (typeArguments r) (typeArguments r') X Y := by
  refine (genericList_tracks near starts (TypeName.span_relocate _) (agree.typeName o)).bind ?_
  rintro ⟨openParen, ofKeyword, arguments, closeParen⟩ X Y near
  exact (near.spanFrom rfl).bind fun _ _ _ near => near.pure rfl

theorem elementType_tracks (agree : r.Agree c k r') (near : Near c o (k + 1) X Y) :
    Tracks c o (k + 1) (elementType r) (elementType r') X Y := by
  refine near.peek ?_ fun x y ends breaks _ _ => ?_
  · rw [Token.kind_relocate]
    split
    next type word =>
      exact near.skip (TokenKind.inside_of word rfl rfl rfl) fun _ _ near => near.up.pure rfl
    next =>
      split
      next =>
        refine (name_tracks near).bind fun name X Y near => Paired.get ?_
        rw [near.atTypeArguments]
        split
        next starts =>
          refine (typeArguments_tracks agree near starts).bind fun arguments X Y near => ?_
          refine (near.spanFrom rfl).bind fun span X Y near => near.up.pure ?_
          exact (relocate_constructed ..).symm
        next =>
          refine near.pure ?_
          rw [Name.span_relocate]
          rfl
      next => exact badType_tracks near _
  · simp only [Token.kind, Lexeme.kind, ends, breaks]
    exact badType_tracks near _

theorem arrayBound_tracks (agree : r.Agree c k r') (near : Near c o k X Y) :
    Tracks c o k (arrayBound r) (arrayBound r') X Y := by
  refine (agree.value near).bind fun first X Y near => ?_
  refine near.up.eatPlace rfl (fun _ => ?_) fun _ X Y near => ?_
  · refine near.pure ?_
    rw [Expression.span_relocate]
    rfl
  · refine (agree.value near).bind fun upper X Y near => ?_
    rw [Expression.span_relocate]
    exact (near.spanFrom rfl).bind fun span X Y near => near.pure rfl

theorem dimension_tracks (agree : r.Agree c k r') (near : Near c o k X Y) :
    Tracks c o k (dimension r) (dimension r') X Y := by
  refine Paired.get (near.optionally ?_ fun _ => arrayBound_tracks agree near)
  rw [near.kind.beq rfl, near.kind.beq rfl, near.toTwin.atStatementEnd]

theorem filterMap_relocate (g : Location → Location) (items : List (Option α)) :
    (relocate g items).filterMap id = relocate g (items.filterMap id) := by
  show (items.map (Option.map (relocate g))).filterMap id = (items.filterMap id).map (relocate g)
  rw [List.filterMap_map, List.map_filterMap]
  rfl

theorem arrayBounds_tracks (agree : r.Agree c k r') (near : Near c o (k + 1) X Y)
    (inside : X.kind.endsLine = false) (allowBounds : Bool) :
    Tracks c o k (arrayBounds r allowBounds) (arrayBounds r' allowBounds) X Y := by
  have closes {openParen : Location} {rank : Nat} {list list' : CommaList (ArrayBound Expression)}
      {X Y : ParseState} (same : list' = relocate c.carry list) (near : Near c o k X Y) :
      Tracks c o k
        (pure list >>= fun list => closeParenthesis >>= fun close => spanFrom openParen >>= fun span =>
          pure (ArrayBounds.mk openParen rank list close span))
        (pure list' >>= fun list => closeParenthesis >>= fun close =>
          spanFrom (c.carry openParen) >>= fun span =>
            pure (ArrayBounds.mk (c.carry openParen) rank list close span)) X Y := by
    refine (near.pure same).bind fun list X Y near => ?_
    refine near.closeParenthesis.bind fun close X Y near => ?_
    exact (near.spanFrom rfl).bind fun span X Y near => near.pure rfl
  refine near.read inside fun X Y near => ?_
  refine (near.separated fun X Y near => dimension_tracks agree near).bind
    fun dimensions X Y near => ?_
  rw [Separated.items_relocate, Separated.separators_relocate, filterMap_relocate]
  dsimp only
  generalize dimensions.items.filterMap id = bounds
  rw [head?_relocate, getLast?_relocate, length_relocate, length_relocate, take_relocate]
  cases bounds.head? with
  | none => exact closes rfl near
  | some first =>
    cases bounds.getLast? with
    | none => exact closes rfl near
    | some last =>
      have hull : (relocate c.carry first).span.merge (relocate c.carry last).span =
          relocate c.carry (first.span.merge last.span) := Seam.merge_carry _ _
      dsimp only [relocate_some]
      rw [hull]
      split
      · refine near.placeholder.bind fun place X Y near => ?_
        refine near.report (fun _ => rfl) fun X Y _ near => ?_
        cases allowBounds with
        | true => exact closes rfl near
        | false => exact near.report (fun _ => rfl) fun X Y _ near => closes rfl near
      · cases allowBounds with
        | true => exact closes rfl near
        | false => exact near.report (fun _ => rfl) fun X Y _ near => closes rfl near

theorem arrayOver_relocate (g : Location → Location) (element : TypeName)
    (bounds : ArrayBounds Expression) (span : Span) :
    arrayOver (relocate g element) (relocate g bounds) (relocate g span) =
      relocate g (arrayOver element bounds span) := by
  have rankOnly : (relocate g bounds).isRankOnly = bounds.isRankOnly := List.isEmpty_map
  unfold arrayOver
  rw [relocate_array, rankOnly]
  split <;> rfl

theorem run_arraySuffixes_of_ne {s : ParseState} (other : s.kind ≠ .mark .leftParenthesis) (n : Nat)
    (element : TypeName) : (arraySuffixes r n element).run s = (element, s) := by
  cases n with
  | zero => rfl
  | succ n =>
    show (ite ((s.kind == .mark .leftParenthesis && !s.atTypeArguments) = true) _ _ :
      Parse TypeName).run s = _
    rw [beq_eq_false_iff_ne.2 other]
    rfl

theorem arraySuffixes_tracks {n m : Nat} (agree : r.Agree c ⟨n, m⟩ r')
    (near : Near c o (Bound.mk n m + 1) X Y) (element : TypeName) :
    Tracks c o (Bound.mk n m + 1) (arraySuffixes r n element)
      (arraySuffixes r' m (relocate c.carry element)) X Y := by
  refine near.steps (motive := fun n m X Y => r.Agree c ⟨n, m⟩ r' → ∀ element,
    Tracks c o (Bound.mk n m + 1) (arraySuffixes r n element)
      (arraySuffixes r' m (relocate c.carry element)) X Y)
    (fun n m X Y near ends _ element => ?_) (fun n m next X Y near agree element => ?_) agree element
  · obtain ⟨here, there⟩ := near.ended_ne ends (.mark .leftParenthesis) rfl
    exact (near.pure rfl).ofRun (run_arraySuffixes_of_ne here ..) (run_arraySuffixes_of_ne there ..)
  · refine Paired.get ?_
    rw [near.kind.beq rfl, near.atTypeArguments]
    split
    next starts =>
      have inside := Paired.endsLine_of rfl (beq_iff_eq.1 (Bool.and_eq_true_iff.1 starts).1)
      refine (arrayBounds_tracks agree near inside false).bind fun bounds X Y near => ?_
      rw [TypeName.span_relocate]
      refine (near.spanFrom rfl).bind fun span X Y near => ?_
      rw [arrayOver_relocate]
      exact (next X Y near (agree.mono (Bound.le_succ _)) _).up
    next => exact near.pure rfl

theorem typeName_tracks (agree : r.Agree c k r') (near : Near c o (k + 1) X Y) :
    Tracks c o (k + 1) (typeName r) (typeName r') X Y := by
  refine (elementType_tracks agree near).bind fun element X Y near => ?_
  rw [TypeName.isBad_relocate]
  split
  · exact near.pure rfl
  · refine Paired.get ((arraySuffixes_tracks ?_ near.fresh _).within near)
    exact agree.mono near.fresh_bound

theorem constraint_tracks (agree : r.Agree c k r') (near : Near c o (k + 1) X Y) :
    Tracks c o (k + 1) (constraint r) (constraint r') X Y := by
  refine near.peek ?_ fun x y ends breaks _ _ => ?_
  · rw [Token.kind_relocate]
    split
    next word => exact near.skipSolid word rfl fun _ _ near => near.up.pure rfl
    next word => exact near.skipSolid word rfl fun _ _ near => near.up.pure rfl
    next word => exact near.skipSolid word rfl fun _ _ near => near.up.pure rfl
    next => exact (elementType_tracks agree near).bind fun _ _ _ near => near.pure rfl
    next => exact (elementType_tracks agree near).bind fun _ _ _ near => near.pure rfl
    next =>
      split
      · exact (elementType_tracks agree near).bind fun _ _ _ near => near.pure rfl
      · exact (badType_tracks near _).bind fun _ _ _ near => near.pure rfl
  · simp only [Token.kind, Lexeme.kind, ends, breaks]
    exact (badType_tracks near _).bind fun _ _ _ near => near.pure rfl

theorem constraints_tracks (agree : r.Agree c k r') (near : Near c o (k + 1) X Y)
    (asKeyword : Location) :
    Tracks c o (k + 1) (constraints r asKeyword) (constraints r' (c.carry asKeyword)) X Y := by
  refine near.eatPlace rfl (fun _ => ?_) fun _ X Y near => ?_
  · refine (constraint_tracks agree near).bind fun only X Y near => ?_
    refine (near.spanFrom rfl).bind fun span X Y near => near.pure ?_
    rw [Constraint.span_relocate]
    rfl
  · refine (near.up.separated fun X Y near => constraint_tracks agree near).bind
      fun items X Y near => ?_
    refine (near.spanFrom rfl).bind fun list X Y near => ?_
    refine (near.expectPlace rfl).bind fun close X Y near => ?_
    refine (near.spanFrom rfl).bind fun span X Y near => near.pure ?_
    have hull : (relocate c.carry items.first).span.upTo (relocate c.carry list) =
        relocate c.carry (items.first.span.upTo list) := by
      rw [Constraint.span_relocate]
      rfl
    show ConstraintList.mk _ _ ((relocate c.carry items).toCommaList
      ((relocate c.carry items.first).span.upTo (relocate c.carry list))) _ _ = _
    rw [hull, Separated.toCommaList_relocate]
    rfl

theorem typeParameter_tracks (agree : r.Agree c k r') (near : Near c o (k + 1) X Y) :
    Tracks c o (k + 1) (typeParameter r) (typeParameter r') X Y := by
  refine (identifier_tracks near).bind fun name X Y near => ?_
  refine near.eatPlace rfl (fun _ => ?_) fun _ X Y near => ?_
  · refine (near.pure rfl).bind fun constraints X Y near => ?_
    exact (near.spanFrom rfl).bind fun span X Y near => near.pure rfl
  · refine Tracked.bind ((constraints_tracks agree near.up _).map fun _ => rfl)
      fun constraints X Y near => ?_
    exact (near.spanFrom rfl).bind fun span X Y near => near.pure rfl

theorem typeParameters_tracks (agree : r.Agree c k r') (near : Near c o (k + 1) X Y) :
    Tracks c o (k + 1) (typeParameters r) (typeParameters r') X Y := by
  refine Paired.get ?_
  rw [near.atTypeArguments]
  split
  next starts =>
    have spans (p : TypeParameter) :
        TypeParameter.span (relocate c.carry p) = relocate c.carry p.span := rfl
    refine (genericList_tracks near.up starts spans fun X Y near =>
      typeParameter_tracks agree near).bind ?_
    rintro ⟨openParen, ofKeyword, parameters, closeParen⟩ X Y near
    exact (near.spanFrom rfl).bind fun span X Y near => near.pure rfl
  next => exact near.pure rfl

-- Arguments

theorem argument_tracks (agree : r.Agree c k r') (near : Near c o k X Y) (named : Bool) :
    Tracks c o k (argument r named) (argument r' named) X Y := by
  refine Paired.get ?_
  rw [near.kind.beq rfl, near.kind.beq rfl, near.toTwin.atStatementEnd]
  by_cases empty : (X.kind == .mark .comma || X.kind == .mark .rightParenthesis ||
      X.atStatementEnd) = true
  · rw [if_pos empty, if_pos empty]
    cases named with
    | true =>
      refine near.reportUnexpected fun X Y _ near => ?_
      exact near.placeholder.bind fun place X Y near => near.pure rfl
    | false => exact near.placeholder.bind fun place X Y near => near.pure rfl
  · have inside : X.kind.endsLine = false := by
      refine near.kind_cases.resolve_right fun ends => empty ?_
      rcases ends with ends | breaks
      · simp [ParseState.atStatementEnd, ends]
      · simp [ParseState.atStatementEnd, breaks]
    have name : Y.current.name? = X.current.name? := by rw [near.current_eq inside]; rfl
    rw [if_neg empty, if_neg empty, name, (near.toTwin.kindAfter inside).beq rfl, near.current_eq inside,
      SimpleName.ofToken_relocate]
    split
    next assigns =>
      have behind := beq_iff_eq.1 (Bool.and_eq_true_iff.1 assigns).2
      refine near.up.skipOver inside fun X Y kind near => ?_
      refine near.up.read (Paired.endsLine_of rfl (kind.trans behind)) fun X Y near => ?_
      refine (agree.value near).bind fun value X Y near => ?_
      exact (near.spanFrom rfl).bind fun span X Y near => near.pure rfl
    next =>
      have plain {X Y : ParseState} (near : Near c o k X Y) :
          Tracks c o k (r.value >>= fun value => pure (Argument.mk none none (some value) value.span,
              named))
            (r'.value >>= fun value => pure (Argument.mk none none (some value) value.span,
              named)) X Y := by
        refine (agree.value near).bind fun value X Y near => near.pure ?_
        rw [Expression.span_relocate]
        rfl
      cases named with
      | true => exact near.report (fun _ => rfl) fun X Y _ near => plain near
      | false => exact plain near

theorem separatedArguments_tracks (agree : r.Agree c k r') (near : Near c o k X Y) :
    Tracks c o k (separatedArguments r) (separatedArguments r') X Y := by
  refine Paired.get (Tracked.within (near.fresh.separatedFrom (fun named X Y near => ?_)
    near.fresh_le false) near)
  exact (argument_tracks agree near named).bind fun ⟨_, _⟩ _ _ near => near.pure rfl

theorem arguments_relocate (items : Separated (Argument Expression)) :
    (relocate c.carry items).toHullList Argument.span =
      relocate c.carry (items.toHullList Argument.span) :=
  items.toHullList_relocate fun _ => rfl

theorem argumentList_tracks (agree : r.Agree c k r') (near : Near c o (k + 1) X Y)
    (inside : X.kind.endsLine = false) : Tracks c o k (argumentList r) (argumentList r') X Y := by
  refine near.read inside fun X Y near => ?_
  extract_lets openParen rest openParen' rest'
  have closes (list : CommaList (Argument Expression)) (X Y : ParseState) (near : Near c o k X Y) :
      Tracks c o k (rest list) (rest' (relocate c.carry list)) X Y := by
    refine near.closeParenthesis.bind fun found X Y near => ?_
    extract_lets last last'
    have ends (close : Option Location) (X Y : ParseState) (near : Near c o k X Y) :
        Tracks c o k (last close) (last' (relocate c.carry close)) X Y :=
      (near.spanFrom rfl).bind fun span X Y near => near.pure rfl
    cases found with
    | some place => exact (near.pure rfl).bind ends
    | none =>
      refine near.resync.bind fun _ X Y near => ?_
      exact near.up.eatPlace rfl (fun _ => ends none X Y near) fun _ X Y near => ends (some _) X Y near
  refine near.check rfl (fun _ => ?_) fun _ => ?_
  · exact (near.pure rfl).bind closes
  · refine (separatedArguments_tracks agree near).bind fun arguments X Y near => ?_
    exact (near.pure (arguments_relocate _)).bind closes

theorem bareArguments_tracks (agree : r.Agree c k r') (near : Near c o k X Y) :
    Tracks c o k (bareArguments r) (bareArguments r') X Y := by
  refine near.here (near.atStatementEnd ?_)
  cases X.atStatementEnd with
  | true => exact near.pure rfl
  | false =>
    refine (separatedArguments_tracks agree near).bind fun arguments X Y near => ?_
    refine (near.spanFrom rfl).bind fun span X Y near => near.pure ?_
    rw [arguments_relocate]
    rfl

theorem bareArgumentsFrom_tracks (agree : r.Agree c k r') (near : Near c o k X Y)
    (first : Argument Expression) :
    Tracks c o k (bareArgumentsFrom r first) (bareArgumentsFrom r' (relocate c.carry first)) X Y := by
  have ends (items : Separated (Argument Expression)) (X Y : ParseState) (near : Near c o k X Y) :
      Tracks c o k
        (spanFrom first.span.start >>= fun span =>
          pure (ArgumentList.mk none (items.toHullList Argument.span) none span))
        (spanFrom (relocate c.carry first).span.start >>= fun span =>
          pure (ArgumentList.mk none ((relocate c.carry items).toHullList Argument.span) none span))
        X Y := by
    refine (near.spanFrom rfl).bind fun span X Y near => near.pure ?_
    rw [arguments_relocate]
    rfl
  refine near.up.eatPlace rfl (fun _ => ?_) fun _ X Y near => ?_
  · exact (near.pure rfl).bind ends
  · refine (separatedArguments_tracks agree near).bind fun arguments X Y near => ?_
    exact (near.pure rfl).bind ends

-- Expressions

theorem badExpression_tracks (near : Near c o k X Y) :
    Tracks c o k badExpression badExpression X Y :=
  near.reportUnexpected fun _ _ _ near => near.placeholder.bind fun _ _ _ near => near.pure rfl

theorem missingElements_tracks (near : Near c o k X Y) :
    Tracks c o k missingElements missingElements X Y :=
  near.reportUnexpected fun _ _ _ near => near.placeholder.bind fun _ _ _ near => near.pure rfl

theorem nameExpression_tracks (agree : r.Agree c k r') (near : Near c o k X Y) (token : Token) :
    Tracks c o k (nameExpression r token) (nameExpression r' (relocate c.carry token)) X Y := by
  refine Paired.get ((near.optionally near.atTypeArguments fun starts =>
    typeArguments_tracks agree near.up starts).bind fun arguments X Y near => ?_)
  refine (near.spanFrom rfl).bind fun span X Y near => near.pure ?_
  rw [SimpleName.ofToken_relocate, relocate_simpleName]

theorem start_relocate (g : Location → Location) (qualifier : Option Expression) (place : Location) :
    ((relocate g qualifier).map fun q => q.span.start).getD (g place) =
      g ((qualifier.map fun q => q.span.start).getD place) := by
  cases qualifier with
  | none => rfl
  | some e => exact congrArg Span.start (e.span_relocate g)

theorem memberAccess_tracks (agree : r.Agree c k r') (near : Near c o k X Y)
    (qualifier : Option Expression) (dot : Location) :
    Tracks c o k (memberAccess r qualifier dot)
      (memberAccess r' (relocate c.carry qualifier) (c.carry dot)) X Y := by
  refine (memberName_tracks near).bind fun name X Y near => Paired.get ?_
  refine (near.optionally ?_ fun starts => typeArguments_tracks agree near.up
    (Bool.and_eq_true_iff.1 starts).2).bind fun arguments X Y near => ?_
  · rw [near.atTypeArguments]
    rfl
  · rw [start_relocate]
    refine (near.spanFrom rfl).bind fun span X Y near => near.pure ?_
    rw [relocate_qualified]

theorem dictionaryLookup_tracks (near : Near c o k X Y) (qualifier : Option Expression)
    (bang : Location) :
    Tracks c o k (dictionaryLookup qualifier bang)
      (dictionaryLookup (relocate c.carry qualifier) (c.carry bang)) X Y := by
  refine (memberName_tracks near).bind fun name X Y near => ?_
  rw [start_relocate]
  refine (near.spanFrom rfl).bind fun span X Y near => near.pure ?_
  rw [relocate_dictionaryLookup]

theorem parenthesized_tracks (agree : r.Agree c k r') (near : Near c o (k + 1) X Y)
    (inside : X.kind.endsLine = false) : Tracks c o k (parenthesized r) (parenthesized r') X Y := by
  refine near.read inside fun X Y near => ?_
  refine (agree.value near).bind fun operand X Y near => ?_
  refine near.closeParenthesis.bind fun close X Y near => ?_
  exact (near.spanFrom rfl).bind fun span X Y near => near.pure rfl

theorem openParenthesis_tracks (near : Near c o k X Y) :
    Tracks c o k openParenthesis openParenthesis X Y :=
  (near.expect rfl).bind fun _ _ _ near => near.pure rfl

theorem typeTest_tracks (agree : r.Agree c k r') (near : Near c o (k + 1) X Y)
    (inside : X.kind.endsLine = false) : Tracks c o k (typeTest r) (typeTest r') X Y := by
  refine near.read inside fun X Y near => ?_
  refine (agree.expression o _ X Y near).bind fun operand X Y near => ?_
  refine (near.expectPlace rfl).bind fun isKeyword X Y near => ?_
  extract_lets rest rest'
  have ends (type : TypeName) (X Y : ParseState) (near : Near c o k X Y) :
      Tracks c o k (rest type) (rest' (relocate c.carry type)) X Y :=
    (near.spanFrom rfl).bind fun span X Y near => near.pure rfl
  cases isKeyword with
  | some place => exact (agree.typeName o X Y near).bind ends
  | none =>
    refine near.placeholder.bind fun place X Y near => ?_
    exact (near.pure rfl).bind ends

theorem typeObject_tracks (agree : r.Agree c k r') (near : Near c o (k + 1) X Y)
    (inside : X.kind.endsLine = false) : Tracks c o k (typeObject r) (typeObject r') X Y := by
  refine near.read inside fun X Y near => ?_
  refine (openParenthesis_tracks near).bind fun _ X Y near => ?_
  refine (agree.typeName o X Y near).bind fun type X Y near => ?_
  refine near.closeParenthesis.bind fun close X Y near => ?_
  exact (near.spanFrom rfl).bind fun span X Y near => near.pure rfl

theorem cast_tracks (agree : r.Agree c k r') (near : Near c o (k + 1) X Y)
    (inside : X.kind.endsLine = false) (kind : CastKind) :
    Tracks c o k (cast r kind) (cast r' kind) X Y := by
  refine near.read inside fun X Y near => ?_
  refine (openParenthesis_tracks near).bind fun _ X Y near => ?_
  refine (agree.value near).bind fun operand X Y near => ?_
  refine (near.expectPlace rfl).bind fun comma X Y near => ?_
  refine (agree.typeName o X Y near).bind fun type X Y near => ?_
  refine near.closeParenthesis.bind fun close X Y near => ?_
  exact (near.spanFrom rfl).bind fun span X Y near => near.pure rfl

theorem intrinsicCast_tracks (agree : r.Agree c k r') (near : Near c o (k + 1) X Y)
    (inside : X.kind.endsLine = false) (target : IntrinsicType) :
    Tracks c o k (intrinsicCast r target) (intrinsicCast r' target) X Y := by
  refine near.read inside fun X Y near => ?_
  refine (openParenthesis_tracks near).bind fun _ X Y near => ?_
  refine (agree.value near).bind fun operand X Y near => ?_
  refine near.closeParenthesis.bind fun close X Y near => ?_
  exact (near.spanFrom rfl).bind fun span X Y near => near.pure rfl

theorem initializer_tracks (agree : r.Agree c k r') (near : Near c o k X Y) :
    Tracks c o k (initializer r) (initializer r') X Y := by
  refine near.check rfl (fun _ => ?_) fun _ => ?_
  · refine (agree.elements o X Y near).bind fun elements X Y near => near.pure ?_
    rw [relocate_aggregate]
  · exact (agree.value near).bind fun value X Y near => near.pure rfl

theorem elements_tracks (agree : r.Agree c k r') (near : Near c o (k + 1) X Y) :
    Tracks c o (k + 1) (elements r) (elements r') X Y := by
  refine near.eatPlace rfl (fun _ => missingElements_tracks near) fun _ X Y near => ?_
  dsimp -zeta only
  extract_lets rest rest'
  have ends (list : CommaList Initializer) (X Y : ParseState) (near : Near c o k X Y) :
      Tracks c o (k + 1) (rest list) (rest' (relocate c.carry list)) X Y := by
    refine (near.expectPlace rfl).bind fun close X Y near => ?_
    exact (near.spanFrom rfl).bind fun span X Y near => near.up.pure rfl
  refine near.check rfl (fun _ => ?_) fun _ => ?_
  · exact near.here ((near.pure rfl).bind ends)
  · exact (near.commaList (Initializer.span_relocate _) fun X Y near =>
      initializer_tracks agree near).bind ends

theorem creation_tracks (agree : r.Agree c k r') (near : Near c o (k + 1) X Y)
    (inside : X.kind.endsLine = false) : Tracks c o (k + 1) (creation r) (creation r') X Y := by
  refine near.read inside fun X Y near => ?_
  refine (elementType_tracks agree near.up).bind fun type X Y near => Paired.get ?_
  rw [TypeName.isBad_relocate, near.atArraySize]
  split
  next sized =>
    have group : X.kind = .mark .leftParenthesis := by
      by_contra other
      have plain : X.current.kind ≠ .mark .leftParenthesis := other
      simp [ParseState.atArraySize, ParseState.ahead, Lookahead.kindBehindGroup?, plain] at sized
    refine (arrayBounds_tracks agree near (Paired.endsLine_of rfl group) true).bind fun bounds X Y near => ?_
    rw [TypeName.span_relocate]
    refine (near.spanFrom rfl).bind fun span X Y near => Paired.get ?_
    rw [arrayOver_relocate]
    refine ((arraySuffixes_tracks (agree.mono (Bound.le_of_succ near.fresh_le)) near.fresh _).within
      near).bind fun array X Y near => ?_
    refine (elements_tracks agree near.up).bind fun elements X Y near => ?_
    refine (near.spanFrom rfl).bind fun span X Y near => near.pure ?_
    rw [relocate_newArray]
  next =>
    refine near.optionallyAt rfl (fun parenthesis => (argumentList_tracks agree near
      (Paired.endsLine_of rfl parenthesis)).up) fun arguments X Y near => ?_
    refine (near.spanFrom rfl).bind fun span X Y near => near.pure ?_
    rw [relocate_newObject]

theorem keywordExpression_tracks (agree : r.Agree c k r') (near : Near c o (k + 1) X Y)
    {keyword : Keyword} (word : X.kind = .word keyword) :
    Tracks c o (k + 1) (keywordExpression r X.current keyword)
      (keywordExpression r' (relocate c.carry X.current) keyword) X Y := by
  have inside : X.kind.endsLine = false := Paired.endsLine_of rfl word
  unfold keywordExpression
  split
  · refine near.skip inside fun X Y near => ?_
    refine near.check rfl (fun _ => near.up.pure rfl) fun _ => ?_
    exact near.reportUnexpected fun X Y _ near => near.up.pure rfl
  · exact near.skip inside fun X Y near => near.up.pure rfl
  · exact (typeTest_tracks agree near inside).up
  · exact (typeObject_tracks agree near inside).up
  · exact (cast_tracks agree near inside _).up
  · exact (cast_tracks agree near inside _).up
  · exact (cast_tracks agree near inside _).up
  · exact creation_tracks agree near inside
  · refine near.skip inside fun X Y near => ?_
    refine (agree.operand o X Y near).bind fun operand X Y near => ?_
    exact (near.spanFrom rfl).bind fun span X Y near => near.up.pure rfl
  · rw [Token.kind_relocate]
    split
    · exact near.skip inside fun X Y near => near.up.pure rfl
    · exact (intrinsicCast_tracks agree near inside _).up
    · refine near.kindAfter inside rfl ?_
      split
      · exact near.skip inside fun X Y near => (nameExpression_tracks agree near _).up
      · exact badExpression_tracks near

theorem ofToken?_relocate (g : Location → Location) (t : Token) :
    Constant.ofToken? (relocate g t) = Constant.ofToken? t :=
  rfl

theorem endsLine_literal (l : Literal) : l.tokenKind.endsLine = false := by
  rcases l with ⟨⟨⟩⟩ | _ | _ | _ | _ | _ <;> rfl

theorem inside_of_ofToken? {t : Token} {value : Constant}
    (literal : Constant.ofToken? t = some value) : t.kind.endsLine = false := by
  unfold Constant.ofToken? at literal
  unfold Token.kind
  split at literal
  next l lexeme => rw [lexeme, Lexeme.kind, endsLine_literal]
  all_goals simp_all [Lexeme.kind, TokenKind.endsLine]

theorem primary_tracks (agree : r.Agree c k r') (near : Near c o (k + 1) X Y) :
    Tracks c o (k + 1) (primary r) (primary r') X Y := by
  refine near.peek ?_ fun x y ends breaks _ _ => ?_
  · rw [ofToken?_relocate, Token.kind_relocate]
    split
    next value literal =>
      exact near.skip (inside_of_ofToken? literal) fun X Y near => near.up.pure rfl
    next =>
      split
      next named =>
        exact near.skipSolid named rfl fun X Y near => (nameExpression_tracks agree near _).up
      next keyword word => exact keywordExpression_tracks agree near word
      next mark => exact (parenthesized_tracks agree near (Paired.endsLine_of rfl mark)).up
      next mark =>
        exact near.skipSolid mark rfl fun X Y near => (memberAccess_tracks agree near none _).up
      next mark =>
        exact near.skipSolid mark rfl fun X Y near => (dictionaryLookup_tracks near none _).up
      next fault =>
        refine near.reportUnexpected fun X' Y' same near => ?_
        exact near.skipSolid ((ParseState.kind_of_ahead same).trans fault) rfl fun X Y near => near.up.pure rfl
      next => exact badExpression_tracks near
  · simp only [Constant.ofToken?, Token.kind, Lexeme.kind, ends, breaks]
    exact badExpression_tracks near

theorem endsInMissingName_relocate (g : Location → Location) (e : Expression) :
    endsInMissingName (relocate g e) = endsInMissingName e := by
  cases e with
  | newObject t a s => cases a <;> rfl
  | _ => rfl

theorem run_postfixes_of_ended {s : ParseState}
    (ends : s.kind = .endOfStream ∨ s.kind = .lineTerminator) (n : Nat) (target : Expression) :
    (postfixes r n target).run s = (target, s) := by
  cases n with
  | zero => rfl
  | succ n =>
    rw [postfixes, Paired.run_peek]
    rcases ends with kind | kind
    · rw [show s.current.kind = _ from kind]
      rfl
    · rw [show s.current.kind = _ from kind]
      rfl

theorem postfixes_tracks {n m : Nat} (agree : r.Agree c ⟨n, m⟩ r')
    (near : Near c o (Bound.mk n m + 1) X Y) (target : Expression) :
    Tracks c o (Bound.mk n m + 1) (postfixes r n target)
      (postfixes r' m (relocate c.carry target)) X Y := by
  refine near.steps (motive := fun n m X Y => r.Agree c ⟨n, m⟩ r' → ∀ target,
    Tracks c o (Bound.mk n m + 1) (postfixes r n target)
      (postfixes r' m (relocate c.carry target)) X Y)
    (fun n m X Y near ends _ target => ?_) (fun n m next X Y near agree target => ?_) agree target
  · exact (near.pure rfl).ofRun (run_postfixes_of_ended (.inl ends) ..)
      (run_postfixes_of_ended (near.endsToo ends) ..)
  · have next (target : Expression) {X Y : ParseState} (near : Near c o (Bound.mk n m + 1) X Y) :=
      (next X Y near (agree.mono (Bound.le_succ _)) target).up
    refine near.peek ?_ fun x y ends breaks _ _ => ?_
    · rw [Token.kind_relocate]
      split
      next mark =>
        refine near.skipSolid mark rfl fun X Y near => ?_
        refine (memberAccess_tracks agree near (some target) _).bind fun target X Y near => ?_
        rw [endsInMissingName_relocate]
        split
        · exact near.up.pure rfl
        · exact next _ near
      next mark =>
        refine near.skipSolid mark rfl fun X Y near => ?_
        refine (dictionaryLookup_tracks near (some target) _).bind fun target X Y near => ?_
        rw [endsInMissingName_relocate]
        split
        · exact near.up.pure rfl
        · exact next _ near
      next mark =>
        refine (argumentList_tracks agree near (Paired.endsLine_of rfl mark)).bind
          fun arguments X Y near => ?_
        rw [Expression.span_relocate]
        refine (near.spanFrom rfl).bind fun span X Y near => ?_
        rw [← relocate_callOrIndex]
        exact next _ near
      next => exact near.pure rfl
    · simp only [Token.kind, Lexeme.kind, ends, breaks]
      exact near.pure rfl

theorem operand_tracks (agree : r.Agree c k r') (near : Near c o (k + 1) X Y) :
    Tracks c o (k + 1) (operand r) (operand r') X Y := by
  refine (primary_tracks agree near).bind fun target X Y near => ?_
  rw [Expression.isBad_relocate]
  split
  · exact near.pure rfl
  · refine Paired.get ((postfixes_tracks ?_ near.fresh _).within near)
    exact agree.mono near.fresh_bound

theorem unary_tracks (agree : r.Agree c k r') (near : Near c o (k + 1) X Y) :
    Tracks c o (k + 1) (unary r) (unary r') X Y := by
  refine near.peek ?_ fun x y ends breaks _ _ => ?_
  · rw [Token.kind_relocate]
    split
    next => exact operand_tracks agree near
    next op sign =>
      refine near.skip (TokenKind.inside_of sign rfl rfl rfl) fun X Y near => ?_
      refine (agree.expression o _ X Y near).bind fun operand X Y near => ?_
      exact (near.spanFrom rfl).bind fun span X Y near => near.up.pure rfl
  · simp only [Token.kind, Lexeme.kind, ends, breaks]
    exact operand_tracks agree near

theorem run_binaries_of_ended {s : ParseState}
    (ends : s.kind = .endOfStream ∨ s.kind = .lineTerminator) (pending : Precedence) (n : Nat)
    (left : Expression) :
    (binaries r pending n left).run s = (left, s) := by
  cases n with
  | zero => rfl
  | succ n =>
    rw [binaries, Paired.run_peek]
    rcases ends with kind | kind
    · rw [show s.current.kind = _ from kind]
      rfl
    · rw [show s.current.kind = _ from kind]
      rfl

theorem binaries_tracks {n m : Nat} (agree : r.Agree c ⟨n, m⟩ r')
    (near : Near c o (Bound.mk n m + 1) X Y) (pending : Precedence) (left : Expression) :
    Tracks c o (Bound.mk n m + 1) (binaries r pending n left)
      (binaries r' pending m (relocate c.carry left)) X Y := by
  refine near.steps (motive := fun n m X Y => r.Agree c ⟨n, m⟩ r' → ∀ left,
    Tracks c o (Bound.mk n m + 1) (binaries r pending n left)
      (binaries r' pending m (relocate c.carry left)) X Y)
    (fun n m X Y near ends _ left => ?_) (fun n m next X Y near agree left => ?_) agree left
  · exact (near.pure rfl).ofRun (run_binaries_of_ended (.inl ends) ..)
      (run_binaries_of_ended (near.endsToo ends) ..)
  · refine near.peek ?_ fun x y ends breaks _ _ => ?_
    · rw [Token.kind_relocate]
      split
      next => exact near.pure rfl
      next op sign =>
        split
        · exact near.pure rfl
        · refine near.skip (TokenKind.inside_of sign rfl rfl rfl) fun X Y near => ?_
          refine (agree.expression o _ X Y near).bind fun right X Y near => ?_
          rw [Expression.span_relocate]
          refine (near.spanFrom rfl).bind fun span X Y near => ?_
          exact (next X Y near (agree.mono (Bound.le_succ _)) _).up
    · simp only [Token.kind, Lexeme.kind, ends, breaks]
      exact near.pure rfl

theorem expression_tracks (agree : r.Agree c k r') (near : Near c o (k + 1) X Y)
    (pending : Precedence) :
    Tracks c o (k + 1) (expression r pending) (expression r' pending) X Y := by
  refine (unary_tracks agree near).bind fun left X Y near => ?_
  refine Paired.get ((binaries_tracks ?_ near.fresh pending _).within near)
  exact agree.mono near.fresh_bound

end Parse

/-- Rules of any depths read alike where both depths suffice. -/
theorem Rules.agree_ofDepth (c : Seam) (version : Version) {k : Bound} {n m : Nat}
    (enough : k ≤ ⟨n, m⟩) : (ofDepth version n).Agree c k (ofDepth version m) := by
  induction n generalizing k m with
  | zero =>
    have none {o X Y : ParseState} {p : Prop} (near : Near c o k X Y) : p :=
      absurd (Nat.lt_of_lt_of_le near.bound enough.1) (Nat.not_lt_zero _)
    exact ⟨by cases m <;> rfl, fun _ _ _ _ => none, fun _ _ _ => none, fun _ _ _ => none,
      fun _ _ _ => none⟩
  | succ n ih =>
    cases m with
    | zero =>
      have none {o X Y : ParseState} {p : Prop} (near : Near c o k X Y) : p :=
        absurd (Nat.lt_of_lt_of_le near.bound' enough.2) (Nat.not_lt_zero _)
      exact ⟨rfl, fun _ _ _ _ => none, fun _ _ _ => none, fun _ _ _ => none,
        fun _ _ _ => none⟩
    | succ m =>
      have agree := ih (k := ⟨n, m⟩) (m := m) ⟨Nat.le_refl _, Nat.le_refl _⟩
      refine Agree.mono (k := Bound.mk n m + 1) ?_ enough
      rw [ofDepth, ofDepth]
      exact ⟨by cases n <;> cases m <;> rfl,
        fun o pending _ _ near => Parse.expression_tracks agree near pending,
        fun o _ _ near => Parse.operand_tracks agree near,
        fun o _ _ near => Parse.typeName_tracks agree near,
        fun o _ _ near => Parse.elements_tracks agree near⟩

end VisualBasic
