import VisualBasic.Parse.Declaration
import VisualBasic.Proofs.Tandem.Block
import VisualBasic.Proofs.Tandem.Directive

/-!
Declarations are read alike in two texts.
-/

set_option autoImplicit false

namespace VisualBasic.Parse

variable {c : Seam} {o : ParseState} {k : Bound} {r r' : Rules} {b b' : Bodies} {X Y : ParseState}

theorem badDeclaration_tracks (near : Near c o k X Y) (start : Location) (problem : Problem) :
    Tracks c o k (badDeclaration start problem) (badDeclaration (c.carry start) problem) X Y := by
  refine near.reportUnexpected fun X Y _ near => ?_
  refine near.resync.bind fun _ X Y near => ?_
  exact (near.spanFrom rfl).bind fun span X Y near => near.pure rfl

-- The top of a file

/-- Nothing at the end of a line is a keyword. -/
theorem ne_word_of_endsLine {t : Token} (ends : t.kind.endsLine = true) (word : Keyword) :
    t.kind ≠ .word word := by
  intro found
  rw [found] at ends
  cases ends

theorem switchSetting_tracks (near : Near c o k X Y) :
    Tracks c o k switchSetting switchSetting X Y := by
  refine near.peekWord (fun x y ends ends' => ?_) (near.atStatementEnd ?_)
  · simp only [ne_word_of_endsLine, Token.isContextual_eq_false, ends, ends']
  have contextual (t : Token) (word : Keyword) :
      (relocate c.carry t).isContextual word = t.isContextual word := rfl
  rw [Token.kind_relocate, contextual]
  split
  · exact near.pure rfl
  split
  next on => exact near.up.skipSolid on rfl fun X Y near => near.pure rfl
  next =>
    split
    next off => exact near.up.skip (inside_of_isContextual off) fun X Y near => near.pure rfl
    next => exact near.reportUnexpected fun X Y _ near => near.pure rfl

theorem compareSetting_tracks (near : Near c o k X Y) :
    Tracks c o k compareSetting compareSetting X Y := by
  refine near.peekWord (fun x y ends ends' => ?_) ?_
  · simp only [Token.isContextual_eq_false, ends, ends']
  have contextual (t : Token) (word : Keyword) :
      (relocate c.carry t).isContextual word = t.isContextual word := rfl
  rw [contextual, contextual]
  split
  next word => exact near.up.skip (inside_of_isContextual word) fun X Y near => near.pure rfl
  next =>
    split
    next word => exact near.up.skip (inside_of_isContextual word) fun X Y near => near.pure rfl
    next => exact near.reportUnexpected fun X Y _ near => near.pure rfl

theorem inside_of_optionKind? {kind : OptionKind} (found : optionKind? X.current = some kind) :
    X.kind.endsLine = false := by
  cases ends : X.kind.endsLine with
  | false => rfl
  | true =>
    have ends : X.current.kind.endsLine = true := ends
    simp [optionKind?, Token.isContextual_eq_false ends] at found

theorem optionDeclaration_tracks (near : Near c o k X Y) (inside : X.kind.endsLine = false) :
    Tracks c o k optionDeclaration optionDeclaration X Y := by
  refine near.up.read inside fun X Y near => near.peekWord (fun x y ends ends' => ?_) ?_
  · simp only [optionKind?, Token.isContextual_eq_false, ends, ends']
  have kinds (t : Token) : optionKind? (relocate c.carry t) = optionKind? t := rfl
  rw [kinds]
  split
  next =>
    refine near.reportUnexpected fun X Y _ near => ?_
    refine near.resync.bind fun _ X Y near => ?_
    exact (near.spanFrom rfl).bind fun span X Y near => near.pure rfl
  next kind found =>
    refine near.up.skip (inside_of_optionKind? found) fun X Y near => ?_
    extract_lets rest rest'
    have ended (setting : Option OptionSetting) (X Y : ParseState) (near : Near c o k X Y) :
        Tracks c o k (rest setting) (rest' (relocate c.carry setting)) X Y :=
      (near.endStatement rfl).bind fun span X Y near => near.pure rfl
    split
    · exact (compareSetting_tracks near).bind ended
    · exact (switchSetting_tracks near).bind ended

theorem run_identifier {s : ParseState} (named : s.kind = .identifier) :
    identifier.run s = (.ofToken s.current, s.advance) := by
  unfold identifier
  rw [Paired.run_peek, show s.current.kind = _ from named]
  rfl

theorem importsClause_tracks (agree : r.Agree c k r') (near : Near c o k X Y) :
    Tracks c o k (importsClause r) (importsClause r') X Y := by
  refine near.here ?_
  generalize X.current.span.start = start
  have plain {X Y : ParseState} (near : Near c o k X Y) :
      Tracks c o k
        (elementType r >>= fun target => spanFrom start >>= fun span =>
          pure (⟨none, none, target, span⟩ : ImportsClause))
        (elementType r' >>= fun target => spanFrom (c.carry start) >>= fun span =>
          pure ⟨none, none, target, span⟩) X Y := by
    refine ((elementType_tracks agree near.up).within near).bind fun target X Y near => ?_
    exact (near.spanFrom rfl).bind fun span X Y near => near.pure rfl
  refine near.check rfl (fun named => ?_) fun _ => .step rfl rfl (.refl X Y) (plain near)
  have inside := Paired.endsLine_of rfl named
  refine near.kindAfter inside rfl ?_
  split
  next follows =>
    have follows : X.kindAfter = .mark .equals := by simpa using follows
    obtain ⟨after, paced, kind, -⟩ := near.up.advanced inside
    refine .step (run_identifier named) (run_identifier ((near.kind_eq inside).trans named)) paced ?_
    rw [near.current_eq inside, SimpleName.ofToken_relocate]
    refine after.up.read (Paired.endsLine_of rfl (kind.trans follows)) fun X Y near => ?_
    refine ((elementType_tracks agree near.up).within near).bind fun target X Y near => ?_
    exact (near.spanFrom rfl).bind fun span X Y near => near.pure rfl
  next => exact plain near

theorem importsDeclaration_tracks (agree : r.Agree c k r') (near : Near c o k X Y)
    (inside : X.kind.endsLine = false) :
    Tracks c o k (importsDeclaration r) (importsDeclaration r') X Y := by
  refine near.up.read inside fun X Y near => ?_
  refine (near.commaList (fun _ : ImportsClause => rfl) fun X Y near =>
    importsClause_tracks agree near).bind fun clauses X Y near => ?_
  exact (near.endStatement rfl).bind fun span X Y near => near.pure rfl

-- Base types and interfaces

theorem typeList_tracks (agree : r.Agree c k r') (near : Near c o k X Y)
    (inside : X.kind.endsLine = false) (kind : TypeListKind) (container : Container) :
    Tracks c o k (typeList r kind container) (typeList r' kind container) X Y := by
  refine near.up.read inside fun X' Y' near => ?_
  extract_lets keyword listed keyword' listed'
  have named {X Y : ParseState} (near : Near c o k X Y) :
      Tracks c o k (listed ()) (listed' ()) X Y := by
    refine (near.commaList (TypeName.span_relocate _) fun X Y near =>
      (elementType_tracks agree near.up).within near).bind fun types X Y near => ?_
    extract_lets rest rest'
    have ended {X Y : ParseState} (near : Near c o k X Y) : Tracks c o k (rest ()) (rest' ()) X Y :=
      (near.endStatement rfl).bind fun span X Y near => near.pure rfl
    have items : (relocate c.carry types).items = types.items.map (relocate c.carry) := rfl
    rw [items]
    split
    next several =>
      rw [several]
      exact near.report (fun _ => (TypeName.span_relocate ..)) fun X Y _ near => ended near
    next single =>
      split
      next several =>
        obtain ⟨first, rest, whole, -, several⟩ := List.map_eq_cons_iff.1 several
        obtain ⟨second, rest, rfl, -, -⟩ := List.map_eq_cons_iff.1 several
        exact absurd whole (single _ _ _ rfl rfl)
      next => exact ended near
  split
  · exact named near
  · exact near.report (fun _ => rfl) fun X Y _ near => named near

-- Members

theorem fieldDeclaration_tracks (agree : r.Agree c k r') (near : Near c o k X Y) (start : Location)
    (head : DeclarationHead) :
    Tracks c o k (fieldDeclaration r start head)
      (fieldDeclaration r' (c.carry start) (relocate c.carry head)) X Y := by
  refine (variableDeclarators_tracks agree near true).bind fun declarators X Y near => ?_
  exact (near.endStatement rfl).bind fun span X Y near => near.pure rfl

theorem namespaceDeclaration_tracks (bodies : b.Agree c k b') (near : Near c o (k + 1) X Y)
    (inside : X.kind.endsLine = false) (start : Location) :
    Tracked c (fun d _ => d.Firm) (Loose c k) (namespaceDeclaration b start)
      (namespaceDeclaration b' (c.carry start)) X Y := by
  refine near.skip inside fun X Y near => ?_
  refine (name_tracks near).bind fun name X Y near => ?_
  refine (near.endStatement rfl).bind fun header X Y near => ?_
  refine endedBody_tracks (takeEnd .namespaceBlock) (takeEnd .namespaceBlock)
    (fun members ending span => Declaration.namespaceBlock ⟨name, members, ending, span⟩)
    (fun members ending span => .namespaceBlock ⟨relocate c.carry name, members, ending, span⟩) _
    (declarationBody_tracks bodies near .namespaceBlock header .namespaceBody)
    ((bodies.standsToo _).within _) (fun stop X Y near stands => takeEnd_tracks near _ stands)
    (fun members ending span =>
      (relocate_namespaceBlock c.carry ⟨name, members, ending, span⟩).symm)
    fun members s span firm => ?_
  have firm : (Node.declaration (.namespaceBlock ⟨name, members.1, _, span⟩)).Firm := firm
  exact ⟨DeclarationList.firm_of_children firm _ (fun _ _ => rfl) (List.subset_cons_self _ _),
    isSome_of_takeEnd (firm.ended rfl)⟩

theorem typeDeclaration_tracks (agree : r.Agree c k r') (bodies : b.Agree c k b')
    (near : Near c o (k + 1) X Y) (inside : X.kind.endsLine = false) (start : Location)
    (head : DeclarationHead) (kind : TypeKind) :
    Tracked c (fun d _ => d.Firm) (Loose c k) (typeDeclaration r b start head kind)
      (typeDeclaration r' b' (c.carry start) (relocate c.carry head) kind) X Y := by
  refine near.skip inside fun X Y near => ?_
  refine (identifier_tracks near).bind fun name X Y near => ?_
  extract_lets rest rest'
  have members (parameters : Option TypeParameterList) (X Y : ParseState) (near : Near c o k X Y) :
      Tracked c (fun d _ => d.Firm) (Loose c k) (rest parameters) (rest' (relocate c.carry parameters))
        X Y := by
    refine (near.endStatement rfl).bind fun header X Y near => ?_
    refine endedBody_tracks (takeEnd kind.block) (takeEnd kind.block)
      (fun members ending span =>
        Declaration.type ⟨kind, head, name, parameters, members, ending, span⟩)
      (fun members ending span => .type ⟨kind, relocate c.carry head, relocate c.carry name,
        relocate c.carry parameters, members, ending, span⟩) _
      (declarationBody_tracks bodies near kind.block header (.type kind))
      ((bodies.standsToo _).within _) (fun stop X Y near stands => takeEnd_tracks near _ stands)
        (fun members ending span =>
        (relocate_type c.carry ⟨kind, head, name, parameters, members, ending, span⟩).symm)
      fun members s span firm => ?_
    have firm : (Node.declaration (.type ⟨kind, head, name, parameters, members.1, _,
      span⟩)).Firm := firm
    exact ⟨DeclarationList.firm_of_children firm _ (fun _ _ => rfl) (List.subset_append_right _ _),
      isSome_of_takeEnd (firm.ended rfl)⟩
  split
  · exact (near.pure rfl).bind members
  · exact ((typeParameters_tracks agree near.up).within near).bind members

theorem enumDeclaration_tracks (agree : r.Agree c k r') (bodies : b.Agree c k b')
    (near : Near c o (k + 1) X Y) (inside : X.kind.endsLine = false) (start : Location)
    (head : DeclarationHead) :
    Tracked c (fun d _ => d.Firm) (Loose c k) (enumDeclaration r b start head)
      (enumDeclaration r' b' (c.carry start) (relocate c.carry head)) X Y := by
  refine near.skip inside fun X Y near => ?_
  refine (identifier_tracks near).bind fun name X Y near => ?_
  refine (near.whenEaten rfl fun X Y near => (elementType_tracks agree near.up).within near).bind
    fun underlying X Y near => ?_
  refine (near.endStatement rfl).bind fun header X Y near => ?_
  refine endedBody_tracks (takeEnd .enumBlock) (takeEnd .enumBlock)
    (fun members ending span => Declaration.enum ⟨head, name, underlying, members, ending, span⟩)
    (fun members ending span => .enum ⟨relocate c.carry head, relocate c.carry name,
      relocate c.carry underlying, members, ending, span⟩) _
    (declarationBody_tracks bodies near .enumBlock header .enumBody)
    ((bodies.standsToo _).within _) (fun stop X Y near stands => takeEnd_tracks near _ stands)
    (fun members ending span =>
      (relocate_enum c.carry ⟨head, name, underlying, members, ending, span⟩).symm)
    fun members s span firm => ?_
  have firm : (Node.declaration (.enum ⟨head, name, underlying, members.1, _, span⟩)).Firm := firm
  exact ⟨DeclarationList.firm_of_children firm _ (fun _ _ => rfl) (List.subset_append_right _ _),
    isSome_of_takeEnd (firm.ended rfl)⟩

theorem enumValue_tracks (agree : r.Agree c k r') (near : Near c o k X Y) (start : Location)
    (attributes : List AttributeBlock) :
    Tracks c o k (enumValue r start attributes)
      (enumValue r' (c.carry start) (relocate c.carry attributes)) X Y := by
  have invalid {span span' : Span} {X Y : ParseState} (near : Near c o k X Y)
      (same : ¬ c.IsCut → span' = relocate c.carry span) :
      Tracks c o k
        (do
          report .invalidInsideEnum span
          skipStatement
          return Declaration.bad (← spanFrom start))
        (do
          report .invalidInsideEnum span'
          skipStatement
          return .bad (← spanFrom (c.carry start))) X Y := by
    refine near.report same fun X Y _ near => ?_
    refine near.skipStatement.bind fun _ X Y near => ?_
    exact (near.spanFrom rfl).bind fun span X Y near => near.pure rfl
  refine near.peek ?_ fun x y ends breaks cut _ => ?_
  · rw [Token.kind_relocate]
    split
    · refine (identifier_tracks near).bind fun name X Y near => ?_
      refine (near.whenEaten rfl fun X Y near => agree.value near).bind fun value X Y near => ?_
      exact (near.endStatement rfl).bind fun span X Y near => near.pure rfl
    · exact invalid near fun _ => rfl
  · simp only [Token.kind, Lexeme.kind, ends, breaks]
    exact invalid near fun uncut => absurd cut uncut

theorem isBodiless_relocate (g : Location → Location) (head : DeclarationHead)
    (container : Container) :
    isBodiless (relocate g head) container = isBodiless head container := by
  unfold isBodiless ModifierList.contains
  congr 1
  exact any_relocate g _ fun _ => rfl

/-- A body that a member may lack. -/
theorem optionalBody_tracks {β : Type} [Relocate β] {h : β × Option Terminator → TokenKind → Prop}
    {m : Option ParseState} {body body' : Parse (β × Option Terminator)} {kind : BlockKind}
    {bodiless : Bool} (build build' : Option β → Option EndBlock → Span → Declaration)
    (start : Location) (near : Paired c m k X Y) (inner : Tracked c h (Loose c k) body body' X Y)
    (stands : Stands body)
    (moves : ∀ found ending span, build' (relocate c.carry found) (relocate c.carry ending)
      (relocate c.carry span) = relocate c.carry (build found ending span))
    (holds : ∀ found s span, (build (some found.1) ((takeEnd kind found.2).run s).1 span).Firm →
      h found s.kind) :
    Tracked c (fun d _ => d.Firm) (Loose c k)
      (if bodiless then pure (none, none) >>= fun found => spanFrom start >>= fun span =>
          pure (build found.1 found.2 span)
        else body >>= fun found => takeEnd kind found.2 >>= fun ending =>
          pure (some found.1, ending) >>= fun found => spanFrom start >>= fun span =>
            pure (build found.1 found.2 span))
      (if bodiless then pure (none, none) >>= fun found => spanFrom (c.carry start) >>= fun span =>
          pure (build' found.1 found.2 span)
        else body' >>= fun found => takeEnd kind found.2 >>= fun ending =>
          pure (some found.1, ending) >>= fun found => spanFrom (c.carry start) >>= fun span =>
            pure (build' found.1 found.2 span)) X Y := by
  cases bodiless with
  | true =>
    refine .step rfl rfl (.refl X Y) ?_
    exact (near.loose.spanFrom rfl).bind fun span X Y near => near.pure (moves none none span)
  | false =>
    exact endedBody_tracks (takeEnd kind) (takeEnd kind) (fun found => build (some found))
      (fun found => build' (some found)) start inner stands
      (fun stop X Y near stands => takeEnd_tracks near _ stands) (fun found => moves (some found))
      holds

theorem methodDeclaration_tracks (agree : r.Agree c k r') (bodies : b.Agree c k b')
    (near : Near c o (k + 1) X Y) (inside : X.kind.endsLine = false) (start : Location)
    (head : DeclarationHead) (kind : MethodKind) (container : Container)
    (created : kind = .constructor → X.kindAfter.endsLine = false) :
    Tracked c (fun d _ => d.Firm) (Loose c k) (methodDeclaration r b start head kind container)
      (methodDeclaration r' b' (c.carry start) (relocate c.carry head) kind container) X Y := by
  unfold methodDeclaration
  extract_lets block generic generic'
  refine near.skipOver inside fun X' Y' after near => ?_
  have generics (name : SimpleName) (X Y : ParseState) (near : Near c o k X Y) :
      Tracked c (fun d _ => d.Firm) (Loose c k) (generic name) (generic' (relocate c.carry name))
        X Y := by
    unfold generic generic'
    extract_lets signed signed'
    have signature (generics : Option TypeParameterList) (X Y : ParseState)
        (near : Near c o k X Y) :
        Tracked c (fun d _ => d.Firm) (Loose c k) (signed generics)
          (signed' (relocate c.carry generics)) X Y := by
      refine (parameterList_tracks agree near).bind fun parameters X Y near => ?_
      extract_lets body body'
      have tail (result : Option ReturnType) (X Y : ParseState) (near : Near c o k X Y) :
          Tracked c (fun d _ => d.Firm) (Loose c k) (body result) (body' (relocate c.carry result))
            X Y := by
        refine (handlesClause_tracks agree near).bind fun handled X Y near => ?_
        refine (implementsClause_tracks near).bind fun implemented X Y near => ?_
        refine (near.endStatement rfl).bind fun header X Y near => ?_
        rw [isBodiless_relocate]
        refine optionalBody_tracks
          (fun body ending span => .method ⟨kind, head, name, generics, parameters, result, handled,
            implemented, body, ending, span⟩)
          (fun body ending span => .method ⟨kind, relocate c.carry head, relocate c.carry name,
            relocate c.carry generics, relocate c.carry parameters, relocate c.carry result,
            relocate c.carry handled, relocate c.carry implemented, body, ending, span⟩) start near
          (statementBody_tracks bodies near block header) (bodies.stands.within _)
          (fun body ending span => (relocate_method c.carry ⟨kind, head, name, generics, parameters,
            result, handled, implemented, body, ending, span⟩).symm) fun body s span firm => ?_
        have firm : (Node.declaration (.method ⟨kind, head, name, generics, parameters, result,
          handled, implemented, some body.1, _, span⟩)).Firm := firm
        exact ⟨StatementList.firm_of_children firm (fun _ _ => rfl) (List.subset_append_right _ _),
          .inl (isSome_of_takeEnd (firm.ended rfl))⟩
      split
      · exact (returnType_tracks agree near).bind tail
      · exact (near.pure rfl).bind tail
    split
    · exact (near.pure rfl).bind signature
    · exact ((typeParameters_tracks agree near.up).within near).bind signature
  split
  next isConstructor =>
    refine near.up.read (after ▸ created isConstructor) fun X Y near => ?_
    exact (near.pure (SimpleName.ofToken_relocate ..)).bind generics
  next => exact (identifier_tracks near).bind generics

theorem operatorName_tracks (near : Near c o k X Y) :
    Tracks c o k operatorName operatorName X Y := by
  have missing {X Y : ParseState} (near : Near c o k X Y) :
      Tracks c o k (placeholder >>= fun place => pure (none, Span.point place))
        (placeholder >>= fun place =>
          pure ((none : Option OverloadableOperator), Span.point place)) X Y :=
    near.placeholder.bind fun place X Y near => near.pure rfl
  rcases near.kind_cases with inside | ends
  · have contextual : (relocate c.carry X.current).contextualKind = X.current.contextualKind := rfl
    refine near.peekInside inside ?_
    rw [Token.kind_relocate, contextual]
    split
    · exact near.up.skip inside fun X Y near => near.pure rfl
    · refine near.reportUnexpected fun X' Y' same near => ?_
      rw [← ParseState.kind_of_ahead same] at inside
      refine near.check rfl (fun _ => near.atStatementEnd (missing near)) fun _ =>
        near.atStatementEnd ?_
      split
      · exact missing near
      · exact near.up.skip inside fun X Y near => near.pure rfl
  · have none {t : Token} (ends : t.kind = .endOfStream ∨ t.kind = .lineTerminator) :
        OverloadableOperator.ofToken? t.kind t.contextualKind = none := by
      rcases ends with ends | ends <;> rw [ends] <;> rfl
    have ends' : Y.current.kind = .endOfStream ∨ Y.current.kind = .lineTerminator := by
      rcases ends with ends | breaks
      · exact near.endsToo ends
      · exact .inr ((near.kind_eq_of_break breaks).trans breaks)
    refine .step rfl rfl (.refl X Y) ?_
    rw [none ends, none ends']
    refine near.reportUnexpected fun X' Y' same near => ?_
    have atEnd : X'.atStatementEnd = true := by
      have kind := ParseState.kind_of_ahead same
      rcases ends with ends | ends <;> simp [ParseState.atStatementEnd, kind, ends]
    refine near.check rfl (fun _ => near.atStatementEnd (missing near)) fun _ =>
      near.atStatementEnd ?_
    rw [atEnd]
    exact missing near

theorem operatorDeclaration_tracks (agree : r.Agree c k r') (bodies : b.Agree c k b')
    (near : Near c o (k + 1) X Y) (inside : X.kind.endsLine = false) (start : Location)
    (head : DeclarationHead) :
    Tracked c (fun d _ => d.Firm) (Loose c k) (operatorDeclaration r b start head)
      (operatorDeclaration r' b' (c.carry start) (relocate c.carry head)) X Y := by
  refine near.skip inside fun X Y near => ?_
  refine (operatorName_tracks near).bind ?_
  rintro ⟨operator, operatorSpan⟩ X Y near
  refine (parameterList_tracks agree near).bind fun parameters X Y near => ?_
  refine (returnType_tracks agree near).bind fun result X Y near => ?_
  refine (near.endStatement rfl).bind fun header X Y near => ?_
  refine endedBody_tracks (takeEnd .operatorBlock) (takeEnd .operatorBlock)
    (fun body ending span => Declaration.operator ⟨head, operator, operatorSpan, parameters, result,
      body, ending, span⟩)
    (fun body ending span => .operator ⟨relocate c.carry head, relocate c.carry operator,
      relocate c.carry operatorSpan, relocate c.carry parameters, relocate c.carry result, body,
      ending, span⟩) _
    (statementBody_tracks bodies near .operatorBlock header) (bodies.stands.within _)
    (fun stop X Y near stands => takeEnd_tracks near _ stands)
    (fun body ending span => (relocate_operator c.carry ⟨head, operator, operatorSpan, parameters,
      result, body, ending, span⟩).symm) fun body s span firm => ?_
  have firm : (Node.declaration (.operator ⟨head, operator, operatorSpan, parameters, result,
    body.1, _, span⟩)).Firm := firm
  exact ⟨StatementList.firm_of_children firm (fun _ _ => rfl) (List.subset_append_right _ _),
    .inl (isSome_of_takeEnd (firm.ended rfl))⟩

/-- The accessor that a property of a single accessor stands for. -/
def impliedAccessor (isGet : Bool) (keyword : Span) (body : Statements) : Declarations :=
  ⟨[.accessor ⟨if isGet then .get else .set, ⟨[], .empty keyword.start⟩, none, body, none,
    keyword.merge body.span⟩], keyword.merge body.span⟩

theorem impliedAccessor_relocate (isGet : Bool) (keyword : Span) (body : Statements) :
    impliedAccessor isGet (relocate c.carry keyword) (relocate c.carry body) =
      relocate c.carry (impliedAccessor isGet keyword body) := by
  have span : (relocate c.carry keyword).merge (relocate c.carry body).span =
      relocate c.carry (keyword.merge body.span) := Seam.merge_carry _ _
  unfold impliedAccessor
  rw [span]
  show _ = DeclarationList.mk [relocate c.carry (Declaration.accessor _)] _
  rw [relocate_accessor]
  cases isGet <;> rfl

theorem singleAccessorProperty_tracks (agree : r.Agree c k r') (bodies : b.Agree c k b')
    (near : Near c o (k + 1) X Y) (inside : X.kind.endsLine = false) (start : Location)
    (head : DeclarationHead) :
    Tracked c (fun d _ => d.Firm) (Loose c k) (singleAccessorProperty r b start head)
      (singleAccessorProperty r' b' (c.carry start) (relocate c.carry head)) X Y := by
  refine near.read inside fun X' Y' near => ?_
  rw [Token.kind_relocate]
  extract_lets isGet
  refine (identifier_tracks near).bind fun name X'' Y'' near => ?_
  refine (parameterList_tracks agree near).bind fun parameters X'' Y'' near => ?_
  extract_lets rest rest'
  have body (result : Option ReturnType) (X' Y' : ParseState) (near : Near c o k X' Y') :
      Tracked c (fun d _ => d.Firm) (Loose c k) (rest result) (rest' (relocate c.carry result))
        X' Y' := by
    refine (near.endStatement rfl).bind fun header X' Y' near => ?_
    refine endedBody_tracks (takeEnd .propertyBlock) (takeEnd .propertyBlock)
      (fun body ending span => Declaration.property ⟨head, name, parameters, result, none,
        some (impliedAccessor isGet X.current.span body), ending, span⟩)
      (fun body ending span => .property ⟨relocate c.carry head, relocate c.carry name,
        relocate c.carry parameters, relocate c.carry result, none,
        some (impliedAccessor isGet (relocate c.carry X.current.span) body), ending, span⟩) _
      (statementBody_tracks bodies near .propertyBlock header) (bodies.stands.within _)
      (fun stop X Y near stands => takeEnd_tracks near _ stands) (fun body ending span => ?_)
      fun body s span firm => ?_
    · rw [impliedAccessor_relocate, relocate_property]
      rfl
    · have firm : (Node.declaration (.property ⟨head, name, parameters, result, none,
        some (impliedAccessor isGet X.current.span body.1), _, span⟩)).Firm := firm
      refine ⟨fun statement member => ?_, .inl (isSome_of_takeEnd (firm.ended rfl))⟩
      have accessor := firm.below.child (List.mem_append_right _ List.mem_cons_self)
      exact accessor.firm (List.mem_append_right _ (List.mem_map_of_mem member)) rfl
  split
  · exact (returnType_tracks agree near).bind body
  · exact (near.pure rfl).bind body

theorem propertyDeclaration_tracks (agree : r.Agree c k r') (bodies : b.Agree c k b')
    (near : Near c o (k + 1) X Y) (inside : X.kind.endsLine = false) (start : Location)
    (head : DeclarationHead) (container : Container) :
    Tracked c (fun d _ => d.Firm) (Loose c k) (propertyDeclaration r b start head container)
      (propertyDeclaration r' b' (c.carry start) (relocate c.carry head) container) X Y := by
  refine near.skip inside fun X Y near => near.peekKind rfl ?_
  have single (inside : X.kind.endsLine = false) :=
    (singleAccessorProperty_tracks agree bodies near.up inside start head)
  split
  next isGet => exact single (Paired.endsLine_of rfl isGet)
  next isSet => exact single (Paired.endsLine_of rfl isSet)
  next isLet => exact single (Paired.endsLine_of rfl isLet)
  next =>
    refine (identifier_tracks near).bind fun name X Y near => ?_
    refine (parameterList_tracks agree near).bind fun parameters X Y near => ?_
    refine (returnType_tracks agree near).bind fun result X Y near => ?_
    refine (implementsClause_tracks near).bind fun implemented X Y near => ?_
    refine (near.endStatement rfl).bind fun header X Y near => ?_
    rw [isBodiless_relocate]
    refine optionalBody_tracks
      (fun accessors ending span => .property ⟨head, name, parameters, result, implemented,
        accessors, ending, span⟩)
      (fun accessors ending span => .property ⟨relocate c.carry head, relocate c.carry name,
        relocate c.carry parameters, relocate c.carry result, relocate c.carry implemented,
        accessors, ending, span⟩) start near
      (declarationBody_tracks bodies near .propertyBlock header .propertyBody)
      ((bodies.standsToo _).within _)
      (fun accessors ending span => (relocate_property c.carry ⟨head, name, parameters, result,
        implemented, accessors, ending, span⟩).symm) fun accessors s span firm => ?_
    have firm : (Node.declaration (.property ⟨head, name, parameters, result, implemented,
      some accessors.1, _, span⟩)).Firm := firm
    refine ⟨fun d member => .inr ⟨rfl, firm.below.child ?_⟩, isSome_of_takeEnd (firm.ended rfl)⟩
    exact List.mem_append_right _ (List.mem_map_of_mem member)

/-- An accessor stands by itself, or only its end is missing and the first text goes on. -/
def AccessorFirm (d : Declaration) (after : TokenKind) : Prop :=
  (Node.declaration d).FirmBelow ∧
    ((Node.declaration d).unclosed = [] ∨ after ≠ .endOfStream)

theorem accessorDeclaration_tracks (agree : r.Agree c k r') (bodies : b.Agree c k b')
    (near : Near c o (k + 1) X Y) (inside : X.kind.endsLine = false) (start : Location)
    (head : DeclarationHead) (kind : AccessorKind) :
    Tracked c AccessorFirm (Loose c k) (accessorDeclaration r b start head kind)
      (accessorDeclaration r' b' (c.carry start) (relocate c.carry head) kind) X Y := by
  refine near.skip inside fun X Y near => ?_
  refine (checkModifiers_tracks near head.modifiers _).bind fun _ X Y near => ?_
  refine (parameterList_tracks agree near).bind fun parameters X Y near => ?_
  refine (near.endStatement rfl).bind fun header X Y near => ?_
  refine endedBody_tracks (takeEnd kind.block) (takeEnd kind.block)
    (fun body ending span => Declaration.accessor ⟨kind, head, parameters, body, ending, span⟩)
    (fun body ending span => .accessor ⟨kind, relocate c.carry head, relocate c.carry parameters,
      body, ending, span⟩) _
    (statementBody_tracks bodies near kind.block header) (bodies.stands.within _)
    (fun stop X Y near stands => takeEnd_tracks near _ stands)
    (fun body ending span => (relocate_accessor c.carry ⟨kind, head, parameters, body, ending,
      span⟩).symm) fun body s span firm => ?_
  obtain ⟨firm, closed⟩ := firm
  refine ⟨fun statement member => ?_, ?_⟩
  · exact firm.firm (List.mem_append_right _ (List.mem_map_of_mem member)) rfl
  · rcases found : body.2 with _ | stop
    · right
      rw [found] at closed
      rcases closed with closed | goesOn
      · cases Node.ended_of_unclosed_eq_nil closed rfl
      · exact goesOn
    · exact .inl rfl

theorem accessorIn_tracks (agree : r.Agree c (k + 1) r') (bodies : b.Agree c k b')
    (near : Near c o (k + 1) X Y) (start : Location) (head : DeclarationHead)
    (ofProperty : Bool) :
    Tracked c AccessorFirm (Loose c (k + 1)) (accessorIn r b start head ofProperty)
      (accessorIn r' b' (c.carry start) (relocate c.carry head) ofProperty) X Y := by
  refine near.peekKind rfl ?_
  dsimp only
  split
  next kind found =>
    have word := (Option.filter_eq_some_iff.1 found).1
    exact (accessorDeclaration_tracks (agree.mono k.le_succ) bodies near
      (TokenKind.inside_of word rfl rfl rfl) start head kind).up
  next => exact (badDeclaration_tracks near start _).loosely

theorem eventDeclaration_tracks (agree : r.Agree c k r') (near : Near c o k X Y)
    (inside : X.kind.endsLine = false) (start : Location) (head : DeclarationHead) :
    Tracks c o k (eventDeclaration r start head)
      (eventDeclaration r' (c.carry start) (relocate c.carry head)) X Y := by
  refine near.up.skip inside fun X Y near => ?_
  refine (identifier_tracks near).bind fun name X Y near => ?_
  refine (parameterList_tracks agree near).bind fun parameters X Y near => ?_
  have same : (relocate c.carry parameters).isNone = parameters.isNone := by
    cases parameters <;> rfl
  rw [same]
  extract_lets rest rest'
  have ended (type : Option TypeName) (X Y : ParseState) (near : Near c o k X Y) :
      Tracks c o k (rest type) (rest' (relocate c.carry type)) X Y := by
    refine (implementsClause_tracks near).bind fun implemented X Y near => ?_
    exact (near.endStatement rfl).bind fun span X Y near => near.pure rfl
  split
  · exact (near.whenEaten rfl fun X Y near =>
      (elementType_tracks agree near.up).within near).bind ended
  · exact (near.pure rfl).bind ended

theorem customEventDeclaration_tracks (agree : r.Agree c k r') (bodies : b.Agree c k b')
    (near : Near c o (k + 1) X Y) (inside : X.kind.endsLine = false)
    (event : X.kindAfter = .word .kwEvent) (start : Location) (head : DeclarationHead) :
    Tracked c (fun d _ => d.Firm) (Loose c k) (customEventDeclaration r b start head)
      (customEventDeclaration r' b' (c.carry start) (relocate c.carry head)) X Y := by
  refine near.readOver inside fun X' Y' after near => ?_
  extract_lets keyword keyword'
  refine near.up.skip (Paired.endsLine_of rfl (after.trans event)) fun X' Y' near => ?_
  refine (identifier_tracks near).bind fun name X' Y' near => ?_
  refine (near.expect rfl).bind fun found X' Y' near => ?_
  extract_lets rest rest'
  have members (type : Option TypeName) (X' Y' : ParseState) (near : Near c o k X' Y') :
      Tracked c (fun d _ => d.Firm) (Loose c k) (rest type) (rest' (relocate c.carry type))
        X' Y' := by
    refine (implementsClause_tracks near).bind fun implemented X' Y' near => ?_
    refine (near.endStatement rfl).bind fun header X' Y' near => ?_
    refine endedBody_tracks (takeEnd .eventBlock) (takeEnd .eventBlock)
      (fun accessors ending span => Declaration.customEvent ⟨head, keyword, name, type, implemented,
        accessors, ending, span⟩)
      (fun accessors ending span => .customEvent ⟨relocate c.carry head, keyword',
        relocate c.carry name, relocate c.carry type, relocate c.carry implemented, accessors,
        ending, span⟩) _
      (declarationBody_tracks bodies near .eventBlock header .eventBody)
      ((bodies.standsToo _).within _) (fun stop X Y near stands => takeEnd_tracks near _ stands)
      (fun accessors ending span => (relocate_customEvent c.carry ⟨head, keyword, name, type,
        implemented, accessors, ending, span⟩).symm) fun accessors s span firm => ?_
    have firm : (Node.declaration (.customEvent ⟨head, keyword, name, type, implemented,
      accessors.1, _, span⟩)).Firm := firm
    exact ⟨DeclarationList.firm_of_children firm _ (fun _ _ => rfl) (List.subset_append_right _ _),
      isSome_of_takeEnd (firm.ended rfl)⟩
  cases found with
  | none => exact (near.pure rfl).bind members
  | some token =>
    have type : Tracks c o k (some <$> elementType r) (some <$> elementType r') X' Y' :=
      ((elementType_tracks agree near.up).within near).map fun _ => rfl
    exact type.bind members

/-- Tells `Function` from `Sub` by a word. -/
theorem inside_of_isFunction? {kind : TokenKind} {isFunction : Bool}
    (found : isFunction? kind = some isFunction) : kind.endsLine = false :=
  TokenKind.inside_of found rfl rfl rfl

theorem delegateDeclaration_tracks (agree : r.Agree c k r') (near : Near c o k X Y)
    (inside : X.kind.endsLine = false) (start : Location) (head : DeclarationHead) :
    Tracks c o k (delegateDeclaration r start head)
      (delegateDeclaration r' (c.carry start) (relocate c.carry head)) X Y := by
  refine near.up.skip inside fun X Y near => near.peekKind rfl ?_
  split
  next => exact badDeclaration_tracks near start _
  next isFunction word =>
    refine near.up.skip (inside_of_isFunction? word) fun X Y near => ?_
    refine (identifier_tracks near).bind fun name X Y near => ?_
    refine ((typeParameters_tracks agree near.up).within near).bind fun generics X Y near => ?_
    refine (parameterList_tracks agree near).bind fun parameters X Y near => ?_
    extract_lets rest rest'
    have ended (result : Option ReturnType) (X Y : ParseState) (near : Near c o k X Y) :
        Tracks c o k (rest result) (rest' (relocate c.carry result)) X Y :=
      (near.endStatement rfl).bind fun span X Y near => near.pure rfl
    split
    · exact (returnType_tracks agree near).bind ended
    · exact (near.pure rfl).bind ended

theorem charset_tracks (near : Near c o k X Y) : Tracks c o k charset charset X Y := by
  refine near.peekWord (fun x y ends ends' => ?_) ?_
  · simp only [Token.isContextual_eq_false, ends, ends']
  have contextual (t : Token) (word : Keyword) :
      (relocate c.carry t).isContextual word = t.isContextual word := rfl
  simp only [contextual]
  generalize named : (if X.current.isContextual .kwAnsi = true then some Charset.ansi
    else if X.current.isContextual .kwUnicode = true then some Charset.unicode
    else if X.current.isContextual .kwAuto = true then some Charset.auto else none) = found
  split
  next isSome =>
    have inside : X.kind.endsLine = false := by
      cases ends : X.kind.endsLine with
      | false => rfl
      | true =>
        have ends : X.current.kind.endsLine = true := ends
        rw [← named] at isSome
        simp [Token.isContextual_eq_false ends] at isSome
    refine near.up.skip inside fun X Y near => near.pure ?_
    cases found <;> rfl
  next =>
    refine near.pure ?_
    cases found <;> rfl

theorem externalDeclaration_tracks (agree : r.Agree c k r') (near : Near c o k X Y)
    (inside : X.kind.endsLine = false) (start : Location) (head : DeclarationHead) :
    Tracks c o k (externalDeclaration r start head)
      (externalDeclaration r' (c.carry start) (relocate c.carry head)) X Y := by
  refine near.up.skip inside fun X Y near => ?_
  refine (charset_tracks near).bind fun charset X Y near => near.peekKind rfl ?_
  split
  next => exact badDeclaration_tracks near start _
  next isFunction word =>
    refine near.up.skip (inside_of_isFunction? word) fun X Y near => ?_
    refine (identifier_tracks near).bind fun name X Y near => ?_
    refine (near.expect rfl).bind fun lib X Y near => ?_
    extract_lets aliased aliased'
    have named (library : Option String) (X Y : ParseState) (near : Near c o k X Y) :
        Tracks c o k (aliased library) (aliased' (relocate c.carry library)) X Y := by
      refine (near.eaten rfl).bind fun word X Y near => ?_
      extract_lets signed signed'
      have signature (aliasName : Option String) (X Y : ParseState) (near : Near c o k X Y) :
          Tracks c o k (signed aliasName) (signed' (relocate c.carry aliasName)) X Y := by
        refine (parameterList_tracks agree near).bind fun parameters X Y near => ?_
        extract_lets rest rest'
        have ended (result : Option ReturnType) (X Y : ParseState) (near : Near c o k X Y) :
            Tracks c o k (rest result) (rest' (relocate c.carry result)) X Y := by
          refine (near.endStatement rfl).bind fun span X Y near => near.pure ?_
          cases charset <;> rfl
        split
        · exact (returnType_tracks agree near).bind ended
        · exact (near.pure rfl).bind ended
      cases word with
      | none => exact (near.pure rfl).bind signature
      | some token => exact (stringLiteral_tracks near).bind signature
    cases lib with
    | none => exact (near.pure rfl).bind named
    | some token => exact (stringLiteral_tracks near).bind named

-- One declaration

theorem member?_of_endsLine {s : ParseState} (ends : s.kind.endsLine = true) (isModified : Bool) :
    member? s isModified = none := by
  unfold member?
  split
  all_goals try rfl
  all_goals (next kind => rw [kind] at ends; cases ends)

theorem member?_eq (twin : Twin c X Y) (isModified : Bool) :
    member? Y isModified = member? X isModified := by
  cases ends : X.kind.endsLine with
  | false =>
    unfold member?
    rw [twin.kind_eq ends, twin.isContextual]
    rcases twin.kindAfter ends with same | ⟨-, here, there⟩
    · rw [same]
    · rw [here, there]
      rfl
  | true => rw [member?_of_endsLine ends, member?_of_endsLine (twin.kind.endsLine.trans ends)]

/-- What a member is recognized by. -/
theorem member?_facts {s : ParseState} {isModified : Bool} {member : Member}
    (found : member? s isModified = some member) :
    s.kind.endsLine = false ∧ (member = .constructor → s.kindAfter = .word .kwNew) ∧
      (member = .customEvent → s.kindAfter = .word .kwEvent) := by
  refine ⟨?_, ?_, ?_⟩
  · cases ends : s.kind.endsLine with
    | false => rfl
    | true =>
      rw [member?_of_endsLine ends] at found
      cases found
  · rintro rfl
    unfold member? at found
    grind
  · rintro rfl
    unfold member? at found
    grind

theorem checkModifiers_before {β : Type} [Relocate β] {g : β → TokenKind → Prop}
    {R : ParseState → ParseState → Prop} {f f' : Unit → Parse β} (near : Near c o k X Y)
    (list : ModifierList) (allowed : List Modifier)
    (next : ∀ X' Y', X'.ahead = X.ahead → Near c o k X' Y' →
      Tracked c g R (f ()) (f' ()) X' Y') :
    Tracked c g R (checkModifiers list allowed >>= f)
      (checkModifiers (relocate c.carry list) allowed >>= f') X Y := by
  unfold checkModifiers
  rw [show (relocate c.carry list).modifiers = relocate c.carry list.modifiers from rfl,
    find?_relocate _ _ fun _ => rfl]
  cases list.modifiers.find? _ with
  | none => exact next X Y rfl near
  | some invalid => exact near.report (fun _ => rfl) next

theorem memberDeclaration_tracks (agree : r.Agree c (k + 1) r') (bodies : b.Agree c k b')
    (near : Near c o (k + 1) X Y) (start : Location) (head : DeclarationHead)
    (container : Container) {isModified : Bool} {member : Member}
    (found : member? X isModified = some member) :
    Tracked c (fun d _ => d.Firm) (Loose c (k + 1))
      (memberDeclaration r b start head container member)
      (memberDeclaration r' b' (c.carry start) (relocate c.carry head) container member) X Y := by
  obtain ⟨inside, constructs, custom⟩ := member?_facts found
  have fewer := agree.mono k.le_succ
  refine near.peekInside inside ?_
  rw [Token.kind_relocate]
  generalize X.current = token
  extract_lets kind rest rest'
  have parsed {X' Y' : ParseState} (same : X'.ahead = X.ahead) (near : Near c o (k + 1) X' Y') :
      Tracked c (fun d _ => d.Firm) (Loose c (k + 1)) (rest ()) (rest' ()) X' Y' := by
    refine checkModifiers_before near head.modifiers _ fun X'' Y'' same' near => ?_
    have ahead := same'.trans same
    have inside : X''.kind.endsLine = false := ParseState.kind_of_ahead ahead ▸ inside
    have after : X''.kindAfter = X.kindAfter := ParseState.kindAfter_of_ahead ahead
    cases member with
    | namespaceBlock => exact (namespaceDeclaration_tracks bodies near inside start).up
    | type kind => exact (typeDeclaration_tracks fewer bodies near inside start head kind).up
    | enum => exact (enumDeclaration_tracks fewer bodies near inside start head).up
    | field => exact (fieldDeclaration_tracks agree near start head).loosely
    | method =>
      refine (methodDeclaration_tracks fewer bodies near inside start head _ container ?_).up
      intro constructs
      dsimp only [kind] at constructs
      split at constructs <;> cases constructs
    | constructor =>
      refine (methodDeclaration_tracks fewer bodies near inside start head _ container ?_).up
      intro _
      rw [after, constructs rfl]
      rfl
    | operator => exact (operatorDeclaration_tracks fewer bodies near inside start head).up
    | property =>
      exact (propertyDeclaration_tracks fewer bodies near inside start head container).up
    | event => exact (eventDeclaration_tracks agree near inside start head).loosely
    | customEvent =>
      exact (customEventDeclaration_tracks fewer bodies near inside (after.trans (custom rfl)) start
        head).up
    | delegate => exact (delegateDeclaration_tracks agree near inside start head).loosely
    | external => exact (externalDeclaration_tracks agree near inside start head).loosely
  split
  · exact near.report (fun _ => rfl) fun X Y same near => parsed same near
  · exact parsed rfl near

/-- The declaration stands by itself in its container, or it is an accessor that only lacks an end
and the first text goes on. -/
def Settles (container : Container) (d : Declaration) (after : TokenKind) : Prop :=
  d.Firm ∨ container = .propertyBody ∧ AccessorFirm d after

theorem accessorFirm_of_settles {container : Container} {d : Declaration} {after : TokenKind}
    (settles : Settles container d after) : AccessorFirm d after := by
  rcases settles with firm | ⟨-, firm⟩
  · exact ⟨firm.below, .inl firm.unclosed⟩
  · exact firm

theorem rejectCustom_tracks (near : Near c o k X Y) :
    Tracks c o k rejectCustom rejectCustom X Y := by
  refine Paired.get ?_
  rw [near.isContextual]
  by_cases custom : X.current.isContextual .kwCustom = true
  · have inside := inside_of_isContextual custom
    rw [(near.toTwin.kindAfter inside).apply rejectsCustom rfl, near.current_eq inside]
    split
    next =>
      refine near.report (fun _ => rfl) fun X' Y' same near => ?_
      have inside : X'.kind.endsLine = false := ParseState.kind_of_ahead same ▸ inside
      exact fun _ => ⟨rfl, (near.up.advanced inside).1, (near.up.advanced inside).2.1⟩
    next => exact near.pure rfl
  · rw [Bool.not_eq_true] at custom
    simp only [custom, Bool.false_and]
    exact near.pure rfl

theorem reportHeading_before {β : Type} [Relocate β] {g : β → TokenKind → Prop}
    {R : ParseState → ParseState → Prop} {f f' : Unit → Parse β} (near : Near c o k X Y)
    (container : Container) (span : Span)
    (next : ∀ X' Y', X'.ahead = X.ahead → Near c o k X' Y' →
      Tracked c g R (f ()) (f' ()) X' Y') :
    Tracked c g R (reportHeading container span >>= f)
      (reportHeading container (relocate c.carry span) >>= f') X Y := by
  unfold reportHeading
  split
  · exact near.report (fun _ => rfl) next
  · exact next X Y rfl near

theorem declarationAfter_tracks (agree : r.Agree c (k + 1) r') (bodies : b.Agree c k b')
    (near : Near c o (k + 1) X Y) (start : Location) (attributes : List AttributeBlock)
    (container : Container) :
    Tracked c (Settles container) (Loose c (k + 1))
      (declarationAfter r b start attributes container)
      (declarationAfter r' b' (c.carry start) (relocate c.carry attributes) container) X Y := by
  unfold declarationAfter
  split
  next => exact (enumValue_tracks agree near start attributes).loosely
  next =>
    refine (modifiers_tracks near).bind fun modifiers X Y near => ?_
    split
    next =>
      exact (accessorIn_tracks agree bodies near start ⟨attributes, modifiers⟩ true).mono
        (fun _ _ => accessorFirm_of_settles) fun _ _ _ near => near
    next member =>
      have firm (d : Declaration) (after : TokenKind) (settles : Settles container d after) :
          d.Firm :=
        settles.resolve_right fun isProperty => member isProperty.1
      split
      next =>
        exact (accessorIn_tracks agree bodies near start ⟨attributes, modifiers⟩ false).mono
          (fun _ _ => accessorFirm_of_settles) fun _ _ _ near => near
      next =>
        refine (rejectCustom_tracks near).bind fun _ X Y near => Paired.get ?_
        have empty : (relocate c.carry modifiers).isEmpty = modifiers.isEmpty :=
          List.isEmpty_map
        rw [empty, member?_eq near.toTwin]
        split
        next => exact (badDeclaration_tracks near start _).loosely
        next member found =>
          exact (memberDeclaration_tracks agree bodies near start ⟨attributes, modifiers⟩ container
            found).mono firm fun _ _ _ near => near

theorem areFileAttributes_relocate (g : Location → Location) (blocks : List AttributeBlock) :
    areFileAttributes (relocate g blocks) = areFileAttributes blocks := by
  have each (block : AttributeBlock) :
      ((relocate g block).attributes.items.all fun a => a.target.isSome) =
        block.attributes.items.all fun a => a.target.isSome := by
    show (List.map (relocate g) block.attributes.items).all _ = _
    rw [List.all_map]
    refine congrArg (block.attributes.items.all ·) (funext fun a => ?_)
    exact Option.isSome_map
  show (!(List.map (relocate g) blocks).isEmpty && (List.map (relocate g) blocks).all _) = _
  rw [List.isEmpty_map, List.all_map]
  exact congrArg (!blocks.isEmpty && blocks.all ·) (funext each)

theorem attributedDeclaration_tracks (agree : r.Agree c (k + 1) r') (bodies : b.Agree c k b')
    (near : Near c o (k + 1) X Y) (container : Container) :
    Tracked c (Settles container) (Loose c (k + 1)) (attributedDeclaration r b container)
      (attributedDeclaration r' b' container) X Y := by
  refine near.here ?_
  generalize X.current.span.start = start
  refine (attributeBlocks_tracks agree near).bind fun attributes X Y near => ?_
  refine near.atStatementEnd ?_
  rw [head?_relocate, areFileAttributes_relocate]
  cases attributes.head? with
  | none => exact declarationAfter_tracks agree bodies near start attributes container
  | some first =>
    cases areFileAttributes attributes && X.atStatementEnd with
    | false => exact declarationAfter_tracks agree bodies near start attributes container
    | true =>
      refine reportHeading_before near container first.span fun X Y _ near => ?_
      refine (near.spanFrom rfl).bind fun span X Y near => ?_
      exact .pure near.loose rfl

/-- A declaration that both parsers stand before. -/
theorem declaration_tracks (agree : r.Agree c (k + 1) r') (bodies : b.Agree c k b')
    (near : Near c o (k + 1) X Y) (current : Y.current = relocate c.carry X.current)
    (container : Container) :
    Tracked c (Settles container) (Loose c (k + 1)) (declaration r b container)
      (declaration r' b' container) X Y := by
  refine .step rfl rfl (.refl X Y) (Paired.get ?_)
  rw [current, near.terminator]
  split
  next kind starts =>
    refine near.report (fun _ => rfl) fun X Y same near => ?_
    have starts := (ParseState.terminator?_of_ahead same).trans starts
    exact (endBlock_tracks near.up starts).bind fun ending X Y near => .pure near.loose rfl
  next => exact (badDeclaration_tracks near _ _).loosely
  next =>
    rw [Token.kind_relocate]
    split
    next word =>
      refine reportHeading_before near container _ fun X' Y' same near => ?_
      have word : X'.kind = .word .kwOption := (ParseState.kind_of_ahead same).trans word
      exact (optionDeclaration_tracks near (Paired.endsLine_of rfl word)).loosely
    next word =>
      refine reportHeading_before near container _ fun X' Y' same near => ?_
      have word : X'.kind = .word .kwImports := (ParseState.kind_of_ahead same).trans word
      exact (importsDeclaration_tracks agree near (Paired.endsLine_of rfl word)).loosely
    next word =>
      exact (typeList_tracks agree near (Paired.endsLine_of rfl word) _ container).loosely
    next word =>
      exact (typeList_tracks agree near (Paired.endsLine_of rfl word) _ container).loosely
    next => exact attributedDeclaration_tracks agree bodies near container

end VisualBasic.Parse
