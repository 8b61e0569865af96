import VisualBasic.Parse.Directive
import VisualBasic.Proofs.Tandem.Phrase

/-!
Directives are read alike in two texts that both have them.
-/

set_option autoImplicit false

namespace VisualBasic.Parse

variable {c : Seam} {o : ParseState} {k : Bound} {r r' : Rules} {X Y : ParseState}

theorem modifyDirectives_tracks {f f' : OpenDirectives → OpenDirectives} (near : Near c o k X Y)
    (keeps : ¬ c.drops)
    (same : f' (relocate c.carry X.directives) = relocate c.carry (f X.directives)) :
    Tracks c o k (modifyDirectives f) (modifyDirectives f') X Y := by
  refine fun _ => ⟨rfl, ?_, .standing rfl rfl⟩
  refine
    { near with
      directives := fun _ => ?_
      noDirectives := fun drops => absurd drops keeps
      stays := fun s member => ?_ }
  · show f' Y.directives = relocate c.carry (f X.directives)
    rw [near.directives keeps, same]
  · obtain ⟨blocks, depth, pending, reports⟩ := near.stays s member
    exact ⟨blocks, depth, pending, reports⟩

/-- Tables only grow, so it does not matter what they held before the text. -/
theorem modifyTables_tracks {f f' : DirectiveTables → DirectiveTables} (near : Near c o k X Y)
    (same : f' (c.recorded.append (relocate c.carry X.tables)) =
      c.recorded.append (relocate c.carry (f X.tables))) :
    Tracks c o k (modifyTables f) (modifyTables f') X Y := by
  refine fun _ => ⟨rfl, { near with tables := fun keeps => ?_, stays := fun s member => ?_ },
    .standing rfl rfl⟩
  · show f' Y.tables = c.recorded.append (relocate c.carry (f X.tables))
    rw [near.tables keeps, same]
  · obtain ⟨blocks, depth, pending, reports⟩ := near.stays s member
    exact ⟨blocks, depth, pending, reports⟩

/-- One more entry of a table. -/
theorem relocate_snoc {α : Type} [Relocate α] (g : Location → Location) (before entries : List α)
    (entry : α) :
    before ++ relocate g entries ++ [relocate g entry] =
      before ++ relocate g (entries ++ [entry]) := by
  rw [relocate_append, List.append_assoc]
  rfl

theorem directiveCondition_tracks (agree : r.Agree c k r') (near : Near c o k X Y) :
    Tracks c o k (directiveCondition r) (directiveCondition r') X Y := by
  refine (agree.value near).bind fun _ X Y near => ?_
  exact near.up.eat rfl (fun _ => near.pure rfl) fun _ X Y near => near.pure rfl

theorem conditionalBranch_tracks (near : Near c o k X Y) (keeps : ¬ c.drops) (start : Location)
    (isElse : Bool) :
    Tracks c o k (conditionalBranch start isElse) (conditionalBranch (c.carry start) isElse)
      X Y := by
  refine (near.spanFrom rfl).bind fun directive X Y near => Paired.get ?_
  have same : Y.directives.conditionals = relocate c.carry X.directives.conditionals :=
    congrArg OpenDirectives.conditionals (near.directives keeps)
  rw [same]
  cases X.directives.conditionals with
  | nil => exact near.reported fun _ => rfl
  | cons innermost outer =>
    have inElse : (relocate c.carry innermost).inElse = innermost.inElse := rfl
    refine Tracked.bind (modifyDirectives_tracks near keeps ?_) fun _ X Y near => ?_
    · rfl
    · rw [inElse]
      split
      · exact near.reported fun _ => rfl
      · exact near.pure rfl

theorem endConditional_tracks (near : Near c o k X Y) (keeps : ¬ c.drops) (start : Location) :
    Tracks c o k (endConditional start) (endConditional (c.carry start)) X Y := by
  refine (near.spanFrom rfl).bind fun span X Y near => Paired.get ?_
  have same : Y.directives.conditionals = relocate c.carry X.directives.conditionals :=
    congrArg OpenDirectives.conditionals (near.directives keeps)
  rw [same]
  cases X.directives.conditionals with
  | nil => exact near.reported fun _ => rfl
  | cons innermost outer => exact modifyDirectives_tracks near keeps rfl

theorem endRegion_tracks (near : Near c o k X Y) (keeps : ¬ c.drops) (start : Location) :
    Tracks c o k (endRegion start) (endRegion (c.carry start)) X Y := by
  refine (near.spanFrom rfl).bind fun span X Y near => Paired.get ?_
  have same : Y.directives.regions = relocate c.carry X.directives.regions :=
    congrArg OpenDirectives.regions (near.directives keeps)
  rw [same]
  cases X.directives.regions with
  | nil => exact near.reported fun _ => rfl
  | cons region outer =>
    refine Tracked.bind (modifyDirectives_tracks near keeps ?_) fun _ X Y near => ?_
    · rfl
    · exact modifyTables_tracks near
        (congrArg (DirectiveTables.mk _ · _ _) (relocate_snoc c.carry c.recorded.regions
          X.tables.regions ⟨region.description, region.directive.upTo span⟩))

theorem endMapping_tracks (near : Near c o k X Y) (keeps : ¬ c.drops) (start : Location) :
    Tracks c o k (endMapping start) (endMapping (c.carry start)) X Y := by
  refine (near.spanFrom rfl).bind fun span X Y near => Paired.get ?_
  have same : Y.directives.mapping = relocate c.carry X.directives.mapping :=
    congrArg OpenDirectives.mapping (near.directives keeps)
  rw [same]
  cases X.directives.mapping with
  | none => exact near.reported fun _ => rfl
  | some mapping =>
    refine Tracked.bind (modifyDirectives_tracks near keeps ?_) fun _ X Y near => ?_
    · rfl
    · exact modifyTables_tracks near
        (congrArg (DirectiveTables.mk _ _ · _) (relocate_snoc c.carry c.recorded.lineMappings
          X.tables.lineMappings ⟨mapping.file, mapping.line, mapping.directive.upTo span⟩))

theorem invalidDirective_tracks (near : Near c o k X Y) (start : Location) :
    Tracks c o k (invalidDirective start) (invalidDirective (c.carry start)) X Y := by
  refine (near.spanFrom rfl).bind fun span X Y near => ?_
  refine near.peek (near.reported fun _ => Seam.merge_carry _ _) fun x y _ _ cut _ => ?_
  exact near.reported fun uncut => absurd cut uncut

/-- A word that may not be a keyword elsewhere. -/
theorem inside_of_isContextual {word : Keyword} (present : X.current.isContextual word = true) :
    X.kind.endsLine = false := by
  cases ends : X.kind.endsLine with
  | false => rfl
  | true =>
    rw [Token.isContextual_eq_false ends] at present
    cases present

theorem endDirective_tracks (near : Near c o k X Y) (keeps : ¬ c.drops) (start : Location) :
    Tracks c o k (endDirective start) (endDirective (c.carry start)) X Y := by
  have contextual (t : Token) (word : Keyword) :
      (relocate c.carry t).isContextual word = t.isContextual word := rfl
  refine near.peek ?_ fun x y ends breaks _ _ => ?_
  · simp only [Token.kind_relocate, contextual]
    split
    next word => exact near.up.skipSolid word rfl fun X Y near => endConditional_tracks near keeps start
    next =>
      split
      next word =>
        exact near.up.skip (inside_of_isContextual word) fun X Y near =>
          endRegion_tracks near keeps start
      next =>
        split
        next word =>
          exact near.up.skip (inside_of_isContextual word) fun X Y near =>
            endMapping_tracks near keeps start
        next => exact invalidDirective_tracks near start
  · have here : x.kind = .endOfStream := by rw [Token.kind, ends]; rfl
    have there : y.kind = .lineTerminator := by rw [Token.kind, breaks]; rfl
    have none (word : Keyword) : x.isContextual word = false :=
      Token.isContextual_eq_false (by rw [here]; rfl)
    have none' (word : Keyword) : y.isContextual word = false :=
      Token.isContextual_eq_false (by rw [there]; rfl)
    simp only [here, there, none, none']
    exact invalidDirective_tracks near start

theorem directiveInteger_tracks (near : Near c o k X Y) :
    Tracks c o k directiveInteger directiveInteger X Y := by
  refine near.peek ?_ fun x y ends breaks _ _ => ?_
  · rw [integerOf?_relocate]
    split
    next value number =>
      exact near.up.skip (inside_of_integerOf? number) fun X Y near => near.pure rfl
    next => exact near.reportUnexpected fun X Y _ near => near.pure rfl
  · simp only [integerOf?, ends, breaks]
    exact near.reportUnexpected fun X Y _ near => near.pure rfl

theorem mappingSource_tracks (near : Near c o k X Y) :
    Tracks c o k mappingSource mappingSource X Y := by
  refine (near.expect rfl).bind fun found X Y near => ?_
  cases found with
  | none => exact near.pure rfl
  | some token =>
    refine (stringLiteral_tracks near).bind fun file X Y near => ?_
    refine (near.expect rfl).bind fun comma X Y near => ?_
    extract_lets rest rest'
    have closed (line : Option Int) (X Y : ParseState) (near : Near c o k X Y) :
        Tracks c o k (rest line) (rest' (relocate c.carry line)) X Y :=
      near.closeParenthesis.bind fun _ X Y near => near.pure rfl
    cases comma with
    | none => exact (near.pure rfl).bind closed
    | some token => exact (directiveInteger_tracks near).bind closed

theorem beginMapping_tracks (near : Near c o k X Y) (keeps : ¬ c.drops) (start : Location) :
    Tracks c o k (beginMapping start) (beginMapping (c.carry start)) X Y := by
  refine (mappingSource_tracks near).bind ?_
  rintro ⟨file, line⟩ X Y near
  refine (near.spanFrom rfl).bind fun directive X Y near => Paired.get ?_
  have same : Y.directives.mapping.isSome = X.directives.mapping.isSome := by
    rw [near.directives keeps]
    exact Option.isSome_map
  rw [same]
  split
  · exact near.reported fun _ => rfl
  · refine modifyDirectives_tracks near keeps ?_
    cases file <;> cases line <;> rfl

theorem directiveStrings_tracks (n : Nat) (near : Near c o k X Y) :
    Tracks c o k (directiveStrings n) (directiveStrings n) X Y := by
  induction n generalizing X Y with
  | zero => exact near.pure rfl
  | succ n ih =>
    cases n with
    | zero =>
      refine (stringLiteral_tracks near).bind fun text X Y near => near.pure ?_
      cases text <;> rfl
    | succ n =>
      refine (stringLiteral_tracks near).bind fun text X Y near => ?_
      cases text with
      | none => exact near.pure rfl
      | some text =>
        refine (near.expect rfl).bind fun comma X Y near => ?_
        cases comma with
        | none => exact near.pure rfl
        | some token => exact (ih near).bind fun texts X Y near => near.pure rfl

theorem checksum_tracks (near : Near c o k X Y) (start : Location) :
    Tracks c o k (checksum start) (checksum (c.carry start)) X Y := by
  refine (near.expect rfl).bind fun found X Y near => ?_
  cases found with
  | none => exact near.pure rfl
  | some token =>
    refine (directiveStrings_tracks 3 near).bind fun parts X Y near => ?_
    refine near.closeParenthesis.bind fun closed X Y near => ?_
    refine (near.spanFrom rfl).bind fun span X Y near => ?_
    have unchanged : relocate c.carry parts = parts := List.map_id parts
    rw [unchanged]
    rcases parts with _ | ⟨file, _ | ⟨guid, _ | ⟨sum, _ | ⟨more, rest⟩⟩⟩⟩ <;> cases closed
    case cons.cons.cons.nil.some =>
      exact modifyTables_tracks near
        (congrArg (DirectiveTables.mk _ _ _ ·) (relocate_snoc c.carry c.recorded.checksums
          X.tables.checksums ⟨file, guid, sum, span⟩))
    all_goals
      refine near.pure ?_
      rfl

theorem conditionalConstant_tracks (agree : r.Agree c k r') (near : Near c o k X Y) :
    Tracks c o k (conditionalConstant r) (conditionalConstant r') X Y := by
  refine (identifier_tracks near).bind fun name X Y near => ?_
  refine (near.expect rfl).bind fun equals X Y near => ?_
  extract_lets rest rest'
  have known (value : Option Expression) (X Y : ParseState) (near : Near c o k X Y) :
      Tracks c o k (rest value) (rest' (relocate c.carry value)) X Y := by
    dsimp only [rest, rest']
    rw [SimpleName.isMissing_relocate]
    split
    · exact near.pure rfl
    · exact modifyTables_tracks near
        (congrArg (DirectiveTables.mk · _ _ _) (List.append_assoc _ _ _))
  cases equals with
  | none => exact (near.pure rfl).bind known
  | some token => exact Tracked.bind ((agree.value near).map fun _ => rfl) known

theorem beginConditional_tracks (agree : r.Agree c k r') (near : Near c o k X Y)
    (keeps : ¬ c.drops) (start : Location) :
    Tracks c o k (beginConditional r start) (beginConditional r' (c.carry start)) X Y := by
  refine (directiveCondition_tracks agree near).bind fun _ X Y near => ?_
  refine (near.spanFrom rfl).bind fun directive X Y near => ?_
  exact modifyDirectives_tracks near keeps rfl

theorem beginRegion_tracks (near : Near c o k X Y) (keeps : ¬ c.drops) (start : Location) :
    Tracks c o k (beginRegion start) (beginRegion (c.carry start)) X Y := by
  refine (stringLiteral_tracks near).bind fun description X Y near => ?_
  refine (near.spanFrom rfl).bind fun directive X Y near => ?_
  refine modifyDirectives_tracks near keeps ?_
  cases description <;> rfl

theorem namedDirective_tracks (near : Near c o k X Y) (keeps : ¬ c.drops) (start : Location) :
    Tracks c o k (namedDirective start) (namedDirective (c.carry start)) X Y := by
  have contextual (t : Token) (word : Keyword) :
      (relocate c.carry t).isContextual word = t.isContextual word := rfl
  refine near.peek ?_ fun x y ends breaks _ _ => ?_
  · simp only [contextual]
    split
    next word =>
      exact near.up.skip (inside_of_isContextual word) fun X Y near =>
        beginRegion_tracks near keeps start
    next =>
      split
      next word =>
        exact near.up.skip (inside_of_isContextual word) fun X Y near =>
          beginMapping_tracks near keeps start
      next =>
        split
        next word =>
          exact near.up.skip (inside_of_isContextual word) fun X Y near =>
            checksum_tracks near start
        next => exact invalidDirective_tracks near start
  · have none (word : Keyword) : x.isContextual word = false :=
      Token.isContextual_eq_false (by rw [Token.kind, ends]; rfl)
    have none' (word : Keyword) : y.isContextual word = false :=
      Token.isContextual_eq_false (by rw [Token.kind, breaks]; rfl)
    simp only [none, none']
    exact invalidDirective_tracks near start

theorem directiveBody_tracks (agree : r.Agree c k r') (near : Near c o k X Y)
    (keeps : ¬ c.drops) (start : Location) :
    Tracks c o k (directiveBody r start) (directiveBody r' (c.carry start)) X Y := by
  refine near.peekKind rfl ?_
  split
  next word =>
    exact near.up.skipSolid word rfl fun X Y near => beginConditional_tracks agree near keeps start
  next word =>
    refine near.up.skipSolid word rfl fun X Y near => ?_
    refine (directiveCondition_tracks agree near).bind fun _ X Y near => ?_
    exact conditionalBranch_tracks near keeps start false
  next word =>
    refine near.up.skipSolid word rfl fun X Y near => ?_
    refine near.up.eat rfl (fun _ => conditionalBranch_tracks near keeps start true)
      fun _ X Y near => ?_
    refine (directiveCondition_tracks agree near).bind fun _ X Y near => ?_
    exact conditionalBranch_tracks near keeps start false
  next word =>
    exact near.up.skipSolid word rfl fun X Y near => endDirective_tracks near keeps start
  next word =>
    exact near.up.skipSolid word rfl fun X Y near => conditionalConstant_tracks agree near
  next => exact namedDirective_tracks near keeps start

/-- A directive line, up to its end. -/
theorem directive_tracks {m : Option ParseState} (agree : r.Agree c k r')
    (near : Paired c m (k + 1) X Y) (keeps : ¬ c.drops) (sign : X.kind = .mark .pound) :
    Tracks c Y k (directive r) (directive r') X Y := by
  refine near.beginConstruct fun near => ?_
  refine near.read (sign ▸ rfl) fun X' Y' near => ?_
  refine (directiveBody_tracks agree near keeps _).bind fun _ X' Y' near => near.peekKind rfl ?_
  have passed {X' Y' : ParseState} (near : Near c Y k X' Y') :
      Tracks c Y k (modify fun s => s.advanceWhile (fun s => !s.kind.endsLine) s.remaining)
        (modify fun s => s.advanceWhile (fun s => !s.kind.endsLine) s.remaining) X' Y' := by
    obtain ⟨after, paced⟩ := near.passed (fun s => !s.kind.endsLine)
      (fun X Y twin => by rw [twin.kind.endsLine])
      (fun X ends => by rcases ends with ends | ends <;> rw [ends] <;> rfl)
      (Nat.le_refl _) (Nat.le_refl _)
    exact fun _ => ⟨rfl, after, paced⟩
  split
  · exact passed near
  · exact near.reportUnexpected fun X Y _ near => passed near

end VisualBasic.Parse
