import VisualBasic.Parse.Lookahead
import VisualBasic.Proofs.Parse.Run
import VisualBasic.Proofs.Syntax.RelocateLaws

/-!
Two texts with the same tokens.  The second text has them at other places; it may go on where the
first one ends, and it may have empty lines where the first one has directives.  Whatever looks
ahead finds the same in both.
-/

set_option autoImplicit false

namespace VisualBasic

instance : Relocate OpenBlock := ⟨fun g b => { b with header := relocate g b.header }⟩
instance : Relocate PendingNext := ⟨fun g p => { p with statement := relocate g p.statement }⟩
instance : Relocate OpenConditional := ⟨fun g d => { d with directive := relocate g d.directive }⟩
instance : Relocate OpenRegion := ⟨fun g d => { d with directive := relocate g d.directive }⟩
instance : Relocate OpenMapping := ⟨fun g d => { d with directive := relocate g d.directive }⟩

instance : Relocate OpenDirectives :=
  ⟨fun g d => ⟨relocate g d.conditionals, relocate g d.regions, relocate g d.mapping⟩⟩

instance : Relocate Region := ⟨fun g d => { d with span := relocate g d.span }⟩
instance : Relocate LineMapping := ⟨fun g d => { d with span := relocate g d.span }⟩
instance : Relocate Checksum := ⟨fun g d => { d with span := relocate g d.span }⟩

instance : Relocate DirectiveTables :=
  ⟨fun g t => ⟨t.constants, relocate g t.regions, relocate g t.lineMappings,
    relocate g t.checksums⟩⟩

instance : LawfulRelocate OpenBlock := ⟨fun _ => rfl, fun _ _ _ => rfl⟩
instance : LawfulRelocate OpenConditional := ⟨fun _ => rfl, fun _ _ _ => rfl⟩
instance : LawfulRelocate OpenRegion := ⟨fun _ => rfl, fun _ _ _ => rfl⟩
instance : LawfulRelocate OpenMapping := ⟨fun _ => rfl, fun _ _ _ => rfl⟩
instance : LawfulRelocate Region := ⟨fun _ => rfl, fun _ _ _ => rfl⟩
instance : LawfulRelocate LineMapping := ⟨fun _ => rfl, fun _ _ _ => rfl⟩
instance : LawfulRelocate Checksum := ⟨fun _ => rfl, fun _ _ _ => rfl⟩

instance : LawfulRelocate OpenDirectives where
  relocate_id _ := (OpenDirectives.mk.injEq ..).mpr (by and_intros <;> exact relocate_id _)
  relocate_comp f g _ := (OpenDirectives.mk.injEq ..).mpr
    (by and_intros <;> exact relocate_comp f g _)

instance : LawfulRelocate DirectiveTables where
  relocate_id _ := (DirectiveTables.mk.injEq ..).mpr
    ⟨rfl, by and_intros <;> exact relocate_id _⟩
  relocate_comp f g _ := (DirectiveTables.mk.injEq ..).mpr
    ⟨rfl, by and_intros <;> exact relocate_comp f g _⟩

/-- How two texts are alike: where the locations of the first go, the token that ends it, and the
tokens that stand there in the second. -/
structure Seam where
  carry : Location → Location
  last : Token
  first : Token
  rest : List Token
  -- what had been found before the second text
  found : List Diagnostic
  recorded : DirectiveTables
  -- the second text has empty lines in place of directives
  drops : Prop
  -- what is left over of a `Next` matters
  loops : Prop
  -- no loop is closed along with another one
  settles : Prop
  -- no comment has been noted before the second text
  fresh : Prop
  ordered : ∀ a b, (carry a).index < (carry b).index ↔ a.index < b.index
  -- a text that is moved starts at one location only
  anchored : 0 < (carry .origin).index → ∀ a, a.index = 0 → carry a = carry .origin
  inPlace : drops → carry = id
  ends : last.kind = .endOfStream
  meets : first.span.start = carry last.span.start
  joint : first.kind = .lineTerminator ∨ first = relocate carry last ∧ rest = []

namespace Seam

variable {c : Seam}

/-- The second text goes on. -/
def IsCut (c : Seam) : Prop := c.first.kind = .lineTerminator

theorem uncut_of_ends (ends : c.first.kind = .endOfStream) : ¬ c.IsCut := by
  rw [IsCut, ends]
  simp

theorem whole (uncut : ¬ c.IsCut) : c.first = relocate c.carry c.last ∧ c.rest = [] :=
  c.joint.resolve_left uncut

theorem not_before_origin (l : Location) : ¬ (c.carry l).index < (c.carry .origin).index := by
  rw [c.ordered]
  exact Nat.not_lt_zero _

-- Locations and spans

theorem lt_carry {a b : Location} : c.carry a < c.carry b ↔ a < b := c.ordered a b

theorem later_carry (a b : Location) : (c.carry a).later (c.carry b) = c.carry (a.later b) := by
  unfold Location.later
  rw [apply_ite c.carry]
  exact if_congr lt_carry rfl rfl

theorem earlier_carry (a b : Location) :
    (c.carry a).earlier (c.carry b) = c.carry (a.earlier b) := by
  unfold Location.earlier
  rw [apply_ite c.carry]
  exact if_congr lt_carry rfl rfl

theorem merge_carry (a b : Span) :
    (relocate c.carry a).merge (relocate c.carry b) = relocate c.carry (a.merge b) := by
  show Span.mk _ _ = Span.mk _ _
  rw [Span.mk.injEq]
  exact ⟨earlier_carry _ _, later_carry _ _⟩

-- Tokens

/-- The tokens ahead in both texts.  A directive that the second text lacks can only stand at the
start of a line, of which the flag tells. -/
inductive Ahead (c : Seam) : Bool → List Token → List Token → Prop where
  | last {fresh : Bool} : Ahead c fresh [c.last] (c.first :: c.rest)
  | cons {fresh : Bool} {t : Token} {xs ys : List Token} : t.kind ≠ .endOfStream →
      t.kind ≠ .comment → (c.drops → fresh = true → t.kind ≠ .mark .pound) →
      Ahead c (t.kind == .lineTerminator) xs ys → Ahead c fresh (t :: xs) (relocate c.carry t :: ys)
  | drop {sign ending ending' : Token} {line breaks xs ys : List Token} : c.drops →
      sign.kind = .mark .pound → (∀ t ∈ line, t.kind.endsLine = false) →
      (∀ t ∈ breaks, t.kind = .lineTerminator) → ending.kind = .lineTerminator →
      ending'.kind = .lineTerminator → ending'.span.finish = c.carry ending.span.finish →
      Ahead c true xs ys → Ahead c true (sign :: (line ++ ending :: xs)) (breaks ++ ending' :: ys)

/-- The kinds are the same, or both texts have come to where the first one ends. -/
def Alike (c : Seam) (k k' : TokenKind) : Prop :=
  k' = k ∨ c.IsCut ∧ k = .endOfStream ∧ k' = .lineTerminator

theorem Alike.eq_iff {k k' kind : TokenKind} (alike : c.Alike k k') (solid : kind.endsLine = false) :
    k' = kind ↔ k = kind := by
  rcases alike with rfl | ⟨-, rfl, rfl⟩
  · rfl
  · constructor <;> rintro rfl <;> cases solid

theorem Alike.beq {k k' kind : TokenKind} (alike : c.Alike k k') (solid : kind.endsLine = false) :
    (k' == kind) = (k == kind) := by
  rw [Bool.eq_iff_iff, beq_iff_eq, beq_iff_eq]
  exact alike.eq_iff solid

/-- Where a text ends, nothing depends on how it ends. -/
theorem Alike.apply {α : Type} {k k' : TokenKind} (alike : c.Alike k k') (f : TokenKind → α)
    (same : f .lineTerminator = f .endOfStream) : f k' = f k := by
  rcases alike with rfl | ⟨-, rfl, rfl⟩
  · rfl
  · exact same

theorem Alike.endsLine {k k' : TokenKind} (alike : c.Alike k k') : k'.endsLine = k.endsLine :=
  alike.apply TokenKind.endsLine rfl

theorem alike_ends : c.Alike c.last.kind c.first.kind := by
  rcases c.joint with cut | ⟨same, -⟩
  · exact .inr ⟨cut, c.ends, cut⟩
  · rw [same]
    exact .inl rfl

theorem first_kind : c.first.kind = .endOfStream ∨ c.first.kind = .lineTerminator := by
  rcases c.joint with cut | ⟨same, -⟩
  · exact .inr cut
  · exact .inl (same ▸ c.ends)

theorem last_endsLine : c.last.kind.endsLine = true := by
  rw [c.ends]
  rfl

theorem first_endsLine : c.first.kind.endsLine = true := by
  rw [alike_ends.endsLine]
  exact last_endsLine

theorem isModifier_eq_false {t : Token} (ends : t.kind.endsLine = true) :
    Lookahead.isModifier t = false := by
  unfold Lookahead.isModifier
  cases kind : t.kind <;> simp [kind, TokenKind.endsLine] at ends <;> rfl

namespace Ahead

variable {fresh : Bool} {xs ys : List Token}

theorem ne_nil (ahead : c.Ahead fresh xs ys) : xs ≠ [] := by
  cases ahead <;> simp

theorem ne_nil' (ahead : c.Ahead fresh xs ys) : ys ≠ [] := by
  cases ahead <;> simp

theorem cons_cases {x y : Token} (ahead : c.Ahead false (x :: xs) (y :: ys)) :
    (x = c.last ∧ xs = [] ∧ y = c.first ∧ ys = c.rest) ∨
      x.kind ≠ .endOfStream ∧ x.kind ≠ .comment ∧ y = relocate c.carry x ∧
        c.Ahead (x.kind == .lineTerminator) xs ys := by
  cases ahead with
  | last => exact .inl ⟨rfl, rfl, rfl, rfl⟩
  | cons goesOn plain _ ahead => exact .inr ⟨goesOn, plain, rfl, ahead⟩

/-- Tokens that both texts have, with nothing left out. -/
theorem front (keeps : ¬ c.drops) {line : List Token} (goesOn : ∀ t ∈ line, t.kind ≠ .endOfStream)
    (plain : ∀ t ∈ line, t.kind ≠ .comment) (fresh : Bool) :
    c.Ahead fresh (line ++ [c.last]) (relocate c.carry line ++ c.first :: c.rest) := by
  induction line generalizing fresh with
  | nil => exact .last
  | cons t line ih =>
    obtain ⟨first, goesOn⟩ := List.forall_mem_cons.1 goesOn
    obtain ⟨word, plain⟩ := List.forall_mem_cons.1 plain
    exact .cons first word (fun drops => absurd drops keeps) (ih goesOn plain _)

theorem start {x y : Token} (ahead : c.Ahead fresh (x :: xs) (y :: ys)) (keeps : ¬ c.drops) :
    y.span.start = c.carry x.span.start := by
  generalize here : x :: xs = tokens at ahead
  generalize there : y :: ys = tokens' at ahead
  cases ahead with
  | last =>
    obtain ⟨rfl, -⟩ := List.cons.inj here
    obtain ⟨rfl, -⟩ := List.cons.inj there
    exact c.meets
  | cons =>
    obtain ⟨rfl, -⟩ := List.cons.inj here
    obtain ⟨rfl, -⟩ := List.cons.inj there
    rfl
  | drop drops => exact absurd drops keeps

/-- Within a line no directive starts. -/
theorem within (ahead : c.Ahead fresh xs ys)
    (apart : ∀ t ∈ xs.head?, fresh = true → c.drops → t.kind ≠ .mark .pound) :
    c.Ahead false xs ys := by
  cases ahead with
  | last => exact .last
  | cons goesOn plain _ ahead => exact .cons goesOn plain (by simp) ahead
  | drop drops sign => exact absurd sign (apart _ rfl rfl drops)

theorem kindAt_zero (ahead : c.Ahead false xs ys) :
    c.Alike (Lookahead.kindAt xs 0) (Lookahead.kindAt ys 0) := by
  cases ahead with
  | last => exact alike_ends
  | cons => exact .inl rfl

/-- What a token stands before, when it does not end its line. -/
theorem tail {t : Token} (inside : t.kind.endsLine = false)
    (ahead : c.Ahead (t.kind == .lineTerminator) xs ys) : c.Ahead false xs ys := by
  have other : (t.kind == .lineTerminator) = false := by
    rw [beq_eq_false_iff_ne]
    intro breaks
    rw [breaks] at inside
    cases inside
  rwa [other] at ahead

theorem firstOutside (ahead : c.Ahead fresh xs ys) (inside : fresh = false) (kinds : List TokenKind)
    (depth : Nat) :
    Lookahead.firstOutside kinds depth ys = Lookahead.firstOutside kinds depth xs := by
  induction ahead generalizing depth with
  | last =>
    rcases first_kind (c := c) with ends | breaks
    · simp [Lookahead.firstOutside, ends, c.ends]
    · simp [Lookahead.firstOutside, breaks, c.ends]
  | @cons _ t xs ys goesOn _ _ ahead ih =>
    show Lookahead.firstOutside kinds depth (relocate c.carry t :: ys) = _
    have kind : (relocate c.carry t).kind = t.kind := rfl
    by_cases breaks : t.kind = .lineTerminator
    · simp only [Lookahead.firstOutside, kind, breaks]
    · simp only [Lookahead.firstOutside, kind, ih (beq_eq_false_iff_ne.2 breaks)]
  | drop => cases inside

theorem behindParentheses (ahead : c.Ahead fresh xs ys) (inside : fresh = false) (depth : Nat) :
    Lookahead.behindParentheses? depth xs = none ∧ Lookahead.behindParentheses? depth ys = none ∨
      ∃ xs' ys', Lookahead.behindParentheses? depth xs = some xs' ∧
        Lookahead.behindParentheses? depth ys = some ys' ∧ c.Ahead false xs' ys' := by
  induction ahead generalizing depth with
  | last =>
    left
    rcases first_kind (c := c) with ends | breaks
    · simp [Lookahead.behindParentheses?, ends, c.ends]
    · simp [Lookahead.behindParentheses?, breaks, c.ends]
  | @cons _ t xs ys goesOn _ _ ahead ih =>
    have kind : (relocate c.carry t).kind = t.kind := rfl
    by_cases breaks : t.kind = .lineTerminator
    · simp [Lookahead.behindParentheses?, kind, breaks]
    · have inside : (t.kind == .lineTerminator) = false := beq_eq_false_iff_ne.2 breaks
      simp only [Lookahead.behindParentheses?, kind]
      split
      · exact ih inside _
      · cases depth with
        | zero => exact .inr ⟨_, _, rfl, rfl, inside ▸ ahead⟩
        | succ depth => exact ih inside depth
      · exact .inl ⟨rfl, rfl⟩
      · exact .inl ⟨rfl, rfl⟩
      · exact .inl ⟨rfl, rfl⟩
      · exact ih inside _
  | drop => cases inside

/-- Behind a group both texts go on alike, or both have come to where the first one ends. -/
theorem kindBehindGroup (ahead : c.Ahead false xs ys) :
    Lookahead.kindBehindGroup? ys = Lookahead.kindBehindGroup? xs ∨
      Lookahead.kindBehindGroup? xs = some .endOfStream ∧
        Lookahead.kindBehindGroup? ys = some .lineTerminator := by
  cases ahead with
  | last =>
    have here : c.last.kind ≠ .mark .leftParenthesis := by simp [c.ends]
    have there : c.first.kind ≠ .mark .leftParenthesis := by
      rw [Ne, alike_ends.eq_iff rfl]
      exact here
    left
    rw [Lookahead.kindBehindGroup?, if_neg there, Lookahead.kindBehindGroup?, if_neg here]
  | @cons _ t xs ys goesOn _ _ ahead =>
    have kind : (relocate c.carry t).kind = t.kind := rfl
    simp only [Lookahead.kindBehindGroup?, kind]
    split
    next starts =>
      rcases behindParentheses (ahead.tail (by rw [starts]; rfl)) rfl 0 with
        ⟨here, there⟩ | ⟨xs', ys', here, there, behind⟩
      · rw [here, there]
        exact .inl rfl
      · rw [here, there]
        rcases behind.kindAt_zero with same | ⟨-, ends, breaks⟩
        · exact .inl (congrArg some same)
        · exact .inr ⟨congrArg some ends, congrArg some breaks⟩
    next => exact .inl rfl

/-- Behind the attributes at the front, both texts go on alike, at the start of a line if the
attributes are not closed.  Attributes that the first text does not close may go on in the second
one. -/
theorem behindAttributes (ahead : c.Ahead fresh xs ys) (inside : fresh = false)
    (depth : Option Nat) :
    (Lookahead.behindAttributes depth ys).1 = (Lookahead.behindAttributes depth xs).1 ∧
      (c.Ahead (!(Lookahead.behindAttributes depth xs).1) (Lookahead.behindAttributes depth xs).2
          (Lookahead.behindAttributes depth ys).2 ∨
        Lookahead.behindAttributes depth xs = (false, []) ∧
          (Lookahead.behindAttributes depth ys).2 = c.rest) := by
  induction ahead generalizing depth with
  | last =>
    have here : c.last.kind ≠ .mark .lessThan := by simp [c.ends]
    have there : c.first.kind ≠ .mark .lessThan := by
      rw [Ne, alike_ends.eq_iff rfl]
      exact here
    cases depth with
    | none =>
      simp only [Lookahead.behindAttributes, here, there, if_false]
      exact ⟨trivial, .inl .last⟩
    | some depth =>
      rcases first_kind (c := c) with ends | breaks
      · simp [Lookahead.behindAttributes, ends, c.ends]
      · simp [Lookahead.behindAttributes, breaks, c.ends]
  | @cons _ t xs ys goesOn plain apart ahead ih =>
    have kind : (relocate c.carry t).kind = t.kind := rfl
    by_cases breaks : t.kind = .lineTerminator
    · cases depth with
      | none =>
        have other : t.kind ≠ .mark .lessThan := by simp [breaks]
        simp only [Lookahead.behindAttributes, kind, other, if_false]
        exact ⟨trivial, .inl (.cons goesOn plain (by simp) ahead)⟩
      | some depth =>
        simp only [Lookahead.behindAttributes, kind, breaks]
        refine ⟨trivial, .inl ?_⟩
        simpa [breaks] using ahead
    · have inside : (t.kind == .lineTerminator) = false := beq_eq_false_iff_ne.2 breaks
      cases depth with
      | none =>
        simp only [Lookahead.behindAttributes, kind]
        split
        · exact ih inside _
        · exact ⟨rfl, .inl (.cons goesOn plain (by simp) ahead)⟩
      | some depth =>
        simp only [Lookahead.behindAttributes, kind]
        split
        · exact ih inside _
        · exact ih inside _
        · split
          · exact ih inside _
          · exact ih inside _
        · contradiction
        · contradiction
        · exact ih inside _
  | drop => cases inside

theorem ofKinds (ahead : c.Ahead false xs ys) : LineStart.ofKinds ys = LineStart.ofKinds xs := by
  cases ahead with
  | last =>
    rcases first_kind (c := c) with ends | breaks
    · simp [LineStart.ofKinds, Lookahead.kindAt, ends, c.ends]
    · simp [LineStart.ofKinds, Lookahead.kindAt, breaks, c.ends]
  | @cons _ t xs ys goesOn _ _ ahead =>
    have kind : Lookahead.kindAt (relocate c.carry t :: ys) 0 = Lookahead.kindAt (t :: xs) 0 := rfl
    have custom : Lookahead.isContextualAt (relocate c.carry t :: ys) 0 .kwCustom =
        Lookahead.isContextualAt (t :: xs) 0 .kwCustom := rfl
    unfold LineStart.ofKinds
    rw [kind, custom]
    split
    all_goals try rfl
    next named =>
      have behind : (Lookahead.kindAt (relocate c.carry t :: ys) 1 == .word .kwEvent) =
          (Lookahead.kindAt (t :: xs) 1 == .word .kwEvent) :=
        (ahead.tail (by rw [show t.kind = .identifier from named]; rfl)).kindAt_zero.beq rfl
      rw [behind]

/-- Modifiers at the front are the same in both texts. -/
theorem dropModifiers (ahead : c.Ahead fresh xs ys) :
    (∃ fresh', (fresh = false → fresh' = false) ∧
      c.Ahead fresh' (xs.dropWhile Lookahead.isModifier) (ys.dropWhile Lookahead.isModifier)) ∧
      (ys.takeWhile Lookahead.isModifier).any Lookahead.isMemberModifier =
        (xs.takeWhile Lookahead.isModifier).any Lookahead.isMemberModifier := by
  induction ahead with
  | last =>
    have here := isModifier_eq_false (last_endsLine (c := c))
    have there := isModifier_eq_false (first_endsLine (c := c))
    simp only [List.dropWhile_cons, List.takeWhile_cons, here, there]
    exact ⟨⟨false, by simp, .last⟩, rfl⟩
  | @cons fresh t xs ys goesOn plain apart ahead ih =>
    have same : Lookahead.isModifier (relocate c.carry t) = Lookahead.isModifier t := rfl
    have member : Lookahead.isMemberModifier (relocate c.carry t) = Lookahead.isMemberModifier t :=
      rfl
    by_cases holds : Lookahead.isModifier t = true
    · have inside : (t.kind == .lineTerminator) = false := by
        rw [beq_eq_false_iff_ne]
        intro breaks
        rw [isModifier_eq_false (by rw [breaks]; rfl)] at holds
        cases holds
      obtain ⟨⟨fresh', kept, dropped⟩, any⟩ := ih
      rw [List.dropWhile_cons_of_pos holds, List.dropWhile_cons_of_pos (same.trans holds),
        List.takeWhile_cons_of_pos holds, List.takeWhile_cons_of_pos (same.trans holds),
        List.any_cons, List.any_cons, any, member]
      exact ⟨⟨fresh', fun _ => kept inside, dropped⟩, rfl⟩
    · rw [List.dropWhile_cons_of_neg holds, List.dropWhile_cons_of_neg (by rwa [same]),
        List.takeWhile_cons_of_neg holds, List.takeWhile_cons_of_neg (by rwa [same])]
      exact ⟨⟨fresh, id, .cons goesOn plain apart ahead⟩, rfl⟩
  | @drop sign ending ending' line breaks xs ys drops isSign inside isBreak ends ends' finish ahead ih =>
    have plain : ¬ Lookahead.isModifier sign = true := by
      simp [Lookahead.isModifier, isSign, Modifier.ofKind?]
    obtain ⟨y, ys', first, stops⟩ : ∃ y ys', breaks ++ ending' :: ys = y :: ys' ∧
        y.kind = .lineTerminator := by
      cases breaks with
      | nil => exact ⟨ending', ys, rfl, ends'⟩
      | cons b rest => exact ⟨b, rest ++ ending' :: ys, rfl, isBreak b List.mem_cons_self⟩
    have there := isModifier_eq_false (t := y) (by rw [stops]; rfl)
    have whole := Ahead.drop drops isSign inside isBreak ends ends' finish ahead
    rw [first] at whole ⊢
    rw [List.dropWhile_cons_of_neg plain, List.dropWhile_cons_of_neg (by simp [there]),
      List.takeWhile_cons_of_neg plain, List.takeWhile_cons_of_neg (by simp [there])]
    exact ⟨⟨true, by simp, whole⟩, rfl⟩

theorem ofTokens (ahead : c.Ahead false xs ys) : LineStart.ofTokens ys = LineStart.ofTokens xs := by
  obtain ⟨closed, behind⟩ := ahead.behindAttributes rfl none
  unfold LineStart.ofTokens
  dsimp only
  rw [closed]
  split
  next => rfl
  next all =>
    rcases behind with behind | ⟨unclosed, -⟩
    · obtain ⟨⟨fresh, kept, line⟩, any⟩ := behind.dropModifiers
      have line : c.Ahead false _ _ := kept (by simpa using all) ▸ line
      rw [ahead.kindAt_zero.beq rfl, line.ofKinds, any]
    · simp [unclosed] at all

theorem atFileAttribute (ahead : c.Ahead false xs ys) :
    Lookahead.atFileAttribute ys = Lookahead.atFileAttribute xs := by
  unfold Lookahead.atFileAttribute
  rw [ahead.kindAt_zero.beq rfl]
  cases ahead with
  | last =>
    have other : (Lookahead.kindAt [c.last] 0 == .mark .lessThan) = false := by
      simp [Lookahead.kindAt, c.ends]
    simp [other]
  | @cons _ t xs ys goesOn _ _ ahead =>
    by_cases starts : t.kind = .mark .lessThan
    · have line := ahead.tail (by rw [starts]; rfl)
      cases line with
      | last =>
        have contextual {u : Token} (ends : u.kind.endsLine = true) :
            u.isContextual .kwAssembly = false := by
          cases kind : u.kind <;> simp [kind, TokenKind.endsLine] at ends <;>
            simp [Token.isContextual, kind]
        have here := contextual (last_endsLine (c := c))
        have there := contextual (first_endsLine (c := c))
        have word : (c.last.kind == .word .kwModule) = false := by simp [c.ends]
        have word' : (c.first.kind == .word .kwModule) = (c.last.kind == .word .kwModule) :=
          alike_ends.beq rfl
        simp [Lookahead.kindAt, Lookahead.isContextualAt, here, there, word, word']
      | @cons _ u xs ys _ _ _ behind =>
        have second : (Lookahead.kindAt (relocate c.carry t :: relocate c.carry u :: ys) 1) =
            Lookahead.kindAt (t :: u :: xs) 1 := rfl
        have assembly : Lookahead.isContextualAt (relocate c.carry t :: relocate c.carry u :: ys) 1
            .kwAssembly = Lookahead.isContextualAt (t :: u :: xs) 1 .kwAssembly := rfl
        rw [second, assembly]
        by_cases breaks : u.kind = .lineTerminator
        · have word : Lookahead.kindAt (t :: u :: xs) 1 = .lineTerminator := breaks
          have none : Lookahead.isContextualAt (t :: u :: xs) 1 .kwAssembly = false := by
            simp [Lookahead.isContextualAt, Token.isContextual, breaks]
          rw [word, none]
          simp [show (TokenKind.lineTerminator == .word .kwModule) = false from rfl]
        · have third : (Lookahead.kindAt (relocate c.carry t :: relocate c.carry u :: ys) 2 ==
              .mark .colon) = (Lookahead.kindAt (t :: u :: xs) 2 == .mark .colon) := by
            rw [beq_eq_false_iff_ne.2 breaks] at behind
            exact behind.kindAt_zero.beq rfl
          rw [third]
    · have other : (Lookahead.kindAt (t :: xs) 0 == .mark .lessThan) = false :=
        beq_eq_false_iff_ne.2 starts
      simp [other]

/-- A line starts the same accessor in both texts, if its attributes are the same.  Behind the
keyword both texts may have come to where the first one ends. -/
theorem accessor
    (behind : c.Ahead fresh (Lookahead.behindAttributes none xs).2
      (Lookahead.behindAttributes none ys).2) :
    Lookahead.accessor? ys = Lookahead.accessor? xs ∨
      ∃ k, Lookahead.accessor? xs = some (k, .endOfStream) ∧
        Lookahead.accessor? ys = some (k, .lineTerminator) := by
  obtain ⟨⟨fresh', -, line⟩, -⟩ := behind.dropModifiers
  unfold Lookahead.accessor?
  dsimp only
  generalize (Lookahead.behindAttributes none xs).2.dropWhile Lookahead.isModifier = xs at line ⊢
  generalize (Lookahead.behindAttributes none ys).2.dropWhile Lookahead.isModifier = ys at line ⊢
  cases line with
  | last =>
    left
    rcases first_kind (c := c) with ends | breaks
    · simp [Lookahead.kindAt, ends, c.ends]
    · simp [Lookahead.kindAt, breaks, c.ends]
  | @cons _ t xs ys goesOn _ _ ahead =>
    have kind : Lookahead.kindAt (relocate c.carry t :: ys) 0 = Lookahead.kindAt (t :: xs) 0 := rfl
    rw [kind]
    split
    next k word =>
      have behind := (ahead.tail (by rw [show t.kind = .word k from word]; rfl)).kindAt_zero
      split
      · rcases behind with same | ⟨-, ends, breaks⟩
        · exact .inl (congrArg (fun after => some (TokenKind.word k, after)) same)
        · exact .inr ⟨.word k, congrArg (fun after => some (TokenKind.word k, after)) ends,
            congrArg (fun after => some (TokenKind.word k, after)) breaks⟩
      · exact .inl rfl
    next => exact .inl rfl
  | @drop sign ending ending' line breaks xs ys _ isSign _ isBreak _ ends' =>
    have here : Lookahead.kindAt (sign :: (line ++ ending :: xs)) 0 = .mark .pound := isSign
    have there : Lookahead.kindAt (breaks ++ ending' :: ys) 0 = .lineTerminator := by
      cases breaks with
      | nil => exact ends'
      | cons b rest => exact isBreak b List.mem_cons_self
    left
    rw [here, there]

end Ahead

end Seam

end VisualBasic
