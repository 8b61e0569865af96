import Mathlib.Data.List.TakeWhile
import VisualBasic.Scan.Reader

/-!
How far a lexeme reaches.  Every lexeme takes at least one character and no more than there are,
and only a line break takes the end of a line.
-/

set_option autoImplicit false

namespace VisualBasic

-- The ends of lines stand apart from every class of characters that lexemes are made of.

theorem isLineTerminator_cases {c : Char} (ends : isLineTerminator c = true) :
    c = '\r' ∨ c = '\n' ∨ c = '\u2028' ∨ c = '\u2029' := by
  simpa [isLineTerminator, or_assoc] using ends

/-- A property that fails at each of the four ends of lines fails at all of them. -/
theorem not_isLineTerminator_of {p : Char → Bool}
    (apart : p '\r' = false ∧ p '\n' = false ∧ p '\u2028' = false ∧ p '\u2029' = false)
    {c : Char} (holds : p c = true) : isLineTerminator c = false := by
  by_contra ends
  rcases isLineTerminator_cases (Bool.of_not_eq_false ends) with rfl | rfl | rfl | rfl
  · simp [apart.1] at holds
  · simp [apart.2.1] at holds
  · simp [apart.2.2.1] at holds
  · simp [apart.2.2.2] at holds

theorem not_isLineTerminator_of_isIdentifierPart {c : Char} (part : isIdentifierPart c = true) :
    isLineTerminator c = false :=
  not_isLineTerminator_of (by decide +kernel) part

theorem isIdentifierPart_of_isIdentifierStart {c : Char} (starts : isIdentifierStart c = true) :
    isIdentifierPart c = true := by
  simp only [isIdentifierStart, isIdentifierPart] at *
  grind

theorem not_isLineTerminator_of_isIdentifierStart {c : Char} (starts : isIdentifierStart c = true) :
    isLineTerminator c = false :=
  not_isLineTerminator_of_isIdentifierPart (isIdentifierPart_of_isIdentifierStart starts)

theorem not_isLineTerminator_of_isBlank {c : Char} (blank : isBlank c = true) :
    isLineTerminator c = false :=
  not_isLineTerminator_of (by decide) blank

theorem not_isLineTerminator_of_digit {radix : Nat} {c : Char}
    (digit : (digitValue? radix c).isSome = true) : isLineTerminator c = false :=
  not_isLineTerminator_of (p := fun c => (digitValue? radix c).isSome) ⟨rfl, rfl, rfl, rfl⟩ digit

theorem not_isLineTerminator_of_halfWidth {c : Char}
    (inside : isLineTerminator (halfWidth c) = false) : isLineTerminator c = false := by
  by_contra ends
  rcases isLineTerminator_cases (Bool.of_not_eq_false ends) with rfl | rfl | rfl | rfl <;>
    exact absurd inside (by decide)

theorem not_isLineTerminator_of_halfWidth_mem {c : Char} {marks : List Char}
    (apart : marks.all fun m => !isLineTerminator m) (member : halfWidth c ∈ marks) :
    isLineTerminator c = false :=
  not_isLineTerminator_of_halfWidth (by simpa using List.all_eq_true.1 apart (halfWidth c) member)

/-- The text starts with `n` characters, none of which ends a line. -/
def Clear (cs : List Char) (n : Nat) : Prop :=
  n ≤ cs.length ∧ ∀ c ∈ cs.take n, isLineTerminator c = false

namespace Clear

variable {cs : List Char} {a b : Nat} {p : Char → Bool}

theorem zero (cs : List Char) : Clear cs 0 := ⟨Nat.zero_le _, by simp⟩

theorem add (first : Clear cs a) (second : Clear (cs.drop a) b) : Clear cs (a + b) := by
  have fits := second.1
  have := first.1
  rw [List.length_drop] at fits
  refine ⟨by omega, fun c member => ?_⟩
  rw [List.take_add] at member
  exact (List.mem_append.1 member).elim (first.2 c) (second.2 c)

theorem one {c : Char} (rest : List Char) (inside : isLineTerminator c = false) :
    Clear (c :: rest) 1 := by
  refine ⟨by simp, fun d member => ?_⟩
  simp only [List.take_succ_cons, List.take_zero, List.mem_singleton] at member
  rwa [member]

theorem ofTakeWhile (cs : List Char) (apart : ∀ c, p c = true → isLineTerminator c = false) :
    Clear cs (cs.takeWhile p).length := by
  refine ⟨(List.takeWhile_prefix p).length_le, fun c member => apart c ?_⟩
  rw [← List.prefix_iff_eq_take.1 (List.takeWhile_prefix p)] at member
  exact List.mem_takeWhile_imp member

theorem ofHead (apart : ∀ c, p c = true → isLineTerminator c = false)
    (holds : cs.head?.any p = true) : Clear cs 1 := by
  cases cs with
  | nil => simp at holds
  | cons c rest => exact one rest (apart c (by simpa using holds))

end Clear

/-- A lexeme that stands for text within a line, and spells its name if it has one. -/
def Lexeme.IsProper : Lexeme → Prop
  | .endOfStream | .lineTerminator => False
  | .identifier name => name.text ≠ ""
  | .keyword _ text => text ≠ ""
  | _ => True

theorem Literal.tokenKind_ne (l : Literal) :
    l.tokenKind ≠ .endOfStream ∧ l.tokenKind ≠ .lineTerminator := by
  unfold tokenKind
  split <;> simp

theorem Lexeme.IsProper.kind_ne {l : Lexeme} (proper : l.IsProper) :
    l.kind ≠ .endOfStream ∧ l.kind ≠ .lineTerminator := by
  cases l with
  | endOfStream | lineTerminator => exact proper.elim
  | literal value => exact value.tokenKind_ne
  | _ => simp [Lexeme.kind]

/-- What a match takes from a text. -/
structure Match.Takes (m : Match) (cs : List Char) : Prop where
  positive : 0 < m.length
  clear : Clear cs m.length
  proper : m.lexeme.IsProper

namespace Scan

variable {cs : List Char}

-- Numbers

theorem clear_leadingDigits (radix : Nat) (cs : List Char) :
    Clear cs (leadingDigits radix cs).length := by
  induction cs with
  | nil => exact Clear.zero []
  | cons c rest ih =>
    cases digit : digitValue? radix c with
    | none =>
      simp only [leadingDigits, digit]
      exact Clear.zero _
    | some d =>
      have first := Clear.one rest (not_isLineTerminator_of_digit (by rw [digit]; rfl))
      simpa [leadingDigits, digit, Nat.add_comm] using first.add ih

theorem afterOne_eq_some {marks rest : List Char} (found : afterOne marks cs = some rest) :
    ∃ c, cs = c :: rest ∧ halfWidth c ∈ marks := by
  cases cs with
  | nil => simp [afterOne] at found
  | cons c tail =>
    simp only [afterOne] at found
    split at found
    next member => exact ⟨c, by simpa using found, member⟩
    next => simp at found

theorem clear_fraction {digits : List Nat} (found : fractionDigits? cs = some digits) :
    Clear cs (digits.length + 1) := by
  simp only [fractionDigits?] at found
  split at found
  next rest after =>
    obtain ⟨c, rfl, mark⟩ := afterOne_eq_some after
    obtain ⟨rfl, -⟩ : leadingDigits 10 rest = digits ∧ _ := by simpa using found
    rw [Nat.add_comm]
    exact (Clear.one rest (not_isLineTerminator_of_halfWidth_mem (by decide) mark)).add
      (clear_leadingDigits 10 rest)
  next => simp at found

theorem clear_exponent {value : Int} {n : Nat} (found : exponentPart? cs = some (value, n)) :
    Clear cs n := by
  simp only [exponentPart?, Option.bind_eq_bind, Option.bind_eq_some_iff] at found
  obtain ⟨rest, after, found⟩ := found
  obtain ⟨c, rfl, mark⟩ := afterOne_eq_some after
  have letter := Clear.one rest (not_isLineTerminator_of_halfWidth_mem (by decide) mark)
  split at found
  next =>
    -- the digits stand behind a sign
    split at found
    · simp at found
    · cases rest with
      | nil => simp at found
      | cons sign digits =>
        have tail := clear_leadingDigits 10 digits
        have signed (marked : halfWidth sign ∈ ['+', '-']) :
            Clear (c :: sign :: digits) (1 + (1 + (leadingDigits 10 digits).length)) :=
          letter.add
            ((Clear.one digits (not_isLineTerminator_of_halfWidth_mem (by decide) marked)).add tail)
        split at found
        next plus =>
          have := signed (by simp [show halfWidth sign = '+' by simpa using plus])
          simp at found
          rw [← found.2]
          convert this using 1
          omega
        next minus =>
          have := signed (by simp [show halfWidth sign = '-' by simpa using minus])
          simp at found
          rw [← found.2]
          convert this using 1
          omega
        next => simp at found
  next =>
    simp at found
    rw [← found.2, Nat.add_comm]
    exact letter.add (clear_leadingDigits 10 rest)

theorem clear_readNumeral (cs : List Char) : Clear cs (readNumeral cs).2 := by
  simp only [readNumeral]
  refine ((clear_leadingDigits 10 cs).add ?_).add ?_
  · cases found : fractionDigits? (cs.drop (leadingDigits 10 cs).length) with
    | none => exact Clear.zero _
    | some digits => exact clear_fraction found
  · rw [← List.drop_drop]
    generalize (cs.drop (leadingDigits 10 cs).length).drop _ = rest
    cases found : exponentPart? rest with
    | none => exact Clear.zero _
    | some part => exact clear_exponent found

theorem digitValue?_of_isDecimalDigit {c : Char} (digit : isDecimalDigit c = true) :
    digitValue? 10 c = some ((halfWidth c).toNat - '0'.toNat) := by
  have range : 48 ≤ (halfWidth c).toNat ∧ (halfWidth c).toNat ≤ 57 := by
    simpa [isDecimalDigit, Char.isDigit, UInt32.le_iff_toNat_le] using digit
  have digit : (halfWidth c).isDigit = true := digit
  simp only [digitValue?, digit, if_true, Option.filter_some]
  rw [if_pos]
  simp only [decide_eq_true_eq, Char.reduceToNat]
  omega

theorem leadingDigits_ne_nil (cs : List Char) (digit : cs.head?.any isDecimalDigit = true) :
    leadingDigits 10 cs ≠ [] := by
  cases cs with
  | nil => simp at digit
  | cons c rest => simp [leadingDigits, digitValue?_of_isDecimalDigit (by simpa using digit)]

theorem readNumeral_pos {c : Char} {rest : List Char}
    (starts : isDecimalDigit c = true ∨ halfWidth c = '.' ∧ rest.head?.any isDecimalDigit = true) :
    0 < (readNumeral (c :: rest)).2 := by
  simp only [readNumeral]
  rcases starts with digit | ⟨point, digit⟩
  · have whole := List.length_pos_iff.2 (leadingDigits_ne_nil (c :: rest) (by simpa using digit))
    omega
  · have none : leadingDigits 10 (c :: rest) = [] := by
      simp [leadingDigits, show digitValue? 10 c = none by simp [digitValue?, point]]
    have fraction : fractionDigits? (c :: rest) = some (leadingDigits 10 rest) := by
      simp [fractionDigits?, afterOne, point, leadingDigits_ne_nil rest digit]
    simp only [none, List.length_nil, List.drop_zero, fraction, Option.elim_some]
    omega

theorem not_isLineTerminator_of_letter {c : Char}
    (letter : (halfWidth c).toUpper ∈ ['S', 'I', 'L', 'F', 'R', 'D', 'U']) :
    isLineTerminator c = false :=
  not_isLineTerminator_of
    (p := fun c => decide ((halfWidth c).toUpper ∈ ['S', 'I', 'L', 'F', 'R', 'D', 'U']))
    (by decide) (decide_eq_true letter)

theorem clear_letterSuffix {version : Version} {integralOnly : Bool} {c : Char} {rest : List Char}
    {suffix : TypeCharacter × Nat}
    (found : letterSuffix? version integralOnly (halfWidth c) (rest.head?.map halfWidth)
      = some suffix) : Clear (c :: rest) suffix.2 := by
  have first : Clear (c :: rest) 1 := by
    refine Clear.one rest (not_isLineTerminator_of_letter ?_)
    simp only [letterSuffix?] at found
    split at found <;> simp_all
  have second {mark : Char} (follows : (rest.head?.map halfWidth).map Char.toUpper = some mark)
      (letter : mark ∈ ['S', 'I', 'L']) : Clear (c :: rest) 2 := by
    simp only [Option.map_eq_some_iff] at follows
    obtain ⟨_, ⟨d, head, rfl⟩, rfl⟩ := follows
    obtain ⟨tail, rfl⟩ := List.head?_eq_some_iff.1 head
    exact first.add (Clear.one tail (not_isLineTerminator_of_letter (by grind)))
  simp only [letterSuffix?] at found
  grind

theorem numberSuffix?_symbol {c : Char} {t : TypeCharacter}
    (symbol : TypeCharacter.ofSymbol? (halfWidth c) = some t) (version : Version)
    (integralOnly : Bool) (rest : List Char) :
    numberSuffix? version integralOnly (c :: rest) =
      if symbolSuffix? integralOnly t rest then some (t, 1) else none := by
  simp only [numberSuffix?, symbol]

theorem numberSuffix?_letters {c : Char} (letter : TypeCharacter.ofSymbol? (halfWidth c) = none)
    (version : Version) (integralOnly : Bool) (rest : List Char) :
    numberSuffix? version integralOnly (c :: rest) =
      (letterSuffix? version integralOnly (halfWidth c) (rest.head?.map halfWidth)).filter
        fun suffix => !((rest.drop (suffix.2 - 1)).head?.any isIdentifierPart) := by
  simp only [numberSuffix?, letter]

theorem clear_numberSuffix {version : Version} {integralOnly : Bool}
    {suffix : TypeCharacter × Nat} (found : numberSuffix? version integralOnly cs = some suffix) :
    Clear cs suffix.2 := by
  cases cs with
  | nil => simp [numberSuffix?] at found
  | cons c rest =>
    simp only [numberSuffix?] at found
    split at found
    next symbol isSymbol =>
      split at found
      next =>
        obtain rfl : (symbol, 1) = suffix := by simpa using found
        refine Clear.one rest (not_isLineTerminator_of
          (p := fun c => (TypeCharacter.ofSymbol? (halfWidth c)).isSome) (by decide) ?_)
        simp [isSymbol]
      next => simp at found
    next => exact clear_letterSuffix (Option.filter_eq_some_iff.1 found).1

theorem integerLexeme_isProper (digits : List Nat) (base : IntegerBase) (suffix : Option TypeCharacter) :
    (integerLexeme digits base suffix).IsProper := by
  unfold integerLexeme
  split <;> trivial

theorem numeralLexeme_isProper (n : Numeral) (suffix : Option TypeCharacter) :
    (numeralLexeme n suffix).IsProper := by
  have floating (suffix : Option TypeCharacter) : (floatingLexeme n suffix).IsProper := by
    unfold floatingLexeme
    dsimp only
    split <;> trivial
  have decimal : (decimalLexeme n suffix).IsProper := by
    unfold decimalLexeme
    split <;> trivial
  unfold numeralLexeme
  split
  any_goals first | exact decimal | exact floating _
  all_goals split
  any_goals first | exact integerLexeme_isProper _ _ _ | exact floating _
  trivial

theorem decimalNumber_takes (version : Version) {c : Char} {rest : List Char}
    (starts : isDecimalDigit c = true ∨ halfWidth c = '.' ∧ rest.head?.any isDecimalDigit = true) :
    (decimalNumber version (c :: rest)).Takes (c :: rest) := by
  have positive := readNumeral_pos starts
  simp only [decimalNumber]
  refine ⟨by dsimp only; omega, (clear_readNumeral _).add ?_, numeralLexeme_isProper _ _⟩
  cases found : numberSuffix? version false ((c :: rest).drop (readNumeral (c :: rest)).2) with
  | none => exact Clear.zero _
  | some suffix => exact clear_numberSuffix found

theorem radixNumber_takes (version : Version) {c : Char} {rest : List Char}
    (ampersand : halfWidth c = '&') :
    (radixNumber version (c :: rest)).Takes (c :: rest) := by
  have sign := Clear.one rest
    (not_isLineTerminator_of_halfWidth (by rw [ampersand]; decide))
  have numbered (base : IntegerBase) (introducer : Nat) (letter : Clear rest introducer) :
      let digits := leadingDigits base.radix (rest.drop introducer)
      let length := 1 + introducer + digits.length
      let suffix := numberSuffix? version true ((c :: rest).drop length)
      Match.Takes
        ⟨if digits = [] then .fault .invalidIntegerLiteral
          else integerLexeme digits base (suffix.map (·.1)),
          length + suffix.elim 0 (·.2)⟩ (c :: rest) := by
    intro digits length suffix
    have digitsClear : Clear ((c :: rest).drop (1 + introducer)) digits.length := by
      rw [Nat.add_comm]
      exact clear_leadingDigits _ _
    have suffixClear : Clear ((c :: rest).drop length) (suffix.elim 0 (·.2)) := by
      cases found : suffix with
      | none => exact Clear.zero _
      | some pair => exact clear_numberSuffix found
    refine ⟨by dsimp only [length]; omega, ((sign.add letter).add digitsClear).add suffixClear, ?_⟩
    dsimp only
    split
    · trivial
    · exact integerLexeme_isProper _ _ _
  have letter {d : Char} (head : rest.head?.map halfWidth = some d) (base : d ∈ ['h', 'H', 'o', 'O']) :
      Clear rest 1 := by
    obtain ⟨e, front, rfl⟩ := Option.map_eq_some_iff.1 head
    obtain ⟨tail, rfl⟩ := List.head?_eq_some_iff.1 front
    exact Clear.one tail (not_isLineTerminator_of_halfWidth_mem (by decide) base)
  unfold radixNumber
  dsimp only [List.drop_succ_cons, List.drop_zero]
  split
  next head => exact numbered .hexadecimal 1 (letter head (by decide))
  next head => exact numbered .hexadecimal 1 (letter head (by decide))
  next head => exact numbered .octal 1 (letter head (by decide))
  next head => exact numbered .octal 1 (letter head (by decide))
  next => exact numbered .octal 0 (Clear.zero rest)

end Scan

end VisualBasic
