import VisualBasic.Proofs.Scan.Tiling

/-!
Lexemes within a line.  What is recognised at the front of a text depends on the rest of its line
only; where the line ends, it makes no difference whether the text ends too.
-/

set_option autoImplicit false

namespace VisualBasic

/-- The line ends here. -/
def EndsLine (cs : List Char) : Prop := ∀ c ∈ cs.head?, isLineTerminator c = true

namespace EndsLine

variable {a b : List Char} {p : Char → Bool}

theorem nil : EndsLine [] := by simp [EndsLine]

theorem cons {c : Char} (ends : isLineTerminator c = true) (rest : List Char) :
    EndsLine (c :: rest) := by
  simpa [EndsLine] using ends

theorem cases (ends : EndsLine b) :
    b = [] ∨ ∃ c rest, b = c :: rest ∧ isLineTerminator c = true := by
  cases b with
  | nil => exact .inl rfl
  | cons c rest => exact .inr ⟨c, rest, rfl, ends c rfl⟩

/-- Where the line ends, there is no character of a class that ends no line. -/
theorem head_any (ends : EndsLine b) (apart : ∀ c, p c = true → isLineTerminator c = false) :
    b.head?.any p = false := by
  rcases ends.cases with rfl | ⟨c, rest, rfl, isBreak⟩
  · rfl
  · rw [Bool.eq_false_iff]
    intro holds
    have inside := apart c (by simpa using holds)
    rw [isBreak] at inside
    cases inside

theorem head_append (ends : EndsLine b) (apart : ∀ c, p c = true → isLineTerminator c = false) :
    (a ++ b).head?.any p = a.head?.any p := by
  cases a with
  | nil => exact ends.head_any apart
  | cons => rfl

theorem takeWhile_append (ends : EndsLine b)
    (apart : ∀ c, p c = true → isLineTerminator c = false) :
    (a ++ b).takeWhile p = a.takeWhile p := by
  induction a with
  | nil =>
    have none := ends.head_any apart
    cases b with
    | nil => rfl
    | cons c rest => simpa using none
  | cons c a ih => by_cases holds : p c <;> simp [holds, ih]

end EndsLine

namespace Scan

variable {a b : List Char}

theorem not_isLineTerminator_of_isDecimalDigit {c : Char} (digit : isDecimalDigit c = true) :
    isLineTerminator c = false :=
  not_isLineTerminator_of_halfWidth (not_isLineTerminator_of (p := Char.isDigit) (by decide) digit)

theorem drop_takeWhile_append (p : Char → Bool) (a b : List Char) :
    (a ++ b).drop (a.takeWhile p).length = a.drop (a.takeWhile p).length ++ b :=
  List.drop_append_of_le_length (List.takeWhile_prefix p).length_le

-- Numbers

theorem leadingDigits_endsLine (radix : Nat) (ends : EndsLine b) :
    leadingDigits radix (a ++ b) = leadingDigits radix a := by
  induction a with
  | nil =>
    have noDigit := ends.head_any (p := fun c => (digitValue? radix c).isSome)
      fun _ => not_isLineTerminator_of_digit
    cases b with
    | nil => rfl
    | cons c rest =>
      have noDigit : digitValue? radix c = none := by simpa using noDigit
      simp [leadingDigits, noDigit]
  | cons c a ih => simp [leadingDigits, ih]

theorem length_leadingDigits_le (radix : Nat) (cs : List Char) :
    (leadingDigits radix cs).length ≤ cs.length :=
  (clear_leadingDigits radix cs).1

theorem afterOne_endsLine (marks : List Char) (apart : marks.all fun m => !isLineTerminator m)
    (ends : EndsLine b) : afterOne marks (a ++ b) = (afterOne marks a).map (· ++ b) := by
  cases a with
  | nil =>
    have none := ends.head_any (p := fun c => decide (halfWidth c ∈ marks)) fun _ member =>
      not_isLineTerminator_of_halfWidth_mem apart (of_decide_eq_true member)
    cases b with
    | nil => rfl
    | cons c rest =>
      have none : halfWidth c ∉ marks := by simpa using none
      simp [afterOne, none]
  | cons c a =>
    simp only [List.cons_append, afterOne]
    split <;> rfl

theorem fractionDigits?_endsLine (ends : EndsLine b) :
    fractionDigits? (a ++ b) = fractionDigits? a := by
  unfold fractionDigits?
  rw [afterOne_endsLine _ (by decide) ends]
  cases afterOne ['.'] a with
  | none => rfl
  | some rest => simp [leadingDigits_endsLine 10 ends]

theorem exponentPart?_endsLine (ends : EndsLine b) : exponentPart? (a ++ b) = exponentPart? a := by
  unfold exponentPart?
  rw [afterOne_endsLine _ (by decide) ends]
  cases afterOne ['e', 'E'] a with
  | none => rfl
  | some rest =>
    simp only [Option.map_some, Option.bind_eq_bind, Option.bind_some,
      leadingDigits_endsLine 10 ends]
    cases rest with
    | nil =>
      -- behind the letter the line ends, so no sign can follow
      have unsigned := ends.head_any
        (p := fun c => decide (halfWidth c ∈ ['+', '-'])) fun _ member =>
          not_isLineTerminator_of_halfWidth_mem (by decide) (of_decide_eq_true member)
      simp only [List.nil_append]
      cases b with
      | nil => rfl
      | cons c rest =>
        have unsigned : ¬ (halfWidth c = '+' ∨ halfWidth c = '-') := by simpa using unsigned
        have plus : halfWidth c ≠ '+' := fun same => unsigned (.inl same)
        have minus : halfWidth c ≠ '-' := fun same => unsigned (.inr same)
        simp [leadingDigits, plus, minus]
    | cons c rest => simp [leadingDigits_endsLine 10 ends]

theorem readNumeral_endsLine (ends : EndsLine b) : readNumeral (a ++ b) = readNumeral a := by
  have whole : leadingDigits 10 (a ++ b) = leadingDigits 10 a := leadingDigits_endsLine 10 ends
  have rest : (a ++ b).drop (leadingDigits 10 a).length =
      a.drop (leadingDigits 10 a).length ++ b :=
    List.drop_append_of_le_length (length_leadingDigits_le 10 a)
  unfold readNumeral
  simp only [whole, rest, fractionDigits?_endsLine ends]
  have behind : (a.drop (leadingDigits 10 a).length ++ b).drop
        ((fractionDigits? (a.drop (leadingDigits 10 a).length)).elim 0 (·.length + 1)) =
      (a.drop (leadingDigits 10 a).length).drop
        ((fractionDigits? (a.drop (leadingDigits 10 a).length)).elim 0 (·.length + 1)) ++ b := by
    refine List.drop_append_of_le_length ?_
    cases found : fractionDigits? (a.drop (leadingDigits 10 a).length) with
    | none => exact Nat.zero_le _
    | some digits => exact (clear_fraction found).1
  rw [behind, exponentPart?_endsLine ends]

theorem startsMember_endsLine (ends : EndsLine b) : startsMember (a ++ b) = startsMember a := by
  cases a with
  | nil =>
    have none := ends.head_any (p := fun c => isIdentifierStart c || halfWidth c == '[')
      fun c holds => by
        rcases Bool.or_eq_true_iff.1 holds with starts | bracket
        · exact not_isLineTerminator_of_isIdentifierStart starts
        · exact not_isLineTerminator_of_halfWidth
            (by rw [show halfWidth c = '[' by simpa using bracket]; decide)
    cases b with
    | nil => rfl
    | cons c rest => simpa [startsMember] using none
  | cons => rfl

theorem symbolSuffix?_endsLine (integralOnly : Bool) (symbol : TypeCharacter) (ends : EndsLine b) :
    symbolSuffix? integralOnly symbol (a ++ b) = symbolSuffix? integralOnly symbol a := by
  unfold symbolSuffix?
  rw [startsMember_endsLine ends]

/-- A letter needs a second one only within its line. -/
theorem letterSuffix?_endsLine (version : Version) (integralOnly : Bool) (first : Char)
    (ends : EndsLine b) :
    letterSuffix? version integralOnly first ((a ++ b).head?.map halfWidth) =
      letterSuffix? version integralOnly first (a.head?.map halfWidth) := by
  cases a with
  | cons => rfl
  | nil =>
    have noLetter := ends.head_any
      (p := fun c => decide ((halfWidth c).toUpper ∈ ['S', 'I', 'L', 'F', 'R', 'D', 'U']))
      fun _ letter => not_isLineTerminator_of_letter (of_decide_eq_true letter)
    cases b with
    | nil => rfl
    | cons c rest =>
      have noLetter : (halfWidth c).toUpper ∉ ['S', 'I', 'L', 'F', 'R', 'D', 'U'] := by
        simpa using noLetter
      unfold letterSuffix?
      simp only [List.nil_append, List.head?_cons, List.head?_nil, Option.map_some, Option.map_none]
      split
      all_goals try rfl
      split
      · split <;> simp_all
      · rfl

theorem numberSuffix?_endsLine (version : Version) (integralOnly : Bool) (ends : EndsLine b) :
    numberSuffix? version integralOnly (a ++ b) = numberSuffix? version integralOnly a := by
  cases a with
  | nil =>
    rcases ends.cases with rfl | ⟨c, rest, rfl, isBreak⟩
    · rfl
    · rcases isLineTerminator_cases isBreak with rfl | rfl | rfl | rfl <;> rfl
  | cons c a =>
    simp only [List.cons_append, numberSuffix?, symbolSuffix?_endsLine integralOnly _ ends,
      letterSuffix?_endsLine version integralOnly _ ends]
    split
    · rfl
    · cases found : letterSuffix? version integralOnly (halfWidth c) (a.head?.map halfWidth) with
      | none => rfl
      | some suffix =>
        have fits : suffix.2 - 1 ≤ a.length := by
          have := (clear_letterSuffix found).1
          simp only [List.length_cons] at this
          omega
        rw [Option.filter_some, Option.filter_some, List.drop_append_of_le_length fits,
          ends.head_append fun _ => not_isLineTerminator_of_isIdentifierPart]

theorem decimalNumber_endsLine (version : Version) (ends : EndsLine b) :
    decimalNumber version (a ++ b) = decimalNumber version a := by
  have rest : (a ++ b).drop (readNumeral a).2 = a.drop (readNumeral a).2 ++ b :=
    List.drop_append_of_le_length (clear_readNumeral a).1
  unfold decimalNumber
  simp only [readNumeral_endsLine ends, rest, numberSuffix?_endsLine version false ends]

/-- The digits and the suffix of a number in another base stand in its line. -/
theorem radixDigits_endsLine (version : Version) (c : Char) (base : Nat) {introducer : Nat}
    (fits : introducer ≤ a.length) (ends : EndsLine b) :
    leadingDigits base ((a ++ b).drop introducer) = leadingDigits base (a.drop introducer) ∧
      numberSuffix? version true ((c :: (a ++ b)).drop
          (1 + introducer + (leadingDigits base (a.drop introducer)).length)) =
        numberSuffix? version true ((c :: a).drop
          (1 + introducer + (leadingDigits base (a.drop introducer)).length)) := by
  have digits := length_leadingDigits_le base (a.drop introducer)
  rw [List.length_drop] at digits
  constructor
  · rw [List.drop_append_of_le_length fits, leadingDigits_endsLine base ends]
  · rw [← List.cons_append, List.drop_append_of_le_length (by simp only [List.length_cons]; omega),
      numberSuffix?_endsLine version true ends]

theorem radixNumber_endsLine (version : Version) (c : Char) (ends : EndsLine b) :
    radixNumber version (c :: (a ++ b)) = radixNumber version (c :: a) := by
  cases a with
  | nil =>
    rcases ends.cases with rfl | ⟨d, rest, rfl, isBreak⟩
    · rfl
    · rcases isLineTerminator_cases isBreak with rfl | rfl | rfl | rfl <;> rfl
  | cons d a =>
    have letter (base : Nat) := radixDigits_endsLine (a := d :: a) version c base
      (Nat.le_add_left 1 a.length) ends
    have noLetter (base : Nat) := radixDigits_endsLine (a := d :: a) version c base
      (Nat.zero_le _) ends
    unfold radixNumber
    simp only [List.cons_append, List.drop_succ_cons, List.drop_zero, List.head?_cons,
      Option.map_some] at letter noLetter ⊢
    split
    · simp only [List.drop_succ_cons, List.drop_zero, (letter _).1, (letter _).2]
    · simp only [List.drop_succ_cons, List.drop_zero, (letter _).1, (letter _).2]
    · simp only [List.drop_succ_cons, List.drop_zero, (letter _).1, (letter _).2]
    · simp only [List.drop_succ_cons, List.drop_zero, (letter _).1, (letter _).2]
    · simp only [List.drop_zero, (noLetter _).1, (noLetter _).2]

-- Words

theorem lineText_endsLine (ends : EndsLine b) : lineText (a ++ b) = lineText a :=
  ends.takeWhile_append fun _ inside => by simpa using inside

theorem commentMatch_endsLine (isRem : Bool) {introducer : Nat} (fits : introducer ≤ a.length)
    (ends : EndsLine b) :
    commentMatch isRem introducer (a ++ b) = commentMatch isRem introducer a := by
  unfold commentMatch
  simp only [List.drop_append_of_le_length fits, lineText_endsLine ends]

theorem nameSuffix?_endsLine (ends : EndsLine b) : nameSuffix? (a ++ b) = nameSuffix? a := by
  cases a with
  | nil =>
    rcases ends.cases with rfl | ⟨c, rest, rfl, isBreak⟩
    · rfl
    · rcases isLineTerminator_cases isBreak with rfl | rfl | rfl | rfl <;> rfl
  | cons c a => simp only [List.cons_append, nameSuffix?, startsMember_endsLine ends]

theorem wordMatch_endsLine (version : Version) (ends : EndsLine b) :
    wordMatch version (a ++ b) = wordMatch version a := by
  have word : (a ++ b).takeWhile isIdentifierPart = a.takeWhile isIdentifierPart :=
    ends.takeWhile_append fun _ => not_isLineTerminator_of_isIdentifierPart
  have fits : (a.takeWhile isIdentifierPart).length ≤ a.length :=
    (List.takeWhile_prefix isIdentifierPart).length_le
  have blank : (a.drop (a.takeWhile isIdentifierPart).length ++ b).head?.any isBlank =
      (a.drop (a.takeWhile isIdentifierPart).length).head?.any isBlank :=
    ends.head_append fun _ => not_isLineTerminator_of_isBlank
  have introduced : (a.takeWhile isIdentifierPart).length +
      (if (a.drop (a.takeWhile isIdentifierPart).length).head?.any isBlank then 1 else 0) ≤
        a.length := by
    split
    next follows =>
      cases behind : a.drop (a.takeWhile isIdentifierPart).length with
      | nil => simp [behind] at follows
      | cons d tail =>
        have := congrArg List.length behind
        simp only [List.length_drop, List.length_cons] at this
        omega
    next => exact fits
  unfold wordMatch
  simp only [word, drop_takeWhile_append, nameSuffix?_endsLine ends, blank,
    commentMatch_endsLine true introduced ends]

theorem lengthThrough_endsLine {closing : Char} (inside : isLineTerminator closing = false)
    (ends : EndsLine b) : lengthThrough closing (a ++ b) = lengthThrough closing a := by
  have apart (c : Char) (passed : (halfWidth c != closing && !isLineTerminator c) = true) :
      isLineTerminator c = false := by
    simpa using (Bool.and_eq_true_iff.1 passed).2
  have closes (c : Char) (same : (halfWidth c == closing) = true) : isLineTerminator c = false :=
    not_isLineTerminator_of_halfWidth (by rwa [show halfWidth c = closing by simpa using same])
  unfold lengthThrough
  simp only [ends.takeWhile_append apart, drop_takeWhile_append, ends.head_append closes]

theorem escapedMatch_endsLine (c : Char) (ends : EndsLine b) :
    escapedMatch (c :: (a ++ b)) = escapedMatch (c :: a) := by
  have word : (a ++ b).takeWhile isIdentifierPart = a.takeWhile isIdentifierPart :=
    ends.takeWhile_append fun _ => not_isLineTerminator_of_isIdentifierPart
  have starts : (a ++ b).head?.any isIdentifierStart = a.head?.any isIdentifierStart :=
    ends.head_append fun _ => not_isLineTerminator_of_isIdentifierStart
  have closes (c : Char) (same : (halfWidth c == ']') = true) : isLineTerminator c = false :=
    not_isLineTerminator_of_halfWidth (by rw [show halfWidth c = ']' by simpa using same]; decide)
  have through : lengthThrough ']' (a ++ b) = lengthThrough ']' a :=
    lengthThrough_endsLine (by decide) ends
  unfold escapedMatch
  simp only [List.drop_succ_cons, List.drop_zero, word, starts, through, drop_takeWhile_append,
    ends.head_append closes]
  split
  · split
    next closed =>
      cases behind : a.drop (a.takeWhile isIdentifierPart).length with
      | nil => simp [behind] at closed
      | cons d tail =>
        simp only [List.cons_append, List.drop_succ_cons, List.drop_zero, nameSuffix?_endsLine ends]
    next => rfl
  · rfl

-- Strings and dates

theorem stringBody?_endsLine (ends : EndsLine b) : stringBody? (a ++ b) = stringBody? a := by
  fun_induction stringBody? a with
  | case1 =>
    rcases ends.cases with rfl | ⟨c, rest, rfl, isBreak⟩
    · rfl
    · rw [List.nil_append, stringBody?.eq_def]
      exact if_pos isBreak
  | case2 c rest isBreak =>
    rw [List.cons_append, stringBody?.eq_def]
    exact if_pos isBreak
  | case3 c inside quote d rest double ih =>
    rw [List.cons_append, List.cons_append, stringBody?.eq_def]
    simp only [if_neg inside, if_pos quote, if_pos double, ih]
  | case4 c inside quote d rest single =>
    rw [List.cons_append, List.cons_append, stringBody?.eq_def]
    simp only [if_neg inside, if_pos quote, if_neg single]
  | case5 c inside quote =>
    -- a quote at the end of a line closes the string
    rw [List.cons_append, List.nil_append, stringBody?.eq_def]
    simp only [if_neg inside, if_pos quote]
    rcases ends.cases with rfl | ⟨d, rest, rfl, isBreak⟩
    · rfl
    · rcases isLineTerminator_cases isBreak with rfl | rfl | rfl | rfl <;> rfl
  | case6 c rest inside other ih =>
    rw [List.cons_append, stringBody?.eq_def]
    simp only [if_neg inside, if_neg other, ih]

theorem stringMatch_endsLine (c : Char) (ends : EndsLine b) :
    stringMatch (c :: (a ++ b)) = stringMatch (c :: a) := by
  unfold stringMatch
  simp only [List.drop_succ_cons, List.drop_zero, stringBody?_endsLine ends, lineText_endsLine ends]
  cases found : stringBody? a with
  | none => rfl
  | some pair =>
    obtain ⟨text, n⟩ := pair
    simp only [List.drop_append_of_le_length (clear_stringBody found).1,
      afterOne_endsLine ['c', 'C'] (by decide) ends, Option.isSome_map]

theorem dateMatch_endsLine (c : Char) (ends : EndsLine b) :
    dateMatch (c :: (a ++ b)) = dateMatch (c :: a) := by
  have digit : ((a ++ b).dropWhile isBlank).head?.any isDecimalDigit =
      (a.dropWhile isBlank).head?.any isDecimalDigit := by
    rw [List.dropWhile_append]
    split
    next blank =>
      have stops : b.dropWhile isBlank = b := by
        have := ends.head_any fun _ => not_isLineTerminator_of_isBlank
        cases b with
        | nil => rfl
        | cons c rest => exact List.dropWhile_cons_of_neg (by simpa using this)
      rw [stops, List.isEmpty_iff.1 blank]
      exact ends.head_any fun _ => not_isLineTerminator_of_isDecimalDigit
    next => exact ends.head_append fun _ => not_isLineTerminator_of_isDecimalDigit
  have through : lengthThrough '#' (a ++ b) = lengthThrough '#' a :=
    lengthThrough_endsLine (by decide) ends
  have inside : (a ++ b).takeWhile (fun c => halfWidth c != '#' && !isLineTerminator c) =
      a.takeWhile fun c => halfWidth c != '#' && !isLineTerminator c :=
    ends.takeWhile_append fun c passed => by simpa using (Bool.and_eq_true_iff.1 passed).2
  unfold dateMatch
  simp only [List.drop_succ_cons, List.drop_zero, digit, through, inside]

-- Marks

theorem isPrefixOf_endsLine {word : List Char} (inside : ∀ c ∈ word, isLineTerminator c = false)
    (n : Nat) (ends : EndsLine b) :
    word.isPrefixOf (((a ++ b).take n).map halfWidth) =
      word.isPrefixOf ((a.take n).map halfWidth) := by
  induction word generalizing a n with
  | nil => simp
  | cons x word ih =>
    cases n with
    | zero => rfl
    | succ n =>
      cases a with
      | nil =>
        rcases ends.cases with rfl | ⟨c, rest, rfl, isBreak⟩
        · rfl
        · have other : (x == halfWidth c) = false := by
            rw [beq_eq_false_iff_ne]
            rintro rfl
            have := not_isLineTerminator_of_halfWidth (inside _ List.mem_cons_self)
            rw [isBreak] at this
            cases this
          simp [List.isPrefixOf, other]
      | cons c a =>
        simp only [List.cons_append, List.take_succ_cons, List.map_cons, List.isPrefixOf,
          ih fun d member => inside d (List.mem_cons_of_mem x member)]

theorem spelling_inside (p : Punctuator) : ∀ c ∈ p.spelling.toList, isLineTerminator c = false := by
  intro c member
  simpa using List.all_eq_true.1 (punctuator_inside p).2 c member

theorem punctuatorMatch_endsLine (ends : EndsLine b) :
    punctuatorMatch (a ++ b) = punctuatorMatch a := by
  have same : Punctuator.ofText? (((a ++ b).take 3).map halfWidth) =
      Punctuator.ofText? ((a.take 3).map halfWidth) :=
    congrArg (Punctuator.all.find? ·)
      (funext fun p => isPrefixOf_endsLine (spelling_inside p) 3 ends)
  unfold punctuatorMatch
  rw [same]

/-- What a lexeme is shows in its line. -/
theorem startOf_endsLine (c : Char) (ends : EndsLine b) :
    startOf c (a ++ b).head? = startOf c a.head? := by
  have part : (a ++ b).head?.any isIdentifierPart = a.head?.any isIdentifierPart :=
    ends.head_append fun _ => not_isLineTerminator_of_isIdentifierPart
  have digit : (a ++ b).head?.any isDecimalDigit = a.head?.any isDecimalDigit :=
    ends.head_append fun _ => not_isLineTerminator_of_isDecimalDigit
  have radix : (a ++ b).head?.any (fun n => startsRadix (halfWidth n)) =
      a.head?.any fun n => startsRadix (halfWidth n) :=
    ends.head_append fun _ starts => not_isLineTerminator_of_halfWidth
      (not_isLineTerminator_of (p := startsRadix) (by decide) starts)
  unfold startOf
  rw [part, digit, radix]

/-- Within a line, what is recognised does not depend on what stands behind the line. -/
theorem recognize_endsLine (version : Version) (within : a ≠ [])
    (inside : ∀ c ∈ a, isLineTerminator c = false) (ends : EndsLine b) :
    recognize version (a ++ b) = recognize version a := by
  obtain ⟨c, a, rfl⟩ := List.exists_cons_of_ne_nil within
  have fits : 1 ≤ (c :: a).length := Nat.le_add_left 1 a.length
  simp only [List.cons_append, recognize, startOf_endsLine c ends]
  split
  next isBreak =>
    have other := inside c List.mem_cons_self
    grind [startOf]
  · exact commentMatch_endsLine false fits ends
  · rfl
  · exact escapedMatch_endsLine c ends
  · exact wordMatch_endsLine (a := c :: a) version ends
  · exact stringMatch_endsLine c ends
  · exact dateMatch_endsLine c ends
  · exact decimalNumber_endsLine (a := c :: a) version ends
  · exact radixNumber_endsLine version c ends
  · exact punctuatorMatch_endsLine (a := c :: a) ends

end Scan

end VisualBasic
