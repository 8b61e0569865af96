import VisualBasic.Proofs.Scan.Words

/-!
Full-width and half-width spellings of a text.  Every class of characters looks at the half-width
form, so a text and its half-width form fall into the same tokens.  Words alone can differ: a word
is too long to be looked up by its bytes, and full-width letters take three of them.
-/

set_option autoImplicit false

namespace VisualBasic

-- Characters

/-- A property that agrees on each full-width form and its counterpart does not see the width. -/
theorem halfWidth_invariant {α : Type} (p : Char → α)
    (forms : ∀ i : Fin 94, p (Char.ofNat (0x21 + i)) = p (Char.ofNat (0xFF01 + i)))
    (space : p ' ' = p '\u3000') (c : Char) : p (halfWidth c) = p c := by
  unfold halfWidth
  by_cases full : 0xFF01 ≤ c.toNat ∧ c.toNat ≤ 0xFF5E
  · rw [if_pos full]
    have form := forms ⟨c.toNat - 0xFF01, by omega⟩
    dsimp only at form
    rw [show 0x21 + (c.toNat - 0xFF01) = c.toNat - 0xFEE0 by omega,
      show 0xFF01 + (c.toNat - 0xFF01) = c.toNat by omega, Char.ofNat_toNat] at form
    exact form
  · rw [if_neg full]
    by_cases ideographic : c = '\u3000'
    · rw [if_pos ideographic, ideographic, space]
    · rw [if_neg ideographic]

attribute [simp] halfWidth_halfWidth

/-- The classes of characters that are told apart without dropping the width. -/
def plainClasses : List (Char → Bool) :=
  [isLineTerminator, isBlank, isDoubleQuote, isSingleQuote, (· == '\t'), (· == '\r'), (· == '\n'),
    (· == Reader.byteOrderMark)]

theorem plainClasses_halfWidth {p : Char → Bool} (member : p ∈ plainClasses) (c : Char) :
    p (halfWidth c) = p c := by
  have forms : ∀ p ∈ plainClasses, p ' ' = p '\u3000' ∧
      ∀ i : Fin 94, p (Char.ofNat (0x21 + i)) = p (Char.ofNat (0xFF01 + i)) := by
    decide
  exact halfWidth_invariant p (forms p member).2 (forms p member).1 c

@[simp] theorem isLineTerminator_halfWidth (c : Char) :
    isLineTerminator (halfWidth c) = isLineTerminator c :=
  plainClasses_halfWidth (by simp [plainClasses]) c

@[simp] theorem isBlank_halfWidth (c : Char) : isBlank (halfWidth c) = isBlank c :=
  plainClasses_halfWidth (by simp [plainClasses]) c

@[simp] theorem isDoubleQuote_halfWidth (c : Char) :
    isDoubleQuote (halfWidth c) = isDoubleQuote c :=
  plainClasses_halfWidth (by simp [plainClasses]) c

@[simp] theorem isSingleQuote_halfWidth (c : Char) :
    isSingleQuote (halfWidth c) = isSingleQuote c :=
  plainClasses_halfWidth (by simp [plainClasses]) c

/-- A character without a full-width form is its own half-width form only. -/
theorem halfWidth_eq_iff {d : Char} (plain : (· == d) ∈ plainClasses) (c : Char) :
    halfWidth c = d ↔ c = d := by
  simpa using plainClasses_halfWidth plain c

@[simp] theorem halfWidth_eq_tab (c : Char) : halfWidth c = '\t' ↔ c = '\t' :=
  halfWidth_eq_iff (by simp [plainClasses]) c

@[simp] theorem halfWidth_eq_carriageReturn (c : Char) : halfWidth c = '\r' ↔ c = '\r' :=
  halfWidth_eq_iff (by simp [plainClasses]) c

@[simp] theorem halfWidth_eq_lineFeed (c : Char) : halfWidth c = '\n' ↔ c = '\n' :=
  halfWidth_eq_iff (by simp [plainClasses]) c

@[simp] theorem halfWidth_eq_byteOrderMark (c : Char) :
    halfWidth c = Reader.byteOrderMark ↔ c = Reader.byteOrderMark :=
  halfWidth_eq_iff (by simp [plainClasses]) c

@[simp] theorem isDecimalDigit_halfWidth (c : Char) :
    isDecimalDigit (halfWidth c) = isDecimalDigit c := by
  simp [isDecimalDigit]

@[simp] theorem isIdentifierStart_halfWidth (c : Char) :
    isIdentifierStart (halfWidth c) = isIdentifierStart c := by
  simp [isIdentifierStart]

@[simp] theorem isIdentifierPart_halfWidth (c : Char) :
    isIdentifierPart (halfWidth c) = isIdentifierPart c := by
  simp [isIdentifierPart]

@[simp] theorem digitValue?_halfWidth (radix : Nat) (c : Char) :
    digitValue? radix (halfWidth c) = digitValue? radix c := by
  simp [digitValue?]

namespace Scan

variable (cs : List Char)

theorem lineBreakLength_cons (c : Char) (rest : List Char) :
    lineBreakLength (c :: rest) = if c = '\r' ∧ rest.head? = some '\n' then 2 else 1 := by
  unfold lineBreakLength
  split
  next same =>
    obtain ⟨rfl, rfl⟩ := List.cons.inj same
    rfl
  next apart =>
    rw [if_neg]
    rintro ⟨rfl, next⟩
    obtain ⟨more, rfl⟩ := List.head?_eq_some_iff.1 next
    exact apart more rfl

@[simp] theorem lineBreakLength_map : lineBreakLength (cs.map halfWidth) = lineBreakLength cs := by
  cases cs with
  | nil => rfl
  | cons c rest => simp [lineBreakLength_cons]

@[simp] theorem lineText_map : lineText (cs.map halfWidth) = (lineText cs).map halfWidth := by
  simp [lineText, List.takeWhile_map, Function.comp_def]

-- Numbers

@[simp] theorem leadingDigits_map (radix : Nat) :
    leadingDigits radix (cs.map halfWidth) = leadingDigits radix cs := by
  induction cs with
  | nil => rfl
  | cons c rest ih =>
    rw [List.map_cons, leadingDigits, leadingDigits, digitValue?_halfWidth, ih]

@[simp] theorem afterOne_map (marks : List Char) :
    afterOne marks (cs.map halfWidth) = (afterOne marks cs).map (List.map halfWidth) := by
  cases cs with
  | nil => rfl
  | cons c rest =>
    simp only [List.map_cons, afterOne, halfWidth_halfWidth]
    split <;> rfl

@[simp] theorem fractionDigits?_map : fractionDigits? (cs.map halfWidth) = fractionDigits? cs := by
  unfold fractionDigits?
  rw [afterOne_map]
  cases afterOne ['.'] cs with
  | none => rfl
  | some rest => simp

@[simp] theorem exponentPart?_map : exponentPart? (cs.map halfWidth) = exponentPart? cs := by
  unfold exponentPart?
  rw [afterOne_map]
  cases afterOne ['e', 'E'] cs with
  | none => rfl
  | some rest =>
    simp [← List.map_tail, Function.comp_def]

@[simp] theorem readNumeral_map : readNumeral (cs.map halfWidth) = readNumeral cs := by
  simp [readNumeral, ← List.map_drop]

@[simp] theorem startsMember_map : startsMember (cs.map halfWidth) = startsMember cs := by
  cases cs with
  | nil => rfl
  | cons c rest => simp [startsMember]

@[simp] theorem symbolSuffix?_map (integralOnly : Bool) (symbol : TypeCharacter) :
    symbolSuffix? integralOnly symbol (cs.map halfWidth) =
      symbolSuffix? integralOnly symbol cs := by
  cases symbol <;> simp [symbolSuffix?]

@[simp] theorem numberSuffix?_map (version : Version) (integralOnly : Bool) :
    numberSuffix? version integralOnly (cs.map halfWidth) = numberSuffix? version integralOnly cs := by
  cases cs with
  | nil => rfl
  | cons c rest =>
    simp [numberSuffix?, Option.any_map, Function.comp_def]

@[simp] theorem decimalNumber_map (version : Version) :
    decimalNumber version (cs.map halfWidth) = decimalNumber version cs := by
  simp [decimalNumber, ← List.map_drop]

@[simp] theorem radixNumber_map (version : Version) :
    radixNumber version (cs.map halfWidth) = radixNumber version cs := by
  simp [radixNumber, ← List.map_drop, Function.comp_def]

end Scan

-- Dates

namespace DateValue

variable (cs : List Char)

/-- What was read and the text behind it. -/
abbrev narrowRest {α : Type} : α × List Char → α × List Char := Prod.map id (List.map halfWidth)

@[simp] theorem skipBlanks_map :
    skipBlanks (cs.map halfWidth) = (skipBlanks cs).map halfWidth := by
  simp [skipBlanks, List.dropWhile_map, Function.comp_def]

@[simp] theorem readNumber?_map :
    readNumber? (cs.map halfWidth) = (readNumber? cs).map narrowRest := by
  unfold readNumber?
  simp only [List.takeWhile_map, Function.comp_def, isDecimalDigit_halfWidth, List.length_map,
    List.filterMap_map, digitValue?_halfWidth, ← List.map_drop]
  split <;> rfl

@[simp] theorem after?_map (mark : Char) :
    after? mark (cs.map halfWidth) = (after? mark cs).map (List.map halfWidth) := by
  cases cs with
  | nil => rfl
  | cons c rest =>
    simp only [List.map_cons, after?, halfWidth_halfWidth]
    split <;> rfl

@[simp] theorem readMeridiem?_map :
    readMeridiem? (cs.map halfWidth) = (readMeridiem? cs).map narrowRest := by
  cases cs with
  | nil => rfl
  | cons c rest =>
    cases rest with
    | nil =>
      simp only [List.map_cons, List.map_nil, readMeridiem?, halfWidth_halfWidth]
      split <;> rfl
    | cons m rest =>
      simp only [List.map_cons, readMeridiem?, halfWidth_halfWidth]
      by_cases second : halfWidth m = 'm' ∨ halfWidth m = 'M'
      · simp only [if_pos second]
        split <;> rfl
      · simp only [if_neg second]
        split <;> rfl

@[simp] theorem readMinutes?_map :
    readMinutes? (cs.map halfWidth) = (readMinutes? cs).map narrowRest := by
  unfold readMinutes?
  rw [after?_map]
  cases after? ':' cs with
  | none => rfl
  | some rest =>
    simp only [Option.map_some, readNumber?_map]
    cases readNumber? rest with
    | none => rfl
    | some minute =>
      simp only [Option.map_some, Option.bind_eq_bind, Option.bind_some, Prod.map_fst, Prod.map_snd,
        after?_map]
      cases after? ':' minute.2 with
      | none => rfl
      | some rest =>
        simp only [Option.map_some, readNumber?_map]
        cases readNumber? rest <;> rfl

@[simp] theorem readTime?_map (hour : Nat) :
    readTime? hour (cs.map halfWidth) = (readTime? hour cs).map narrowRest := by
  unfold readTime?
  rw [readMinutes?_map]
  cases readMinutes? cs with
  | none => rfl
  | some minutes =>
    simp only [Option.map_some, Option.bind_eq_bind, Option.bind_some, Prod.map_fst, Prod.map_snd,
      skipBlanks_map, readMeridiem?_map, id]
    cases readMeridiem? (skipBlanks minutes.2) with
    | none =>
      cases hasMinutes : minutes.1.1 with
      | false => simp
      | true =>
        simp only [Option.map_none, if_true]
        split <;> rfl
    | some meridiem =>
      simp only [Option.map_some, Prod.map_fst, Prod.map_snd, id]
      cases hourOfHalfDay? meridiem.1 hour with
      | none => rfl
      | some hour =>
        simp only [Option.map_some, Option.bind_some]
        split <;> rfl

@[simp] theorem readDate?_map (first : Nat × Nat) (separator : Char) :
    readDate? first separator (cs.map halfWidth) =
      (readDate? first separator cs).map narrowRest := by
  unfold readDate?
  rw [readNumber?_map]
  cases readNumber? cs with
  | none => rfl
  | some second =>
    simp only [Option.map_some, Option.bind_eq_bind, Option.bind_some, Prod.map_fst, Prod.map_snd,
      after?_map, id]
    cases after? separator second.2 with
    | none => rfl
    | some rest =>
      simp only [Option.map_some, Option.bind_some, readNumber?_map]
      cases readNumber? rest with
      | none => rfl
      | some third =>
        simp only [Option.map_some, Option.bind_some, Prod.map_fst, Prod.map_snd, id]
        split <;> rfl

@[simp] theorem readMoment?_map :
    readMoment? (cs.map halfWidth) = (readMoment? cs).map narrowRest := by
  unfold readMoment?
  rw [readNumber?_map]
  cases readNumber? cs with
  | none => rfl
  | some first =>
    have mark : ((first.2.map halfWidth).head?.map halfWidth) = first.2.head?.map halfWidth := by
      simp [Function.comp_def]
    simp only [Option.map_some, Option.bind_eq_bind, Option.bind_some, Prod.map_fst, Prod.map_snd,
      mark, id]
    cases (first.2.head?.map halfWidth).filter (fun c => c == '/' || c == '-') with
    | none =>
      simp only [readTime?_map]
      cases readTime? first.1.1 first.2 <;> rfl
    | some separator =>
      simp only [← List.map_drop, readDate?_map]
      cases readDate? first.1 separator (first.2.drop 1) with
      | none => rfl
      | some date =>
        simp only [Option.map_some, Option.bind_some, Prod.map_fst, Prod.map_snd, id,
          skipBlanks_map, readNumber?_map]
        cases readNumber? (skipBlanks date.2) with
        | none =>
          have digit : (((skipBlanks date.2).map halfWidth).head?.map isDecimalDigit) =
              (skipBlanks date.2).head?.map isDecimalDigit := by
            simp [Function.comp_def]
          simp only [Option.map_none, digit]
          split <;> rfl
        | some hour =>
          simp only [Option.map_some, Prod.map_fst, Prod.map_snd, id, readTime?_map]
          cases readTime? hour.1.1 hour.2 <;> rfl

@[simp] theorem ofText?_map : ofText? (cs.map halfWidth) = ofText? cs := by
  unfold ofText?
  rw [skipBlanks_map, readMoment?_map]
  cases readMoment? (skipBlanks cs) with
  | none => rfl
  | some moment => simp

end DateValue

-- Keywords

theorem foldWord_map (word : List Char) : foldWord (word.map halfWidth) = foldWord word := by
  simp [foldWord, Function.comp_def]

theorem utf8Size_halfWidth_le (c : Char) : (halfWidth c).utf8Size ≤ c.utf8Size := by
  unfold halfWidth
  by_cases full : 0xFF01 ≤ c.toNat ∧ c.toNat ≤ 0xFF5E
  · rw [if_pos full]
    have small : ∀ i : Fin 94, (Char.ofNat (0x21 + i)).utf8Size = 1 := by decide
    have one := small ⟨c.toNat - 0xFF01, by omega⟩
    rw [show 0x21 + (c.toNat - 0xFF01) = c.toNat - 0xFEE0 by omega] at one
    rw [one]
    exact c.utf8Size_pos
  · rw [if_neg full]
    by_cases ideographic : c = '\u3000'
    · rw [if_pos ideographic, ideographic]
      decide
    · rw [if_neg ideographic]

theorem utf8Length_map_le (word : List Char) :
    utf8Length (word.map halfWidth) ≤ utf8Length word := by
  induction word with
  | nil => exact Nat.le_refl _
  | cons c rest ih => exact Nat.add_le_add (utf8Size_halfWidth_le c) ih

/-- A word that is short enough is looked up without its width. -/
theorem ofWord?_map {word : List Char} (short : utf8Length word ≤ keywordByteLimit)
    (version : Version) :
    Keyword.ofWord? version (word.map halfWidth) = Keyword.ofWord? version word := by
  have shorter := Nat.le_trans (utf8Length_map_le word) short
  unfold Keyword.ofWord?
  rw [if_neg (Nat.not_lt.2 short), if_neg (Nat.not_lt.2 shorter), foldWord_map]

theorem ofWord?_of_long {word : List Char} (long : keywordByteLimit < utf8Length word)
    (version : Version) : Keyword.ofWord? version word = none :=
  if_pos long

/-- A keyword is as long as it is spelled, whatever the width of its letters. -/
theorem length_of_ofWord? {version : Version} {word : List Char} {k : Keyword}
    (spelled : Keyword.ofWord? version word = some k) : word.length = k.spelling.length := by
  unfold Keyword.ofWord? at spelled
  split at spelled
  · contradiction
  · simp only [Option.bind_eq_bind, Option.bind_eq_some_iff] at spelled
    obtain ⟨folded, folds, keyword, found, kept⟩ := spelled
    obtain rfl : keyword = k := by
      split at kept
      · contradiction
      · exact Option.some.inj kept
    obtain ⟨before, behind, table, -⟩ := List.lookup_eq_some_iff.1 found
    have entry : (folded, keyword) ∈ keywordTable := by simp [table]
    obtain ⟨other, -, same⟩ := List.mem_map.1 entry
    obtain ⟨rfl, rfl⟩ := Prod.mk.inj same
    simp only [foldWord] at folds
    split at folds
    · have lengths := congrArg List.length (Option.some.inj folds)
      simpa [String.length_toList] using lengths
    · contradiction

def isFullWidth (c : Char) : Bool := 0xFF01 ≤ c.toNat && c.toNat ≤ 0xFF5E

theorem utf8Size_of_isFullWidth {c : Char} (full : isFullWidth c = true) : c.utf8Size = 3 := by
  have sizes : ∀ i : Fin 94, (Char.ofNat (0xFF01 + i)).utf8Size = 3 := by decide
  simp only [isFullWidth, Bool.and_eq_true, decide_eq_true_eq] at full
  have size := sizes ⟨c.toNat - 0xFF01, by omega⟩
  rwa [show 0xFF01 + (c.toNat - 0xFF01) = c.toNat by omega, Char.ofNat_toNat] at size

theorem utf8Length_of_isFullWidth {word : List Char} (full : ∀ c ∈ word, isFullWidth c = true) :
    utf8Length word = 3 * word.length := by
  induction word with
  | nil => rfl
  | cons c rest ih =>
    obtain ⟨first, others⟩ := List.forall_mem_cons.1 full
    rw [utf8Length, List.foldr_cons, utf8Size_of_isFullWidth first, List.length_cons]
    have := ih others
    rw [utf8Length] at this
    omega

/-- A word of letters is the first token of its text. -/
theorem first_lexeme (o : ScanOptions) {word : List Char} (nonempty : word ≠ [])
    (letters : ∀ c ∈ word, (halfWidth c).isAlpha = true) :
    (o.tokenize (String.ofList word)).head?.map Token.lexeme =
      some (Scan.wordMatch o.version word).lexeme := by
  cases word with
  | nil => contradiction
  | cons c rest =>
    have letter := letters c List.mem_cons_self
    have starts := isIdentifierStart_of_isAlpha letter
    have joined (underscore : halfWidth c = '_') : rest.head?.any isIdentifierPart = true := by
      rw [underscore] at letter
      contradiction
    have unmarked : (c :: rest).head? ≠ some Reader.byteOrderMark := fun same =>
      ne_of_isIdentifierStart starts (by decide +kernel) (Option.some.inj same)
    have reads : Reader.ofText o.effectiveTab (c :: rest) = ⟨c :: rest, .origin⟩ := by
      rw [Reader.ofText, if_neg unmarked]
    have trivia : Reader.triviaLength 0 (c :: rest) = 0 :=
      triviaLength_eq_zero
        (visible_of_isIdentifierPart (isIdentifierPart_of_isIdentifierStart starts)) joined
    have found : (Reader.next o.version o.effectiveTab ⟨c :: rest, .origin⟩).1.lexeme =
        (Scan.wordMatch o.version (c :: rest)).lexeme := by
      simp only [Reader.next, Reader.skipTrivia, Reader.rest_skip, trivia, List.drop_zero,
        Scan.recognize, startOf_word starts joined]
    rw [ScanOptions.tokenize, String.toList_ofList, VisualBasic.tokenize, reads, Reader.tokens]
    dsimp only
    split <;> simp [found]

/-- The kind of the token that a word of letters is. -/
theorem kind_wordMatch (version : Version) {word : List Char}
    (letters : ∀ c ∈ word, (halfWidth c).isAlpha = true) :
    (Scan.wordMatch version word).lexeme.kind =
      match Keyword.ofWord? version word with
      | some .kwRem => .comment
      | some k => if k.isReserved then .word k else .identifier
      | none => .identifier := by
  have whole : word.takeWhile isIdentifierPart = word := by
    refine List.takeWhile_eq_self_iff.2 fun c member => ?_
    exact isIdentifierPart_of_isIdentifierStart (isIdentifierStart_of_isAlpha (letters c member))
  unfold Scan.wordMatch
  simp only [whole, List.drop_length]
  cases Keyword.ofWord? version word with
  | none => rfl
  | some k =>
    by_cases code : k = .kwRem
    · subst code
      rfl
    · simp only [Scan.nameSuffix?]
      cases reserved : k.isReserved <;> simp [Lexeme.kind]

theorem kind_first (o : ScanOptions) {word : List Char} (nonempty : word ≠ [])
    (letters : ∀ c ∈ word, (halfWidth c).isAlpha = true) :
    (o.tokenize (String.ofList word)).head?.map Token.kind =
      some (Scan.wordMatch o.version word).lexeme.kind := by
  have found := congrArg (Option.map Lexeme.kind) (first_lexeme o nonempty letters)
  rw [Option.map_map] at found
  exact found

/-- The words that are looked up with their width as without it are those of at most 32 bytes and
those that are no keywords.  So a keyword in full-width letters is known just when it has at most ten
letters, and a longer one that is reserved is scanned as a name. -/
theorem wide_keywords_are_bounded (o : ScanOptions) (word : List Char) :
    (Keyword.ofWord? o.version word = Keyword.ofWord? o.version (word.map halfWidth) ↔
      utf8Length word ≤ keywordByteLimit ∨
        Keyword.ofWord? o.version (word.map halfWidth) = none) ∧
    ∀ k, (∀ c ∈ word, isFullWidth c = true) →
      Keyword.ofWord? o.version (word.map halfWidth) = some k →
        (Keyword.ofWord? o.version word = some k ↔ k.spelling.length ≤ 10) ∧
          ((o.tokenize (String.ofList word)).head?.map Token.kind =
              (o.tokenize (String.ofList (word.map halfWidth))).head?.map Token.kind ↔
            k.spelling.length ≤ 10 ∨ k.isReserved = false) := by
  have bounded : Keyword.ofWord? o.version word = Keyword.ofWord? o.version (word.map halfWidth) ↔
      utf8Length word ≤ keywordByteLimit ∨
        Keyword.ofWord? o.version (word.map halfWidth) = none := by
    by_cases short : utf8Length word ≤ keywordByteLimit
    · simp [short, ofWord?_map short]
    · simp [short, ofWord?_of_long (Nat.lt_of_not_le short), eq_comm]
  refine ⟨bounded, fun k full spelled => ?_⟩
  have fits : utf8Length word ≤ keywordByteLimit ↔ k.spelling.length ≤ 10 := by
    have letters := length_of_ofWord? spelled
    rw [List.length_map] at letters
    rw [utf8Length_of_isFullWidth full, letters, keywordByteLimit]
    omega
  constructor
  · rw [spelled, fits] at bounded
    simpa using bounded
  · obtain ⟨nonempty, letters⟩ := isAlpha_of_ofWord? spelled
    have wide : ∀ c ∈ word, (halfWidth c).isAlpha = true := by simpa using letters
    rw [kind_first o nonempty letters, kind_first o (by simpa using nonempty) wide,
      kind_wordMatch o.version letters, kind_wordMatch o.version wide, spelled]
    by_cases short : utf8Length word ≤ keywordByteLimit
    · rw [ofWord?_map short] at spelled
      simp [spelled, fits.1 short]
    · have long := mt fits.2 short
      have code : k ≠ .kwRem := by
        rintro rfl
        exact long (by decide +kernel)
      rw [ofWord?_of_long (Nat.lt_of_not_le short)]
      cases reserved : k.isReserved <;> simp [long, reserved]

/-- `Dim` in full-width letters takes nine bytes. -/
def wideDim : List Char := ['Ｄ', 'ｉ', 'ｍ']

theorem wide_keyword_is_known :
    (∀ c ∈ wideDim, isFullWidth c = true) ∧
      Keyword.ofWord? .v80 (wideDim.map halfWidth) = some .kwDim ∧
      Keyword.ofWord? .v80 wideDim = some .kwDim := by
  have full : ∀ c ∈ wideDim, isFullWidth c = true := by simp [wideDim, isFullWidth]
  have spelled : Keyword.ofWord? .v80 (wideDim.map halfWidth) = some .kwDim := by decide +kernel
  obtain ⟨-, wide⟩ := wide_keywords_are_bounded .standard wideDim
  obtain ⟨known, -⟩ := wide .kwDim full spelled
  exact ⟨full, spelled, known.2 (by decide)⟩

/-- `NotInheritable` in full-width letters takes 42 bytes. -/
theorem wide_keyword_is_unknown :
    ¬ ∀ version word, Keyword.ofWord? version word =
      Keyword.ofWord? version (word.map halfWidth) := by
  intro same
  have apart : Keyword.ofWord? .v80 "ＮｏｔＩｎｈｅｒｉｔａｂｌｅ".toList ≠
      Keyword.ofWord? .v80 ("ＮｏｔＩｎｈｅｒｉｔａｂｌｅ".toList.map halfWidth) := by
    decide +kernel
  exact apart (same _ _)

end VisualBasic
