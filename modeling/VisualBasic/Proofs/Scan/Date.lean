import VisualBasic.Proofs.Scan.Decimal
import VisualBasic.Proofs.Scan.Demotion

/-!
Date literals.  Whatever is written between the number signs, the value of a date token is a date of
the calendar and a time of day, and every such value that is printed between number signs is read
again.
-/

set_option autoImplicit false

namespace VisualBasic

namespace DateValue

/-- A date of the calendar and a time of day. -/
structure IsValid (d : DateValue) : Prop where
  year : 1 ≤ d.year ∧ d.year ≤ 9999
  month : 1 ≤ d.month ∧ d.month ≤ 12
  day : 1 ≤ d.day ∧ d.day ≤ daysInMonth d.year d.month
  hour : d.hour ≤ 23
  minute : d.minute ≤ 59
  second : d.second ≤ 59

/-- The value with sixteen bits for its year and eight for each other part. -/
def narrowed (d : DateValue) : DateValue :=
  ⟨d.year % 2 ^ 16, d.month % 2 ^ 8, d.day % 2 ^ 8, d.hour % 2 ^ 8, d.minute % 2 ^ 8,
    d.second % 2 ^ 8⟩

theorem isLeapYear_iff (year : Nat) :
    isLeapYear year = true ↔ 4 ∣ year ∧ (100 ∣ year → 400 ∣ year) := by
  simp only [isLeapYear, Bool.or_eq_true, Bool.and_eq_true, beq_iff_eq, bne_iff_ne]
  omega

theorem daysInMonth_le (year month : Nat) : daysInMonth year month ≤ 31 := by
  unfold daysInMonth
  split
  any_goals omega
  split <;> omega

/-- The parts of a date need no more bits. -/
theorem IsValid.narrowed_eq {d : DateValue} (valid : d.IsValid) : d.narrowed = d := by
  obtain ⟨year, month, day, hour, minute, second⟩ := valid
  have month_length := daysInMonth_le d.year d.month
  unfold narrowed
  congr 1 <;> exact Nat.mod_eq_of_lt (by omega)

-- What is read is valid

section

variable {cs rest : List Char} {d : DateValue}

theorem readTime?_bounds {hour : Nat} {time : Nat × Nat × Nat}
    (read : readTime? hour cs = some (time, rest)) :
    time.1 ≤ 23 ∧ time.2.1 ≤ 59 ∧ time.2.2 ≤ 59 := by
  have bounds {hour minute second : Nat} {cs : List Char}
      (checked : (if 23 < hour ∨ 59 < minute ∨ 59 < second then none
        else some ((hour, minute, second), cs)) = some (time, rest)) :
      time.1 ≤ 23 ∧ time.2.1 ≤ 59 ∧ time.2.2 ≤ 59 := by
    split at checked
    next => contradiction
    next early =>
      obtain rfl := (Prod.mk.inj (Option.some.inj checked)).1
      exact ⟨Nat.le_of_not_lt fun late => early (.inl late),
        Nat.le_of_not_lt fun late => early (.inr (.inl late)),
        Nat.le_of_not_lt fun late => early (.inr (.inr late))⟩
  obtain ⟨minutes, -, read⟩ := Option.bind_eq_some_iff.1 read
  dsimp only at read
  split at read
  next =>
    obtain ⟨clock, -, read⟩ := Option.bind_eq_some_iff.1 read
    exact bounds read
  next =>
    split at read
    next => exact bounds read
    next => contradiction

theorem readMoment?_bounds (read : readMoment? cs = some (d, rest)) :
    d.hour ≤ 23 ∧ d.minute ≤ 59 ∧ d.second ≤ 59 := by
  simp only [readMoment?, Option.bind_eq_bind, Option.bind_eq_some_iff] at read
  obtain ⟨first, -, read⟩ := read
  split at read
  next =>
    obtain ⟨time, timed, read⟩ := Option.bind_eq_some_iff.1 read
    obtain rfl := (Prod.mk.inj (Option.some.inj read)).1
    exact readTime?_bounds timed
  next =>
    obtain ⟨date, -, read⟩ := Option.bind_eq_some_iff.1 read
    split at read
    next =>
      obtain ⟨time, timed, read⟩ := Option.bind_eq_some_iff.1 read
      obtain rfl := (Prod.mk.inj (Option.some.inj read)).1
      exact readTime?_bounds timed
    next =>
      split at read
      next => contradiction
      next =>
        obtain rfl := (Prod.mk.inj (Option.some.inj read)).1
        exact ⟨Nat.zero_le _, Nat.zero_le _, Nat.zero_le _⟩

theorem isValid_of_ofText? (read : ofText? cs = some d) : d.IsValid := by
  simp only [ofText?, Option.bind_eq_bind, Option.bind_eq_some_iff] at read
  obtain ⟨⟨moment, rest⟩, readMoment, read⟩ := read
  obtain ⟨hour, minute, second⟩ := readMoment?_bounds readMoment
  split at read
  next accepted =>
    obtain rfl := Option.some.inj read
    have inCalendar := accepted.1
    simp only [isDay, Bool.and_eq_true, decide_eq_true_eq] at inCalendar
    obtain ⟨⟨⟨⟨⟨year, year'⟩, month⟩, month'⟩, day⟩, day'⟩ := inCalendar
    exact ⟨⟨year, year'⟩, ⟨month, month'⟩, ⟨day, day'⟩, hour, minute, second⟩
  next => contradiction

-- What is printed is read

theorem toList_padded (width n : Nat) : (padded width n).toList = zeroPadded width n := by
  rw [padded, String.toList_ofList]
  rfl

/-- A number of at most four digits, with what does not continue it behind it. -/
theorem readNumber?_zeroPadded (width n : Nat) (rest : List Char) (positive : 0 < width)
    (narrow : width ≤ 4) (fits : n < 10 ^ width) (apart : rest.head?.any isDecimalDigit = false) :
    readNumber? (zeroPadded width n ++ rest) = some ((n, width), rest) := by
  have length := length_zeroPadded positive fits
  have digits : ∀ c ∈ zeroPadded width n, isDecimalDigit c = true := fun c member =>
    isDecimalDigit_of_isDigit (isDigit_zeroPadded c member)
  have nothing : rest.takeWhile isDecimalDigit = [] := by
    cases rest with
    | nil => rfl
    | cons c more => simpa using apart
  have taken : (zeroPadded width n ++ rest).takeWhile isDecimalDigit = zeroPadded width n := by
    rw [List.takeWhile_append_of_pos digits, nothing, List.append_nil]
  simp only [readNumber?, taken, ofDigits_zeroPadded, length]
  rw [if_pos ⟨positive, narrow⟩, List.drop_left' length]

theorem readNumber?_last (width n : Nat) (positive : 0 < width) (narrow : width ≤ 4)
    (fits : n < 10 ^ width) : readNumber? (zeroPadded width n) = some ((n, width), []) := by
  have read := readNumber?_zeroPadded width n [] positive narrow fits rfl
  rwa [List.append_nil] at read

theorem after?_mark {mark c : Char} (same : halfWidth c = mark) : after? mark (c :: rest) = some rest :=
  if_pos same

theorem skipBlanks_zeroPadded {width : Nat} (positive : 0 < width) (n : Nat) (rest : List Char) :
    skipBlanks (zeroPadded width n ++ rest) = zeroPadded width n ++ rest := by
  have some := Nat.lt_of_lt_of_le positive (width_le_length_zeroPadded width n)
  obtain ⟨c, more, front⟩ := List.exists_cons_of_ne_nil (List.length_pos_iff.1 some)
  have digit := isDigit_zeroPadded c (by rw [front]; simp)
  have solid : isBlank c = false :=
    of_decimalDigits (P := fun c => isBlank c = false) (by decide) digit
  rw [front, List.cons_append, skipBlanks, List.dropWhile_cons_of_neg (by simp [solid])]

/-- The time of day of a value as it is printed. -/
def printedTime (d : DateValue) : List Char :=
  zeroPadded 2 d.hour ++ ':' :: (zeroPadded 2 d.minute ++ ':' :: zeroPadded 2 d.second)

theorem toList_render (d : DateValue) : d.render.toList =
    zeroPadded 4 d.year ++ '-' :: (zeroPadded 2 d.month ++ '-' :: (zeroPadded 2 d.day ++
      ' ' :: d.printedTime)) := by
  simp [render, printedTime, toList_padded]

theorem readMinutes?_printed {minute second : Nat} (minutes : minute ≤ 59) (seconds : second ≤ 59) :
    readMinutes? (':' :: (zeroPadded 2 minute ++ ':' :: zeroPadded 2 second)) =
      some ((true, minute, second), []) := by
  have colon : halfWidth ':' = ':' := by decide
  have first := readNumber?_zeroPadded 2 minute (':' :: zeroPadded 2 second)
    (by decide) (by decide) (by omega) (show isDecimalDigit ':' = false by decide)
  have last := readNumber?_last 2 second (by decide) (by decide) (by omega)
  simp only [readMinutes?, after?_mark colon, first, Option.bind_eq_bind, Option.bind_some, last]

theorem readTime?_printed {hour minute second : Nat} (early : hour ≤ 23) (minutes : minute ≤ 59)
    (seconds : second ≤ 59) :
    readTime? hour (':' :: (zeroPadded 2 minute ++ ':' :: zeroPadded 2 second)) =
      some ((hour, minute, second), []) := by
  have inDay : ¬ (23 < hour ∨ 59 < minute ∨ 59 < second) := by omega
  have ended : readMeridiem? (skipBlanks []) = none := rfl
  simp only [readTime?, readMinutes?_printed minutes seconds, Option.bind_eq_bind, Option.bind_some,
    ended, if_true, if_neg inDay]
  rfl

/-- A value that is printed is read again: its year has four digits and comes first. -/
theorem readMoment?_render (valid : d.IsValid) : readMoment? d.render.toList = some (d, []) := by
  obtain ⟨year, month, day, hour, minute, second⟩ := valid
  have month_length := daysInMonth_le d.year d.month
  have dash : isDecimalDigit '-' = false := by decide
  have years := readNumber?_zeroPadded 4 d.year
    ('-' :: (zeroPadded 2 d.month ++ '-' :: (zeroPadded 2 d.day ++ ' ' :: d.printedTime)))
    (by decide) (by decide) (by omega) dash
  have months := readNumber?_zeroPadded 2 d.month
    ('-' :: (zeroPadded 2 d.day ++ ' ' :: d.printedTime)) (by decide) (by decide) (by omega) dash
  have days := readNumber?_zeroPadded 2 d.day (' ' :: d.printedTime)
    (by decide) (by decide) (by omega) (show isDecimalDigit ' ' = false by decide)
  have hours := readNumber?_zeroPadded 2 d.hour
    (':' :: (zeroPadded 2 d.minute ++ ':' :: zeroPadded 2 d.second))
    (by decide) (by decide) (by omega) (show isDecimalDigit ':' = false by decide)
  have separated : after? '-' ('-' :: (zeroPadded 2 d.day ++ ' ' :: d.printedTime)) =
      some (zeroPadded 2 d.day ++ ' ' :: d.printedTime) := after?_mark (by decide)
  have date : readDate? (d.year, 4) '-' (zeroPadded 2 d.month ++ '-' ::
      (zeroPadded 2 d.day ++ ' ' :: d.printedTime)) =
      some ((d.year, d.month, d.day), ' ' :: d.printedTime) := by
    simp only [readDate?, months, Option.bind_eq_bind, Option.bind_some, separated, days, if_true]
  have blank : skipBlanks (' ' :: d.printedTime) = d.printedTime :=
    skipBlanks_zeroPadded (by decide) _ _
  have hyphen : ((some '-').map halfWidth).filter (fun c => c == '/' || c == '-') = some '-' := by
    decide
  rw [toList_render]
  simp only [readMoment?, years, Option.bind_eq_bind, Option.bind_some, List.head?_cons, hyphen,
    List.drop_succ_cons, List.drop_zero, date, blank]
  simp only [printedTime, hours, readTime?_printed hour minute second, Option.bind_some]

theorem ofText?_render (valid : d.IsValid) : ofText? d.render.toList = some d := by
  have inCalendar : isDay d.year d.month d.day = true := by
    simp only [isDay, Bool.and_eq_true, decide_eq_true_eq]
    exact ⟨⟨⟨⟨valid.year, valid.month.1⟩, valid.month.2⟩, valid.day.1⟩, valid.day.2⟩
  have front : skipBlanks d.render.toList = d.render.toList := by
    rw [toList_render]
    exact skipBlanks_zeroPadded (by decide) _ _
  simp only [ofText?, front, readMoment?_render valid, Option.bind_eq_bind, Option.bind_some]
  exact if_pos ⟨inCalendar, rfl⟩

end

end DateValue

-- Tokens

namespace Scan

variable {version : Version} {cs rest : List Char} {d : DateValue}

theorem lexeme_wordMatch_ne (version : Version) (cs : List Char) :
    (wordMatch version cs).lexeme ≠ .literal (.date d) := by
  simp only [wordMatch]
  split
  · simp [commentMatch]
  · split <;> simp
  · simp

theorem lexeme_escapedMatch_ne (cs : List Char) :
    (escapedMatch cs).lexeme ≠ .literal (.date d) := by
  simp only [escapedMatch]
  split
  · split <;> simp
  · simp

theorem lexeme_stringMatch_ne (cs : List Char) :
    (stringMatch cs).lexeme ≠ .literal (.date d) := by
  simp only [stringMatch]
  split
  · simp
  · split
    · split <;> simp
    · simp

theorem lexeme_punctuatorMatch_ne (cs : List Char) :
    (punctuatorMatch cs).lexeme ≠ .literal (.date d) := by
  unfold punctuatorMatch
  split <;> simp

theorem ofText?_of_dateMatch (found : (dateMatch cs).lexeme = .literal (.date d)) :
    ∃ inside, DateValue.ofText? inside = some d := by
  simp only [dateMatch] at found
  split at found
  next =>
    split at found
    next date read =>
      obtain rfl : date = d := by simpa using found
      split at read
      · exact ⟨_, read⟩
      · contradiction
    next => simp at found
  next => simp at found

/-- A date is recognised only where its text has been read. -/
theorem ofText?_of_recognize (found : (recognize version cs).lexeme = .literal (.date d)) :
    ∃ inside, DateValue.ofText? inside = some d := by
  have numeric {l : Lexeme} (number : l.isNumeric = true) : l ≠ .literal (.date d) := by
    rintro rfl
    contradiction
  cases cs with
  | nil => contradiction
  | cons c rest =>
    simp only [recognize] at found
    split at found
    case h_1 => contradiction
    case h_2 => contradiction
    case h_3 => contradiction
    case h_4 => exact absurd found (lexeme_escapedMatch_ne _)
    case h_5 => exact absurd found (lexeme_wordMatch_ne _ _)
    case h_6 => exact absurd found (lexeme_stringMatch_ne _)
    case h_7 => exact ofText?_of_dateMatch found
    case h_8 => exact absurd found (numeric (isNumeric_numeralLexeme ..))
    case h_9 => exact absurd found (numeric (isNumeric_radixNumber ..))
    case h_10 => exact absurd found (lexeme_punctuatorMatch_ne _)

/-- No character of a printed value closes it. -/
theorem inside_render (d : DateValue) : ∀ c ∈ d.render.toList,
    (halfWidth c != '#' && !isLineTerminator c) = true := by
  have digit {width n : Nat} : ∀ c ∈ zeroPadded width n,
      (halfWidth c != '#' && !isLineTerminator c) = true := fun c member =>
    of_decimalDigits (P := fun c => (halfWidth c != '#' && !isLineTerminator c) = true) (by decide)
      (isDigit_zeroPadded c member)
  rw [DateValue.toList_render, DateValue.printedTime]
  simp only [List.forall_mem_append, List.forall_mem_cons]
  exact ⟨digit, by decide, digit, by decide, digit, by decide, digit, by decide, digit, by decide,
    digit⟩

theorem head_render (d : DateValue) (rest : List Char) :
    ∃ c more, d.render.toList ++ rest = c :: more ∧ c.isDigit = true := by
  have some : 0 < (zeroPadded 4 d.year).length :=
    Nat.lt_of_lt_of_le (by decide) (width_le_length_zeroPadded 4 d.year)
  obtain ⟨c, more, front⟩ := List.exists_cons_of_ne_nil (List.length_pos_iff.1 some)
  refine ⟨c, _, by rw [DateValue.toList_render, front]; rfl, ?_⟩
  exact isDigit_zeroPadded c (by rw [front]; simp)

theorem dateMatch_render (valid : d.IsValid) (rest : List Char) :
    dateMatch ('#' :: (d.render.toList ++ '#' :: rest)) =
      ⟨.literal (.date d), d.render.toList.length + 2⟩ := by
  obtain ⟨c, more, front, digit⟩ := head_render d ('#' :: rest)
  obtain ⟨solid, starts⟩ := of_decimalDigits (P := fun c => isBlank c = false ∧
    isDecimalDigit c = true) (by decide) digit
  have opens : ((d.render.toList ++ '#' :: rest).dropWhile isBlank).head?.any isDecimalDigit =
      true := by
    rw [front, List.dropWhile_cons_of_neg (by simp [solid])]
    exact starts
  have inside : (d.render.toList ++ '#' :: rest).takeWhile
      (fun c => halfWidth c != '#' && !isLineTerminator c) = d.render.toList := by
    rw [List.takeWhile_append_of_pos (inside_render d), List.takeWhile_cons_of_neg (by decide),
      List.append_nil]
  have length : lengthThrough '#' (d.render.toList ++ '#' :: rest) = d.render.toList.length + 1 := by
    simp only [lengthThrough, inside, List.drop_left]
    rfl
  simp only [dateMatch, List.drop_succ_cons, List.drop_zero, opens, if_true, inside, length,
    Nat.lt_succ_self, DateValue.ofText?_render valid]
  rw [Nat.add_comm 1]

end Scan

/-- A printed value between number signs is a token by itself. -/
theorem spells_date (version : Version) {d : DateValue} (valid : d.IsValid) :
    Spells version ('#' :: (d.render.toList ++ ['#'])) (.literal (.date d)) := by
  constructor
  case found =>
    intro rest _
    have start (next : Option Char) : Scan.startOf '#' next = .numberSign := by
      simp [Scan.startOf, show halfWidth '#' = '#' by decide, show isLineTerminator '#' = false by
        decide, show isSingleQuote '#' = false by decide, show isIdentifierStart '#' = false by
        decide, show isDoubleQuote '#' = false by decide]
    rw [List.cons_append, List.append_assoc, List.singleton_append]
    simp only [Scan.recognize, start, Scan.dateMatch_render valid rest, List.length_cons,
      List.length_append, List.length_nil]
  case starts =>
    intro rest _
    exact triviaLength_eq_zero (by decide) fun underscore => absurd underscore (by decide)
  case unmarked => simp [Reader.byteOrderMark]
  case proper => simp [Lexeme.kind, Literal.tokenKind]

/-- A word alone is one token that spans it. -/
theorem tokenize_word {version : Version} (tab : Nat) {word : List Char} {l : Lexeme}
    (spells : Spells version word l) :
    ∃ t e, tokenize version tab word = [t, e] ∧ t.lexeme = l ∧ t.span.start = .origin ∧
      t.span.finish.index = word.length ∧ e.lexeme = .endOfStream := by
  have lexemes := lexemes_tokenize tab (.cons spells .nil)
  rw [List.intercalate_singleton] at lexemes
  obtain ⟨t, others, tokens, first, lexemes⟩ := List.map_eq_cons_iff.1 lexemes
  obtain ⟨e, rfl, last⟩ := List.map_eq_singleton_iff.1 lexemes
  have found := spells.found [] .nil
  have starts := spells.starts [] .nil
  rw [List.append_nil] at found starts
  have head := head?_tokenize version tab spells.unmarked starts
  rw [tokens, List.head?_cons, found] at head
  obtain rfl := Option.some.inj head
  have finish : (Reader.skip tab word.length ⟨word, .origin⟩).location.index = 0 + word.length :=
    Reader.index_skip (Nat.le_refl word.length)
  exact ⟨_, e, tokens, rfl, rfl, finish.trans (Nat.zero_add _), last⟩

/-- The value of a date token is a date of the calendar and a time of day, and it loses nothing in the
bits that its parts are kept in.  Every such value that is printed between number signs is one token
with that value. -/
theorem date_literals_are_valid (o : ScanOptions) :
    (∀ text, ∀ t ∈ o.tokenize text, ∀ d, t.lexeme = .literal (.date d) →
      d.IsValid ∧ d.narrowed = d) ∧
    ∀ d : DateValue, d.IsValid → ∃ t e, o.tokenize ("#" ++ d.render ++ "#") = [t, e] ∧
      t.lexeme = .literal (.date d) ∧ t.span.start = .origin ∧
      t.span.finish.index = ("#" ++ d.render ++ "#").length ∧ e.lexeme = .endOfStream := by
  constructor
  · intro text t member d date
    obtain ⟨cs, lexeme, -, -⟩ := Reader.recognized_of_mem o.effectiveTab _
      (Reader.Reads.ofText o.effectiveTab text.toList) t (by rwa [ScanOptions.tokenize, tokenize] at member)
    obtain ⟨inside, read⟩ := Scan.ofText?_of_recognize (lexeme.symm.trans date)
    have valid := DateValue.isValid_of_ofText? read
    exact ⟨valid, valid.narrowed_eq⟩
  · intro d valid
    obtain ⟨t, e, tokens, date, start, finish, last⟩ :=
      tokenize_word o.effectiveTab (spells_date o.version valid)
    have text : ("#" ++ d.render ++ "#").toList = '#' :: (d.render.toList ++ ['#']) := by
      simp
    refine ⟨t, e, by rw [ScanOptions.tokenize, text, tokens], date, start, ?_, last⟩
    rw [finish, ← String.length_toList, text]

/-- The last second of a leap day. -/
theorem leap_day_is_read : (⟨2000, 2, 29, 23, 59, 59⟩ : DateValue).render = "2000-02-29 23:59:59" ∧
    ∃ t e, ScanOptions.standard.tokenize "#2000-02-29 23:59:59#" = [t, e] ∧
      t.lexeme = .literal (.date ⟨2000, 2, 29, 23, 59, 59⟩) ∧ t.span.finish.index = 21 := by
  have printed : (⟨2000, 2, 29, 23, 59, 59⟩ : DateValue).render = "2000-02-29 23:59:59" := by
    decide +kernel
  have valid : (⟨2000, 2, 29, 23, 59, 59⟩ : DateValue).IsValid := by constructor <;> decide
  obtain ⟨t, e, tokens, date, -, finish, -⟩ :=
    (date_literals_are_valid .standard).2 _ valid
  rw [printed] at tokens finish
  exact ⟨printed, t, e, tokens, date, finish⟩

end VisualBasic
