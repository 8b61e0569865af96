import Mathlib
import VisualBasic.Proofs.Scan.Tiling

/-!
Words with single blanks between them.  Names, numbers, keywords and punctuators that are written
this way are scanned one by one: nothing before a blank depends on what stands behind it.
-/

set_option autoImplicit false

namespace VisualBasic

/-- A word ends before such a text: a blank starts it, or it is empty. -/
def IsBreak (rest : List Char) : Prop := ∀ c ∈ rest.head?, c = ' '

theorem IsBreak.nil : IsBreak [] := by simp [IsBreak]

theorem IsBreak.blank (rest : List Char) : IsBreak (' ' :: rest) := by simp [IsBreak]

theorem IsBreak.eq {rest : List Char} (ends : IsBreak rest) :
    rest = [] ∨ ∃ more, rest = ' ' :: more := by
  cases rest with
  | nil => exact .inl rfl
  | cons c more =>
    obtain rfl := ends c rfl
    exact .inr ⟨more, rfl⟩

theorem IsBreak.take {rest : List Char} (ends : IsBreak rest) (n : Nat) :
    IsBreak (rest.take n) := by
  obtain rfl | ⟨more, rfl⟩ := ends.eq
  · rw [List.take_nil]
    exact .nil
  · cases n with
    | zero => exact .nil
    | succ n => exact .blank _

/-- No character of a class follows, if a blank is not of that class. -/
theorem IsBreak.head {rest : List Char} (ends : IsBreak rest) {p : Char → Bool}
    (blank : p ' ' = false) : rest.head?.any p = false := by
  obtain rfl | ⟨more, rfl⟩ := ends.eq
  · rfl
  · exact blank

theorem IsBreak.takeWhile {rest : List Char} (ends : IsBreak rest) {p : Char → Bool}
    (blank : p ' ' = false) : rest.takeWhile p = [] := by
  obtain rfl | ⟨more, rfl⟩ := ends.eq
  · rfl
  · simp [blank]

/-- The characters of which each ends a name or keyword before it. -/
def wordEnds : List Char := [' ', ',', '\n', '.', '(', ')']

/-- A name or keyword ends before such a text: one of those characters starts it, or it is empty. -/
def EndsWord (rest : List Char) : Prop := ∀ c ∈ rest.head?, c ∈ wordEnds

theorem EndsWord.nil : EndsWord [] := by simp [EndsWord]

theorem EndsWord.cons {c : Char} (ends : c ∈ wordEnds) (rest : List Char) : EndsWord (c :: rest) := by
  simpa [EndsWord] using ends

theorem IsBreak.endsWord {rest : List Char} (ends : IsBreak rest) : EndsWord rest :=
  fun c first => by simp [ends c first, wordEnds]

theorem EndsWord.eq {rest : List Char} (ends : EndsWord rest) :
    rest = [] ∨ ∃ c more, c ∈ wordEnds ∧ rest = c :: more := by
  cases rest with
  | nil => exact .inl rfl
  | cons c more => exact .inr ⟨c, more, ends c rfl, rfl⟩

/-- What ends a word is no part of one and gives no name a type. -/
theorem of_wordEnds {c : Char} (ends : c ∈ wordEnds) :
    isIdentifierPart c = false ∧ TypeCharacter.ofSymbol? (halfWidth c) = none ∧
      ∀ rest, Scan.startsMember (c :: rest) = false := by
  have table : (wordEnds.all fun c => decide (isIdentifierPart c = false ∧
      TypeCharacter.ofSymbol? (halfWidth c) = none ∧
      (isIdentifierStart c || halfWidth c == '[') = false)) = true := by decide
  obtain ⟨part, symbol, member⟩ := of_decide_eq_true (List.all_eq_true.1 table c ends)
  exact ⟨part, symbol, fun _ => member⟩

theorem EndsWord.takeWhile {rest : List Char} (ends : EndsWord rest) :
    rest.takeWhile isIdentifierPart = [] := by
  obtain rfl | ⟨c, more, member, rfl⟩ := ends.eq
  · rfl
  · simp [(of_wordEnds member).1]

theorem EndsWord.nameSuffix? {rest : List Char} (ends : EndsWord rest) :
    Scan.nameSuffix? rest = none := by
  obtain rfl | ⟨c, more, member, rfl⟩ := ends.eq
  · rfl
  · simp [Scan.nameSuffix?, (of_wordEnds member).2.1]

theorem EndsWord.startsMember {rest : List Char} (ends : EndsWord rest) :
    Scan.startsMember rest = false := by
  obtain rfl | ⟨c, more, member, rfl⟩ := ends.eq
  · rfl
  · exact (of_wordEnds member).2.2 more

/-- The word is scanned as the lexeme wherever such a text follows. -/
structure SpellsBefore (version : Version) (follow : List Char → Prop) (word : List Char)
    (l : Lexeme) : Prop where
  found : ∀ rest, follow rest → Scan.recognize version (word ++ rest) = ⟨l, word.length⟩
  starts : ∀ rest, follow rest → Reader.triviaLength 0 (word ++ rest) = 0
  unmarked : word.head? ≠ some Reader.byteOrderMark
  proper : l.kind ≠ .endOfStream ∧ l.kind ≠ .comment

/-- Only the end of the stream takes no character. -/
theorem SpellsBefore.ne_nil {version : Version} {follow : List Char → Prop} {word rest : List Char}
    {l : Lexeme} (spells : SpellsBefore version follow word l) (follows : follow rest) :
    word ≠ [] := by
  rintro rfl
  have nothing : Scan.recognize version rest = ⟨l, 0⟩ := spells.found rest follows
  cases rest with
  | nil =>
    obtain rfl : Lexeme.endOfStream = l := congrArg Match.lexeme nothing
    exact spells.proper.1 rfl
  | cons c rest =>
    obtain takes | ⟨ends, isBreak⟩ := Scan.recognize_cons version c rest
    · have positive := takes.positive
      rw [nothing] at positive
      exact Nat.lt_irrefl 0 positive
    · have positive := (take_lineBreakLength rest ends).2.1
      rw [nothing] at isBreak
      have length : 0 = Scan.lineBreakLength (c :: rest) := congrArg Match.length isBreak
      rw [← length] at positive
      exact Nat.lt_irrefl 0 positive

/-- The word is scanned as the lexeme wherever it ends before a blank or with the text. -/
abbrev Spells (version : Version) : List Char → Lexeme → Prop := SpellsBefore version IsBreak

theorem SpellsBefore.spells {version : Version} {word : List Char} {l : Lexeme}
    (spells : SpellsBefore version EndsWord word l) : Spells version word l :=
  ⟨fun rest ends => spells.found rest ends.endsWord,
    fun rest ends => spells.starts rest ends.endsWord, spells.unmarked, spells.proper⟩

-- What words start with

theorem triviaLength_eq_zero {c : Char} {rest : List Char} (visible : isBlank c = false)
    (joined : halfWidth c = '_' → rest.head?.any isIdentifierPart = true) :
    Reader.triviaLength 0 (c :: rest) = 0 := by
  have none : Reader.continuationTail? c rest = none := by
    unfold Reader.continuationTail?
    split
    next underscore =>
      have part := joined underscore
      cases rest with
      | nil => simp at part
      | cons d more =>
        simp only [List.head?_cons, Option.any_some] at part
        have ink : isBlank d = false := by
          by_contra blank
          rw [not_isIdentifierPart_of_isBlank (Bool.of_not_eq_false blank)] at part
          contradiction
        simp [ink, not_isLineTerminator_of_isIdentifierPart part]
    next => rfl
  simp [Reader.triviaLength, visible, none]

/-- A text that starts with no blank starts with its first token. -/
theorem head?_tokenize (version : Version) (tab : Nat) {text : List Char}
    (unmarked : text.head? ≠ some Reader.byteOrderMark)
    (starts : Reader.triviaLength 0 text = 0) :
    (tokenize version tab text).head? = some ⟨(Scan.recognize version text).lexeme,
      ⟨.origin, (Reader.skip tab (Scan.recognize version text).length ⟨text, .origin⟩).location⟩⟩ := by
  have start : Reader.ofText tab text = ⟨text, .origin⟩ := if_neg unmarked
  rw [tokenize, start]
  simp only [Reader.tokens, Reader.next, Reader.skipTrivia, starts, Reader.skip]
  split <;> rfl

theorem visible_of_isIdentifierPart {c : Char} (part : isIdentifierPart c = true) :
    isBlank c = false := by
  by_contra blank
  rw [not_isIdentifierPart_of_isBlank (Bool.of_not_eq_false blank)] at part
  contradiction

theorem isIdentifierPart_blank : isIdentifierPart ' ' = false := by decide

theorem ne_of_isIdentifierStart {c d : Char} (starts : isIdentifierStart c = true)
    (other : isIdentifierStart d = false) : c ≠ d := by
  rintro rfl
  rw [starts] at other
  contradiction

/-- A name starts with a letter or an underscore; the underscore does not stand alone. -/
theorem startOf_word {c : Char} {following : Option Char} (starts : isIdentifierStart c = true)
    (joined : halfWidth c = '_' → following.any isIdentifierPart = true) :
    Scan.startOf c following = .word := by
  have inside := not_isLineTerminator_of_isIdentifierStart starts
  have unquoted : isSingleQuote c = false := by
    simp only [isSingleQuote, Bool.or_eq_false_iff, beq_eq_false_iff_ne]
    refine ⟨⟨⟨?_, ?_⟩, ?_⟩, ?_⟩ <;> exact ne_of_isIdentifierStart starts (by decide +kernel)
  have plainStart : isIdentifierStart (halfWidth c) = true := by
    rwa [isIdentifierStart, halfWidth_halfWidth]
  have bracket : halfWidth c ≠ '[' := ne_of_isIdentifierStart plainStart (by decide)
  have joint : ¬ (halfWidth c = '_' ∧ (!following.any isIdentifierPart) = true) := by
    rintro ⟨underscore, alone⟩
    rw [joined underscore] at alone
    contradiction
  unfold Scan.startOf
  simp only [inside, unquoted, joint, bracket, plainStart, Bool.false_eq_true, if_true, if_false]

-- Names

/-- The symbol behind a name that a type character stands for; only symbols stand there. -/
def TypeCharacter.symbol : TypeCharacter → List Char
  | .integerSymbol => ['%']
  | .longSymbol => ['&']
  | .decimalSymbol => ['@']
  | .singleSymbol => ['!']
  | .doubleSymbol => ['#']
  | .stringSymbol => ['$']
  | _ => []

theorem nameSuffix?_symbol {t : TypeCharacter} {rest : List Char} (symbol : t.isSymbol = true)
    (ends : EndsWord rest) : Scan.nameSuffix? (t.symbol ++ rest) = some t := by
  cases t with
  | singleSymbol =>
    simp [TypeCharacter.symbol, Scan.nameSuffix?, ends.startsMember, TypeCharacter.ofSymbol?,
      halfWidth]
  | integerSymbol | longSymbol | decimalSymbol | doubleSymbol | stringSymbol => rfl
  | _ => simp [TypeCharacter.isSymbol] at symbol

/-- The type character behind a name, if it has one. -/
def suffixSymbol (suffix : Option TypeCharacter) : List Char := suffix.elim [] TypeCharacter.symbol

/-- The characters of a name: a letter or underscore, then letters, digits and underscores. -/
structure IsName (word : List Char) : Prop where
  starts : word.head?.any isIdentifierStart = true
  parts : ∀ c ∈ word, isIdentifierPart c = true

section Names

variable {version : Version} {word rest : List Char} {suffix : Option TypeCharacter}

theorem nameSuffix?_suffixSymbol (symbols : ∀ t ∈ suffix, t.isSymbol = true)
    (ends : EndsWord rest) : Scan.nameSuffix? (suffixSymbol suffix ++ rest) = suffix := by
  cases suffix with
  | some t => exact nameSuffix?_symbol (symbols t rfl) ends
  | none => exact ends.nameSuffix?

theorem length_suffixSymbol (symbols : ∀ t ∈ suffix, t.isSymbol = true) :
    (suffixSymbol suffix).length = suffix.elim 0 fun _ => 1 := by
  cases suffix with
  | none => rfl
  | some t =>
    have symbol := symbols t rfl
    cases t <;> first | rfl | simp [TypeCharacter.isSymbol] at symbol

theorem takeWhile_suffixSymbol (ends : EndsWord rest) :
    (suffixSymbol suffix ++ rest).takeWhile isIdentifierPart = [] := by
  cases suffix with
  | none => exact ends.takeWhile
  | some t => cases t <;> first | rfl | exact ends.takeWhile

theorem takeWhile_word (named : IsName word) {more : List Char}
    (apart : more.takeWhile isIdentifierPart = []) :
    (word ++ more).takeWhile isIdentifierPart = word := by
  rw [List.takeWhile_append_of_pos named.parts, apart, List.append_nil]

/-- A name that is not reserved, or that a type character tells from a keyword. -/
theorem wordMatch_name (named : IsName word) (symbols : ∀ t ∈ suffix, t.isSymbol = true)
    (free : suffix = none → ∀ k ∈ Keyword.ofWord? version word, k.isReserved = false)
    (ends : EndsWord rest) :
    Scan.wordMatch version (word ++ (suffixSymbol suffix ++ rest)) =
      ⟨.identifier ⟨String.ofList word, suffix, false, Keyword.ofWord? version word⟩,
        (word ++ suffixSymbol suffix).length⟩ := by
  unfold Scan.wordMatch
  simp only [takeWhile_word named (takeWhile_suffixSymbol ends), List.drop_left,
    nameSuffix?_suffixSymbol symbols ends, List.length_append, length_suffixSymbol symbols]
  cases spelled : Keyword.ofWord? version word with
  | none => rfl
  | some k =>
    cases suffix with
    | some t => cases k <;> rfl
    | none =>
      have contextual := free rfl k spelled
      cases k <;> first | rfl | simp [Keyword.isReserved] at contextual

/-- A word that starts as names do, and is not a lone underscore. -/
theorem SpellsBefore.ofWordMatch {c : Char} {cs : List Char} {l : Lexeme}
    (starts : isIdentifierStart c = true)
    (joined : halfWidth c = '_' → cs.head?.any isIdentifierPart = true)
    (found : ∀ rest, EndsWord rest →
      Scan.wordMatch version (c :: cs ++ rest) = ⟨l, (c :: cs).length⟩)
    (proper : l.kind ≠ .endOfStream ∧ l.kind ≠ .comment) :
    SpellsBefore version EndsWord (c :: cs) l := by
  have part := isIdentifierPart_of_isIdentifierStart starts
  have linked (rest : List Char) (underscore : halfWidth c = '_') :
      (cs ++ rest).head?.any isIdentifierPart = true := by
    have joined := joined underscore
    cases cs with
    | nil => simp at joined
    | cons d more => exact joined
  refine ⟨fun rest ends => ?_, fun rest ends => ?_, ?_, proper⟩
  · rw [← found rest ends]
    simp only [Scan.recognize, List.cons_append, startOf_word starts (linked rest)]
  · exact triviaLength_eq_zero (visible_of_isIdentifierPart part) (linked rest)
  · intro marked
    have : c = Reader.byteOrderMark := by simpa using marked
    exact ne_of_isIdentifierStart starts (by decide +kernel) this

theorem spells_name (named : IsName word) (symbols : ∀ t ∈ suffix, t.isSymbol = true)
    (free : suffix = none → ∀ k ∈ Keyword.ofWord? version word, k.isReserved = false)
    (joined : word.map halfWidth ≠ ['_']) :
    SpellsBefore version EndsWord (word ++ suffixSymbol suffix)
      (.identifier ⟨String.ofList word, suffix, false, Keyword.ofWord? version word⟩) := by
  have found (rest : List Char) (ends : EndsWord rest) := wordMatch_name named symbols free ends
  obtain ⟨starts, parts⟩ := named
  cases word with
  | nil => simp at starts
  | cons c cs =>
    refine .ofWordMatch (by simpa using starts) ?_ (by simpa using found) (by simp [Lexeme.kind])
    intro underscore
    cases cs with
    | nil => simp [underscore] at joined
    | cons d more => simpa using parts d (by simp)

/-- A name in brackets, which may be any word. -/
theorem spells_escaped (named : IsName word) (symbols : ∀ t ∈ suffix, t.isSymbol = true) :
    SpellsBefore version EndsWord ('[' :: (word ++ ']' :: suffixSymbol suffix))
      (.identifier ⟨String.ofList word, suffix, true, none⟩) := by
  have plain : halfWidth '[' ≠ '_' := by decide
  refine ⟨fun rest ends => ?_, fun rest _ => triviaLength_eq_zero rfl fun same => absurd same plain,
    by simp [Reader.byteOrderMark], by simp [Lexeme.kind]⟩
  have whole : '[' :: (word ++ ']' :: suffixSymbol suffix) ++ rest =
      '[' :: (word ++ ']' :: (suffixSymbol suffix ++ rest)) := by simp
  have body : (word ++ ']' :: (suffixSymbol suffix ++ rest)).takeWhile isIdentifierPart = word :=
    takeWhile_word named (by simp [show isIdentifierPart ']' = false by decide])
  have starts :
      (word ++ ']' :: (suffixSymbol suffix ++ rest)).head?.any isIdentifierStart = true := by
    obtain ⟨starts, -⟩ := named
    cases word with
    | nil => simp at starts
    | cons c cs => exact starts
  rw [whole, Scan.recognize]
  change Scan.escapedMatch _ = _
  unfold Scan.escapedMatch
  simp only [List.drop_succ_cons, List.drop_zero, starts, body, List.drop_left, if_true,
    List.head?_cons, Option.any_some, show (halfWidth ']' == ']') = true by decide,
    nameSuffix?_suffixSymbol symbols ends, List.length_cons, List.length_append,
    length_suffixSymbol symbols]
  congr 1
  omega

end Names

-- Numbers

def decimalDigits : List Char := ['0', '1', '2', '3', '4', '5', '6', '7', '8', '9']

theorem mem_decimalDigits {c : Char} (digit : c.isDigit = true) : c ∈ decimalDigits := by
  have bounds : 48 ≤ c.toNat ∧ c.toNat ≤ 57 := by
    simpa [Char.isDigit, UInt32.le_iff_toNat_le] using digit
  have all : ∀ n < 10, Char.ofNat (48 + n) ∈ decimalDigits := by decide
  have member := all (c.toNat - 48) (by omega)
  rwa [Nat.add_sub_cancel' bounds.1, Char.ofNat_toNat] at member

/-- What holds of the ten digits holds of every digit. -/
theorem of_decimalDigits {P : Char → Prop} [DecidablePred P]
    (all : (decimalDigits.all fun d => decide (P d)) = true) {c : Char} (digit : c.isDigit = true) :
    P c :=
  of_decide_eq_true (List.all_eq_true.1 all c (mem_decimalDigits digit))

theorem digitValue?_of_isDigit {c : Char} (digit : c.isDigit = true) :
    digitValue? 10 c = some (c.toNat - 48) :=
  of_decimalDigits (P := fun d => digitValue? 10 d = some (d.toNat - 48)) (by decide) digit

theorem startOf_digit {c : Char} (following : Option Char) (digit : c.isDigit = true) :
    Scan.startOf c following = .decimalNumber := by
  obtain ⟨plain, inside, unquoted, unquoted', other, underscore, bracket, sign⟩ :=
    of_decimalDigits (P := fun d => halfWidth d = d ∧ isLineTerminator d = false ∧
      isSingleQuote d = false ∧ isDoubleQuote d = false ∧ isIdentifierStart d = false ∧ d ≠ '_' ∧
      d ≠ '[' ∧ d ≠ '#') (by decide) digit
  simp [Scan.startOf, plain, inside, unquoted, unquoted', other, underscore, bracket, sign, digit]

theorem leadingDigits_append {ds rest : List Char} (digits : ∀ c ∈ ds, c.isDigit = true)
    (ends : IsBreak rest) : Scan.leadingDigits 10 (ds ++ rest) = ds.map fun c => c.toNat - 48 := by
  induction ds with
  | nil => obtain rfl | ⟨more, rfl⟩ := ends.eq <;> rfl
  | cons c cs ih =>
    have digit := digits c (by simp)
    rw [List.cons_append, Scan.leadingDigits, digitValue?_of_isDigit digit]
    simp only [List.map_cons, ih fun d member => digits d (by simp [member])]

theorem ofDigits_toDigits (n : Nat) :
    ofDigits 10 ((Nat.toDigits 10 n).map fun c => c.toNat - 48) = n := by
  have value := Nat.ofDigitChars_toDigits (b := 10) (n := n) (by decide) (by decide)
  rw [Nat.ofDigitChars_eq_foldl, show '0'.toNat = 48 from rfl] at value
  rw [ofDigits, List.foldl_map]
  simpa only [Nat.mul_comm] using value

-- Digits taken one by one

theorem checked64?_eq (n : Nat) : Scan.checked64? n = if n < 2 ^ 64 then some n else none := rfl

/-- Further digits make no value smaller. -/
theorem le_foldl_digits {radix : Nat} (positive : 0 < radix) (digits : List Nat) (value : Nat) :
    value ≤ digits.foldl (fun value digit => value * radix + digit) value := by
  induction digits generalizing value with
  | nil => exact Nat.le_refl _
  | cons digit rest ih =>
    have scaled : value ≤ value * radix := Nat.le_mul_of_pos_right value positive
    exact Nat.le_trans (by omega) (ih (value * radix + digit))

/-- A step leaves 64 bits just when the digits so far denote a number that does. -/
theorem checkedStep_eq (radix value digit : Nat) :
    (do Scan.checked64? ((← Scan.checked64? (value * radix)) + digit)) =
      if value * radix + digit < 2 ^ 64 then some (value * radix + digit) else none := by
  by_cases fits : value * radix < 2 ^ 64
  · rw [checked64?_eq, if_pos fits]
    exact checked64?_eq _
  · rw [checked64?_eq, if_neg fits, if_neg (by omega)]
    rfl

/-- The value of digits that are taken one by one is what they denote, if 64 bits hold it. -/
theorem accumulate?_eq {radix : Nat} (positive : 0 < radix) (digits : List Nat) :
    Scan.accumulate? radix digits =
      if ofDigits radix digits < 2 ^ 64 then some (ofDigits radix digits) else none := by
  have fold (value : Nat) (fits : value < 2 ^ 64) :
      digits.foldlM (fun value digit =>
          do Scan.checked64? ((← Scan.checked64? (value * radix)) + digit)) value =
        if digits.foldl (fun value digit => value * radix + digit) value < 2 ^ 64
        then some (digits.foldl (fun value digit => value * radix + digit) value) else none := by
    induction digits generalizing value with
    | nil => exact (if_pos fits).symm
    | cons digit rest ih =>
      rw [List.foldlM_cons, checkedStep_eq, List.foldl_cons]
      by_cases step : value * radix + digit < 2 ^ 64
      · rw [if_pos step]
        exact ih _ step
      · have grows := le_foldl_digits positive rest (value * radix + digit)
        rw [if_neg step, if_neg (by omega)]
        rfl
  exact fold 0 (by decide)

/-- Nothing that continues a number follows. -/
theorem readNumeral_append {ds rest : List Char} (digits : ∀ c ∈ ds, c.isDigit = true)
    (ends : IsBreak rest) :
    Scan.readNumeral (ds ++ rest) = (⟨ds.map fun c => c.toNat - 48, none, none⟩, ds.length) := by
  have fraction : Scan.fractionDigits? rest = none := by
    obtain rfl | ⟨more, rfl⟩ := ends.eq <;> rfl
  have exponent : Scan.exponentPart? rest = none := by
    obtain rfl | ⟨more, rfl⟩ := ends.eq <;> rfl
  simp [Scan.readNumeral, leadingDigits_append digits ends, fraction, exponent]

theorem numeralLexeme_toDigits {n : Nat} (small : n < 2 ^ 63) :
    Scan.numeralLexeme ⟨(Nat.toDigits 10 n).map fun c => c.toNat - 48, none, none⟩ none =
      .literal (.integer (.signed n) .decimal none) := by
  have wide : n < 2 ^ 64 := Nat.lt_trans small (by decide)
  have value : IntegerValue.ofLiteral? n .decimal none = some (.signed n) := by
    simp only [IntegerValue.ofLiteral?, ne_eq, not_true, false_and, if_false,
      IntegerValue.ofSigned?]
    exact if_pos small
  have whole (digits : List Nat) : (⟨digits, none, none⟩ : Numeral).isWhole = true := rfl
  have taken : Scan.accumulate? IntegerBase.decimal.radix
      ((Nat.toDigits 10 n).map fun c => c.toNat - 48) = some n := by
    rw [accumulate?_eq (by decide), IntegerBase.radix, ofDigits_toDigits, if_pos wide]
  simp only [Scan.numeralLexeme, whole, if_true, Scan.integerLexeme, taken, Option.bind_some, value]

theorem spells_number (version : Version) {n : Nat} (small : n < 2 ^ 63) :
    Spells version (Nat.toDigits 10 n) (.literal (.integer (.signed n) .decimal none)) := by
  have digits (c : Char) (member : c ∈ Nat.toDigits 10 n) : c.isDigit = true :=
    Nat.isDigit_of_mem_toDigits (by decide) (by decide) member
  have number (rest : List Char) (ends : IsBreak rest) :
      Scan.decimalNumber version (Nat.toDigits 10 n ++ rest) =
        ⟨.literal (.integer (.signed n) .decimal none), (Nat.toDigits 10 n).length⟩ := by
    have suffix : Scan.numberSuffix? version false rest = none := by
      obtain rfl | ⟨more, rfl⟩ := ends.eq <;> rfl
    simp only [Scan.decimalNumber, readNumeral_append digits ends, List.drop_left, suffix,
      Option.map_none, Option.elim_none, numeralLexeme_toDigits small, Nat.add_zero]
  cases spelled : Nat.toDigits 10 n with
  | nil => exact absurd spelled Nat.toDigits_ne_nil
  | cons c cs =>
    rw [spelled] at number digits
    have digit := digits c (by simp)
    obtain ⟨visible, underscore, mark⟩ := of_decimalDigits (P := fun d => isBlank d = false ∧
      halfWidth d ≠ '_' ∧ d ≠ Reader.byteOrderMark) (by decide) digit
    refine ⟨fun rest ends => ?_, fun rest ends => ?_, ?_, by simp [Lexeme.kind, Literal.tokenKind]⟩
    · rw [← number rest ends, List.cons_append, Scan.recognize, startOf_digit _ digit]
    · exact triviaLength_eq_zero visible fun same => absurd same underscore
    · simpa using mark

-- Keywords

theorem isIdentifierStart_of_isAlpha {c : Char} (letter : (halfWidth c).isAlpha = true) :
    isIdentifierStart c = true := by
  have ascii : (halfWidth c).toNat < 0x80 := by
    simp only [Char.isAlpha, Char.isUpper, Char.isLower, Bool.or_eq_true, Bool.and_eq_true,
      decide_eq_true_eq, ge_iff_le, UInt32.le_iff_toNat_le] at letter
    simp only [Char.toNat]
    rcases letter with ⟨-, upper⟩ | ⟨-, upper⟩
    · exact Nat.lt_of_le_of_lt upper (by decide)
    · exact Nat.lt_of_le_of_lt upper (by decide)
  simp [isIdentifierStart, isLetter, ascii, letter]

/-- Keywords are made of letters. -/
theorem isAlpha_of_ofWord? {version : Version} {word : List Char} {k : Keyword}
    (spelled : Keyword.ofWord? version word = some k) :
    word ≠ [] ∧ ∀ c ∈ word, (halfWidth c).isAlpha = true := by
  unfold Keyword.ofWord? at spelled
  split at spelled
  · contradiction
  · simp only [Option.bind_eq_bind, Option.bind_eq_some_iff] at spelled
    obtain ⟨folded, folds, keyword, found, -⟩ := spelled
    simp only [foldWord] at folds
    split at folds
    next letters =>
      refine ⟨?_, by simpa using letters⟩
      rintro rfl
      obtain rfl : folded = [] := by simpa using folds.symm
      have none : keywordTable.lookup [] = none := by decide
      rw [none] at found
      contradiction
    next => contradiction

theorem spells_keyword {version : Version} {word : List Char} {k : Keyword}
    (spelled : Keyword.ofWord? version word = some k) (reserved : k.isReserved = true)
    (code : k ≠ .kwRem) : SpellsBefore version EndsWord word (.keyword k (String.ofList word)) := by
  obtain ⟨nonempty, letters⟩ := isAlpha_of_ofWord? spelled
  have start (c : Char) (member : c ∈ word) := isIdentifierStart_of_isAlpha (letters c member)
  cases word with
  | nil => contradiction
  | cons c cs =>
    have named : IsName (c :: cs) :=
      ⟨start c (by simp), fun d member => isIdentifierPart_of_isIdentifierStart (start d member)⟩
    refine .ofWordMatch (start c (by simp)) ?_ (fun rest ends => ?_) (by simp [Lexeme.kind])
    · intro underscore
      have letter := letters c (by simp)
      rw [underscore] at letter
      contradiction
    · unfold Scan.wordMatch
      simp only [takeWhile_word named ends.takeWhile, List.drop_left,
        ends.nameSuffix?, spelled, reserved]
      simp

/-- A reserved word as it is spelled, in a version that has it. -/
theorem spells_reserved {version : Version} {k : Keyword} (reserved : k.isReserved = true)
    (code : k ≠ .kwRem) (short : utf8Length k.spelling.toList ≤ keywordByteLimit)
    (listed : (foldWord k.spelling.toList).bind (List.lookup · keywordTable) = some k)
    (known : k.sinceV8 = true → version.supportsV8 = true) :
    SpellsBefore version EndsWord k.spelling.toList (.keyword k k.spelling) := by
  have spelled : Keyword.ofWord? version k.spelling.toList = some k := by
    obtain ⟨folded, folds, found⟩ := Option.bind_eq_some_iff.1 listed
    have old : (k.sinceV8 && !version.supportsV8) = false := by
      cases since : k.sinceV8 with
      | false => rfl
      | true => simp [known since]
    rw [Keyword.ofWord?, if_neg (Nat.not_lt.2 short)]
    simp only [Option.bind_eq_bind, folds, Option.bind_some, found, old, Bool.false_eq_true,
      if_false]
  have spells := spells_keyword spelled reserved code
  rwa [String.ofList_toList] at spells

-- Punctuators

/-- No punctuator has a blank in it, so a blank ends every punctuator before it. -/
theorem isPrefixOf_append_break {mark word rest : List Char} (solid : ' ' ∉ mark)
    (ends : IsBreak rest) : mark.isPrefixOf (word ++ rest) = mark.isPrefixOf word := by
  induction word generalizing mark with
  | nil =>
    cases mark with
    | nil => rfl
    | cons c cs =>
      obtain rfl | ⟨more, rfl⟩ := ends.eq
      · rfl
      · have : c ≠ ' ' := fun same => solid (by simp [same])
        simp [List.isPrefixOf, this]
  | cons d more ih =>
    cases mark with
    | nil => rfl
    | cons c cs =>
      have solid : ' ' ∉ cs := fun member => solid (by simp [member])
      simp [List.isPrefixOf, ih solid]

theorem ofText?_append_break {word rest : List Char} (ends : IsBreak rest) :
    Punctuator.ofText? (word ++ rest) = Punctuator.ofText? word := by
  have solid (p : Punctuator) : ' ' ∉ p.spelling.toList := by cases p <;> decide
  have same (p : Punctuator) : p.spelling.toList.isPrefixOf (word ++ rest) =
      p.spelling.toList.isPrefixOf word := isPrefixOf_append_break (solid p) ends
  simp only [Punctuator.ofText?, same]

theorem punctuatorMatch_append (p : Punctuator) {rest : List Char} (ends : IsBreak rest) :
    Scan.punctuatorMatch (p.spelling.toList ++ rest) =
      ⟨.punctuator p, p.spelling.toList.length⟩ := by
  have short : p.spelling.toList.take 3 = p.spelling.toList := by cases p <;> rfl
  have plain : p.spelling.toList.map halfWidth = p.spelling.toList := by cases p <;> decide
  have whole : Punctuator.ofText? p.spelling.toList = some p := by cases p <;> rfl
  have blank : IsBreak ((rest.take (3 - p.spelling.toList.length)).map halfWidth) := by
    obtain none | ⟨more, some⟩ := (ends.take (3 - p.spelling.toList.length)).eq
    · rw [none]
      exact .nil
    · rw [some]
      exact .blank _
  have front : ((p.spelling.toList ++ rest).take 3).map halfWidth =
      p.spelling.toList ++ (rest.take (3 - p.spelling.toList.length)).map halfWidth := by
    rw [List.take_append, List.map_append, short, plain]
  rw [Scan.punctuatorMatch, front, ofText?_append_break blank, whole]
  rfl

theorem spells_punctuator (version : Version) {p : Punctuator} (apart : p ≠ .pound) :
    Spells version p.spelling.toList (.punctuator p) := by
  -- a period or ampersand starts a number only where a digit or letter follows at once
  obtain ⟨c, cs, spelled, start, visible, underscore, mark⟩ : ∃ c cs,
      p.spelling.toList = c :: cs ∧
      (∀ following ∈ [none, some ' '],
        Scan.startOf c (cs.head?.or following) = .punctuator) ∧
      isBlank c = false ∧ halfWidth c ≠ '_' ∧ c ≠ Reader.byteOrderMark := by
    cases p <;> first | exact ⟨_, _, rfl, by decide⟩ | contradiction
  refine ⟨fun rest ends => ?_, fun rest ends => ?_, ?_, by simp [Lexeme.kind]⟩
  · have following : rest.head? ∈ [none, some ' '] := by
      obtain rfl | ⟨more, rfl⟩ := ends.eq <;> simp
    rw [← punctuatorMatch_append p ends, spelled, List.cons_append, Scan.recognize,
      List.head?_append, start _ following]
  · rw [spelled]
    exact triviaLength_eq_zero visible fun same => absurd same underscore
  · simpa [spelled] using mark

/-- A punctuator of one character, of which no longer one starts, whatever follows that does not make
it a part of something else. -/
theorem spells_mark (version : Version) {follow : List Char → Prop} {p : Punctuator} {c : Char}
    (spelled : p.spelling.toList = [c])
    (alone : ∀ rest, Punctuator.ofText? (halfWidth c :: rest) = some p)
    (starts : ∀ rest, follow rest → Scan.startOf c rest.head? = .punctuator)
    (visible : isBlank c = false ∧ halfWidth c ≠ '_' ∧ c ≠ Reader.byteOrderMark) :
    SpellsBefore version follow [c] (.punctuator p) := by
  refine ⟨fun rest follows => ?_, fun rest _ => ?_, by simpa using visible.2.2, by simp [Lexeme.kind]⟩
  · have found : Punctuator.ofText? (((c :: rest).take 3).map halfWidth) = some p := alone _
    rw [List.singleton_append, Scan.recognize, starts rest follows, Scan.punctuatorMatch, found]
    simp [← String.length_toList, spelled]
  · exact triviaLength_eq_zero visible.1 fun same => absurd same visible.2.1

/-- Parentheses and commas stand alone. -/
theorem spells_delimiter (version : Version) {p : Punctuator}
    (delimits : p ∈ [.leftParenthesis, .rightParenthesis, .comma]) :
    SpellsBefore version (fun _ => True) p.spelling.toList (.punctuator p) := by
  simp only [List.mem_cons, List.not_mem_nil, or_false] at delimits
  obtain rfl | rfl | rfl := delimits
  all_goals exact spells_mark version rfl (fun _ => rfl) (fun _ _ => rfl) (by decide)

theorem not_isDecimalDigit_of_isIdentifierStart {c : Char} (starts : isIdentifierStart c = true) :
    isDecimalDigit c = false := by
  by_contra digit
  have none : (isLetter (halfWidth c) || halfWidth c == '_') = false :=
    of_decimalDigits (P := fun d => (isLetter d || d == '_') = false) (by decide)
      (Bool.of_not_eq_false digit)
  rw [isIdentifierStart, none] at starts
  contradiction

/-- A period before a name. -/
theorem spells_period (version : Version) :
    SpellsBefore version (fun rest => rest.head?.any isIdentifierStart = true) ['.']
      (.punctuator .period) := by
  refine spells_mark version rfl (fun _ => rfl) (fun rest follows => ?_) (by decide)
  have digit : rest.head?.any isDecimalDigit = false := by
    cases rest with
    | nil => rfl
    | cons c more => exact not_isDecimalDigit_of_isIdentifierStart follows
  have plain : halfWidth '.' = '.' ∧ isLineTerminator '.' = false ∧ isSingleQuote '.' = false ∧
      isDoubleQuote '.' = false ∧ isIdentifierStart '.' = false := by decide
  simp [Scan.startOf, plain, digit]

-- Texts

/-- A line ends whatever the next one starts with. -/
theorem spells_lineEnd (version : Version) :
    SpellsBefore version (fun _ => True) ['\n'] .lineTerminator := by
  refine ⟨fun rest _ => ?_, fun rest _ => ?_, by simp [Reader.byteOrderMark], by simp [Lexeme.kind]⟩
  · rfl
  · exact triviaLength_eq_zero (by decide) fun same => absurd same (by decide)

/-- The words of a text in order, with blanks between some of them. -/
inductive Scans (version : Version) : List Char → List Lexeme → Prop where
  | nil : Scans version [] []
  | blank {text : List Char} {ls : List Lexeme} : Scans version text ls →
      Scans version (' ' :: text) ls
  | word {follow : List Char → Prop} {word rest : List Char} {l : Lexeme} {ls : List Lexeme} :
      SpellsBefore version follow word l → follow rest → Scans version rest ls →
      Scans version (word ++ rest) (l :: ls)

section

variable {version : Version} (tab : Nat)

theorem Scans.length_le {text : List Char} {ls : List Lexeme} (scans : Scans version text ls) :
    ls.length ≤ text.length := by
  induction scans with
  | nil => exact Nat.le_refl _
  | blank _ ih => exact Nat.le_succ_of_le ih
  | word spells follows _ ih =>
    have nonempty := List.length_pos_iff.2 (spells.ne_nil follows)
    simp only [List.length_cons, List.length_append]
    omega

theorem Scans.kind_ne_comment {text : List Char} {ls : List Lexeme}
    (scans : Scans version text ls) : ∀ l ∈ ls, l.kind ≠ .comment := by
  induction scans with
  | nil => simp
  | blank _ ih => exact ih
  | word spells _ _ ih => exact List.forall_mem_cons.2 ⟨spells.proper.2, ih⟩

/-- A reader before such a text reads its words, wherever it stands in the blanks before it. -/
theorem Scans.tokens {text : List Char} {ls : List Lexeme} (scans : Scans version text ls)
    {n : Nat} (fuel : ls.length < n) {r : Reader}
    (reads : (r.skipTrivia tab).rest = text.drop (Reader.triviaLength 0 text)) :
    (r.tokens version tab n).map Token.lexeme = ls ++ [.endOfStream] := by
  induction scans generalizing n r with
  | nil =>
    obtain ⟨n, rfl⟩ := Nat.exists_eq_add_of_lt fuel
    have nothing : (r.next version tab).1.lexeme = .endOfStream := by
      simp [Reader.next, reads, Scan.recognize]
    simp [Reader.tokens, Token.kind, nothing, Lexeme.kind]
  | blank _ ih =>
    refine ih fuel ?_
    rw [reads, Reader.triviaLength, if_pos (by decide)]
    rfl
  | @word follow word rest l ls spells follows _ ih =>
    obtain ⟨n, rfl⟩ : ∃ m, n = m + 1 := ⟨n - 1, by simp at fuel; omega⟩
    rw [spells.starts rest follows, List.drop_zero] at reads
    have found : (r.next version tab).1.lexeme = l := by
      rw [Reader.next, reads, spells.found rest follows]
    have left : (r.next version tab).2.rest = rest := by
      rw [Reader.next, reads, spells.found rest follows, Reader.rest_skip, reads, List.drop_left]
    have next : ((r.next version tab).2.skipTrivia tab).rest =
        rest.drop (Reader.triviaLength 0 rest) := by
      rw [Reader.skipTrivia, Reader.rest_skip, left]
    have more := ih (by simpa using fuel) next
    simp [Reader.tokens, Token.kind, found, spells.proper.1, more]

/-- The tokens of a text are its words. -/
theorem Scans.lexemes {text : List Char} {ls : List Lexeme} (scans : Scans version text ls)
    (unmarked : text.head? ≠ some Reader.byteOrderMark) :
    (tokenize version tab text).map Token.lexeme = ls ++ [.endOfStream] := by
  have length := scans.length_le
  refine scans.tokens tab (by omega) ?_
  rw [Reader.ofText, if_neg unmarked, Reader.skipTrivia, Reader.rest_skip]

/-- The words with a blank before each of them. -/
def spaced (words : List (List Char)) : List Char := words.flatMap fun word => ' ' :: word

theorem isBreak_spaced (words : List (List Char)) : IsBreak (spaced words) := by
  cases words with
  | nil => exact .nil
  | cons word more => exact .blank _

theorem intercalate_eq (word : List Char) (more : List (List Char)) :
    [' '].intercalate (word :: more) = word ++ spaced more := by
  induction more generalizing word with
  | nil => simp [spaced]
  | cons next more ih =>
    rw [List.intercalate_cons_cons, ih]
    simp [spaced]

theorem scans_spaced {words : List (List Char)} {ls : List Lexeme}
    (spell : List.Forall₂ (Spells version) words ls) : Scans version (spaced words) ls := by
  induction spell with
  | nil => exact .nil
  | @cons word l words ls spells _ ih => exact .blank (.word spells (isBreak_spaced words) ih)

theorem kind_ne_comment_of_spells {words : List (List Char)} {ls : List Lexeme}
    (spell : List.Forall₂ (Spells version) words ls) : ∀ l ∈ ls, l.kind ≠ .comment :=
  (scans_spaced spell).kind_ne_comment

/-- Every word of a text with single blanks between its words is a token of its own. -/
theorem lexemes_tokenize {words : List (List Char)} {ls : List Lexeme}
    (spell : List.Forall₂ (Spells version) words ls) :
    (tokenize version tab ([' '].intercalate words)).map Token.lexeme = ls ++ [.endOfStream] := by
  cases spell with
  | nil => exact Scans.nil.lexemes tab (by simp)
  | @cons word l words ls spells rest =>
    rw [intercalate_eq]
    refine (Scans.word spells (isBreak_spaced words) (scans_spaced rest)).lexemes tab ?_
    rw [List.head?_append_of_ne_nil _ (spells.ne_nil .nil)]
    exact spells.unmarked

end

end VisualBasic
