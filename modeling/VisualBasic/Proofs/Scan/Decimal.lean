import VisualBasic.Proofs.Scan.Numeral

/-!
Decimal literals.  Their value is the quantity that is written, rounded down at the finest scale that
there is room for.  A literal is refused when that quantity is too large, and also when its digits or
its exponent alone are too large to be held while they are read.
-/

set_option autoImplicit false

namespace VisualBasic

/-- The suffix that makes a numeral a decimal literal. -/
def decimalSuffix? (c : Char) : Option TypeCharacter :=
  match plainUpper c with
  | '@' => some .decimalSymbol
  | 'D' => some .decimalChar
  | _ => none

/-- What a decimal literal is. -/
def Lexeme.IsDecimal (w : WrittenNumeral) (suffix : TypeCharacter) (l : Lexeme) : Prop :=
  if w.digits < 2 ^ 128 ∧ (-2 ^ 31 ≤ w.power ∧ w.power < 2 ^ 31) ∧ ⌊w.value⌋₊ ≤ 2 ^ 96 - 1
  then ∃ d, DecimalValue.RoundsDown w.value (DecimalValue.finestScale (w.places - w.power)) d ∧
    l = .literal (.decimal d (some suffix))
  else l = .fault .invalidDecimalLiteral

namespace Scan

variable {w : WrittenNumeral} {c : Char} {t : TypeCharacter} {version : Version} {rest : List Char}

theorem decimalSuffix?_cases (suffix : decimalSuffix? c = some t) :
    t = .decimalSymbol ∧ halfWidth c = '@' ∨
      t = .decimalChar ∧ (halfWidth c = 'D' ∨ halfWidth c = 'd') := by
  have upper : (plainUpper c = '@' → halfWidth c = '@') ∧
      (plainUpper c = 'D' → halfWidth c = 'D' ∨ halfWidth c = 'd') := by
    refine toUpper_cases (P := fun c => (c.toUpper = '@' → c = '@') ∧
      (c.toUpper = 'D' → c = 'D' ∨ c = 'd')) (fun c same => ?_) (by decide) (halfWidth c)
    rw [same]
    exact ⟨id, .inl⟩
  unfold decimalSuffix? at suffix
  split at suffix
  next mark => exact .inl ⟨(Option.some.inj suffix).symm, upper.1 mark⟩
  next mark => exact .inr ⟨(Option.some.inj suffix).symm, upper.2 mark⟩
  next => contradiction

/-- The suffix is no part of the numeral before it. -/
theorem stopsNumeral_suffix (suffix : decimalSuffix? c = some t) : StopsNumeral (c :: rest) := by
  intro d same
  obtain rfl : c = d := Option.some.inj same
  rw [isDecimalDigit]
  rcases decimalSuffix?_cases suffix with ⟨-, same⟩ | ⟨-, same | same⟩
  all_goals
    rw [same]
    decide

/-- A letter is no suffix where it starts a longer word. -/
theorem numberSuffix?_decimal (suffix : decimalSuffix? c = some t) :
    numberSuffix? version false (c :: rest) =
      if t = .decimalChar ∧ rest.head?.any isIdentifierPart then none else some (t, 1) := by
  rcases decimalSuffix?_cases suffix with ⟨rfl, same⟩ | ⟨rfl, same | same⟩
  · have symbol : symbolSuffix? false .decimalSymbol rest = true := rfl
    rw [numberSuffix?_symbol (by rw [same]; rfl), if_pos symbol, if_neg (by simp)]
  all_goals
    have letter : letterSuffix? version false (halfWidth c) (rest.head?.map halfWidth) =
        some (.decimalChar, 1) := by rw [same]; rfl
    rw [numberSuffix?_letters (by rw [same]; rfl), letter, Option.filter_some, Nat.sub_self,
      List.drop_zero]
    cases rest.head?.any isIdentifierPart <;> rfl

theorem numeralLexeme_decimal (suffix : decimalSuffix? c = some t) (n : Numeral) :
    numeralLexeme n (some t) = decimalLexeme n (some t) := by
  rcases decimalSuffix?_cases suffix with ⟨rfl, -⟩ | ⟨rfl, -⟩ <;> rfl

theorem decimalNumber_decimal (suffix : decimalSuffix? c = some t)
    (stops : (decimalNumber version (w.chars ++ c :: rest)).length = w.chars.length + 1 ∨
      IsBreak rest) :
    decimalNumber version (w.chars ++ c :: rest) =
      ⟨decimalLexeme w.numeral (some t), w.chars.length + 1⟩ := by
  simp only [decimalNumber, w.readNumeral_append (stopsNumeral_suffix suffix), List.drop_left,
    numberSuffix?_decimal suffix] at stops ⊢
  have alone : ¬ (t = .decimalChar ∧ rest.head?.any isIdentifierPart = true) := by
    rintro ⟨letter, goesOn⟩
    rcases stops with length | ends
    · simp [letter, goesOn] at length
    · rw [ends.head isIdentifierPart_blank] at goesOn
      contradiction
  rw [if_neg alone, Option.map_some, Option.elim_some, numeralLexeme_decimal suffix]

/-- A numeral starts with a digit. -/
theorem front_written (w : WrittenNumeral) (rest : List Char) :
    ∃ d more, w.chars ++ rest = d :: more ∧ (halfWidth d).isDigit = true := by
  obtain ⟨d, more, front⟩ := List.exists_cons_of_ne_nil w.whole.nonempty
  refine ⟨d, _, by rw [WrittenNumeral.chars, front]; rfl, ?_⟩
  exact w.whole.isDecimalDigit_of_mem (by simp [front])

theorem recognize_written (w : WrittenNumeral) (rest : List Char) :
    recognize version (w.chars ++ rest) = decimalNumber version (w.chars ++ rest) := by
  obtain ⟨d, more, front, digit⟩ := front_written w rest
  have start : startOf d more.head? = .decimalNumber := by
    rw [← startOf_map]
    exact startOf_digit _ digit
  rw [front]
  simp only [recognize, start]

end Scan

section

variable {w : WrittenNumeral} {c : Char} {t : TypeCharacter}

theorem decimalLexeme_isProper (n : Numeral) (suffix : Option TypeCharacter) :
    (Scan.decimalLexeme n suffix).kind ≠ .endOfStream ∧
      (Scan.decimalLexeme n suffix).kind ≠ .comment := by
  unfold Scan.decimalLexeme
  split <;> simp [Lexeme.kind, Literal.tokenKind]

/-- A decimal literal is a token by itself. -/
theorem spells_decimal (version : Version) (w : WrittenNumeral) (suffix : decimalSuffix? c = some t) :
    Spells version (w.chars ++ [c]) (Scan.decimalLexeme w.numeral (some t)) := by
  have visible (rest : List Char) : ∃ d more, w.chars ++ [c] ++ rest = d :: more ∧
      isBlank d = false ∧ halfWidth d ≠ '_' ∧ d ≠ Reader.byteOrderMark := by
    obtain ⟨d, more, front, digit⟩ := Scan.front_written w ([c] ++ rest)
    obtain ⟨solid, apart, other⟩ := of_decimalDigits (P := fun d => isBlank d = false ∧ d ≠ '_' ∧
      d ≠ halfWidth Reader.byteOrderMark) (by decide) digit
    rw [isBlank_halfWidth] at solid
    exact ⟨d, more, by rw [List.append_assoc, front], solid, apart, fun mark => other (by rw [mark])⟩
  constructor
  case found =>
    intro rest ends
    rw [List.append_assoc, Scan.recognize_written, List.singleton_append,
      Scan.decimalNumber_decimal suffix (.inr ends), List.length_append, List.length_singleton]
  case starts =>
    intro rest ends
    obtain ⟨d, more, front, solid, apart, -⟩ := visible rest
    rw [front]
    exact triviaLength_eq_zero solid fun underscore => absurd underscore apart
  case unmarked =>
    obtain ⟨d, more, front, -, -, other⟩ := visible []
    rw [List.append_nil] at front
    rw [front]
    simpa using other
  case proper => exact decimalLexeme_isProper _ _

theorem isDecimal_decimalLexeme (w : WrittenNumeral) (t : TypeCharacter) :
    (Scan.decimalLexeme w.numeral (some t)).IsDecimal w t := by
  have power : -w.numeral.power = w.places - w.power := by
    rw [w.power_numeral]
    omega
  have held := w.inWord_numeral
  have quantity := w.quantity_numeral
  unfold Scan.decimalLexeme
  cases value : DecimalValue.ofNumeral? w.numeral with
  | some d =>
    obtain ⟨word, rounds⟩ := DecimalValue.ofNumeral?_eq_some_iff.1 value
    have room := rounds.floor_le (DecimalValue.quantity_nonneg _)
    rw [quantity] at room rounds
    rw [power] at rounds
    obtain ⟨digits, exponent⟩ := held.1 word
    rw [Lexeme.IsDecimal, if_pos ⟨digits, exponent, room⟩]
    exact ⟨d, rounds, rfl⟩
  | none =>
    have large := DecimalValue.ofNumeral?_eq_none_iff.1 value
    rw [quantity, held] at large
    rw [Lexeme.IsDecimal, if_neg]
    rintro ⟨digits, exponent, room⟩
    exact absurd room (Nat.not_le.2 (large ⟨digits, exponent⟩))

/-- The value of a numeral is the quantity rounded down at the greatest scale for which the mantissa
fits, and there is none just when the quantity itself does not fit, as long as the digits and the
exponent can be held. -/
theorem decimals_round_down (w : WrittenNumeral) :
    (∀ d, DecimalValue.ofNumeral? (Scan.readNumeral w.chars).1 = some d →
      d.mantissa ≤ 2 ^ 96 - 1 ∧ d.scale ≤ 28 ∧ d.mantissa = ⌊w.value * 10 ^ d.scale⌋₊ ∧
      IsGreatest {s : ℕ | (s : ℤ) ≤ min 28 (max 0 (w.places - w.power)) ∧
        ⌊w.value * 10 ^ s⌋₊ ≤ 2 ^ 96 - 1} d.scale) ∧
    (w.digits < 2 ^ 128 → -2 ^ 31 ≤ w.power → w.power < 2 ^ 31 →
      (DecimalValue.ofNumeral? (Scan.readNumeral w.chars).1 = none ↔
        2 ^ 96 - 1 < ⌊w.value⌋₊)) := by
  have read : (Scan.readNumeral w.chars).1 = w.numeral := by
    have read := w.readNumeral_append StopsNumeral.nil
    rw [List.append_nil] at read
    rw [read]
  have power : -w.numeral.power = w.places - w.power := by
    rw [w.power_numeral]
    omega
  have scales (s : ℕ) : (s : ℤ) ≤ min 28 (max 0 (w.places - w.power)) ↔
      s ≤ DecimalValue.finestScale (w.places - w.power) := by
    rw [DecimalValue.finestScale]
    omega
  rw [read]
  constructor
  · intro d value
    obtain ⟨-, fits, floor, within, greatest⟩ := DecimalValue.ofNumeral?_eq_some_iff.1 value
    rw [w.quantity_numeral] at floor greatest
    rw [power] at within greatest
    have least := (scales d.scale).2 within
    refine ⟨fits, by omega, floor, ⟨least, floor ▸ fits⟩, fun s bound => ?_⟩
    exact greatest s ((scales s).1 bound.1) bound.2
  · intro digits low high
    rw [DecimalValue.ofNumeral?_eq_none_iff, w.inWord_numeral, w.quantity_numeral]
    exact forall_prop_of_true ⟨digits, low, high⟩

/-- A decimal literal has the value of its numeral, or none if the quantity does not fit or the digits
or the exponent cannot be held: standing alone, and wherever a token of a text is spelled so. -/
theorem decimal_literals_round_down (suffix : decimalSuffix? c = some t) (version : Version)
    (tab : Nat) :
    (∃ l, (tokenize version tab (w.chars ++ [c])).map Token.lexeme = [l, .endOfStream] ∧
      l.IsDecimal w t) ∧
    ∀ text, ∀ token ∈ tokenize version tab text, token.span.slice text = w.chars ++ [c] →
      token.lexeme.IsDecimal w t := by
  constructor
  · have alone := lexemes_tokenize tab (.cons (spells_decimal version w suffix) .nil)
    rw [List.intercalate_singleton] at alone
    exact ⟨_, alone, isDecimal_decimalLexeme w t⟩
  · intro text token member spelled
    obtain ⟨cs, lexeme, slice, fits⟩ := Reader.recognized_of_mem tab _ (Reader.Reads.ofText tab text)
      token (by rwa [tokenize] at member)
    rw [slice] at spelled
    have front : cs = w.chars ++ c :: cs.drop (Scan.recognize version cs).length := by
      rw [List.append_cons, ← spelled, List.take_append_drop]
    have length := congrArg List.length spelled
    rw [List.length_take, Nat.min_eq_left fits, List.length_append, List.length_singleton] at length
    have found : Scan.recognize version cs =
        ⟨Scan.decimalLexeme w.numeral (some t), w.chars.length + 1⟩ := by
      rw [front, Scan.recognize_written]
      refine Scan.decimalNumber_decimal suffix (.inl ?_)
      rw [← Scan.recognize_written, ← front, length]
    rw [lexeme, found]
    exact isDecimal_decimalLexeme w t

/-- Fifteen units of a place that is one too fine. -/
def fineDecimal : WrittenNumeral where
  whole := ⟨['1'], by decide, by decide⟩
  fraction := some ⟨'.', ⟨['５'], by decide, by decide⟩, by decide⟩
  exponent := some ⟨'e', some '-', ⟨['2', '8'], by decide, by decide⟩, by decide, by decide⟩

theorem fine_decimal_is_cut :
    (tokenize .v71 4 ['1', '.', '５', 'e', '-', '2', '8', '@']).map Token.lexeme =
      [.literal (.decimal ⟨1, 28⟩ (some .decimalSymbol)), .endOfStream] := by
  have suffix : decimalSuffix? '@' = some .decimalSymbol := by decide
  obtain ⟨⟨l, alone, isDecimal⟩, -⟩ := decimal_literals_round_down (w := fineDecimal) suffix .v71 4
  have power : fineDecimal.power = -28 := by decide +kernel
  have value : fineDecimal.value = 15 * 10 ^ (-29 : ℤ) := by
    have whole : fineDecimal.whole.number = 1 := by decide +kernel
    have fraction : (fineDecimal.fraction.elim 0 fun f => (f.run.number : ℚ) /
        10 ^ f.run.chars.length) = 5 / 10 := by
      have number : ofDigits 10 (['５'].filterMap (digitValue? 10)) = 5 := by decide +kernel
      simp [fineDecimal, DigitRun.number, DigitRun.values, number]
    rw [WrittenNumeral.value, power, whole, fraction]
    norm_num
  have digits : fineDecimal.digits = 15 := by decide +kernel
  have finest : DecimalValue.finestScale (fineDecimal.places - fineDecimal.power) = 28 := by
    decide +kernel
  rw [Lexeme.IsDecimal, finest, value, power, digits, if_pos (by norm_num)] at isDecimal
  obtain ⟨d, rounds, rfl⟩ := isDecimal
  have cut : DecimalValue.RoundsDown (15 * 10 ^ (-29 : ℤ)) 28 ⟨1, 28⟩ :=
    ⟨by norm_num, by norm_num, Nat.le_refl _, fun s least _ => least⟩
  rw [cut.unique rounds]
  exact alone

def manyZeros : DigitRun := ⟨List.replicate 39 '0', by decide, by decide⟩

/-- One, with more zeros behind the point than a word has digits. -/
def longOne : WrittenNumeral where
  whole := ⟨['1'], by decide, by decide⟩
  fraction := some ⟨'.', manyZeros, by decide⟩
  exponent := none

/-- A small quantity with too many digits has no value. -/
theorem long_one_is_refused : ⌊longOne.value⌋₊ ≤ 2 ^ 96 - 1 ∧
    (tokenize .v80 4 (longOne.chars ++ ['D'])).map Token.lexeme =
      [.fault .invalidDecimalLiteral, .endOfStream] := by
  have one : longOne.value = 1 := by
    have whole : longOne.whole.number = 1 := by decide +kernel
    have zero : manyZeros.number = 0 := by decide +kernel
    rw [WrittenNumeral.value, whole]
    simp [longOne, WrittenNumeral.power, zero]
  have digits : ¬ longOne.digits < 2 ^ 128 := by decide +kernel
  have refused := isDecimal_decimalLexeme longOne .decimalChar
  rw [Lexeme.IsDecimal, if_neg fun held => digits held.1] at refused
  have alone := lexemes_tokenize 4
    (.cons (spells_decimal .v80 longOne (c := 'D') (t := .decimalChar) (by decide)) .nil)
  rw [List.intercalate_singleton, refused] at alone
  exact ⟨by simp [one], alone⟩

-- Printing

end

namespace DecimalValue

/-- The digits of the mantissa, one of them before the point. -/
def printedDigits (d : DecimalValue) : List Char := zeroPadded (d.scale + 1) d.mantissa

variable (d : DecimalValue)

theorem scale_lt_length : d.scale < d.printedDigits.length :=
  width_le_length_zeroPadded (d.scale + 1) d.mantissa

/-- Some of the digits that are printed. -/
def printedRun (run : List Char) (nonempty : run ≠ []) (printed : ∀ c ∈ run, c ∈ d.printedDigits) :
    DigitRun where
  chars := run
  nonempty := nonempty
  digits := List.all_eq_true.2 fun c member =>
    isDecimalDigit_of_isDigit (isDigit_zeroPadded c (printed c member))

/-- A value as it is printed. -/
def written : WrittenNumeral where
  whole := d.printedRun (d.printedDigits.take (d.printedDigits.length - d.scale))
    (by
      have few := d.scale_lt_length
      rw [← List.length_pos_iff, List.length_take]
      omega)
    fun _ => List.mem_of_mem_take
  fraction :=
    if whole : d.scale = 0 then none
    else some ⟨'.', d.printedRun (d.printedDigits.drop (d.printedDigits.length - d.scale))
      (by
        have few := d.scale_lt_length
        rw [← List.length_pos_iff, List.length_drop]
        omega)
      fun _ => List.mem_of_mem_drop, by decide⟩
  exponent := none

theorem chars_written : d.written.chars = d.render.toList := by
  have some : 0 < (Nat.toDigits 10 d.mantissa).length := List.length_pos_iff.2 Nat.toDigits_ne_nil
  rw [WrittenNumeral.chars, render]
  by_cases whole : d.scale = 0
  · have alone : d.printedDigits = Nat.toDigits 10 d.mantissa := by
      rw [printedDigits, zeroPadded, whole, Nat.sub_eq_zero_of_le some]
      rfl
    simp [written, printedRun, whole, alone]
  · rw [if_neg whole, String.toList_ofList]
    simp [written, printedRun, whole, WrittenFraction.chars, printedDigits, zeroPadded]

theorem places_written : d.written.places = d.scale := by
  have few := d.scale_lt_length
  unfold WrittenNumeral.places written
  by_cases whole : d.scale = 0
  · simp [whole]
  · simp only [whole, dite_false, Option.elim_some, printedRun, List.length_drop]
    omega

theorem digits_written : d.written.digits = d.mantissa := by
  have all : d.written.whole.chars ++ d.written.fraction.elim [] (·.run.chars) =
      d.printedDigits := by
    unfold written
    by_cases whole : d.scale = 0 <;> simp [printedRun, whole]
  rw [WrittenNumeral.digits, all]
  exact ofDigits_zeroPadded _ _

/-- A value that is printed is read again. -/
theorem ofNumeral?_written {d : DecimalValue} (mantissa : d.mantissa ≤ 2 ^ 96 - 1)
    (scale : d.scale ≤ 28) : ofNumeral? d.written.numeral = some d := by
  have none : d.written.power = 0 := rfl
  have held : InWord d.written.numeral := by
    rw [WrittenNumeral.inWord_numeral, digits_written, none]
    exact ⟨Nat.lt_of_le_of_lt mantissa mantissa_lt_word, by decide, by decide⟩
  rw [ofNumeral?_of_inWord held, WrittenNumeral.significand_numeral, WrittenNumeral.power_numeral,
    digits_written, places_written, none, Int.zero_sub, Int.neg_neg]
  exact ofScaled?_of_fits mantissa scale

/-- What is printed for a value is a numeral with that value, scale included, and a token with that
value when the suffix follows. -/
theorem printed_decimals_are_read {d : DecimalValue} (mantissa : d.mantissa ≤ 2 ^ 96 - 1)
    (scale : d.scale ≤ 28) (o : ScanOptions) :
    Scan.readNumeral d.render.toList = (d.written.numeral, d.render.toList.length) ∧
    ofNumeral? (Scan.readNumeral d.render.toList).1 = some d ∧
    (o.tokenize (d.render ++ "D")).map Token.lexeme =
      [.literal (.decimal d (some .decimalChar)), .endOfStream] := by
  have value := ofNumeral?_written mantissa scale
  have read := d.written.readNumeral_append StopsNumeral.nil
  rw [List.append_nil, chars_written] at read
  refine ⟨read, by rw [read, value], ?_⟩
  have suffix : decimalSuffix? 'D' = some .decimalChar := by decide
  have alone := lexemes_tokenize o.effectiveTab
    (.cons (spells_decimal o.version d.written suffix) .nil)
  have text : (d.render ++ "D").toList = d.written.chars ++ ['D'] := by
    rw [String.toList_append, chars_written]
    rfl
  have lexeme : Scan.decimalLexeme d.written.numeral (some .decimalChar) =
      .literal (.decimal d (some .decimalChar)) := by
    rw [Scan.decimalLexeme, value]
  rw [List.intercalate_singleton, lexeme] at alone
  rw [ScanOptions.tokenize, text]
  exact alone

/-- A zero keeps its scale. -/
theorem printed_zero_is_read : (⟨0, 3⟩ : DecimalValue).render = "0.000" ∧
    (ScanOptions.standard.tokenize "0.000D").map Token.lexeme =
      [.literal (.decimal ⟨0, 3⟩ (some .decimalChar)), .endOfStream] := by
  have printed : (⟨0, 3⟩ : DecimalValue).render = "0.000" := by decide +kernel
  obtain ⟨-, -, alone⟩ := printed_decimals_are_read (d := ⟨0, 3⟩) (by decide) (by decide) .standard
  rw [printed] at alone
  exact ⟨printed, alone⟩

end DecimalValue

end VisualBasic
