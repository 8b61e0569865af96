import Mathlib.Data.Int.ModEq
import VisualBasic.Proofs.Scan.Narrow
import VisualBasic.Proofs.Scan.Resume

/-!
The values of integer literals.  A literal is spelled by a mark for its base, digits of any number and
a suffix, each in any width and case.  What the digits denote decides alone, against the type that the
suffix names, whether the literal has a value and which.
-/

set_option autoImplicit false

namespace VisualBasic

-- Values

/-- The greatest value of a decimal literal with the suffix. -/
def decimalLimit : Option TypeCharacter → Nat
  | some .shortChar => 2 ^ 15 - 1
  | some .integerSymbol | some .integerChar => 2 ^ 31 - 1
  | some .unsignedShortChar => 2 ^ 16 - 1
  | some .unsignedIntegerChar => 2 ^ 32 - 1
  | some .unsignedLongChar => 2 ^ 64 - 1
  | _ => 2 ^ 63 - 1

/-- The bits of a literal in another base with the suffix, when its digits denote the number. -/
def patternWidth (suffix : Option TypeCharacter) (n : Nat) : Nat :=
  match suffix with
  | some .shortChar | some .unsignedShortChar => 16
  | some .integerSymbol | some .integerChar | some .unsignedIntegerChar => 32
  | some _ => 64
  | none => if n < 2 ^ 32 then 32 else 64

/-- The value is the number that the bits denote in two's complement. -/
def Represents (bits n : Nat) (value : Int) : Prop :=
  -2 ^ (bits - 1) ≤ value ∧ value < 2 ^ (bits - 1) ∧ value ≡ n [ZMOD 2 ^ bits]

/-- What a decimal literal is whose digits denote the number. -/
def Lexeme.IsDecimalInteger (suffix : Option TypeCharacter) (n : Nat) (l : Lexeme) : Prop :=
  if decimalLimit suffix < n then l = .fault .invalidIntegerLiteral
  else if suffix.any TypeCharacter.isUnsigned
  then l = .literal (.integer (.unsigned n) .decimal suffix)
  else l = .literal (.integer (.signed n) .decimal suffix)

/-- What a literal in another base is whose digits denote the number. -/
def Lexeme.IsPattern (base : IntegerBase) (suffix : Option TypeCharacter) (n : Nat) (l : Lexeme) :
    Prop :=
  if 2 ^ patternWidth suffix n ≤ n then l = .fault .invalidIntegerLiteral
  else if suffix.any TypeCharacter.isUnsigned
  then l = .literal (.integer (.unsigned n) base suffix)
  else ∃ value, (∀ other, Represents (patternWidth suffix n) n other ↔ other = value) ∧
    l = .literal (.integer (.signed value) base suffix)

def Lexeme.IsInteger (base : IntegerBase) (suffix : Option TypeCharacter) (n : Nat) (l : Lexeme) :
    Prop :=
  match base with
  | .decimal => l.IsDecimalInteger suffix n
  | base => l.IsPattern base suffix n

/-- There is one value for every pattern of bits. -/
theorem represents_iff {bits n : Nat} (positive : 0 < bits) (value : Int) :
    Represents bits n value ↔ value = Int.bmod n (2 ^ bits) := by
  obtain ⟨half, rfl⟩ : ∃ half, bits = half + 1 := ⟨bits - 1, by omega⟩
  have double : ((2 ^ (half + 1) : Nat) : Int) = 2 * 2 ^ half := by
    push_cast
    ring
  rw [eq_comm, Int.bmod_eq_iff (Nat.pow_pos (by decide)), ← Int.modEq_iff_dvd, double, Represents,
    Nat.add_sub_cancel, pow_succ', Int.modEq_comm]
  generalize (2 : Int) ^ half = size
  rw [show 2 * size / 2 = size by omega, show (2 * size + 1) / 2 = size by omega]

-- The suffixes

section

variable {base : IntegerBase} {suffix : Option TypeCharacter} {n bits : Nat}

/-- The lexeme of a value that has been found. -/
def Lexeme.ofValue? (base : IntegerBase) (suffix : Option TypeCharacter)
    (value? : Option IntegerValue) : Lexeme :=
  value?.elim (.fault .invalidIntegerLiteral) fun value => .literal (.integer value base suffix)

theorem isInteger_unsigned (unsigned : suffix.any TypeCharacter.isUnsigned = true)
    (limit : decimalLimit suffix = 2 ^ bits - 1) (width : patternWidth suffix n = bits) :
    (Lexeme.ofValue? base suffix (IntegerValue.ofUnsigned? bits n)).IsInteger base suffix n := by
  have positive : 0 < 2 ^ bits := Nat.pow_pos (by decide)
  by_cases fits : n < 2 ^ bits
  · have found : IntegerValue.ofUnsigned? bits n = some (.unsigned n) := if_pos fits
    have inLimit : ¬ decimalLimit suffix < n := by omega
    have inWidth : ¬ 2 ^ patternWidth suffix n ≤ n := by rw [width]; omega
    cases base <;> simp [Lexeme.IsInteger, Lexeme.IsDecimalInteger, Lexeme.IsPattern, inLimit,
      inWidth, unsigned, found, Lexeme.ofValue?]
  · have none : IntegerValue.ofUnsigned? bits n = none := if_neg fits
    have beyondLimit : decimalLimit suffix < n := by omega
    have beyondWidth : 2 ^ patternWidth suffix n ≤ n := by rw [width]; omega
    cases base <;> simp [Lexeme.IsInteger, Lexeme.IsDecimalInteger, Lexeme.IsPattern, beyondLimit,
      beyondWidth, none, Lexeme.ofValue?]

theorem isDecimalInteger_signed (signed : suffix.any TypeCharacter.isUnsigned = false)
    (limit : decimalLimit suffix = 2 ^ (bits - 1) - 1) :
    (Lexeme.ofValue? .decimal suffix (IntegerValue.ofSigned? bits .decimal n)).IsDecimalInteger
      suffix n := by
  have positive : 0 < 2 ^ (bits - 1) := Nat.pow_pos (by decide)
  by_cases fits : n < 2 ^ (bits - 1)
  · have found : IntegerValue.ofSigned? bits .decimal n = some (.signed n) := if_pos fits
    have inLimit : ¬ decimalLimit suffix < n := by omega
    simp [Lexeme.IsDecimalInteger, inLimit, signed, found, Lexeme.ofValue?]
  · have none : IntegerValue.ofSigned? bits .decimal n = none := if_neg fits
    have beyond : decimalLimit suffix < n := by omega
    simp [Lexeme.IsDecimalInteger, beyond, none, Lexeme.ofValue?]

theorem isPattern_signed (signed : suffix.any TypeCharacter.isUnsigned = false)
    (positive : 0 < bits) (width : patternWidth suffix n = bits) (other : base ≠ .decimal) :
    (Lexeme.ofValue? base suffix (IntegerValue.ofSigned? bits base n)).IsPattern base suffix n := by
  have pattern : IntegerValue.ofSigned? bits base n =
      if n < 2 ^ bits then some (.signed (Int.bmod n (2 ^ bits))) else none := by
    cases base <;> first | contradiction | rfl
  by_cases fits : n < 2 ^ bits
  · rw [if_pos fits] at pattern
    have inWidth : ¬ 2 ^ patternWidth suffix n ≤ n := by rw [width]; omega
    unfold Lexeme.IsPattern
    rw [if_neg inWidth, signed, if_neg (by decide), pattern, width]
    exact ⟨_, represents_iff positive, rfl⟩
  · rw [if_neg fits] at pattern
    have beyond : 2 ^ patternWidth suffix n ≤ n := by rw [width]; omega
    simp [Lexeme.IsPattern, beyond, pattern, Lexeme.ofValue?]

theorem isInteger_signed (signed : suffix.any TypeCharacter.isUnsigned = false)
    (positive : 0 < bits) (limit : base = .decimal → decimalLimit suffix = 2 ^ (bits - 1) - 1)
    (width : base ≠ .decimal → patternWidth suffix n = bits) :
    (Lexeme.ofValue? base suffix (IntegerValue.ofSigned? bits base n)).IsInteger base suffix n := by
  cases base with
  | decimal => exact isDecimalInteger_signed signed (limit rfl)
  | octal => exact isPattern_signed signed positive (width (by simp)) (by simp)
  | hexadecimal => exact isPattern_signed signed positive (width (by simp)) (by simp)

theorem isInteger_ofLiteral? (integral : ∀ t ∈ suffix, t.isIntegral = true) :
    (Lexeme.ofValue? base suffix (IntegerValue.ofLiteral? n base suffix)).IsInteger base suffix n := by
  cases suffix with
  | none =>
    unfold IntegerValue.ofLiteral?
    by_cases short : base ≠ .decimal ∧ n < Nat.pow 2 32
    · have width : patternWidth none n = 32 := if_pos short.2
      rw [if_pos short]
      exact isInteger_signed rfl (by decide) (fun decimal => absurd decimal short.1) fun _ => width
    · rw [if_neg short]
      refine isInteger_signed rfl (by decide) (fun _ => rfl) fun other => if_neg fun fits => ?_
      exact short ⟨other, fits⟩
  | some t =>
    have integral := integral t rfl
    cases t with
    | unsignedShortChar | unsignedIntegerChar | unsignedLongChar =>
      exact isInteger_unsigned rfl rfl rfl
    | shortChar | integerSymbol | integerChar | longSymbol | longChar =>
      exact isInteger_signed rfl (by decide) (fun _ => rfl) fun _ => rfl
    | _ => simp [TypeCharacter.isIntegral] at integral

/-- No value is found for a number of more than 64 bits. -/
theorem ofLiteral?_of_large (large : 2 ^ 64 ≤ n) : IntegerValue.ofLiteral? n base suffix = none := by
  have beyond (bits : Nat) (narrow : bits ≤ 64) : ¬ n < Nat.pow 2 bits :=
    Nat.not_lt.2 (Nat.le_trans (Nat.pow_le_pow_right (by decide) narrow) large)
  have unsigned (bits : Nat) (narrow : bits ≤ 64) : IntegerValue.ofUnsigned? bits n = none :=
    if_neg (beyond bits narrow)
  have signed (bits : Nat) (narrow : bits ≤ 64) : IntegerValue.ofSigned? bits base n = none := by
    cases base with
    | decimal => exact if_neg (beyond (bits - 1) (by omega))
    | octal | hexadecimal => exact if_neg (beyond bits narrow)
  unfold IntegerValue.ofLiteral?
  split
  all_goals first
    | exact unsigned _ (by decide)
    | exact signed _ (by decide)
    | rw [if_neg fun short => beyond 32 (by decide) short.2]; exact signed 64 (by decide)

end

theorem isInteger_integerLexeme (digits : List Nat) {base : IntegerBase}
    {suffix : Option TypeCharacter} (integral : ∀ t ∈ suffix, t.isIntegral = true) :
    (Scan.integerLexeme digits base suffix).IsInteger base suffix (ofDigits base.radix digits) := by
  have taken : (Scan.accumulate? base.radix digits).bind
      (fun n => IntegerValue.ofLiteral? n base suffix) =
        IntegerValue.ofLiteral? (ofDigits base.radix digits) base suffix := by
    rw [accumulate?_eq (by cases base <;> decide)]
    by_cases fits : ofDigits base.radix digits < 2 ^ 64
    · rw [if_pos fits, Option.bind_some]
    · rw [if_neg fits, Option.bind_none, ofLiteral?_of_large (Nat.le_of_not_lt fits)]
  have lexeme : Scan.integerLexeme digits base suffix =
      Lexeme.ofValue? base suffix (IntegerValue.ofLiteral? (ofDigits base.radix digits) base suffix) := by
    unfold Scan.integerLexeme
    rw [taken]
    cases IntegerValue.ofLiteral? (ofDigits base.radix digits) base suffix <;> rfl
  rw [lexeme]
  exact isInteger_ofLiteral? integral

-- Spellings

/-- The character without its width and case. -/
def plainUpper (c : Char) : Char := (halfWidth c).toUpper

/-- What stands before the digits. -/
def baseMarks : IntegerBase → List (List Char)
  | .decimal => [[]]
  | .octal => [['&', 'O'], ['&']]
  | .hexadecimal => [['&', 'H']]

/-- What stands behind the digits. -/
def suffixSpelling : Option TypeCharacter → List Char
  | some .integerSymbol => ['%']
  | some .longSymbol => ['&']
  | some .shortChar => ['S']
  | some .integerChar => ['I']
  | some .longChar => ['L']
  | some .unsignedShortChar => ['U', 'S']
  | some .unsignedIntegerChar => ['U', 'I']
  | some .unsignedLongChar => ['U', 'L']
  | _ => []

/-- The characters are a literal of the base with an integral suffix or none. -/
structure SpellsInteger (base : IntegerBase) (suffix : Option TypeCharacter)
    (mark digits tail : List Char) : Prop where
  mark : mark.map plainUpper ∈ baseMarks base
  nonempty : digits ≠ []
  digits : ∀ c ∈ digits, (digitValue? base.radix c).isSome = true
  tail : tail.map plainUpper = suffixSpelling suffix
  integral : ∀ t ∈ suffix, t.isIntegral = true

/-- The number that the digits denote. -/
def numberOf (base : IntegerBase) (digits : List Char) : Nat :=
  ofDigits base.radix (digits.filterMap (digitValue? base.radix))

/-- A character is its own upper case, or one of the small letters of ASCII. -/
theorem toUpper_cases {P : Char → Prop} (upper : ∀ c : Char, c.toUpper = c → P c)
    (lower : ∀ n : Fin 26, P (Char.ofNat (97 + n))) (c : Char) : P c := by
  by_cases small : 97 ≤ c.toNat ∧ c.toNat ≤ 122
  · have letter := lower ⟨c.toNat - 97, by omega⟩
    rwa [show 97 + (c.toNat - 97) = c.toNat by omega, Char.ofNat_toNat] at letter
  · apply upper
    unfold Char.toUpper
    split
    next range => exact absurd ⟨range.1, range.2⟩ small
    next => rfl

theorem digitValue?_plainUpper (base : IntegerBase) (c : Char) :
    digitValue? base.radix (plainUpper c) = digitValue? base.radix c := by
  rw [← digitValue?_halfWidth base.radix c]
  refine toUpper_cases (P := fun c => digitValue? base.radix c.toUpper = digitValue? base.radix c)
    (fun c same => by rw [same]) ?_ (halfWidth c)
  cases base <;> decide

theorem ofSymbol?_plainUpper (c : Char) :
    TypeCharacter.ofSymbol? (plainUpper c) = TypeCharacter.ofSymbol? (halfWidth c) := by
  refine toUpper_cases (P := fun c => TypeCharacter.ofSymbol? c.toUpper = TypeCharacter.ofSymbol? c)
    (fun c same => by rw [same]) ?_ (halfWidth c)
  decide

theorem baseLetter_cases {c : Char} :
    (plainUpper c = 'H' → halfWidth c = 'h' ∨ halfWidth c = 'H') ∧
      (plainUpper c = 'O' → halfWidth c = 'o' ∨ halfWidth c = 'O') := by
  refine toUpper_cases (P := fun c => (c.toUpper = 'H' → c = 'h' ∨ c = 'H') ∧
    (c.toUpper = 'O' → c = 'o' ∨ c = 'O')) (fun c same => ?_) (by decide) (halfWidth c)
  rw [same]
  exact ⟨.inr, .inr⟩

namespace Scan

variable {suffix : Option TypeCharacter} {t : TypeCharacter} {tail rest : List Char}

theorem numberSuffix?_sign {c d : Char} {integralOnly : Bool} (upper : plainUpper c = d)
    (symbol : TypeCharacter.ofSymbol? d = some t) (accepted : symbolSuffix? integralOnly t rest = true) :
    numberSuffix? .v80 integralOnly (c :: rest) = some (t, 1) := by
  rw [numberSuffix?_symbol (by rw [← ofSymbol?_plainUpper, upper, symbol]), if_pos accepted]

theorem numberSuffix?_word {c d : Char} {more : List Char} {letters : Nat} {integralOnly : Bool}
    (upper : plainUpper c = d) (letter : TypeCharacter.ofSymbol? d = none)
    (found : letterSuffix? .v80 integralOnly (halfWidth c) (more.head?.map halfWidth)
      = some (t, letters)) :
    numberSuffix? .v80 integralOnly (c :: more) =
      if (more.drop (letters - 1)).head?.any isIdentifierPart then none else some (t, letters) := by
  rw [numberSuffix?_letters (by rw [← ofSymbol?_plainUpper, upper, letter]), found, Option.filter_some]
  cases (more.drop (letters - 1)).head?.any isIdentifierPart <;> rfl

/-- A suffix is found, unless it consists of letters that run on. -/
theorem numberSuffix?_spelled (integralOnly : Bool) (integral : t.isIntegral = true)
    (spelled : tail.map plainUpper = suffixSpelling (some t)) (rest : List Char) :
    numberSuffix? .v80 integralOnly (tail ++ rest) =
      if !t.isSymbol && rest.head?.any isIdentifierPart then none else some (t, tail.length) := by
  cases t with
  | integerSymbol | longSymbol =>
    obtain ⟨c, rfl, upper⟩ := List.map_eq_singleton_iff.1 spelled
    exact numberSuffix?_sign upper rfl rfl
  | shortChar | integerChar | longChar =>
    obtain ⟨c, rfl, upper⟩ := List.map_eq_singleton_iff.1 spelled
    have first : (halfWidth c).toUpper = _ := upper
    rw [List.singleton_append, numberSuffix?_word upper rfl (by simp only [letterSuffix?, first]; rfl)]
    rfl
  | unsignedShortChar | unsignedIntegerChar | unsignedLongChar =>
    obtain ⟨u, more, rfl, upper, spelled⟩ := List.map_eq_cons_iff.1 spelled
    obtain ⟨l, rfl, kind⟩ := List.map_eq_singleton_iff.1 spelled
    have first : (halfWidth u).toUpper = _ := upper
    have second : (halfWidth l).toUpper = _ := kind
    rw [List.cons_append, List.singleton_append, numberSuffix?_word upper rfl (by
      simp only [letterSuffix?, first, List.head?_cons, Option.map_some, second]
      rfl)]
    rfl
  | _ => simp [TypeCharacter.isIntegral] at integral

-- Digits

theorem leadingDigits_append_of_digits {radix : Nat} {digits : List Char}
    (each : ∀ c ∈ digits, (digitValue? radix c).isSome = true) (rest : List Char) :
    leadingDigits radix (digits ++ rest) =
      digits.filterMap (digitValue? radix) ++ leadingDigits radix rest := by
  induction digits with
  | nil => rfl
  | cons c more ih =>
    obtain ⟨first, others⟩ := List.forall_mem_cons.1 each
    obtain ⟨value, digit⟩ := Option.isSome_iff_exists.1 first
    rw [List.cons_append, leadingDigits, List.filterMap_cons, digit]
    exact congrArg _ (ih others)

theorem length_filterMap_digits {radix : Nat} {digits : List Char}
    (each : ∀ c ∈ digits, (digitValue? radix c).isSome = true) :
    (digits.filterMap (digitValue? radix)).length = digits.length := by
  induction digits with
  | nil => rfl
  | cons c more ih =>
    obtain ⟨first, others⟩ := List.forall_mem_cons.1 each
    obtain ⟨value, digit⟩ := Option.isSome_iff_exists.1 first
    rw [List.filterMap_cons, digit]
    exact congrArg (· + 1) (ih others)

theorem numberSuffix?_pos {version : Version} {integralOnly : Bool} {cs : List Char}
    {found : TypeCharacter × Nat} (suffix : numberSuffix? version integralOnly cs = some found) :
    0 < found.2 := by
  cases cs with
  | nil => simp [numberSuffix?] at suffix
  | cons c more =>
    cases symbol : TypeCharacter.ofSymbol? (halfWidth c) with
    | some t =>
      rw [numberSuffix?_symbol symbol] at suffix
      split at suffix
      · obtain rfl := Option.some.inj suffix
        exact Nat.one_pos
      · contradiction
    | none =>
      rw [numberSuffix?_letters symbol] at suffix
      have letters := (Option.filter_eq_some_iff.1 suffix).1
      unfold letterSuffix? at letters
      grind

/-- A suffix starts with a sign or a letter. -/
theorem tail_starts (integral : t.isIntegral = true)
    (spelled : tail.map plainUpper = suffixSpelling (some t)) :
    ∃ c more, tail = c :: more ∧ plainUpper c ∈ ['%', '&', 'S', 'I', 'L', 'U'] := by
  cases tail with
  | nil => cases t <;> simp [suffixSpelling, TypeCharacter.isIntegral] at spelled integral
  | cons c more =>
    refine ⟨c, more, rfl, ?_⟩
    cases t <;> simp_all [suffixSpelling, TypeCharacter.isIntegral]

theorem digitValue?_of_suffix (base : IntegerBase) {c : Char}
    (upper : plainUpper c ∈ ['%', '&', 'S', 'I', 'L', 'U']) : digitValue? base.radix c = none := by
  have none : (['%', '&', 'S', 'I', 'L', 'U'].all fun d => digitValue? base.radix d == none) := by
    cases base <;> decide
  rw [← digitValue?_plainUpper]
  exact beq_iff_eq.1 (List.all_eq_true.1 none _ upper)

variable {base : IntegerBase} {mark digits : List Char}

/-- The digits and the suffix of a literal are found as they are spelled, if the literal takes no more
than that or a blank follows. -/
theorem digits_and_suffix (integralOnly : Bool)
    (spells : SpellsInteger base suffix mark digits tail)
    (stops : (leadingDigits base.radix (digits ++ (tail ++ rest))).length +
      ((numberSuffix? .v80 integralOnly ((digits ++ (tail ++ rest)).drop
        (leadingDigits base.radix (digits ++ (tail ++ rest))).length)).elim 0 (·.2)) =
          digits.length + tail.length ∨ IsBreak rest) :
    leadingDigits base.radix (digits ++ (tail ++ rest)) =
        digits.filterMap (digitValue? base.radix) ∧
      numberSuffix? .v80 integralOnly (tail ++ rest) = suffix.map fun t => (t, tail.length) := by
  have taken := leadingDigits_append_of_digits spells.digits (tail ++ rest)
  have count := length_filterMap_digits spells.digits
  cases suffix with
  | none =>
    obtain rfl : tail = [] := List.map_eq_nil_iff.1 spells.tail
    simp only [List.nil_append, List.length_nil, Nat.add_zero, Option.map_none] at stops taken ⊢
    rw [taken] at stops ⊢
    rw [List.length_append, count] at stops
    rcases stops with length | ends
    · have nothing : leadingDigits base.radix rest = [] := List.length_eq_zero_iff.1 (by omega)
      rw [nothing, List.length_nil, Nat.add_zero, List.drop_left] at length
      refine ⟨by rw [nothing, List.append_nil], ?_⟩
      cases found : numberSuffix? .v80 integralOnly rest with
      | none => rfl
      | some pair =>
        have positive := numberSuffix?_pos found
        rw [found, Option.elim_some] at length
        omega
    · obtain rfl | ⟨more, rfl⟩ := ends.eq
      · simp [leadingDigits, numberSuffix?]
      · have blank : digitValue? base.radix ' ' = none := by cases base <;> rfl
        exact ⟨by rw [leadingDigits, blank, List.append_nil], rfl⟩
  | some t =>
    have integral := spells.integral t rfl
    obtain ⟨c, more, rfl, upper⟩ := tail_starts integral spells.tail
    have nothing : leadingDigits base.radix (c :: more ++ rest) = [] := by
      simp [leadingDigits, digitValue?_of_suffix base upper]
    rw [nothing, List.append_nil] at taken
    refine ⟨taken, ?_⟩
    have found := numberSuffix?_spelled integralOnly integral spells.tail rest
    rcases stops with length | ends
    · rw [taken, count, List.drop_left, found] at length
      rw [found]
      split at length
      · simp at length
      · rename_i goesOn
        rw [if_neg goesOn]
        rfl
    · rw [found, ends.head isIdentifierPart_blank, Bool.and_false, if_neg (by decide)]
      rfl

-- Decimal literals

theorem exponentPart?_pos {cs : List Char} {found : Int × Nat}
    (exponent : exponentPart? cs = some found) : 0 < found.2 := by
  unfold exponentPart? at exponent
  simp only [Option.bind_eq_bind, Option.bind_eq_some_iff] at exponent
  obtain ⟨behind, -, exponent⟩ := exponent
  grind

theorem readNumeral_whole {cs : List Char}
    (fraction : fractionDigits? (cs.drop (leadingDigits 10 cs).length) = none)
    (exponent : exponentPart? (cs.drop (leadingDigits 10 cs).length) = none) :
    readNumeral cs = (⟨leadingDigits 10 cs, none, none⟩, (leadingDigits 10 cs).length) := by
  simp only [readNumeral, fraction, Option.elim_none, List.drop_zero, exponent, Option.map_none,
    Nat.add_zero]

theorem readNumeral_of_length {cs : List Char} (length : (readNumeral cs).2 ≤ (leadingDigits 10 cs).length) :
    readNumeral cs = (⟨leadingDigits 10 cs, none, none⟩, (leadingDigits 10 cs).length) := by
  simp only [readNumeral] at length
  cases fraction : fractionDigits? (cs.drop (leadingDigits 10 cs).length) with
  | some found =>
    rw [fraction, Option.elim_some] at length
    omega
  | none =>
    apply readNumeral_whole fraction
    rw [fraction, Option.elim_none, List.drop_zero] at length
    cases exponent : exponentPart? (cs.drop (leadingDigits 10 cs).length) with
    | some found =>
      have positive := exponentPart?_pos exponent
      rw [exponent, Option.elim_some] at length
      omega
    | none => rfl

/-- A suffix continues no number. -/
theorem continues_of_suffix {c : Char} (upper : plainUpper c ∈ ['%', '&', 'S', 'I', 'L', 'U'])
    (more : List Char) : fractionDigits? (c :: more) = none ∧ exponentPart? (c :: more) = none := by
  have point : halfWidth c ≠ '.' := by
    intro same
    simp [plainUpper, same] at upper
  have letter : halfWidth c ∉ ['e', 'E'] := by
    intro member
    simp only [List.mem_cons, List.not_mem_nil, or_false] at member
    rcases member with same | same <;> simp [plainUpper, same] at upper
  simp [fractionDigits?, exponentPart?, afterOne, point, letter]

theorem map_fst_suffix (suffix : Option TypeCharacter) (n : Nat) :
    (suffix.map fun t => (t, n)).map (·.1) = suffix := by
  cases suffix <;> rfl

theorem elim_suffix (spells : SpellsInteger base suffix mark digits tail) :
    (suffix.map fun t => (t, tail.length)).elim 0 (·.2) = tail.length := by
  cases suffix with
  | none => rw [List.map_eq_nil_iff.1 spells.tail]; rfl
  | some t => rfl

theorem numeralLexeme_whole (whole : List Nat) (integral : ∀ t ∈ suffix, t.isIntegral = true) :
    numeralLexeme ⟨whole, none, none⟩ suffix = integerLexeme whole .decimal suffix := by
  cases suffix with
  | none => rfl
  | some t =>
    have integral := integral t rfl
    cases t <;> first | rfl | simp [TypeCharacter.isIntegral] at integral

/-- A decimal literal is read without a fraction and an exponent. -/
theorem readNumeral_spelled (spells : SpellsInteger .decimal suffix mark digits tail)
    (stops : (readNumeral (digits ++ (tail ++ rest))).2 ≤ digits.length + tail.length ∨
      IsBreak rest) :
    readNumeral (digits ++ (tail ++ rest)) =
      (⟨leadingDigits 10 (digits ++ (tail ++ rest)), none, none⟩,
        (leadingDigits 10 (digits ++ (tail ++ rest))).length) := by
  have taken := leadingDigits_append_of_digits spells.digits (tail ++ rest)
  have count := length_filterMap_digits spells.digits
  rw [show IntegerBase.decimal.radix = 10 from rfl] at taken count
  cases suffix with
  | none =>
    obtain rfl : tail = [] := List.map_eq_nil_iff.1 spells.tail
    rw [List.nil_append] at stops taken ⊢
    rcases stops with length | ends
    · apply readNumeral_of_length
      rw [taken, List.length_append, count]
      exact Nat.le_trans length (Nat.le_add_right _ _)
    · have nothing : leadingDigits 10 rest = [] := by
        obtain rfl | ⟨more, rfl⟩ := ends.eq <;> rfl
      rw [nothing, List.append_nil] at taken
      apply readNumeral_whole
      all_goals rw [taken, count, List.drop_left]
      all_goals obtain rfl | ⟨more, rfl⟩ := ends.eq <;> rfl
  | some t =>
    obtain ⟨c, more, rfl, upper⟩ := tail_starts (spells.integral t rfl) spells.tail
    have noDigit : digitValue? 10 c = none := digitValue?_of_suffix .decimal upper
    have nothing : leadingDigits 10 (c :: more ++ rest) = [] := by simp [leadingDigits, noDigit]
    rw [nothing, List.append_nil] at taken
    obtain ⟨fraction, exponent⟩ := continues_of_suffix upper (more ++ rest)
    apply readNumeral_whole
    all_goals rw [taken, count, List.drop_left]
    · exact fraction
    · exact exponent

theorem decimalNumber_spelled (spells : SpellsInteger .decimal suffix mark digits tail)
    (stops : (decimalNumber .v80 (digits ++ (tail ++ rest))).length = digits.length + tail.length ∨
      IsBreak rest) :
    decimalNumber .v80 (digits ++ (tail ++ rest)) =
      ⟨integerLexeme (digits.filterMap (digitValue? 10)) .decimal suffix,
        digits.length + tail.length⟩ := by
  have numeral := readNumeral_spelled spells
    (stops.imp_left fun length => length ▸ Nat.le_add_right _ _)
  simp only [decimalNumber, numeral] at stops ⊢
  obtain ⟨whole, found⟩ := digits_and_suffix false spells stops
  have count := length_filterMap_digits spells.digits
  rw [show IntegerBase.decimal.radix = 10 from rfl] at whole count
  rw [whole, count, List.drop_left, found, map_fst_suffix, elim_suffix spells,
    numeralLexeme_whole _ spells.integral]

-- Literals in other bases

/-- What is behind the mark of a literal in another base. -/
def radixBody (base : IntegerBase) (introducer : Nat) (body : List Char) : Match :=
  let digits := leadingDigits base.radix body
  let suffix := numberSuffix? .v80 true (body.drop digits.length)
  ⟨if digits = [] then .fault .invalidIntegerLiteral
    else integerLexeme digits base (suffix.map (·.1)),
    introducer + digits.length + suffix.elim 0 (·.2)⟩

theorem radixNumber_letter {base : IntegerBase} {a l : Char} (body : List Char)
    (letter : base = .hexadecimal ∧ (halfWidth l = 'h' ∨ halfWidth l = 'H') ∨
      base = .octal ∧ (halfWidth l = 'o' ∨ halfWidth l = 'O')) :
    radixNumber .v80 (a :: l :: body) = radixBody base 2 body := by
  have behind (n : Nat) : (a :: l :: body).drop (1 + 1 + n) = body.drop n := by
    rw [Nat.add_comm]
    rfl
  unfold radixNumber radixBody
  simp only [List.drop_succ_cons, List.drop_zero, List.head?_cons, Option.map_some]
  rcases letter with ⟨rfl, same | same⟩ | ⟨rfl, same | same⟩
  all_goals simp only [same, List.drop_succ_cons, List.drop_zero, behind]

theorem radixNumber_bare {a d : Char} (body : List Char)
    (digit : (digitValue? 8 d).isSome = true) :
    radixNumber .v80 (a :: d :: body) = radixBody .octal 1 (d :: body) := by
  have behind (n : Nat) : (a :: d :: body).drop (1 + 0 + n) = (d :: body).drop n := by
    rw [Nat.add_zero, Nat.add_comm]
    rfl
  unfold radixNumber radixBody
  simp only [List.drop_succ_cons, List.drop_zero, List.head?_cons, Option.map_some]
  split
  case h_5 => simp only [List.drop_zero, behind]
  all_goals
    next same => simp [digitValue?, Option.some.inj same] at digit

theorem radixNumber_marked (spells : SpellsInteger base suffix mark digits tail)
    (other : base ≠ .decimal) (rest : List Char) :
    radixNumber .v80 (mark ++ (digits ++ (tail ++ rest))) =
      radixBody base mark.length (digits ++ (tail ++ rest)) := by
  obtain ⟨d, more, front⟩ := List.exists_cons_of_ne_nil spells.nonempty
  have digit := spells.digits d (by simp [front])
  have marked := spells.mark
  cases base with
  | decimal => contradiction
  | hexadecimal =>
    obtain ⟨a, letters, rfl, -, marked⟩ := List.map_eq_cons_iff.1 (List.mem_singleton.1 marked)
    obtain ⟨l, rfl, letter⟩ := List.map_eq_singleton_iff.1 marked
    exact radixNumber_letter _ (.inl ⟨rfl, baseLetter_cases.1 letter⟩)
  | octal =>
    rcases List.mem_pair.1 marked with marked | marked
    · obtain ⟨a, letters, rfl, -, marked⟩ := List.map_eq_cons_iff.1 marked
      obtain ⟨l, rfl, letter⟩ := List.map_eq_singleton_iff.1 marked
      exact radixNumber_letter _ (.inr ⟨rfl, baseLetter_cases.2 letter⟩)
    · obtain ⟨a, rfl, -⟩ := List.map_eq_singleton_iff.1 marked
      rw [front]
      exact radixNumber_bare _ digit

theorem radixNumber_spelled (spells : SpellsInteger base suffix mark digits tail)
    (other : base ≠ .decimal)
    (stops : (radixNumber .v80 (mark ++ (digits ++ (tail ++ rest)))).length =
      mark.length + digits.length + tail.length ∨ IsBreak rest) :
    radixNumber .v80 (mark ++ (digits ++ (tail ++ rest))) =
      ⟨integerLexeme (digits.filterMap (digitValue? base.radix)) base suffix,
        mark.length + digits.length + tail.length⟩ := by
  rw [radixNumber_marked spells other] at stops ⊢
  simp only [radixBody] at stops ⊢
  obtain ⟨whole, found⟩ := digits_and_suffix true spells
    (stops.imp_left fun length => by omega)
  have count := length_filterMap_digits spells.digits
  have some : digits.filterMap (digitValue? base.radix) ≠ [] := by
    rw [← List.length_pos_iff, count]
    exact List.length_pos_iff.2 spells.nonempty
  rw [whole, if_neg some, count, List.drop_left, found, map_fst_suffix, elim_suffix spells]

-- The start of a literal

theorem isDigit_of_digitValue? {radix : Nat} (decimal : radix ≤ 10) {c : Char}
    (digit : (digitValue? radix c).isSome = true) : (halfWidth c).isDigit = true := by
  by_contra letter
  have beyond (n : Nat) : ¬ n + 10 < radix := by omega
  simp only [digitValue?, letter, if_false] at digit
  split at digit
  · simp [Option.filter_some, beyond] at digit
  · split at digit
    · simp [Option.filter_some, beyond] at digit
    · simp at digit

theorem halfWidth_of_plainUpper {c : Char} (upper : plainUpper c = '&') : halfWidth c = '&' := by
  refine toUpper_cases (P := fun c => c.toUpper = '&' → c = '&') (fun c same upper => ?_)
    (by decide) (halfWidth c) upper
  rw [← same, upper]

/-- A literal starts with a digit, or with an ampersand that a letter or a digit follows. -/
theorem front_spelled (spells : SpellsInteger base suffix mark digits tail) (rest : List Char) :
    ∃ c more, mark ++ (digits ++ (tail ++ rest)) = c :: more ∧
      (base = .decimal ∧ (halfWidth c).isDigit = true ∨ base ≠ .decimal ∧ halfWidth c = '&' ∧
        more.head?.any (fun n => startsRadix (halfWidth n)) = true) := by
  obtain ⟨d, others, front⟩ := List.exists_cons_of_ne_nil spells.nonempty
  have digit := spells.digits d (by simp [front])
  have marked := spells.mark
  cases base with
  | decimal =>
    obtain rfl : mark = [] := List.map_eq_nil_iff.1 (List.mem_singleton.1 marked)
    exact ⟨d, others ++ (tail ++ rest), by rw [front]; rfl,
      .inl ⟨rfl, isDigit_of_digitValue? (Nat.le_refl 10) digit⟩⟩
  | hexadecimal =>
    obtain ⟨a, letters, rfl, upper, marked⟩ := List.map_eq_cons_iff.1 (List.mem_singleton.1 marked)
    obtain ⟨l, rfl, letter⟩ := List.map_eq_singleton_iff.1 marked
    refine ⟨a, l :: (digits ++ (tail ++ rest)), rfl,
      .inr ⟨by simp, halfWidth_of_plainUpper upper, ?_⟩⟩
    rcases baseLetter_cases.1 letter with same | same <;> simp [startsRadix, same]
  | octal =>
    rcases List.mem_pair.1 marked with marked | marked
    · obtain ⟨a, letters, rfl, upper, marked⟩ := List.map_eq_cons_iff.1 marked
      obtain ⟨l, rfl, letter⟩ := List.map_eq_singleton_iff.1 marked
      refine ⟨a, l :: (digits ++ (tail ++ rest)), rfl,
        .inr ⟨by simp, halfWidth_of_plainUpper upper, ?_⟩⟩
      rcases baseLetter_cases.2 letter with same | same <;> simp [startsRadix, same]
    · obtain ⟨a, rfl, upper⟩ := List.map_eq_singleton_iff.1 marked
      refine ⟨a, d :: (others ++ (tail ++ rest)), by rw [front]; rfl,
        .inr ⟨by simp, halfWidth_of_plainUpper upper, ?_⟩⟩
      simp [startsRadix, isDigit_of_digitValue? (by decide) digit]

theorem startOf_ampersand {c : Char} {next : Option Char} (ampersand : halfWidth c = '&')
    (starts : next.any (fun n => startsRadix (halfWidth n)) = true) :
    startOf c next = .radixNumber := by
  have plain : halfWidth '&' = '&' := by decide
  have marks : isLineTerminator '&' = false ∧ isSingleQuote '&' = false ∧
      isIdentifierStart '&' = false ∧ isDoubleQuote '&' = false := by decide
  rw [← startOf_map, ampersand]
  simp [startOf, plain, marks, Option.any_map, starts]

theorem startOf_spelled (spells : SpellsInteger base suffix mark digits tail) (rest : List Char) :
    ∃ c more, mark ++ (digits ++ (tail ++ rest)) = c :: more ∧
      startOf c more.head? = if base = .decimal then .decimalNumber else .radixNumber := by
  obtain ⟨c, more, front, ⟨decimal, digit⟩ | ⟨other, ampersand, starts⟩⟩ := front_spelled spells rest
  all_goals refine ⟨c, more, front, ?_⟩
  · rw [if_pos decimal, ← startOf_map]
    exact startOf_digit _ digit
  · rw [if_neg other]
    exact startOf_ampersand ampersand starts

/-- A literal is recognised as it is spelled, if it takes no more than that or a blank follows. -/
theorem recognize_spelled (spells : SpellsInteger base suffix mark digits tail)
    (stops : (recognize .v80 (mark ++ (digits ++ (tail ++ rest)))).length =
      mark.length + digits.length + tail.length ∨ IsBreak rest) :
    recognize .v80 (mark ++ (digits ++ (tail ++ rest))) =
      ⟨integerLexeme (digits.filterMap (digitValue? base.radix)) base suffix,
        mark.length + digits.length + tail.length⟩ := by
  obtain ⟨c, more, front, start⟩ := startOf_spelled spells rest
  by_cases decimal : base = .decimal
  · subst decimal
    obtain rfl : mark = [] := List.map_eq_nil_iff.1 (List.mem_singleton.1 spells.mark)
    have number : recognize .v80 ([] ++ (digits ++ (tail ++ rest))) =
        decimalNumber .v80 (digits ++ (tail ++ rest)) := by
      rw [← List.nil_append (digits ++ (tail ++ rest)), front]
      simp only [recognize, start, if_true, List.nil_append]
    rw [number] at stops ⊢
    simp only [List.length_nil, Nat.zero_add] at stops ⊢
    exact decimalNumber_spelled spells stops
  · have number : recognize .v80 (mark ++ (digits ++ (tail ++ rest))) =
        radixNumber .v80 (mark ++ (digits ++ (tail ++ rest))) := by
      rw [front]
      simp only [recognize, start, if_neg decimal]
    rw [number] at stops ⊢
    exact radixNumber_spelled spells decimal stops

end Scan

-- Texts

namespace Reader

variable {version : Version} {r : Reader} {text : List Char}

/-- A token is what is recognised at its place. -/
theorem recognized_of_mem (tab n : Nat) (reads : r.Reads text) :
    ∀ t ∈ r.tokens version tab n, ∃ cs, t.lexeme = (Scan.recognize version cs).lexeme ∧
      t.span.slice text = cs.take (Scan.recognize version cs).length ∧
      (Scan.recognize version cs).length ≤ cs.length := by
  induction n generalizing r with
  | zero => simp [Reader.tokens]
  | succ n ih =>
    obtain ⟨starts, -⟩ := rest_skipTrivia tab reads
    have fits := recognize_fits version (r.skipTrivia tab).rest
    intro t member
    have here : t = (r.next version tab).1 ∨ t ∈ (r.next version tab).2.tokens version tab n := by
      rw [tokens_succ] at member
      split at member
      · exact .inl (List.mem_singleton.1 member)
      · exact List.mem_cons.1 member
    rcases here with rfl | member
    · exact ⟨_, rfl, slice_skip tab starts fits, fits⟩
    · exact ih (starts.skip tab fits) t member

end Reader

section

variable {base : IntegerBase} {suffix : Option TypeCharacter} {mark digits tail : List Char}

namespace SpellsInteger

variable (spells : SpellsInteger base suffix mark digits tail)
include spells

/-- What a literal is in every text. -/
theorem isInteger :
    (Scan.integerLexeme (digits.filterMap (digitValue? base.radix)) base suffix).IsInteger base
      suffix (numberOf base digits) :=
  isInteger_integerLexeme _ spells.integral

theorem visible (rest : List Char) : ∃ c more, mark ++ (digits ++ (tail ++ rest)) = c :: more ∧
    isBlank c = false ∧ halfWidth c ≠ '_' ∧ c ≠ Reader.byteOrderMark := by
  obtain ⟨c, more, front, start⟩ := Scan.front_spelled spells rest
  have plain : halfWidth c ∈ '&' :: decimalDigits := by
    rcases start with ⟨-, digit⟩ | ⟨-, ampersand, -⟩
    · exact List.mem_cons_of_mem _ (mem_decimalDigits digit)
    · simp [ampersand]
  have marks : ('&' :: decimalDigits).all fun d => !isBlank d && d != '_' &&
      d != halfWidth Reader.byteOrderMark := by decide
  obtain ⟨⟨solid, apart⟩, other⟩ := by simpa using List.all_eq_true.1 marks _ plain
  exact ⟨c, more, front, solid, apart, fun mark => other (by rw [mark])⟩

/-- The literal is a token by itself. -/
theorem standsAlone : Spells .v80 (mark ++ digits ++ tail)
    (Scan.integerLexeme (digits.filterMap (digitValue? base.radix)) base suffix) := by
  constructor
  case found =>
    intro rest ends
    rw [List.append_assoc, List.append_assoc, Scan.recognize_spelled spells (.inr ends),
      List.length_append, List.length_append]
  case starts =>
    intro rest ends
    obtain ⟨c, more, front, solid, apart, -⟩ := spells.visible rest
    rw [List.append_assoc, List.append_assoc, front]
    exact triviaLength_eq_zero solid fun underscore => absurd underscore apart
  case unmarked =>
    obtain ⟨c, more, front, -, -, other⟩ := spells.visible []
    rw [List.append_nil] at front
    rw [List.append_assoc, front]
    simpa using other
  case proper =>
    unfold Scan.integerLexeme
    split
    next value _ => cases value <;> simp [Lexeme.kind, Literal.tokenKind]
    next => simp [Lexeme.kind]

end SpellsInteger

/-- An integer literal has the value of its digits, or none if the value is out of range: standing
alone, and wherever a token of a text is spelled so. -/
theorem integer_literals_are_exact (spells : SpellsInteger base suffix mark digits tail) (tab : Nat) :
    (∃ l, (tokenize .v80 tab (mark ++ digits ++ tail)).map Token.lexeme = [l, .endOfStream] ∧
      l.IsInteger base suffix (numberOf base digits)) ∧
    ∀ text, ∀ t ∈ tokenize .v80 tab text, t.span.slice text = mark ++ digits ++ tail →
      t.lexeme.IsInteger base suffix (numberOf base digits) := by
  constructor
  · have alone := lexemes_tokenize tab (.cons spells.standsAlone .nil)
    rw [List.intercalate_singleton] at alone
    exact ⟨_, alone, spells.isInteger⟩
  · intro text t member spelled
    obtain ⟨cs, lexeme, slice, fits⟩ :=
      Reader.recognized_of_mem tab _ (Reader.Reads.ofText tab text) t (by rwa [tokenize] at member)
    rw [slice] at spelled
    have front : cs = mark ++ (digits ++ (tail ++ cs.drop (Scan.recognize .v80 cs).length)) := by
      rw [← List.append_assoc, ← List.append_assoc, ← spelled, List.take_append_drop]
    have length := congrArg List.length spelled
    rw [List.length_take, Nat.min_eq_left fits, List.length_append, List.length_append] at length
    have found := Scan.recognize_spelled spells (.inl (by rwa [← front]))
    rw [lexeme, front, found]
    exact spells.isInteger

/-- All bits of a short literal denote -1, here with a wide digit and a wide suffix. -/
theorem wide_pattern_is_negative :
    (tokenize .v80 4 ['&', 'h', 'F', 'f', 'f', 'ｆ', 'Ｓ']).map Token.lexeme =
      [.literal (.integer (.signed (-1)) .hexadecimal (some .shortChar)), .endOfStream] := by
  have spells : SpellsInteger .hexadecimal (some .shortChar) ['&', 'h'] ['F', 'f', 'f', 'ｆ'] ['Ｓ'] := by
    constructor
    case mark => decide
    case nonempty => decide
    case digits => exact List.all_eq_true.1 (by decide)
    case tail => decide
    case integral => decide
  have number : numberOf .hexadecimal ['F', 'f', 'f', 'ｆ'] = 2 ^ 16 - 1 := by decide +kernel
  obtain ⟨⟨l, alone, isInteger⟩, -⟩ := integer_literals_are_exact spells 4
  rw [number] at isInteger
  obtain ⟨value, unique, rfl⟩ := isInteger
  have negative : Represents 16 (2 ^ 16 - 1) (-1) := ⟨by decide, by decide, by decide⟩
  rw [(unique (-1)).1 negative]
  exact alone

end

end VisualBasic
