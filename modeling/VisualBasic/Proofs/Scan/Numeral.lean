import VisualBasic.Proofs.Literal.Decimal
import VisualBasic.Proofs.Scan.Integer

/-!
Numerals as they are written: digits, perhaps a point with more digits, perhaps a power of ten, each
character in any width.  A numeral that nothing continues is read as it is written, and it denotes the
quantity that its parts denote.
-/

set_option autoImplicit false

namespace VisualBasic

theorem ofDigits_append (base : Nat) (front back : List Nat) :
    ofDigits base (front ++ back) = ofDigits base front * base ^ back.length + ofDigits base back := by
  have fold (start : Nat) : back.foldl (fun value digit => value * base + digit) start =
      start * base ^ back.length + ofDigits base back := by
    unfold ofDigits
    induction back using List.reverseRecOn with
    | nil => simp
    | append_singleton back digit ih =>
      simp only [List.foldl_append, List.foldl_cons, List.foldl_nil, ih, List.length_append,
        List.length_singleton, pow_succ]
      ring
  rw [ofDigits, List.foldl_append]
  exact fold _

-- Digits with zeros in front of them

/-- The number in decimal, with zeros in front up to the width. -/
def zeroPadded (width n : Nat) : List Char :=
  List.replicate (width - (Nat.toDigits 10 n).length) '0' ++ Nat.toDigits 10 n

theorem width_le_length_zeroPadded (width n : Nat) : width ≤ (zeroPadded width n).length := by
  rw [zeroPadded, List.length_append, List.length_replicate]
  omega

theorem length_zeroPadded {width n : Nat} (positive : 0 < width) (fits : n < 10 ^ width) :
    (zeroPadded width n).length = width := by
  have short := Nat.toDigits_length 10 n width positive fits
  rw [zeroPadded, List.length_append, List.length_replicate]
  omega

theorem isDigit_zeroPadded {width n : Nat} : ∀ c ∈ zeroPadded width n, c.isDigit = true :=
  fun c member => by
    rcases List.mem_append.1 member with zero | digit
    · rw [List.eq_of_mem_replicate zero]
      rfl
    · exact Nat.isDigit_of_mem_toDigits (by decide) (by decide) digit

theorem isDecimalDigit_of_isDigit {c : Char} (digit : c.isDigit = true) : isDecimalDigit c = true :=
  of_decimalDigits (P := fun c => isDecimalDigit c = true) (by decide) digit

theorem filterMap_digitValue? {digits : List Char} (each : ∀ c ∈ digits, c.isDigit = true) :
    digits.filterMap (digitValue? 10) = digits.map fun c => c.toNat - 48 := by
  have some : ∀ c ∈ digits, (digitValue? 10 c).isSome = true := fun c member => by
    rw [digitValue?_of_isDigit (each c member), Option.isSome_some]
  have values := Scan.leadingDigits_append_of_digits some []
  rw [leadingDigits_append each .nil] at values
  rw [values, Scan.leadingDigits, List.append_nil]

/-- Zeros in front change no number. -/
theorem ofDigits_zeroPadded (width n : Nat) :
    ofDigits 10 ((zeroPadded width n).filterMap (digitValue? 10)) = n := by
  have zeros (count : Nat) : ofDigits 10 (List.replicate count 0) = 0 := by
    induction count with
    | zero => rfl
    | succ count ih => rw [List.replicate_succ', ofDigits_append, ih]; rfl
  rw [filterMap_digitValue? isDigit_zeroPadded, zeroPadded, List.map_append, List.map_replicate,
    ofDigits_append, ofDigits_toDigits, show '0'.toNat - 48 = 0 from rfl, zeros, Nat.zero_mul,
    Nat.zero_add]

-- Written numerals

/-- One or more decimal digits. -/
structure DigitRun where
  chars : List Char
  nonempty : chars ≠ []
  digits : chars.all isDecimalDigit = true

namespace DigitRun

def values (run : DigitRun) : List Nat := run.chars.filterMap (digitValue? 10)

def number (run : DigitRun) : Nat := ofDigits 10 run.values

variable (run : DigitRun)

theorem isDecimalDigit_of_mem {c : Char} (member : c ∈ run.chars) : isDecimalDigit c = true :=
  List.all_eq_true.1 run.digits c member

theorem isSome_digitValue? : ∀ c ∈ run.chars, (digitValue? 10 c).isSome = true := fun c member => by
  rw [Scan.digitValue?_of_isDecimalDigit (run.isDecimalDigit_of_mem member), Option.isSome_some]

theorem length_values : run.values.length = run.chars.length :=
  Scan.length_filterMap_digits run.isSome_digitValue?

theorem values_ne_nil : run.values ≠ [] := by
  rw [← List.length_pos_iff, run.length_values]
  exact List.length_pos_iff.2 run.nonempty

end DigitRun

/-- A point with digits behind it. -/
structure WrittenFraction where
  point : Char
  run : DigitRun
  isPoint : halfWidth point = '.'

/-- A power of ten, with or without a sign. -/
structure WrittenExponent where
  mark : Char
  sign : Option Char
  run : DigitRun
  isMark : halfWidth mark ∈ ['e', 'E']
  isSign : sign.all (halfWidth · ∈ ['+', '-']) = true

structure WrittenNumeral where
  whole : DigitRun
  fraction : Option WrittenFraction
  exponent : Option WrittenExponent

def WrittenFraction.chars (f : WrittenFraction) : List Char := f.point :: f.run.chars

namespace WrittenExponent

def chars (e : WrittenExponent) : List Char := e.mark :: (e.sign.toList ++ e.run.chars)

def value (e : WrittenExponent) : Int :=
  if e.sign.any (halfWidth · == '-') then -(e.run.number : Int) else e.run.number

end WrittenExponent

namespace WrittenNumeral

def chars (w : WrittenNumeral) : List Char :=
  w.whole.chars ++ (w.fraction.elim [] (·.chars) ++ w.exponent.elim [] (·.chars))

/-- The number of digits behind the point. -/
def places (w : WrittenNumeral) : Nat := w.fraction.elim 0 (·.run.chars.length)

/-- The exponent, zero if none is written. -/
def power (w : WrittenNumeral) : Int := w.exponent.elim 0 (·.value)

/-- The quantity that is written. -/
def value (w : WrittenNumeral) : ℚ :=
  (w.whole.number + w.fraction.elim 0 fun f => (f.run.number : ℚ) / 10 ^ f.run.chars.length)
    * 10 ^ w.power

/-- The digits before and behind the point, read as one integer. -/
def digits (w : WrittenNumeral) : Nat :=
  numberOf .decimal (w.whole.chars ++ w.fraction.elim [] (·.run.chars))

/-- What is read. -/
def numeral (w : WrittenNumeral) : Numeral where
  whole := w.whole.values
  fraction := w.fraction.map (·.run.values)
  exponent := w.exponent.map (·.value)

end WrittenNumeral

/-- Nothing at the start of the text continues a numeral. -/
def StopsNumeral (rest : List Char) : Prop :=
  ∀ c ∈ rest.head?, isDecimalDigit c = false ∧ halfWidth c ∉ ['.', 'e', 'E']

theorem StopsNumeral.nil : StopsNumeral [] := by simp [StopsNumeral]

theorem StopsNumeral.apart {rest : List Char} (stops : StopsNumeral rest) :
    rest.head?.any isDecimalDigit = false := by
  cases rest with
  | nil => rfl
  | cons c more => exact (stops c rfl).1

namespace Scan

variable {rest : List Char}

theorem digitValue?_eq_none {c : Char} (other : isDecimalDigit c = false) : digitValue? 10 c = none := by
  by_contra digit
  have digit := isDigit_of_digitValue? (Nat.le_refl 10) (Option.isSome_iff_ne_none.2 digit)
  exact absurd digit (Bool.not_eq_true _ ▸ other)

theorem leadingDigits_eq_nil (apart : rest.head?.any isDecimalDigit = false) :
    leadingDigits 10 rest = [] := by
  cases rest with
  | nil => rfl
  | cons c more =>
    rw [leadingDigits, digitValue?_eq_none (by simpa using apart)]

theorem leadingDigits_run (run : DigitRun) (apart : rest.head?.any isDecimalDigit = false) :
    leadingDigits 10 (run.chars ++ rest) = run.values := by
  rw [leadingDigits_append_of_digits run.isSome_digitValue?, leadingDigits_eq_nil apart,
    List.append_nil]
  rfl

-- The parts

theorem afterOne_eq_none {marks : List Char} (other : ∀ c ∈ rest.head?, halfWidth c ∉ marks) :
    afterOne marks rest = none := by
  cases rest with
  | nil => rfl
  | cons c more => exact if_neg (other c rfl)

theorem fractionDigits?_written (f : WrittenFraction)
    (apart : rest.head?.any isDecimalDigit = false) :
    fractionDigits? (f.chars ++ rest) = some f.run.values := by
  have point : afterOne ['.'] (f.chars ++ rest) = some (f.run.chars ++ rest) :=
    if_pos (by simp [f.isPoint])
  simp only [fractionDigits?, point, leadingDigits_run f.run apart, Option.filter_some]
  rw [if_pos (by simp [f.run.values_ne_nil])]

theorem fractionDigits?_eq_none (other : ∀ c ∈ rest.head?, halfWidth c ≠ '.') :
    fractionDigits? rest = none := by
  rw [fractionDigits?, afterOne_eq_none fun c member => by simp [other c member]]

theorem exponentPart?_eq_none (other : ∀ c ∈ rest.head?, halfWidth c ∉ ['e', 'E']) :
    exponentPart? rest = none := by
  rw [exponentPart?, afterOne_eq_none other]
  rfl

theorem exponentPart?_written (e : WrittenExponent)
    (apart : rest.head?.any isDecimalDigit = false) :
    exponentPart? (e.chars ++ rest) = some (e.value, e.chars.length) := by
  have mark : afterOne ['e', 'E'] (e.chars ++ rest) = some (e.sign.toList ++ e.run.chars ++ rest) :=
    if_pos e.isMark
  have read := leadingDigits_run e.run apart
  have some := e.run.values_ne_nil
  have length := e.run.length_values
  rw [exponentPart?, mark, Option.bind_eq_bind, Option.bind_some]
  unfold WrittenExponent.value WrittenExponent.chars DigitRun.number
  cases sign : e.sign with
  | none =>
    rw [Option.toList_none, List.nil_append, read]
    split
    next none => exact absurd none some
    next => simp [length]
  | some c =>
    have signed : halfWidth c ∈ ['+', '-'] := by simpa [sign] using e.isSign
    have noDigit : isDecimalDigit c = false := by
      rcases List.mem_pair.1 signed with same | same <;> rw [isDecimalDigit, same] <;> rfl
    rw [Option.toList_some, List.singleton_append, List.cons_append,
      leadingDigits_eq_nil (by simpa using noDigit), List.drop_succ_cons, List.drop_zero, read]
    rcases List.mem_pair.1 signed with same | same <;> simp [some, same, length]

end Scan

-- The numeral

namespace WrittenNumeral

variable (w : WrittenNumeral) {rest : List Char}

/-- What stands behind the digits before the point starts with no digit. -/
theorem head_exponent (stops : StopsNumeral rest) :
    ∀ c ∈ (w.exponent.elim [] (·.chars) ++ rest).head?,
      isDecimalDigit c = false ∧ halfWidth c ≠ '.' := by
  cases exponent : w.exponent with
  | none =>
    intro c member
    have other := stops c (by simpa using member)
    simp_all
  | some e =>
    intro c member
    obtain rfl : e.mark = c := by simpa [WrittenExponent.chars] using member
    have mark := List.mem_pair.1 e.isMark
    rcases mark with same | same <;> exact ⟨by rw [isDecimalDigit, same]; rfl, by rw [same]; decide⟩

theorem exponentPart?_tail (stops : StopsNumeral rest) :
    Scan.exponentPart? (w.exponent.elim [] (·.chars) ++ rest) =
      w.exponent.map fun e => (e.value, e.chars.length) := by
  cases w.exponent with
  | none =>
    refine Scan.exponentPart?_eq_none fun c member => ?_
    have other := (stops c (by simpa using member)).2
    simp_all
  | some e => exact Scan.exponentPart?_written e stops.apart

theorem fractionDigits?_tail (stops : StopsNumeral rest) :
    Scan.fractionDigits? (w.fraction.elim [] (·.chars) ++ (w.exponent.elim [] (·.chars) ++ rest)) =
      w.fraction.map (·.run.values) := by
  have behind := w.head_exponent stops
  cases w.fraction with
  | none => exact Scan.fractionDigits?_eq_none fun c member => (behind c member).2
  | some f =>
    refine Scan.fractionDigits?_written f ?_
    rw [Option.any_eq_false]
    exact fun c member => by simp [(behind c member).1]

theorem leadingDigits_whole (stops : StopsNumeral rest) :
    Scan.leadingDigits 10 (w.chars ++ rest) = w.whole.values := by
  have behind := w.head_exponent stops
  rw [chars, List.append_assoc, List.append_assoc]
  refine Scan.leadingDigits_run w.whole ?_
  cases fraction : w.fraction with
  | none =>
    rw [Option.any_eq_false]
    exact fun c member => by simp [(behind c (by simpa using member)).1]
  | some f =>
    have point : isDecimalDigit f.point = false := by rw [isDecimalDigit, f.isPoint]; rfl
    simpa [WrittenFraction.chars] using point

/-- A numeral is read as it is written. -/
theorem readNumeral_append (stops : StopsNumeral rest) :
    Scan.readNumeral (w.chars ++ rest) = (w.numeral, w.chars.length) := by
  have tail : (w.chars ++ rest).drop w.whole.values.length =
      w.fraction.elim [] (·.chars) ++ (w.exponent.elim [] (·.chars) ++ rest) := by
    rw [w.whole.length_values, chars, List.append_assoc, List.append_assoc, List.drop_left]
  have length : (w.fraction.map (·.run.values)).elim 0 (·.length + 1) =
      (w.fraction.elim [] (·.chars)).length := by
    cases w.fraction with
    | none => rfl
    | some f => simp [WrittenFraction.chars, f.run.length_values]
  have power : (w.exponent.map fun e => (e.value, e.chars.length)).elim 0 (·.2) =
      (w.exponent.elim [] (·.chars)).length := by
    cases w.exponent <;> rfl
  simp only [Scan.readNumeral, w.leadingDigits_whole stops, tail, w.fractionDigits?_tail stops,
    length, List.drop_left, w.exponentPart?_tail stops, power]
  rw [w.whole.length_values, chars, List.length_append, List.length_append, Nat.add_assoc,
    Option.map_map]
  rfl

-- The quantity

theorem significand_numeral : w.numeral.significand = w.digits := by
  unfold Numeral.significand Numeral.fractionDigits digits numberOf numeral
  rw [List.filterMap_append]
  cases w.fraction <;> rfl

theorem exponent_numeral : w.numeral.exponent.getD 0 = w.power := by
  unfold numeral power
  cases w.exponent <;> rfl

theorem power_numeral : w.numeral.power = w.power - w.places := by
  rw [Numeral.power, exponent_numeral]
  unfold Numeral.fractionDigits numeral places
  cases w.fraction with
  | none => rfl
  | some f => simp [f.run.length_values]

/-- Reading the point as a power of ten changes nothing. -/
theorem quantity_numeral : w.numeral.quantity = w.value := by
  rw [Numeral.quantity, significand_numeral, power_numeral, zpow_sub₀ (by norm_num), zpow_natCast]
  unfold value digits places numberOf
  rw [List.filterMap_append]
  cases w.fraction with
  | none => simp [DigitRun.number, DigitRun.values, IntegerBase.radix]
  | some f =>
    have length := f.run.length_values
    simp only [Option.elim_some, ofDigits_append, DigitRun.number, DigitRun.values,
      IntegerBase.radix] at length ⊢
    rw [length]
    push_cast
    field_simp

theorem inWord_numeral : DecimalValue.InWord w.numeral ↔
    w.digits < 2 ^ 128 ∧ -2 ^ 31 ≤ w.power ∧ w.power < 2 ^ 31 := by
  rw [DecimalValue.InWord, significand_numeral, exponent_numeral]

end WrittenNumeral

end VisualBasic
