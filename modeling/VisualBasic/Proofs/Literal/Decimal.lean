import Mathlib.Data.Rat.Floor
import Mathlib.Algebra.Order.Floor.Semifield
import Mathlib.Tactic.FieldSimp
import Mathlib.Tactic.Ring
import Mathlib.Tactic.NormNum
import VisualBasic.Literal.Decimal

/-!
The decimal value of a numeral.  Every way in which digits are dropped rounds the quantity down, and as
rounding down twice is rounding down once, the mantissa is the quantity rounded down at the finest
scale that it has room for.
-/

set_option autoImplicit false

namespace VisualBasic

/-- The quantity that the numeral denotes. -/
def Numeral.quantity (n : Numeral) : ℚ := n.significand * (10 : ℚ) ^ n.power

namespace DecimalValue

/-- The value is the quantity rounded down, at the finest scale up to the given one for which the
mantissa fits. -/
structure RoundsDown (quantity : ℚ) (finest : ℕ) (d : DecimalValue) : Prop where
  fits : d.mantissa ≤ 2 ^ 96 - 1
  floor : d.mantissa = ⌊quantity * 10 ^ d.scale⌋₊
  within : d.scale ≤ finest
  greatest : ∀ s ≤ finest, ⌊quantity * 10 ^ s⌋₊ ≤ 2 ^ 96 - 1 → s ≤ d.scale

/-- What the search for a value finds: none only for a quantity that no mantissa has room for. -/
def Finds (quantity : ℚ) (finest : ℕ) : Option DecimalValue → Prop
  | some d => RoundsDown quantity finest d
  | none => 2 ^ 96 - 1 < ⌊quantity⌋₊

section

variable {quantity : ℚ} {finest : ℕ} {found : Option DecimalValue} {d e : DecimalValue}

theorem RoundsDown.unique (one : RoundsDown quantity finest d) (other : RoundsDown quantity finest e) :
    d = e := by
  have scale : d.scale = e.scale := Nat.le_antisymm
    (other.greatest _ one.within (one.floor ▸ one.fits))
    (one.greatest _ other.within (other.floor ▸ other.fits))
  have mantissa : d.mantissa = e.mantissa := by rw [one.floor, other.floor, scale]
  cases d
  cases e
  exact congrArg₂ _ mantissa scale

/-- The quantity itself is no more than the mantissa. -/
theorem RoundsDown.floor_le (rounds : RoundsDown quantity finest d) (nonneg : 0 ≤ quantity) :
    ⌊quantity⌋₊ ≤ 2 ^ 96 - 1 := by
  have scaled : quantity ≤ quantity * 10 ^ d.scale :=
    le_mul_of_one_le_right nonneg (one_le_pow₀ (by norm_num))
  calc ⌊quantity⌋₊ ≤ ⌊quantity * 10 ^ d.scale⌋₊ := Nat.floor_mono scaled
    _ = d.mantissa := rounds.floor.symm
    _ ≤ 2 ^ 96 - 1 := rounds.fits

theorem Finds.eq_some_iff (finds : Finds quantity finest found) (nonneg : 0 ≤ quantity) :
    found = some d ↔ RoundsDown quantity finest d := by
  cases found with
  | some e =>
    refine ⟨fun same => Option.some.inj same ▸ finds, fun rounds => ?_⟩
    exact congrArg some (RoundsDown.unique finds rounds)
  | none =>
    refine ⟨nofun, fun rounds => ?_⟩
    exact absurd (rounds.floor_le nonneg) (Nat.not_le.2 finds)

theorem Finds.eq_none_iff (finds : Finds quantity finest found) (nonneg : 0 ≤ quantity) :
    found = none ↔ 2 ^ 96 - 1 < ⌊quantity⌋₊ := by
  cases found with
  | some d => exact iff_of_false nofun (Nat.not_lt.2 (RoundsDown.floor_le finds nonneg))
  | none => exact iff_of_true rfl finds

/-- A mantissa that has no room at a scale leaves the search to the coarser ones. -/
theorem Finds.refine (finds : Finds quantity finest found)
    (large : 2 ^ 96 - 1 < ⌊quantity * 10 ^ (finest + 1)⌋₊) : Finds quantity (finest + 1) found := by
  cases found with
  | none => exact finds
  | some d =>
    obtain ⟨fits, floor, within, greatest⟩ := finds
    refine ⟨fits, floor, Nat.le_succ_of_le within, fun s least room => ?_⟩
    obtain coarser | rfl := Nat.le_or_eq_of_le_succ least
    · exact greatest s coarser room
    · exact absurd room (Nat.not_le.2 large)

/-- Dropping a digit rounds down at the next scale. -/
theorem floor_div_ten (quantity : ℚ) (scale : ℕ) :
    ⌊quantity * 10 ^ (scale + 1)⌋₊ / 10 = ⌊quantity * 10 ^ scale⌋₊ := by
  rw [← Nat.floor_div_natCast, pow_succ]
  congr 1
  push_cast
  field_simp

theorem fit?_finds (quantity : ℚ) (scale : ℕ) :
    Finds quantity scale (fit? ⌊quantity * 10 ^ scale⌋₊ scale) := by
  induction scale with
  | zero =>
    rw [pow_zero, mul_one]
    by_cases room : ⌊quantity⌋₊ ≤ 2 ^ 96 - 1
    · rw [show fit? ⌊quantity⌋₊ 0 = some ⟨⌊quantity⌋₊, 0⟩ from if_pos room]
      exact ⟨room, by simp, Nat.le_refl 0, fun s least _ => least⟩
    · rw [show fit? ⌊quantity⌋₊ 0 = none from if_neg room]
      exact Nat.lt_of_not_le room
  | succ scale ih =>
    rw [fit?]
    split
    next room => exact ⟨room, rfl, Nat.le_refl _, fun s least _ => least⟩
    next large =>
      rw [floor_div_ten]
      exact ih.refine (Nat.lt_of_not_le large)

end

-- The scale of a numeral

/-- The scale that the digits ask for, as far as there are such scales. -/
def finestScale (scale : ℤ) : ℕ := (min scale 28).toNat

theorem finds_zero (scale : ℤ) : Finds 0 (finestScale scale) (ofScaled? 0 scale) := by
  refine ⟨Nat.zero_le _, ?_, Nat.le_refl _, fun s least _ => least⟩
  rw [zero_mul, Nat.floor_zero]

/-- A word has no room for a power of ten above the powers that are computed. -/
theorem word_lt_pow {n : ℕ} (large : wordPowers ≤ n) : 2 ^ 128 < 10 ^ n :=
  calc 2 ^ 128 < 10 ^ 39 := by norm_num
    _ ≤ 10 ^ n := Nat.pow_le_pow_right (by norm_num) large

theorem mantissa_lt_word : 2 ^ 96 - 1 < 2 ^ 128 := by norm_num

/-- Zeros behind the digits. -/
theorem finds_multiple {m : ℕ} (some : m ≠ 0) (zeros : ℕ) :
    Finds (m * 10 ^ zeros : ℕ) 0
      (if zeros < wordPowers ∧ m * 10 ^ zeros < 2 ^ 128 then fit? (m * 10 ^ zeros) 0 else none) := by
  split
  next small =>
    have finds := fit?_finds (m * 10 ^ zeros : ℕ) 0
    rwa [pow_zero, mul_one, Nat.floor_natCast] at finds
  next large =>
    rw [Finds, Nat.floor_natCast]
    refine Nat.lt_of_lt_of_le mantissa_lt_word ?_
    by_cases few : zeros < wordPowers
    · exact Nat.le_of_not_lt fun word => large ⟨few, word⟩
    · calc 2 ^ 128 ≤ 10 ^ zeros := Nat.le_of_lt (word_lt_pow (Nat.le_of_not_lt few))
        _ ≤ m * 10 ^ zeros := Nat.le_mul_of_pos_left _ (Nat.pos_of_ne_zero some)

/-- Digits beyond the finest scale. -/
theorem floor_excess {m : ℕ} (word : m < 2 ^ 128) (excess : ℕ) :
    (if excess < wordPowers then m / 10 ^ excess else 0) = ⌊(m : ℚ) / 10 ^ excess⌋₊ := by
  have floor : ⌊(m : ℚ) / 10 ^ excess⌋₊ = m / 10 ^ excess := by
    simpa using Nat.floor_div_eq_div (K := ℚ) m (10 ^ excess)
  rw [floor]
  split
  next => rfl
  next large =>
    exact (Nat.div_eq_of_lt (Nat.lt_trans word (word_lt_pow (Nat.le_of_not_lt large)))).symm

/-- Digits behind the point, as many as there are scales for. -/
theorem finds_places (m places : ℕ) : Finds ((m : ℚ) / 10 ^ places) places (fit? m places) := by
  have whole : ⌊(m : ℚ) / 10 ^ places * 10 ^ places⌋₊ = m := by
    rw [div_mul_cancel₀ _ (by positivity), Nat.floor_natCast]
  have finds := fit?_finds ((m : ℚ) / 10 ^ places) places
  rwa [whole] at finds

/-- More digits behind the point than there are scales for. -/
theorem finds_excess {m : ℕ} (word : m < 2 ^ 128) (excess : ℕ) :
    Finds ((m : ℚ) / 10 ^ (excess + 28)) 28
      (fit? (if excess < wordPowers then m / 10 ^ excess else 0) 28) := by
  have shifted : (m : ℚ) / 10 ^ (excess + 28) * 10 ^ 28 = m / 10 ^ excess := by
    rw [pow_add]
    field_simp
  have finds := fit?_finds ((m : ℚ) / 10 ^ (excess + 28)) 28
  rwa [shifted, ← floor_excess word] at finds

theorem finestScale_of_le {places : ℕ} (few : places ≤ 28) : finestScale places = places := by
  rw [finestScale]
  omega

theorem finestScale_of_ge {places : ℕ} (many : 28 ≤ places) : finestScale places = 28 := by
  rw [finestScale]
  omega

theorem finestScale_neg (zeros : ℕ) : finestScale (-(zeros : ℤ)) = 0 := by
  rw [finestScale]
  omega

theorem ofScaled?_finds {m : ℕ} (word : m < 2 ^ 128) (scale : ℤ) :
    Finds (m * (10 : ℚ) ^ (-scale)) (finestScale scale) (ofScaled? m scale) := by
  by_cases zero : m = 0
  · rw [zero, Nat.cast_zero, zero_mul]
    exact finds_zero scale
  rw [ofScaled?, if_neg zero]
  rcases lt_or_ge scale 0 with negative | positive
  · obtain ⟨zeros, rfl⟩ : ∃ zeros : ℕ, scale = -zeros := ⟨(-scale).toNat, by omega⟩
    have quantity : (m : ℚ) * 10 ^ (- -(zeros : ℤ)) = (m * 10 ^ zeros : ℕ) := by
      rw [neg_neg, zpow_natCast]
      push_cast
      rfl
    rw [if_pos negative, finestScale_neg, quantity, neg_neg, Int.toNat_natCast]
    exact finds_multiple zero zeros
  · obtain ⟨places, rfl⟩ : ∃ places : ℕ, scale = places := ⟨scale.toNat, by omega⟩
    rw [if_neg (not_lt.2 positive), zpow_neg, zpow_natCast, ← div_eq_mul_inv]
    by_cases near : (places : ℤ) ≤ maxScale
    · rw [if_pos near, finestScale_of_le (by exact_mod_cast near)]
      exact finds_places m places
    · have many : 28 < places := by exact_mod_cast lt_of_not_ge near
      obtain ⟨excess, rfl⟩ : ∃ excess : ℕ, places = excess + 28 := ⟨places - 28, by omega⟩
      rw [if_neg near, finestScale_of_ge (Nat.le_of_lt many)]
      exact finds_excess word excess

/-- The digits and the exponent of the numeral can be held while it is read. -/
def InWord (n : Numeral) : Prop :=
  n.significand < 2 ^ 128 ∧ -2 ^ 31 ≤ n.exponent.getD 0 ∧ n.exponent.getD 0 < 2 ^ 31

instance (n : Numeral) : Decidable (InWord n) := inferInstanceAs (Decidable (_ ∧ _))

theorem quantity_nonneg (n : Numeral) : 0 ≤ n.quantity := by
  have scaled : (0 : ℚ) ≤ 10 ^ n.power := zpow_nonneg (by norm_num) _
  exact mul_nonneg (Nat.cast_nonneg _) scaled

theorem ofNumeral?_of_inWord {n : Numeral} (held : InWord n) :
    ofNumeral? n = ofScaled? n.significand (-n.power) := by
  obtain ⟨word, low, high⟩ := held
  have range : exponentInRange (n.exponent.getD 0) = true := by
    simp only [exponentInRange, Bool.and_eq_true, decide_eq_true_eq]
    exact ⟨low, high⟩
  have room : ¬ wordLimit ≤ n.significand := Nat.not_le.2 word
  rw [ofNumeral?, range, if_neg (by decide), if_neg room]

theorem ofNumeral?_of_not_inWord {n : Numeral} (beyond : ¬ InWord n) : ofNumeral? n = none := by
  rw [ofNumeral?]
  split
  · rfl
  split
  · rfl
  rename_i range word
  simp only [exponentInRange, Bool.not_eq_true', Bool.not_eq_false, Bool.and_eq_true,
    decide_eq_true_eq] at range
  exact absurd ⟨Nat.lt_of_not_le word, range⟩ beyond

theorem ofNumeral?_finds {n : Numeral} (held : InWord n) :
    Finds n.quantity (finestScale (-n.power)) (ofNumeral? n) := by
  have finds := ofScaled?_finds held.1 (-n.power)
  rw [neg_neg] at finds
  rw [ofNumeral?_of_inWord held]
  exact finds

/-- The numerals with a value and their values. -/
theorem ofNumeral?_eq_some_iff {n : Numeral} {d : DecimalValue} :
    ofNumeral? n = some d ↔ InWord n ∧ RoundsDown n.quantity (finestScale (-n.power)) d := by
  by_cases held : InWord n
  · rw [(ofNumeral?_finds held).eq_some_iff (quantity_nonneg n), and_iff_right held]
  · rw [ofNumeral?_of_not_inWord held]
    exact iff_of_false nofun fun both => held both.1

/-- The numerals without a value: one that is too large, and one that cannot be held. -/
theorem ofNumeral?_eq_none_iff {n : Numeral} :
    ofNumeral? n = none ↔ (InWord n → 2 ^ 96 - 1 < ⌊n.quantity⌋₊) := by
  by_cases held : InWord n
  · rw [(ofNumeral?_finds held).eq_none_iff (quantity_nonneg n), forall_prop_of_true held]
  · exact iff_of_true (ofNumeral?_of_not_inWord held) fun other => absurd other held

/-- A mantissa that fits stays as it is. -/
theorem ofScaled?_of_fits {d : DecimalValue} (mantissa : d.mantissa ≤ maxMantissa)
    (scale : d.scale ≤ maxScale) : ofScaled? d.mantissa d.scale = some d := by
  have near : (d.scale : ℤ) ≤ maxScale := by exact_mod_cast scale
  rw [ofScaled?]
  by_cases zero : d.mantissa = 0
  · rw [if_pos zero, min_eq_left near, Int.toNat_natCast, ← zero]
  · rw [if_neg zero, if_neg (by omega), if_pos near, Int.toNat_natCast]
    cases places : d.scale with
    | zero => rw [fit?, if_pos mantissa, ← places]
    | succ less => rw [fit?, if_pos mantissa, ← places]

end DecimalValue

end VisualBasic
