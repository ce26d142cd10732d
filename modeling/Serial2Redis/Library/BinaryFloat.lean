import Mathlib.Algebra.Order.Field.Power
import Mathlib.Algebra.Order.Floor.Ring
import Mathlib.Data.Int.Log
import Mathlib.Data.Rat.Floor
import Mathlib.Tactic.FieldSimp
import Mathlib.Tactic.Linarith
import Mathlib.Tactic.Ring

/-!
Binary floating point numbers that are not negative, as rationals: rounding to the nearest
one, and their codes in memory. Rounding is monotone and keeps what is representable, which
is all that computations with whole numbers and their quotients need; that nothing is nearer
is what a conversion between two formats promises.
-/

namespace BinaryFloat

/-- The nearest integer, an even one in the middle between two. -/
def roundEven (x : ℚ) : ℤ :=
  if x - ⌊x⌋ < 1 / 2 then ⌊x⌋
  else if 1 / 2 < x - ⌊x⌋ then ⌊x⌋ + 1
  else if ⌊x⌋ % 2 = 0 then ⌊x⌋ else ⌊x⌋ + 1

theorem round_even_near (x : ℚ) : ⌊x⌋ ≤ roundEven x ∧ roundEven x ≤ ⌊x⌋ + 1 := by
  unfold roundEven
  split_ifs <;> omega

theorem round_even_nearest (x : ℚ) (n : ℤ) : |(roundEven x : ℚ) - x| ≤ |(n : ℚ) - x| := by
  have below := Int.floor_le x
  have above := Int.lt_floor_add_one x
  have left : x - n ≤ |(n : ℚ) - x| := by
    rw [abs_sub_comm]
    exact le_abs_self _
  have right : (n : ℚ) - x ≤ |(n : ℚ) - x| := le_abs_self _
  have sides : (n : ℚ) ≤ ⌊x⌋ ∨ (⌊x⌋ : ℚ) + 1 ≤ n := by
    rcases lt_or_ge ⌊x⌋ n with more | less
    · exact .inr (by exact_mod_cast more)
    · exact .inl (by exact_mod_cast less)
  unfold roundEven
  split_ifs
  all_goals
    push_cast
    rw [abs_le]
    rcases sides with less | more <;> constructor <;> linarith

theorem round_even_mono {x y : ℚ} (ordered : x ≤ y) : roundEven x ≤ roundEven y := by
  rcases (Int.floor_le_floor ordered).lt_or_eq with less | same
  · exact (round_even_near x).2.trans ((Int.add_one_le_of_lt less).trans (round_even_near y).1)
  · unfold roundEven
    rw [same]
    split_ifs <;> first | omega | (exfalso; linarith)

theorem round_even_int (n : ℤ) : roundEven n = n := by
  have half : ¬(1 / 2 : ℚ) ≤ 0 := by norm_num
  rw [roundEven, Int.floor_intCast, sub_self, if_pos (not_le.mp half)]

/-- `digits` binary digits in front of a power of two that is at least `2 ^ least`; the code
`infinity` and those above it are no numbers. -/
structure BinaryFormat where
  digits : ℕ
  least : ℤ
  infinity : ℕ
  positive : 0 < digits

namespace BinaryFormat

variable (format : BinaryFormat)

/-- The exponent of the last digit that a number keeps. -/
def exponent (x : ℚ) : ℤ :=
  if x = 0 then format.least else max (Int.log 2 x + 1 - format.digits) format.least

def significand (x : ℚ) : ℤ := roundEven (x / 2 ^ format.exponent x)

/-- The nearest number of the format, as if there were no greatest one. -/
def round (x : ℚ) : ℚ := format.significand x * 2 ^ format.exponent x

/-- The code of the nearest number. -/
def encode (x : ℚ) : ℕ :=
  min ((format.exponent x - format.least).toNat * 2 ^ (format.digits - 1) +
    (format.significand x).toNat) format.infinity

def decode (code : ℕ) : ℚ :=
  if code / 2 ^ (format.digits - 1) = 0 then
    (code % 2 ^ (format.digits - 1) : ℕ) * 2 ^ format.least
  else
    (2 ^ (format.digits - 1) + code % 2 ^ (format.digits - 1) : ℕ) *
      2 ^ (format.least + (code / 2 ^ (format.digits - 1) : ℕ) - 1)

/-- A number that the format holds if its exponent is not too great. -/
def Representable (x : ℚ) : Prop :=
  ∃ (m : ℕ) (k : ℤ), x = m * 2 ^ k ∧ m < 2 ^ format.digits ∧ format.least ≤ k

variable {format}

theorem two_zpow_pos (k : ℤ) : (0 : ℚ) < 2 ^ k := zpow_pos two_pos k

theorem zpow_split (m : ℤ) (k : ℤ) : (2 : ℚ) ^ (m + k) = 2 ^ m * 2 ^ k :=
  zpow_add₀ two_ne_zero m k

/-- A number has all its digits in front of its exponent, and is not shorter than it must
be. -/
theorem exponent_bounds (format : BinaryFormat) {x : ℚ} (positive : 0 < x) :
    x < 2 ^ (format.digits + format.exponent x) ∧
      (format.least < format.exponent x → 2 ^ (format.digits - 1 + format.exponent x) ≤ x) := by
  have above : x < 2 ^ (Int.log 2 x + 1) := by
    exact_mod_cast Int.lt_zpow_succ_log_self Nat.one_lt_two x
  have below : 2 ^ Int.log 2 x ≤ x := by
    exact_mod_cast Int.zpow_log_le_self Nat.one_lt_two positive
  have exponent : format.exponent x = max (Int.log 2 x + 1 - format.digits) format.least :=
    if_neg positive.ne'
  rw [exponent]
  constructor
  · exact above.trans_le (zpow_le_zpow_right₀ one_le_two (by omega))
  · intro normal
    have digits : (format.digits : ℤ) - 1 + max (Int.log 2 x + 1 - format.digits) format.least =
        Int.log 2 x := by omega
    rw [digits]
    exact below

theorem least_le_exponent (format : BinaryFormat) (x : ℚ) : format.least ≤ format.exponent x := by
  unfold exponent
  split_ifs
  · exact le_rfl
  · exact le_max_right _ _

theorem exponent_mono (format : BinaryFormat) {x y : ℚ} (positive : 0 < x) (ordered : x ≤ y) :
    format.exponent x ≤ format.exponent y := by
  rw [exponent, exponent, if_neg positive.ne', if_neg (positive.trans_le ordered).ne']
  have logs := Int.log_mono_right (b := 2) positive ordered
  omega

theorem significand_nonneg (format : BinaryFormat) {x : ℚ} (nonneg : 0 ≤ x) :
    0 ≤ format.significand x := by
  have scaled : (0 : ℚ) ≤ x / 2 ^ format.exponent x := div_nonneg nonneg (two_zpow_pos _).le
  have rounded := round_even_mono scaled
  rwa [show roundEven 0 = 0 from round_even_int 0] at rounded

theorem significand_le (format : BinaryFormat) {x : ℚ} (nonneg : 0 ≤ x) :
    format.significand x ≤ 2 ^ format.digits := by
  rcases nonneg.eq_or_lt with rfl | positive
  · rw [significand, zero_div]
    exact (round_even_int 0).le.trans (by positivity)
  · have bound := (format.exponent_bounds positive).1
    rw [zpow_split, zpow_natCast, ← div_lt_iff₀ (two_zpow_pos _)] at bound
    have whole : ((2 ^ format.digits : ℤ) : ℚ) = 2 ^ format.digits := by push_cast; rfl
    rw [← whole] at bound
    exact (round_even_mono bound.le).trans (round_even_int _).le

/-- Above the smallest exponent the first digit is set. -/
theorem significand_ge {x : ℚ} (positive : 0 < x)
    (normal : format.least < format.exponent x) :
    2 ^ (format.digits - 1) ≤ format.significand x := by
  have bound := (format.exponent_bounds positive).2 normal
  have digits : ((format.digits - 1 : ℕ) : ℤ) = format.digits - 1 := by
    have some := format.positive
    omega
  rw [← digits, zpow_split, zpow_natCast, ← le_div_iff₀ (two_zpow_pos _)] at bound
  have whole : ((2 ^ (format.digits - 1) : ℤ) : ℚ) = 2 ^ (format.digits - 1) := by push_cast; rfl
  rw [← whole] at bound
  exact (round_even_int _).ge.trans (round_even_mono bound)

/-- With one exponent rounding is that of integers; a greater exponent leaves a power of two
between the two numbers. -/
theorem round_mono (format : BinaryFormat) {x y : ℚ} (nonneg : 0 ≤ x) (ordered : x ≤ y) :
    format.round x ≤ format.round y := by
  rcases nonneg.eq_or_lt with rfl | positive
  · have zero : format.round 0 = 0 := by
      rw [round, significand, zero_div, show roundEven 0 = 0 from round_even_int 0,
        Int.cast_zero, zero_mul]
    rw [zero]
    have digits := format.significand_nonneg ordered
    exact mul_nonneg (by exact_mod_cast digits) (two_zpow_pos _).le
  · unfold round
    rcases (format.exponent_mono positive ordered).eq_or_lt with same | less
    · have digits : format.significand x ≤ format.significand y := by
        unfold significand
        rw [same]
        exact round_even_mono (div_le_div_of_nonneg_right ordered (two_zpow_pos _).le)
      rw [same]
      exact mul_le_mul_of_nonneg_right (by exact_mod_cast digits) (two_zpow_pos _).le
    · have top : (format.significand x : ℚ) ≤ 2 ^ format.digits := by
        exact_mod_cast format.significand_le positive.le
      have first : (2 : ℚ) ^ (format.digits - 1) ≤ format.significand y := by
        exact_mod_cast significand_ge (positive.trans_le ordered)
          ((format.least_le_exponent x).trans_lt less)
      have some := format.positive
      calc (format.significand x : ℚ) * 2 ^ format.exponent x
        _ ≤ 2 ^ format.digits * 2 ^ format.exponent x :=
          mul_le_mul_of_nonneg_right top (two_zpow_pos _).le
        _ = 2 ^ (format.digits + format.exponent x) := by rw [zpow_split, zpow_natCast]
        _ ≤ 2 ^ (((format.digits - 1 : ℕ) : ℤ) + format.exponent y) :=
          zpow_le_zpow_right₀ one_le_two (by omega)
        _ = 2 ^ (format.digits - 1) * 2 ^ format.exponent y := by rw [zpow_split, zpow_natCast]
        _ ≤ format.significand y * 2 ^ format.exponent y :=
          mul_le_mul_of_nonneg_right first (two_zpow_pos _).le

theorem exponent_le (format : BinaryFormat) {m : ℕ} {k : ℤ} (small : m < 2 ^ format.digits)
    (least : format.least ≤ k) :
    format.exponent (m * 2 ^ k) ≤ k := by
  unfold exponent
  split_ifs with zero
  · exact least
  · have positive : (0 : ℚ) < m * 2 ^ k :=
      lt_of_le_of_ne (mul_nonneg (Nat.cast_nonneg m) (two_zpow_pos k).le) (Ne.symm zero)
    have below : (m : ℚ) * 2 ^ k < ((2 : ℕ) : ℚ) ^ ((format.digits : ℤ) + k) := by
      rw [Nat.cast_two, zpow_split, zpow_natCast]
      exact mul_lt_mul_of_pos_right (by exact_mod_cast small) (two_zpow_pos k)
    have log := (Int.lt_zpow_iff_log_lt Nat.one_lt_two positive).mp below
    omega

theorem significand_scaled (m : ℕ) (k : ℤ) (small : m < 2 ^ format.digits)
    (least : format.least ≤ k) :
    format.significand (m * 2 ^ k) = m * 2 ^ (k - format.exponent (m * 2 ^ k)).toNat := by
  have below := format.exponent_le small least
  have split : (k - format.exponent (m * 2 ^ k)).toNat = k - format.exponent (m * 2 ^ k) := by
    omega
  rw [significand, mul_div_assoc, ← zpow_sub₀ two_ne_zero, ← split, zpow_natCast]
  exact_mod_cast round_even_int (m * 2 ^ (k - format.exponent (m * 2 ^ k)).toNat)

theorem round_representable {x : ℚ} (representable : format.Representable x) :
    format.round x = x := by
  rcases representable with ⟨m, k, rfl, small, least⟩
  have below := format.exponent_le small least
  have split : ((k - format.exponent (m * 2 ^ k)).toNat : ℤ) + format.exponent (m * 2 ^ k) = k := by
    omega
  rw [round, significand_scaled m k small least]
  push_cast
  rw [mul_assoc, ← zpow_natCast, ← zpow_split, split]

theorem whole_representable (format : BinaryFormat) (n : ℕ) (small : n < 2 ^ format.digits)
    (least : format.least ≤ 0) : format.Representable n := ⟨n, 0, by simp, small, least⟩

/-- A number between two of the format is rounded to one between them. -/
theorem round_between {x low high : ℚ} (nonneg : 0 ≤ low)
    (lowRepresentable : format.Representable low) (highRepresentable : format.Representable high)
    (above : low ≤ x) (below : x ≤ high) : low ≤ format.round x ∧ format.round x ≤ high := by
  have fromLow := format.round_mono nonneg above
  have toHigh := format.round_mono (nonneg.trans above) below
  rw [round_representable lowRepresentable] at fromLow
  rw [round_representable highRepresentable] at toHigh
  exact ⟨fromLow, toHigh⟩

/-- A number that is finer than the digits of another one lies below all of its binade, so
below an integer of digits. -/
theorem round_nearest (format : BinaryFormat) {x y : ℚ} (nonneg : 0 ≤ x)
    (representable : format.Representable y) : |format.round x - x| ≤ |y - x| := by
  have unit := two_zpow_pos (format.exponent x)
  have near : ∀ n : ℤ, |format.round x - x| ≤ |n * 2 ^ format.exponent x - x| := by
    intro n
    have scaled : ∀ m : ℤ, m * 2 ^ format.exponent x - x =
        (m - x / 2 ^ format.exponent x) * 2 ^ format.exponent x := by
      intro m
      rw [sub_mul, div_mul_cancel₀ _ unit.ne']
    rw [round, significand, scaled, scaled, abs_mul, abs_mul]
    exact mul_le_mul_of_nonneg_right (round_even_nearest _ n) (abs_nonneg _)
  rcases representable with ⟨m, k, rfl, small, least⟩
  rcases le_or_gt (format.exponent x) k with coarse | fine
  · have whole : (m : ℚ) * 2 ^ k =
        (m * 2 ^ (k - format.exponent x).toNat : ℤ) * 2 ^ format.exponent x := by
      have split : ((k - format.exponent x).toNat : ℤ) + format.exponent x = k := by omega
      push_cast
      rw [mul_assoc, ← zpow_natCast, ← zpow_split, split]
    rw [whole]
    exact near _
  · have positive : 0 < x := by
      refine lt_of_le_of_ne nonneg fun zero => ?_
      rw [exponent, if_pos zero.symm] at fine
      omega
    have first := (format.exponent_bounds positive).2 (least.trans_lt fine)
    have digits : ((format.digits - 1 : ℕ) : ℤ) = format.digits - 1 := by
      have some := format.positive
      omega
    have below : (m : ℚ) * 2 ^ k ≤ 2 ^ (format.digits - 1 + format.exponent x) := by
      calc (m : ℚ) * 2 ^ k
        _ ≤ 2 ^ format.digits * 2 ^ k :=
          mul_le_mul_of_nonneg_right (by exact_mod_cast small.le) (two_zpow_pos k).le
        _ = 2 ^ (format.digits + k) := by rw [zpow_split, zpow_natCast]
        _ ≤ 2 ^ (format.digits - 1 + format.exponent x) :=
          zpow_le_zpow_right₀ one_le_two (by omega)
    have start := near (2 ^ (format.digits - 1) : ℕ)
    push_cast at start
    rw [← zpow_natCast, ← zpow_split, digits, abs_of_nonpos (sub_nonpos.mpr first), neg_sub]
      at start
    rw [abs_of_nonpos (sub_nonpos.mpr (below.trans first)), neg_sub]
    linarith

theorem digits_split (digits : ℕ) (positive : 0 < digits) :
    2 ^ digits = 2 * 2 ^ (digits - 1) := by
  rw [← pow_succ', Nat.sub_add_cancel positive]

/-- The digits of a code, and whether its first one is left out. -/
theorem decode_representable (format : BinaryFormat) (code : ℕ) :
    format.Representable (format.decode code) := by
  have rest := Nat.mod_lt code (Nat.two_pow_pos (format.digits - 1))
  have whole := digits_split format.digits format.positive
  unfold decode
  split_ifs with subnormal
  · exact ⟨_, format.least, rfl, by omega, le_rfl⟩
  · have field : (1 : ℤ) ≤ (code / 2 ^ (format.digits - 1) : ℕ) := by
      exact_mod_cast Nat.one_le_iff_ne_zero.mpr subnormal
    exact ⟨_, _, rfl, by omega, by linarith⟩

theorem decode_nonneg (format : BinaryFormat) (code : ℕ) : 0 ≤ format.decode code := by
  obtain ⟨m, k, same, _, _⟩ := format.decode_representable code
  rw [same]
  exact mul_nonneg (Nat.cast_nonneg m) (two_zpow_pos k).le

/-- A code that is a number is the code of that number. -/
theorem encode_decode {code : ℕ} (finite : code < format.infinity) :
    format.encode (format.decode code) = code := by
  have rest := Nat.mod_lt code (Nat.two_pow_pos (format.digits - 1))
  have whole := digits_split format.digits format.positive
  have parts := Nat.div_add_mod code (2 ^ (format.digits - 1))
  rw [encode]
  unfold decode
  generalize code / 2 ^ (format.digits - 1) = field at parts ⊢
  generalize code % 2 ^ (format.digits - 1) = fraction at parts rest ⊢
  split_ifs with subnormal
  · have small : fraction < 2 ^ format.digits := by omega
    have exponent := le_antisymm (format.exponent_le small le_rfl) (format.least_le_exponent
      (fraction * 2 ^ format.least))
    rw [significand_scaled fraction format.least small le_rfl, exponent, sub_self]
    subst subnormal
    simp only [Int.toNat_zero, zero_mul, pow_zero, mul_one, Int.toNat_natCast, zero_add]
    rw [mul_zero, zero_add] at parts
    omega
  · have small : 2 ^ (format.digits - 1) + fraction < 2 ^ format.digits := by omega
    have least : format.least ≤ format.least + field - 1 := by omega
    have positive : (0 : ℚ) <
        (2 ^ (format.digits - 1) + fraction : ℕ) * 2 ^ (format.least + field - 1) :=
      mul_pos (by positivity) (two_zpow_pos _)
    have log : (format.digits - 1 : ℤ) + (format.least + field - 1) ≤
        Int.log 2 ((2 ^ (format.digits - 1) + fraction : ℕ) *
          (2 : ℚ) ^ (format.least + field - 1)) := by
      rw [← Int.zpow_le_iff_le_log Nat.one_lt_two positive, Nat.cast_two, zpow_split]
      have digits : ((format.digits - 1 : ℕ) : ℤ) = format.digits - 1 := by
        have some := format.positive
        omega
      rw [← digits, zpow_natCast]
      apply mul_le_mul_of_nonneg_right _ (two_zpow_pos _).le
      push_cast
      exact le_add_of_nonneg_right (Nat.cast_nonneg fraction)
    have upper := format.exponent_le small least
    have exponent : format.exponent ((2 ^ (format.digits - 1) + fraction : ℕ) *
        2 ^ (format.least + field - 1)) = format.least + field - 1 := by
      apply le_antisymm upper
      rw [BinaryFormat.exponent, if_neg positive.ne']
      omega
    rw [significand_scaled _ _ small least, exponent, sub_self, Int.toNat_zero, pow_zero, mul_one,
      Int.toNat_natCast]
    have shift : (format.least + field - 1 - format.least).toNat = field - 1 := by omega
    have product : (field - 1) * 2 ^ (format.digits - 1) + 2 ^ (format.digits - 1) =
        2 ^ (format.digits - 1) * field := by
      rw [← Nat.succ_mul, Nat.succ_eq_add_one, Nat.sub_add_cancel (Nat.pos_of_ne_zero subnormal),
        Nat.mul_comm]
    rw [shift]
    omega

/-- The code of a number that the format has room for gives back the number, rounded. -/
theorem decode_encode {x : ℚ} (nonneg : 0 ≤ x) (finite : format.encode x < format.infinity) :
    format.decode (format.encode x) = format.round x := by
  have whole := digits_split format.digits format.positive
  have lower := format.significand_nonneg nonneg
  have upper := format.significand_le nonneg
  have least := format.least_le_exponent x
  have first : format.least < format.exponent x →
      2 ^ (format.digits - 1) ≤ format.significand x := by
    intro normal
    rcases nonneg.eq_or_lt with rfl | positive
    · rw [exponent, if_pos rfl] at normal
      exact absurd normal (lt_irrefl _)
    · exact significand_ge positive normal
  have code : format.encode x =
      (format.exponent x - format.least).toNat * 2 ^ (format.digits - 1) +
        (format.significand x).toNat := by
    unfold encode at finite ⊢
    omega
  obtain ⟨digits, significand⟩ := Int.eq_ofNat_of_zero_le lower
  obtain ⟨shift, exponent⟩ := Int.eq_ofNat_of_zero_le (sub_nonneg.mpr least)
  have place : format.exponent x = format.least + shift := by omega
  rw [code, round, significand, exponent, place, Int.toNat_natCast, Int.toNat_natCast]
  rw [significand] at first upper
  have top : digits ≤ 2 * 2 ^ (format.digits - 1) := by
    rw [← whole]
    exact_mod_cast upper
  have half := Nat.two_pow_pos (format.digits - 1)
  unfold decode
  generalize power : 2 ^ (format.digits - 1) = unit at top half ⊢
  rcases Nat.lt_or_ge digits unit with subnormal | normal
  · -- fewer digits are left only at the smallest exponent
    have zero : shift = 0 := by
      by_contra some
      have set := first (by omega)
      have natural : 2 ^ (format.digits - 1) ≤ digits := by exact_mod_cast set
      omega
    subst zero
    rw [zero_mul, zero_add, Nat.div_eq_of_lt subnormal, if_pos rfl, Nat.mod_eq_of_lt subnormal]
    simp
  · rcases top.lt_or_eq with short | carried
    · have field : (shift * unit + digits) / unit = shift + 1 := by
        rw [Nat.div_eq_iff half]
        constructor
        · rw [Nat.succ_mul]
          omega
        · rw [Nat.succ_mul]
          omega
      have fraction : (shift * unit + digits) % unit = digits - unit := by
        have parts := Nat.div_add_mod (shift * unit + digits) unit
        rw [field, Nat.mul_succ, Nat.mul_comm] at parts
        omega
      rw [field, fraction, if_neg (Nat.succ_ne_zero shift)]
      have sum : unit + (digits - unit) = digits := by omega
      rw [sum]
      push_cast
      congr 2
      ring
    · have field : (shift * unit + digits) / unit = shift + 2 := by
        rw [carried, ← Nat.add_mul, Nat.mul_div_cancel _ half]
      have fraction : (shift * unit + digits) % unit = 0 := by
        rw [carried, ← Nat.add_mul, Nat.mul_mod_left]
      rw [field, fraction, if_neg (by omega), carried]
      push_cast
      rw [show format.least + ((shift : ℤ) + 2) - 1 = 1 + (format.least + shift) by ring,
        zpow_split, zpow_one]
      ring

/-- A number of a narrow format survives a wider one. -/
theorem encode_through (format wide : BinaryFormat) {code : ℕ}
    (digits : format.digits ≤ wide.digits) (least : wide.least ≤ format.least)
    (finite : code < format.infinity)
    (room : wide.encode (format.decode code) < wide.infinity) :
    format.encode (wide.decode (wide.encode (format.decode code))) = code := by
  obtain ⟨m, k, same, small, normal⟩ := format.decode_representable code
  have nonneg := format.decode_nonneg code
  have kept : wide.Representable (format.decode code) :=
    ⟨m, k, same, small.trans_le (Nat.pow_le_pow_right two_pos digits), least.trans normal⟩
  rw [decode_encode nonneg room, round_representable kept, encode_decode finite]

/-- A number below a power of two has a code below that of the power. -/
theorem encode_lt (top : ℤ) {x : ℚ} (positive : 0 < x) (below : x < 2 ^ top)
    (room : (max (top - format.digits) format.least - format.least).toNat *
      2 ^ (format.digits - 1) + 2 ^ format.digits < format.infinity) :
    format.encode x < format.infinity := by
  have digits := format.significand_le positive.le
  have natural : (format.significand x).toNat ≤ 2 ^ format.digits := by
    rw [Int.toNat_le]
    exact_mod_cast digits
  have log : Int.log 2 x < top :=
    (Int.lt_zpow_iff_log_lt Nat.one_lt_two positive).mp (by exact_mod_cast below)
  have place : format.exponent x ≤ max (top - format.digits) format.least := by
    rw [exponent, if_neg positive.ne']
    omega
  have shift : (format.exponent x - format.least).toNat ≤
      (max (top - format.digits) format.least - format.least).toNat := by omega
  have scaled := Nat.mul_le_mul_right (2 ^ (format.digits - 1)) shift
  unfold encode
  omega

end BinaryFormat

def binary32 : BinaryFormat where
  digits := 24
  least := -149
  infinity := 255 * 2 ^ 23
  positive := by decide

def binary64 : BinaryFormat where
  digits := 53
  least := -1074
  infinity := 2047 * 2 ^ 52
  positive := by decide

/-- The conversion of `double` to `float`; what is no number stays none. -/
def toBinary32 (bits : BitVec 64) : BitVec 32 :=
  let code := (bits.setWidth 63).toNat
  let magnitude :=
    if code < binary64.infinity then binary32.encode (binary64.decode code)
    else if code = binary64.infinity then binary32.infinity
    else binary32.infinity ||| 2 ^ 22 ||| code / 2 ^ 29 % 2 ^ 22
  bits.extractLsb' 63 1 ++ BitVec.ofNat 31 magnitude

def toBinary64 (bits : BitVec 32) : BitVec 64 :=
  let code := (bits.setWidth 31).toNat
  let magnitude :=
    if code < binary32.infinity then binary64.encode (binary32.decode code)
    else if code = binary32.infinity then binary64.infinity
    else binary64.infinity ||| 2 ^ 51 ||| code % 2 ^ 22 * 2 ^ 29
  bits.extractLsb' 31 1 ++ BitVec.ofNat 63 magnitude

/-- Every `float` has its place among the numbers of a `double`. -/
theorem binary64_room {code : ℕ} (finite : code < binary32.infinity) :
    binary64.encode (binary32.decode code) < binary64.infinity := by
  have infinity : binary32.infinity = 255 * 2 ^ 23 := rfl
  unfold BinaryFormat.decode
  rw [show binary32.digits - 1 = 23 from rfl, show binary32.least = -149 from rfl]
  split_ifs with subnormal
  · have fraction := Nat.mod_lt code (Nat.two_pow_pos 23)
    rcases Nat.eq_zero_or_pos (code % 2 ^ 23) with none | some
    · rw [none, Nat.cast_zero, zero_mul]
      decide +kernel
    · apply BinaryFormat.encode_lt 0
      · exact mul_pos (by exact_mod_cast some) (BinaryFormat.two_zpow_pos _)
      · calc ((code % 2 ^ 23 : ℕ) : ℚ) * 2 ^ (-149 : ℤ)
          _ < 2 ^ (23 : ℕ) * 2 ^ (-149 : ℤ) :=
            mul_lt_mul_of_pos_right (by exact_mod_cast fraction) (BinaryFormat.two_zpow_pos _)
          _ = 2 ^ (-126 : ℤ) := by
            rw [← zpow_natCast, ← BinaryFormat.zpow_split]
            rfl
          _ ≤ 2 ^ (0 : ℤ) := zpow_le_zpow_right₀ one_le_two (by decide)
      · decide
  · have fraction := Nat.mod_lt code (Nat.two_pow_pos 23)
    have field : code / 2 ^ 23 ≤ 254 := by omega
    apply BinaryFormat.encode_lt 129
    · exact mul_pos (by positivity) (BinaryFormat.two_zpow_pos _)
    · calc ((2 ^ 23 + code % 2 ^ 23 : ℕ) : ℚ) * 2 ^ ((-149 : ℤ) + (code / 2 ^ 23 : ℕ) - 1)
        _ < 2 ^ (24 : ℕ) * 2 ^ ((-149 : ℤ) + (code / 2 ^ 23 : ℕ) - 1) := by
          apply mul_lt_mul_of_pos_right _ (BinaryFormat.two_zpow_pos _)
          exact_mod_cast (by omega : 2 ^ 23 + code % 2 ^ 23 < 2 ^ 24)
        _ = 2 ^ ((24 : ℤ) + ((-149 : ℤ) + (code / 2 ^ 23 : ℕ) - 1)) := by
          rw [BinaryFormat.zpow_split 24, ← zpow_natCast]
          rfl
        _ ≤ 2 ^ (129 : ℤ) := zpow_le_zpow_right₀ one_le_two (by omega)
    · decide

theorem sign_append (bits : BitVec 32) (magnitude : BitVec 63) :
    (bits.extractLsb' 31 1 ++ magnitude).setWidth 63 = magnitude ∧
      (bits.extractLsb' 31 1 ++ magnitude).extractLsb' 63 1 = bits.extractLsb' 31 1 :=
  ⟨BitVec.setWidth_append_eq_right, BitVec.extractLsb'_append_eq_left⟩

/-- A number stays one, if only an infinite one. -/
theorem to_binary32_number (bits : BitVec 64)
    (number : (bits.setWidth 63).toNat ≤ binary64.infinity) :
    ((toBinary32 bits).setWidth 31).toNat ≤ binary32.infinity := by
  have magnitude : ∀ code, code ≤ binary32.infinity →
      ((bits.extractLsb' 63 1 ++ BitVec.ofNat 31 code).setWidth 31).toNat ≤
        binary32.infinity := by
    intro code small
    rw [BitVec.setWidth_append_eq_right, BitVec.toNat_ofNat,
      Nat.mod_eq_of_lt (small.trans_lt (by decide))]
    exact small
  rw [toBinary32]
  rcases number.lt_or_eq with finite | infinite
  · simp only [finite, if_true]
    exact magnitude _ (min_le_right _ _)
  · simp only [infinite, lt_irrefl, if_false, if_true]
    exact magnitude _ le_rfl

/-- The `float` has the sign of the `double`, and no other has a magnitude nearer to its. -/
structure NearestFloat (bits : BitVec 64) (single : BitVec 32) : Prop where
  sign : single.extractLsb' 31 1 = bits.extractLsb' 63 1
  nearest : ∀ code < binary32.infinity,
    |binary32.decode (single.setWidth 31).toNat - binary64.decode (bits.setWidth 63).toNat| ≤
      |binary32.decode code - binary64.decode (bits.setWidth 63).toNat|

theorem to_binary32_nearest (bits : BitVec 64)
    (number : (bits.setWidth 63).toNat ≤ binary64.infinity)
    (finite : ((toBinary32 bits).setWidth 31).toNat < binary32.infinity) :
    NearestFloat bits (toBinary32 bits) := by
  have magnitude : ∀ code, code ≤ binary32.infinity →
      ((bits.extractLsb' 63 1 ++ BitVec.ofNat 31 code).setWidth 31).toNat = code := by
    intro code small
    rw [BitVec.setWidth_append_eq_right, BitVec.toNat_ofNat,
      Nat.mod_eq_of_lt (small.trans_lt (by decide))]
  rw [toBinary32] at finite ⊢
  rcases number.lt_or_eq with inside | infinite
  · simp only [inside, if_true] at finite ⊢
    have code := magnitude (binary32.encode (binary64.decode (bits.setWidth 63).toNat))
      (min_le_right _ _)
    have nonneg := binary64.decode_nonneg (bits.setWidth 63).toNat
    rw [code] at finite
    apply NearestFloat.mk BitVec.extractLsb'_append_eq_left
    intro other _
    rw [code, BinaryFormat.decode_encode nonneg finite]
    exact binary32.round_nearest nonneg (binary32.decode_representable other)
  · simp only [infinite, lt_irrefl, if_false, if_true] at finite
    rw [magnitude _ le_rfl] at finite
    exact absurd finite (lt_irrefl _)

/-- A `float` that is a number comes back from a `double`. -/
theorem to_binary32_widened (bits : BitVec 32)
    (number : (bits.setWidth 31).toNat ≤ binary32.infinity) :
    toBinary32 (toBinary64 bits) = bits := by
  have whole : bits.extractLsb' 31 1 ++ bits.setWidth 31 = bits := by
    apply BitVec.eq_of_getLsbD_eq
    intro i inside
    rw [BitVec.getLsbD_append, BitVec.getLsbD_setWidth, BitVec.getLsbD_extractLsb']
    by_cases low : i < 31
    · simp [low]
    · have top : i = 31 := by omega
      simp [top]
  rw [toBinary32, toBinary64]
  simp only [(sign_append bits _).1, (sign_append bits _).2]
  rcases number.lt_or_eq with finite | infinite
  · have room := binary64_room finite
    have small : binary64.encode (binary32.decode (bits.setWidth 31).toNat) < 2 ^ 63 :=
      room.trans (by decide)
    have back := binary32.encode_through binary64 (by decide) (by decide) finite room
    rw [if_pos finite, BitVec.toNat_ofNat, Nat.mod_eq_of_lt small, if_pos room, back,
      BitVec.ofNat_toNat, BitVec.setWidth_eq]
    exact whole
  · have code : BitVec.ofNat 31 binary32.infinity = bits.setWidth 31 := by
      rw [← infinite, BitVec.ofNat_toNat, BitVec.setWidth_eq]
    have wide : (BitVec.ofNat 63 binary64.infinity).toNat = binary64.infinity := by decide
    rw [if_neg infinite.not_lt, if_pos infinite, wide, if_neg (lt_irrefl _), if_pos rfl, code]
    exact whole

end BinaryFloat
