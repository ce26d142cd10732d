import Mathlib.Algebra.CharP.Two
import Mathlib.Algebra.Field.ZMod
import Mathlib.RingTheory.AdjoinRoot

/-!
A reflected cyclic redundancy register of any width, read as polynomial
arithmetic over the field with two elements. Bit `i` of a register of width `w`
is the coefficient of `X ^ (w - 1 - i)`, so one right shift with the conditional
feedback multiplies by `X` modulo the generator polynomial. Nothing here depends
on a particular generator, width or byte size.
-/

namespace ReflectedCrc

open Polynomial

variable {w : Nat}

/-- One step of the register: the generator word is fed back when the bit that
falls out on the right is one. -/
def shift (generator register : BitVec w) : BitVec w :=
  if register.getLsbD 0 then (register >>> 1) ^^^ generator else register >>> 1

def shifts (generator : BitVec w) : Nat → BitVec w → BitVec w
  | 0, register => register
  | count + 1, register => shifts generator count (shift generator register)

def absorb (generator : BitVec w) (count : Nat) (register word : BitVec w) : BitVec w :=
  shifts generator count (register ^^^ word)

def digest (generator : BitVec w) (count : Nat) (register : BitVec w)
    (words : List (BitVec w)) : BitVec w :=
  words.foldl (absorb generator count) register

noncomputable def polynomialOf (word : BitVec w) : (ZMod 2)[X] :=
  ∑ i ∈ Finset.range w, if word.getLsbD i then X ^ (w - 1 - i) else 0

noncomputable def generatorPolynomial (generator : BitVec w) : (ZMod 2)[X] :=
  X ^ w + polynomialOf generator

theorem polynomial_of_coeff (word : BitVec w) (k : Nat) :
    (polynomialOf word).coeff k = if k < w ∧ word.getLsbD (w - 1 - k) then 1 else 0 := by
  have term : ∀ i ∈ Finset.range w,
      (if word.getLsbD i then (X : (ZMod 2)[X]) ^ (w - 1 - i) else 0).coeff k =
        if i = w - 1 - k ∧ k < w ∧ word.getLsbD (w - 1 - k) then 1 else 0 := by
    intro i member
    have bounded := Finset.mem_range.mp member
    by_cases same : i = w - 1 - k ∧ k < w
    · obtain ⟨rfl, small⟩ := same
      have index : w - 1 - (w - 1 - k) = k := by omega
      by_cases bit : word.getLsbD (w - 1 - k) <;> simp [bit, small, index, coeff_X_pow]
    · have different : k ≠ w - 1 - i := by omega
      have absent : ¬(i = w - 1 - k ∧ k < w ∧ word.getLsbD (w - 1 - k)) := by
        intro present
        exact same ⟨present.1, present.2.1⟩
      by_cases bit : word.getLsbD i <;> simp [bit, absent, different, coeff_X_pow]
  rw [polynomialOf, finsetSum_coeff, Finset.sum_congr rfl term]
  by_cases present : k < w ∧ word.getLsbD (w - 1 - k)
  · have inside : w - 1 - k < w := by omega
    simp [present, inside]
  · simp [present]

theorem polynomial_of_degree_lt (word : BitVec w) : (polynomialOf word).degree < w := by
  rw [degree_lt_iff_coeff_zero]
  intro k large
  rw [polynomial_of_coeff, if_neg (by omega)]

theorem polynomial_of_injective : Function.Injective (polynomialOf (w := w)) := by
  intro left right same
  apply BitVec.eq_of_getLsbD_eq
  intro i bounded
  have coefficients := congrArg (fun p => p.coeff (w - 1 - i)) same
  have index : w - 1 - (w - 1 - i) = i := by omega
  have small : w - 1 - i < w := by omega
  simp only [polynomial_of_coeff, index, small, true_and] at coefficients
  cases leftBit : left.getLsbD i <;> cases rightBit : right.getLsbD i <;>
    simp [leftBit, rightBit] at coefficients ⊢

theorem polynomial_of_zero : polynomialOf (0 : BitVec w) = 0 := by
  ext k
  simp [polynomial_of_coeff]

theorem polynomial_of_xor (left right : BitVec w) :
    polynomialOf (left ^^^ right) = polynomialOf left + polynomialOf right := by
  ext k
  simp only [coeff_add, polynomial_of_coeff, BitVec.getLsbD_xor]
  by_cases small : k < w
  · cases left.getLsbD (w - 1 - k) <;> cases right.getLsbD (w - 1 - k) <;>
      simp [small, CharTwo.add_self_eq_zero]
  · simp [small]

/-- Shifting right multiplies by `X`; the bit that falls out becomes `X ^ w`. -/
theorem polynomial_of_shift_right (register : BitVec w) :
    X * polynomialOf register =
      polynomialOf (register >>> 1) + if register.getLsbD 0 then X ^ w else 0 := by
  ext k
  cases k with
  | zero =>
      rw [coeff_X_mul_zero, coeff_add, polynomial_of_coeff, BitVec.getLsbD_ushiftRight]
      cases w with
      | zero => simp [BitVec.getLsbD_of_ge]
      | succ w =>
          cases register.getLsbD 0 <;> simp [coeff_X_pow]
  | succ k =>
      rw [coeff_X_mul, coeff_add, polynomial_of_coeff, polynomial_of_coeff,
        BitVec.getLsbD_ushiftRight]
      rcases lt_trichotomy (k + 1) w with small | same | large
      · have index : 1 + (w - 1 - (k + 1)) = w - 1 - k := by omega
        have below : k < w := by omega
        have different : k + 1 ≠ w := by omega
        cases register.getLsbD 0 <;> simp [index, small, below, different, coeff_X_pow]
      · subst same
        have index : k + 1 - 1 - k = 0 := by omega
        rw [index]
        cases register.getLsbD 0 <;> simp [coeff_X_pow]
      · have above : ¬k < w := by omega
        have outside : ¬k + 1 < w := by omega
        have different : k + 1 ≠ w := by omega
        cases register.getLsbD 0 <;> simp [above, outside, different, coeff_X_pow]

theorem polynomial_of_shift (generator register : BitVec w) :
    X * polynomialOf register = polynomialOf (shift generator register) +
      if register.getLsbD 0 then generatorPolynomial generator else 0 := by
  rw [polynomial_of_shift_right, shift]
  by_cases bit : register.getLsbD 0
  · simp only [bit, if_true, polynomial_of_xor, generatorPolynomial]
    rw [add_comm (X ^ w) (polynomialOf generator), ← add_assoc,
      add_assoc (polynomialOf (register >>> 1)), CharTwo.add_self_eq_zero, add_zero]
  · simp [bit]

theorem generator_polynomial_degree (generator : BitVec w) :
    (generatorPolynomial generator).degree = w := by
  rw [generatorPolynomial, degree_add_eq_left_of_degree_lt] <;> rw [degree_X_pow]
  exact polynomial_of_degree_lt generator

/-- The register as an element of the quotient ring by the generator. -/
noncomputable def residue (generator register : BitVec w) :
    AdjoinRoot (generatorPolynomial generator) :=
  AdjoinRoot.mk _ (polynomialOf register)

theorem residue_injective (generator : BitVec w) : Function.Injective (residue generator) := by
  intro left right same
  apply polynomial_of_injective
  have divides := AdjoinRoot.mk_eq_mk.mp same
  have small : (polynomialOf left - polynomialOf right).degree <
      (generatorPolynomial generator).degree := by
    rw [generator_polynomial_degree]
    exact (degree_sub_le _ _).trans_lt
      (max_lt (polynomial_of_degree_lt left) (polynomial_of_degree_lt right))
  exact sub_eq_zero.mp (eq_zero_of_dvd_of_degree_lt divides small)

theorem residue_xor (generator left right : BitVec w) :
    residue generator (left ^^^ right) = residue generator left + residue generator right := by
  simp only [residue, polynomial_of_xor, map_add]

theorem residue_shift (generator register : BitVec w) :
    residue generator (shift generator register) =
      AdjoinRoot.root _ * residue generator register := by
  have product := congrArg (AdjoinRoot.mk (generatorPolynomial generator))
    (polynomial_of_shift generator register)
  rw [map_mul, map_add, AdjoinRoot.mk_X] at product
  rw [residue, residue, product]
  by_cases bit : register.getLsbD 0 <;> simp [bit]

theorem residue_shifts (generator : BitVec w) (count : Nat) (register : BitVec w) :
    residue generator (shifts generator count register) =
      AdjoinRoot.root _ ^ count * residue generator register := by
  induction count generalizing register with
  | zero => simp [shifts]
  | succ count induction =>
      rw [shifts, induction, residue_shift, pow_succ, mul_assoc]

/-- What absorbing one word does to a polynomial that stands for the register. -/
noncomputable def absorbPolynomial (count : Nat) (total : (ZMod 2)[X]) (word : BitVec w) :
    (ZMod 2)[X] :=
  X ^ count * (total + polynomialOf word)

theorem residue_absorb (generator : BitVec w) (count : Nat) (register word : BitVec w)
    (total : (ZMod 2)[X]) (stands : residue generator register = AdjoinRoot.mk _ total) :
    residue generator (absorb generator count register word) =
      AdjoinRoot.mk _ (absorbPolynomial count total word) := by
  rw [absorb, residue_shifts, residue_xor, stands, absorbPolynomial, map_mul, map_pow,
    AdjoinRoot.mk_X, map_add]
  rfl

theorem residue_digest (generator : BitVec w) (count : Nat) (register : BitVec w)
    (words : List (BitVec w)) (total : (ZMod 2)[X])
    (stands : residue generator register = AdjoinRoot.mk _ total) :
    residue generator (digest generator count register words) =
      AdjoinRoot.mk _ (words.foldl (absorbPolynomial count) total) := by
  induction words generalizing register total with
  | nil => exact stands
  | cons word words induction =>
      exact induction _ _ (residue_absorb generator count register word total stands)

/-- Two registers fed with two messages agree exactly when the generator divides
the difference of the message polynomials. -/
theorem digest_eq_iff (generator : BitVec w) (count : Nat) (register : BitVec w)
    (left right : List (BitVec w)) :
    digest generator count register left = digest generator count register right ↔
      generatorPolynomial generator ∣
        left.foldl (absorbPolynomial count) (polynomialOf register) -
          right.foldl (absorbPolynomial count) (polynomialOf register) := by
  rw [← (residue_injective generator).eq_iff, residue_digest generator count register left _ rfl,
    residue_digest generator count register right _ rfl, AdjoinRoot.mk_eq_mk]

end ReflectedCrc
