import Serial2Redis.Library.ReflectedCrc
import Mathlib.Algebra.Ring.Parity

/-!
Which transmission errors a reflected register notices. Two messages of one length
give the same register exactly when the register started at zero maps their
bitwise difference to zero, so an error is a message of its own. Words are sent in
order, each with its lowest bit first.
-/

namespace ReflectedCrc

open Polynomial

variable {w : Nat}

theorem shift_xor (generator left right : BitVec w) :
    shift generator (left ^^^ right) = shift generator left ^^^ shift generator right := by
  apply residue_injective generator
  rw [residue_xor, residue_shift, residue_shift, residue_shift, residue_xor, mul_add]

theorem shifts_xor (generator : BitVec w) (count : Nat) (left right : BitVec w) :
    shifts generator count (left ^^^ right) =
      shifts generator count left ^^^ shifts generator count right := by
  induction count generalizing left right with
  | zero => rfl
  | succ count induction => rw [shifts, shifts, shifts, shift_xor, induction]

theorem shifts_zero (generator : BitVec w) (count : Nat) : shifts generator count 0 = 0 := by
  have doubled := shifts_xor generator count 0 0
  simpa using doubled

/-- The register is linear: the difference of two digests is the digest of the
differences. -/
theorem digest_xor (generator : BitVec w) (count : Nat) (left right : List (BitVec w))
    (first second : BitVec w) (length : left.length = right.length) :
    digest generator count first left ^^^ digest generator count second right =
      digest generator count (first ^^^ second) (List.zipWith (· ^^^ ·) left right) := by
  induction left generalizing right first second with
  | nil =>
      have empty : right = [] := List.eq_nil_of_length_eq_zero length.symm
      subst empty
      rfl
  | cons word left induction =>
      cases right with
      | nil => simp at length
      | cons other right =>
          have step : absorb generator count first word ^^^ absorb generator count second other =
              absorb generator count (first ^^^ second) (word ^^^ other) := by
            unfold absorb
            rw [← shifts_xor]
            congr 1
            ac_rfl
          have rest := induction right (absorb generator count first word)
            (absorb generator count second other) (by simpa using length)
          rw [step] at rest
          exact rest

theorem digest_eq_iff_difference (generator : BitVec w) (count : Nat) (register : BitVec w)
    (left right : List (BitVec w)) (length : left.length = right.length) :
    digest generator count register left = digest generator count register right ↔
      digest generator count 0 (List.zipWith (· ^^^ ·) left right) = 0 := by
  have difference := digest_xor generator count left right register register length
  rw [BitVec.xor_self] at difference
  rw [← BitVec.xor_eq_zero_iff, difference]
  rfl

theorem digest_append (generator : BitVec w) (count : Nat) (register : BitVec w)
    (left right : List (BitVec w)) :
    digest generator count register (left ++ right) =
      digest generator count (digest generator count register left) right :=
  List.foldl_append

theorem digest_zeros (generator : BitVec w) (count zeros : Nat) :
    digest generator count 0 (List.replicate zeros 0) = 0 := by
  induction zeros with
  | zero => rfl
  | succ zeros induction =>
      have absorbed : absorb generator count 0 0 = 0 := by
        rw [absorb, BitVec.xor_self]
        exact shifts_zero generator count
      rw [List.replicate_succ, digest, List.foldl_cons, absorbed]
      exact induction

section Feedback

/-- The last bit of the feedback word is the constant term of the generator. -/
theorem generator_coprime_X (generator : BitVec w) (feedback : generator.msb = true) :
    IsCoprime (X : (ZMod 2)[X]) (generatorPolynomial generator) := by
  rw [irreducible_X.coprime_iff_not_dvd, X_dvd_iff]
  have positive : 0 < w := by
    rw [BitVec.msb_eq_getLsbD_last] at feedback
    by_contra none
    have empty : w = 0 := by omega
    subst empty
    simp at feedback
  rw [BitVec.msb_eq_getLsbD_last] at feedback
  rw [generatorPolynomial, coeff_add, coeff_X_pow, polynomial_of_coeff, if_neg (by omega), zero_add,
    if_pos ⟨positive, feedback⟩]
  exact one_ne_zero

theorem shifts_eq_zero_iff (generator : BitVec w) (feedback : generator.msb = true)
    (count : Nat) (register : BitVec w) :
    shifts generator count register = 0 ↔ register = 0 := by
  constructor
  · intro vanishes
    have same : residue generator (shifts generator count register) = residue generator 0 := by
      rw [vanishes]
    rw [residue_shifts, residue, residue, polynomial_of_zero, map_zero, ← AdjoinRoot.mk_X,
      ← map_pow, ← map_mul, AdjoinRoot.mk_eq_zero] at same
    have coprime := (generator_coprime_X generator feedback).symm.pow_right (n := count)
    have divides := coprime.dvd_of_dvd_mul_left same
    apply residue_injective generator
    rw [residue, residue, polynomial_of_zero, map_zero, AdjoinRoot.mk_eq_zero]
    exact divides
  · intro zero
    rw [zero]
    exact shifts_zero generator count

/-- The step that undoes `shift`: the top bit of the register tells whether the
generator was fed back. -/
def unshift (generator register : BitVec w) : BitVec w :=
  if register.msb then ((register ^^^ generator) <<< 1) ||| 1#w else register <<< 1

theorem unshift_shift (generator : BitVec w) (feedback : generator.msb = true)
    (register : BitVec w) : unshift generator (shift generator register) = register := by
  have restored : (register >>> 1) <<< 1 ||| (if register.getLsbD 0 then 1#w else 0#w) =
      register := by
    apply BitVec.eq_of_getLsbD_eq
    intro i bounded
    cases i with
    | zero => cases low : register.getLsbD 0 <;> simp [bounded]
    | succ i => cases low : register.getLsbD 0 <;> simp [Nat.add_comm, bounded]
  have top : (register >>> 1).msb = false := by simp
  unfold shift
  cases low : register.getLsbD 0 with
  | false =>
      rw [low] at restored
      simpa [unshift, top] using restored
  | true =>
      rw [low] at restored
      simpa [unshift, top, feedback, BitVec.msb_xor, BitVec.xor_assoc] using restored

def unshifts (generator : BitVec w) : Nat → BitVec w → BitVec w
  | 0, register => register
  | count + 1, register => unshift generator (unshifts generator count register)

theorem unshifts_shifts (generator : BitVec w) (feedback : generator.msb = true) (count : Nat)
    (register : BitVec w) :
    unshifts generator count (shifts generator count register) = register := by
  induction count generalizing register with
  | zero => rfl
  | succ count induction =>
      rw [shifts, unshifts, induction]
      exact unshift_shift generator feedback register

theorem digest_zeros_eq_zero_iff (generator : BitVec w) (feedback : generator.msb = true)
    (count zeros : Nat) (register : BitVec w) :
    digest generator count register (List.replicate zeros 0) = 0 ↔ register = 0 := by
  induction zeros generalizing register with
  | zero => rfl
  | succ zeros induction =>
      rw [List.replicate_succ, digest, List.foldl_cons]
      apply (induction _).trans
      have unchanged : register ^^^ 0 = register := BitVec.xor_zero
      rw [absorb, unchanged, shifts_eq_zero_iff generator feedback]

/-- Clean words around an error do not hide it. -/
theorem digest_padded_eq_zero_iff (generator : BitVec w) (feedback : generator.msb = true)
    (count before after : Nat) (words : List (BitVec w)) :
    digest generator count 0
        (List.replicate before 0 ++ words ++ List.replicate after 0) = 0 ↔
      digest generator count 0 words = 0 := by
  rw [digest_append, digest_append, digest_zeros, digest_zeros_eq_zero_iff generator feedback]

end Feedback

/-- A sequence of bits as a polynomial, the last bit the constant term. -/
noncomputable def bitPolynomial (bits : List Bool) : (ZMod 2)[X] :=
  bits.foldl (fun total bit => X * total + if bit then 1 else 0) 0

theorem bit_polynomial_fold (bits : List Bool) (total : (ZMod 2)[X]) :
    bits.foldl (fun total bit => X * total + if bit then 1 else 0) total =
      X ^ bits.length * total + bitPolynomial bits := by
  induction bits generalizing total with
  | nil => simp [bitPolynomial]
  | cons bit bits induction =>
      rw [bitPolynomial, List.foldl_cons, List.foldl_cons, induction, induction,
        List.length_cons, pow_succ]
      ring

theorem bit_polynomial_append (left right : List Bool) :
    bitPolynomial (left ++ right) =
      X ^ right.length * bitPolynomial left + bitPolynomial right := by
  rw [bitPolynomial, List.foldl_append, bit_polynomial_fold right]
  rfl

theorem bit_polynomial_cons (bit : Bool) (bits : List Bool) :
    bitPolynomial (bit :: bits) =
      X ^ bits.length * (if bit then 1 else 0) + bitPolynomial bits := by
  rw [bitPolynomial, List.foldl_cons, bit_polynomial_fold, mul_zero, zero_add]

theorem bit_polynomial_clear (bits : List Bool) (clear : ∀ bit ∈ bits, bit = false) :
    bitPolynomial bits = 0 := by
  induction bits with
  | nil => rfl
  | cons bit bits induction =>
      rw [bit_polynomial_cons, clear bit List.mem_cons_self,
        induction fun other member => clear other (List.mem_cons_of_mem _ member)]
      simp

theorem bit_polynomial_degree_lt (bits : List Bool) :
    (bitPolynomial bits).degree < bits.length := by
  induction bits with
  | nil => simp [bitPolynomial]
  | cons bit bits induction =>
      rw [bit_polynomial_cons, List.length_cons]
      refine (degree_add_le _ _).trans_lt (max_lt ?_ ?_)
      · cases bit with
        | false => simp
        | true =>
            rw [if_pos rfl, mul_one, degree_X_pow]
            exact_mod_cast Nat.lt_succ_self _
      · exact induction.trans (by exact_mod_cast Nat.lt_succ_self _)

theorem bit_polynomial_eq_zero_iff (bits : List Bool) :
    bitPolynomial bits = 0 ↔ ∀ bit ∈ bits, bit = false := by
  constructor
  · intro vanishes
    induction bits with
    | nil => simp
    | cons bit bits induction =>
        rw [bit_polynomial_cons] at vanishes
        have top := congrArg (fun p => p.coeff bits.length) vanishes
        have below : (bitPolynomial bits).coeff bits.length = 0 :=
          coeff_eq_zero_of_degree_lt (bit_polynomial_degree_lt bits)
        cases bit with
        | true => simp [below] at top
        | false =>
            have rest := induction (by simpa using vanishes)
            simpa using rest
  · exact bit_polynomial_clear bits

theorem bit_polynomial_eval_one (bits : List Bool) :
    (bitPolynomial bits).eval 1 = (bits.count true : ZMod 2) := by
  induction bits with
  | nil => simp [bitPolynomial]
  | cons bit bits induction =>
      rw [bit_polynomial_cons, eval_add, induction, eval_mul, eval_pow, eval_X, one_pow, one_mul,
        List.count_cons]
      cases bit <;> simp [add_comm]

/-- The lowest `count` bits of a word, lowest first. -/
def lowBits (count : Nat) (word : BitVec w) : List Bool := (List.range count).map word.getLsbD

/-- The bits of a message in the order they are sent. -/
def transmitted (count : Nat) (words : List (BitVec w)) : List Bool :=
  words.flatMap (lowBits count)

theorem low_bits_length (count : Nat) (word : BitVec w) : (lowBits count word).length = count := by
  simp [lowBits]

theorem low_bits_succ (count : Nat) (word : BitVec w) :
    lowBits (count + 1) word = word.getLsbD 0 :: lowBits count (word >>> 1) := by
  simp only [lowBits, List.range_succ_eq_map, List.map_cons, List.map_map]
  congr 1
  apply List.map_congr_left
  intro i _
  simp [Nat.add_comm]

theorem low_bits_clear_iff (count : Nat) (word : BitVec w) :
    (∀ bit ∈ lowBits count word, bit = false) ↔ ∀ i < count, word.getLsbD i = false := by
  simp [lowBits]

theorem transmitted_cons (count : Nat) (word : BitVec w) (words : List (BitVec w)) :
    transmitted count (word :: words) = lowBits count word ++ transmitted count words :=
  List.flatMap_cons

theorem transmitted_length (count : Nat) (words : List (BitVec w)) :
    (transmitted count words).length = count * words.length := by
  induction words with
  | nil => rfl
  | cons word words induction =>
      rw [transmitted_cons, List.length_append, low_bits_length, induction, List.length_cons,
        Nat.mul_succ, Nat.add_comm]

theorem word_clear_iff (count : Nat) (word : BitVec w)
    (clear : ∀ i, count ≤ i → word.getLsbD i = false) :
    (∀ bit ∈ lowBits count word, bit = false) ↔ word = 0 := by
  rw [low_bits_clear_iff]
  constructor
  · intro low
    apply BitVec.eq_of_getLsbD_eq
    intro i _
    rw [show (0 : BitVec w).getLsbD i = false from BitVec.getLsbD_zero]
    by_cases small : i < count
    · exact low i small
    · exact clear i (by omega)
  · intro zero i _
    rw [zero]
    exact BitVec.getLsbD_zero

theorem transmitted_clear_iff (count : Nat) (words : List (BitVec w))
    (clear : ∀ word ∈ words, ∀ i, count ≤ i → word.getLsbD i = false) :
    (∀ bit ∈ transmitted count words, bit = false) ↔ ∀ word ∈ words, word = 0 := by
  constructor
  · intro all word member
    apply (word_clear_iff count word (clear word member)).mp
    intro bit inside
    exact all bit (List.mem_flatMap.mpr ⟨word, member, inside⟩)
  · intro zeros bit member
    obtain ⟨word, inside, low⟩ := List.mem_flatMap.mp member
    exact (word_clear_iff count word (clear word inside)).mpr (zeros word inside) bit low

/-- A word without bits above the sent ones is its bits, moved to the top of the
register. -/
theorem polynomial_of_low_bits (count : Nat) (word : BitVec w) (small : count ≤ w)
    (clear : ∀ i, count ≤ i → word.getLsbD i = false) :
    polynomialOf word = X ^ (w - count) * bitPolynomial (lowBits count word) := by
  induction count generalizing word with
  | zero =>
      have zero : word = 0 := by
        apply BitVec.eq_of_getLsbD_eq
        intro i _
        simpa using clear i (Nat.zero_le i)
      rw [zero, polynomial_of_zero]
      simp [bitPolynomial, lowBits]
  | succ count induction =>
      have shifted : polynomialOf (word >>> 1) =
          X ^ (w - count) * bitPolynomial (lowBits count (word >>> 1)) := by
        apply induction _ (by omega)
        intro i large
        rw [BitVec.getLsbD_ushiftRight]
        exact clear _ (by omega)
      have step := polynomial_of_shift_right word
      have exponent : w - count = (w - (count + 1)) + 1 := by omega
      have power : (X : (ZMod 2)[X]) ^ w = X * X ^ (w - (count + 1)) * X ^ count := by
        rw [← pow_succ', ← pow_add]
        congr 1
        omega
      apply mul_left_cancel₀ (X_ne_zero (R := ZMod 2))
      rw [step, shifted, low_bits_succ, bit_polynomial_cons, low_bits_length, exponent, pow_succ',
        power]
      cases word.getLsbD 0 with
      | false =>
          simp only [Bool.false_eq_true, if_false]
          ring
      | true =>
          simp only [if_true]
          ring

/-- Words without bits above the sent ones make the message polynomial of the bits
sent, times `X ^ w`. -/
theorem absorb_polynomial_transmitted (count : Nat) (words : List (BitVec w)) (small : count ≤ w)
    (clear : ∀ word ∈ words, ∀ i, count ≤ i → word.getLsbD i = false) (total : (ZMod 2)[X]) :
    words.foldl (absorbPolynomial count) (X ^ w * total) =
      X ^ w * (X ^ (count * words.length) * total + bitPolynomial (transmitted count words)) := by
  induction words generalizing total with
  | nil => simp [transmitted, bitPolynomial]
  | cons word words induction =>
      have step : absorbPolynomial count (X ^ w * total) word =
          X ^ w * (X ^ count * total + bitPolynomial (lowBits count word)) := by
        have power : (X : (ZMod 2)[X]) ^ w = X ^ count * X ^ (w - count) := by
          rw [← pow_add, Nat.add_sub_cancel' small]
        rw [absorbPolynomial,
          polynomial_of_low_bits count word small (clear word List.mem_cons_self), power]
        ring
      rw [List.foldl_cons, step,
        induction fun other member => clear other (List.mem_cons_of_mem _ member),
        transmitted_cons, bit_polynomial_append, transmitted_length, List.length_cons, Nat.mul_succ,
        pow_add]
      ring

theorem digest_eq_zero_iff (generator : BitVec w) (count : Nat) (words : List (BitVec w)) :
    digest generator count 0 words = 0 ↔
      generatorPolynomial generator ∣ words.foldl (absorbPolynomial count) 0 := by
  have start : residue generator 0 = AdjoinRoot.mk _ 0 := by
    rw [residue, polynomial_of_zero]
  rw [← (residue_injective generator).eq_iff, residue_digest generator count 0 words 0 start, start,
    map_zero, AdjoinRoot.mk_eq_zero]

theorem digest_low_eq_zero_iff (generator : BitVec w) (feedback : generator.msb = true)
    (count : Nat) (words : List (BitVec w)) (small : count ≤ w)
    (clear : ∀ word ∈ words, ∀ i, count ≤ i → word.getLsbD i = false) :
    digest generator count 0 words = 0 ↔
      generatorPolynomial generator ∣ bitPolynomial (transmitted count words) := by
  have folded := absorb_polynomial_transmitted count words small clear 0
  rw [mul_zero, mul_zero, zero_add] at folded
  rw [digest_eq_zero_iff, folded]
  constructor
  · intro divides
    exact (generator_coprime_X generator feedback).symm.pow_right.dvd_of_dvd_mul_left divides
  · exact fun divides => divides.mul_left _

/-- All bits that are set lie among `width` consecutive ones. -/
def Burst (width : Nat) (bits : List Bool) : Prop :=
  ∃ start, (∀ bit ∈ bits.take start, bit = false) ∧
    ∀ bit ∈ bits.drop (start + width), bit = false

/-- Clean words before a burst can be cut off until it starts in the first word. -/
theorem burst_first_word (count width : Nat) (positive : 0 < count) (words : List (BitVec w))
    (clear : ∀ word ∈ words, ∀ i, count ≤ i → word.getLsbD i = false)
    (burst : Burst width (transmitted count words)) :
    ∃ zeros start rest, start < count ∧ words = List.replicate zeros 0 ++ rest ∧
      (∀ bit ∈ (transmitted count rest).take start, bit = false) ∧
      ∀ bit ∈ (transmitted count rest).drop (start + width), bit = false := by
  obtain ⟨start, before, after⟩ := burst
  induction words generalizing start with
  | nil => exact ⟨0, 0, [], positive, rfl, by simp, by simp [transmitted]⟩
  | cons word words induction =>
      by_cases inside : start < count
      · exact ⟨0, start, word :: words, inside, rfl, before, after⟩
      · rw [transmitted_cons, List.take_append, low_bits_length] at before
        rw [transmitted_cons, List.drop_append, low_bits_length] at after
        have whole : ∀ bit ∈ lowBits count word, bit = false := by
          intro bit member
          apply before bit
          rw [List.mem_append, List.take_of_length_le (by rw [low_bits_length]; omega)]
          exact Or.inl member
        have zero := (word_clear_iff count word (clear word List.mem_cons_self)).mp whole
        have index : start + width - count = start - count + width := by omega
        obtain ⟨zeros, first, rest, small, split, early, late⟩ :=
          induction (fun other member => clear other (List.mem_cons_of_mem _ member))
            (start - count)
            (fun bit member => before bit (List.mem_append_right _ member))
            (fun bit member => after bit (List.mem_append_right _ (by rwa [index])))
        refine ⟨zeros + 1, first, rest, small, ?_, early, late⟩
        rw [zero, split, List.replicate_succ, List.cons_append]

/-- A burst no longer than the register never vanishes modulo the generator. -/
theorem burst_not_dvd (generator : BitVec w) (feedback : generator.msb = true) (bits : List Bool)
    (burst : Burst w bits) (error : true ∈ bits) :
    ¬generatorPolynomial generator ∣ bitPolynomial bits := by
  obtain ⟨start, before, after⟩ := burst
  intro divides
  have split : bits = bits.take start ++ ((bits.drop start).take w ++ bits.drop (start + w)) := by
    rw [← List.drop_drop, List.take_append_drop, List.take_append_drop]
  have window : bitPolynomial bits =
      X ^ (bits.drop (start + w)).length * bitPolynomial ((bits.drop start).take w) := by
    conv_lhs => rw [split]
    rw [bit_polynomial_append, bit_polynomial_append, bit_polynomial_clear _ before,
      bit_polynomial_clear _ after, mul_zero, zero_add, add_zero]
  rw [window] at divides
  have inside := (generator_coprime_X generator feedback).symm.pow_right.dvd_of_dvd_mul_left divides
  have degree : (bitPolynomial ((bits.drop start).take w)).degree <
      (generatorPolynomial generator).degree := by
    rw [generator_polynomial_degree]
    refine (bit_polynomial_degree_lt _).trans_le ?_
    exact_mod_cast List.length_take_le w (bits.drop start)
  have clear := (bit_polynomial_eq_zero_iff _).mp (eq_zero_of_dvd_of_degree_lt inside degree)
  rw [split, List.mem_append, List.mem_append] at error
  rcases error with early | middle | late
  · exact absurd (before true early) (by decide)
  · exact absurd (clear true middle) (by decide)
  · exact absurd (after true late) (by decide)

/-- A generator that vanishes at one divides no error of odd weight. -/
theorem odd_weight_not_dvd (generator : BitVec w)
    (root : (generatorPolynomial generator).eval 1 = 0) (error : (ZMod 2)[X])
    (odd : error.eval 1 = 1) : ¬generatorPolynomial generator ∣ error := by
  intro divides
  obtain ⟨quotient, rfl⟩ := divides
  rw [eval_mul, root, zero_mul] at odd
  exact zero_ne_one odd

end ReflectedCrc
