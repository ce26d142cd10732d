import Serial2Redis.Basic
import Serial2Redis.Library.ReflectedCrc
import Mathlib.Algebra.Polynomial.Expand
import Mathlib.FieldTheory.Separable
import Mathlib.Tactic.LinearCombination
import Mathlib.Tactic.ReduceModChar
import Mathlib.Tactic.ComputeDegree

/-!
# The CRC of the CR/LF link

The two overloads of `crc16` differ only in how one element is widened before the
exclusive or: `uint8_t` by zeros, the plain `char` of `std::string` by its sign.
Both registers are the reflected register of the library with the feedback word
`0xA001`, and their difference depends only on which bytes have their top bit set.
-/

namespace Serial2Redis.Crc16

open Polynomial ReflectedCrc

def shiftBit (crc : BitVec 16) : BitVec 16 :=
  if crc &&& 1 ≠ 0 then (crc >>> 1) ^^^ 0xA001 else crc >>> 1

/-- `for (int j = 0; j < 8; j++)`, counted down. -/
def shiftBits : Nat → BitVec 16 → BitVec 16
  | 0, crc => crc
  | count + 1, crc => shiftBits count (shiftBit crc)

/-- `crc ^= data[i]`: both operands are promoted to a 32 bit int and the result
is cut back to `uint16_t`. -/
def xorElement (crc : BitVec 16) (promoted : BitVec 32) : BitVec 16 :=
  (crc.setWidth 32 ^^^ promoted).setWidth 16

def promoteUint8 (element : Byte) : BitVec 32 := element.setWidth 32

def promoteChar (element : Byte) : BitVec 32 := element.signExtend 32

def crcRegister (promote : Byte → BitVec 32) (data : List Byte) : BitVec 16 :=
  data.foldl (fun crc element => shiftBits 8 (xorElement crc (promote element))) 0xFFFF

def hexDigit (nibble : BitVec 4) : Byte :=
  if nibble < 10 then 0x30 + nibble.setWidth 8 else 0x37 + nibble.setWidth 8

/-- `sprintf(buf, "%04X", crc)` of a 16 bit value. -/
def hexText (crc : BitVec 16) : List Byte :=
  [hexDigit (crc.extractLsb' 12 4), hexDigit (crc.extractLsb' 8 4),
    hexDigit (crc.extractLsb' 4 4), hexDigit (crc.extractLsb' 0 4)]

def crc16Bytes (data : Bytes) : Bytes := hexText (crcRegister promoteUint8 data)

def crc16String (data : CppString) : CppString := hexText (crcRegister promoteChar data)

/-- The head of `crlfCrcToRequest`: the line is cut into payload and checksum and
refused when it is too short or the checksum of the payload differs. -/
def crcGate (line : CppString) : Option CppString :=
  if line.length < 6 then none
  else if line.drop (line.length - 4) ≠ crc16String (line.take (line.length - 4)) then none
  else some (line.take (line.length - 4))

@[simp] theorem crc16_bytes_length (data : Bytes) : (crc16Bytes data).length = 4 := rfl

theorem hex_digit_injective : Function.Injective hexDigit := by
  unfold Function.Injective
  decide

theorem hex_text_injective : Function.Injective hexText := by
  intro left right same
  simp only [hexText, List.cons.injEq, hex_digit_injective.eq_iff, and_true] at same
  obtain ⟨high, middleHigh, middleLow, low⟩ := same
  have split (crc : BitVec 16) : crc = crc.extractLsb' 12 4 ++ crc.extractLsb' 8 4 ++
      crc.extractLsb' 4 4 ++ crc.extractLsb' 0 4 := by
    apply BitVec.eq_of_getLsbD_eq
    intro i bounded
    simp only [BitVec.getLsbD_append, BitVec.getLsbD_extractLsb']
    grind
  rw [split left, split right, high, middleHigh, middleLow, low]

theorem hex_text_visible (crc : BitVec 16) : ∀ element ∈ hexText crc, 0x20 < element := by
  have visible : ∀ nibble : BitVec 4, 0x20 < hexDigit nibble := by decide
  intro element member
  simp only [hexText, List.mem_cons, List.not_mem_nil, or_false] at member
  rcases member with rfl | rfl | rfl | rfl <;> exact visible _

theorem crc_gate_append (payload crc : CppString) (length : crc.length = 4) :
    crcGate (payload ++ crc) =
      if 2 ≤ payload.length ∧ crc = crc16String payload then some payload else none := by
  have cut : (payload ++ crc).length - 4 = payload.length := by
    rw [List.length_append, length]
    omega
  rw [crcGate, cut, List.drop_left, List.take_left, List.length_append, length]
  by_cases short : payload.length + 4 < 6
  · rw [if_pos short, if_neg]
    omega
  · have long : 2 ≤ payload.length := by omega
    by_cases agree : crc = crc16String payload <;> simp [short, long, agree]

theorem crc_gate_accepts_iff (payload crc : CppString) :
    crcGate (payload ++ crc) = some payload ↔
      2 ≤ payload.length ∧ crc = crc16String payload := by
  by_cases four : crc.length = 4
  · rw [crc_gate_append payload crc four]
    by_cases both : 2 ≤ payload.length ∧ crc = crc16String payload <;> simp [both]
  · constructor
    · intro accepted
      rw [crcGate] at accepted
      split at accepted
      · cases accepted
      · split at accepted
        · cases accepted
        · next long _ =>
            have cut := congrArg List.length (Option.some.inj accepted)
            rw [List.length_take, List.length_append] at cut
            rw [List.length_append] at long
            omega
    · intro both
      rw [both.2] at four
      exact absurd rfl four

theorem shift_bits_eq (count : Nat) (crc : BitVec 16) :
    shiftBits count crc = shifts 0xA001 count crc := by
  induction count generalizing crc with
  | zero => rfl
  | succ count induction =>
      have lowBit : (crc &&& 1 ≠ 0) = (crc.getLsbD 0 = true) := by
        rw [show (crc &&& 1) = (crc &&& 1#16) from rfl,
          BitVec.and_one_eq_setWidth_ofBool_getLsbD]
        cases crc.getLsbD 0 <;> decide
      have step : shiftBit crc = shift 0xA001 crc := by
        simp only [shiftBit, shift, lowBit]
      rw [shiftBits, shifts, step, induction]

theorem xor_element_eq (crc : BitVec 16) (promoted : BitVec 32) :
    xorElement crc promoted = crc ^^^ promoted.setWidth 16 := by
  rw [xorElement, BitVec.setWidth_xor, BitVec.setWidth_setWidth_of_le _ (by decide),
    BitVec.setWidth_eq]

theorem crc_register_eq_digest (promote : Byte → BitVec 32) (data : List Byte) :
    crcRegister promote data =
      digest 0xA001 8 0xFFFF (data.map fun element => (promote element).setWidth 16) := by
  rw [crcRegister, digest, List.foldl_map]
  congr 1
  funext crc element
  rw [absorb, shift_bits_eq, xor_element_eq]

theorem feedback_polynomial :
    polynomialOf (0xA001 : BitVec 16) = (X ^ 15 + X ^ 2 + 1 : (ZMod 2)[X]) := by
  simp [polynomialOf, Finset.sum_range_succ]

theorem sign_polynomial :
    polynomialOf (0xFF00 : BitVec 16) = ((X + 1) ^ 7 : (ZMod 2)[X]) := by
  simp [polynomialOf, Finset.sum_range_succ]
  ring_nf
  reduce_mod_char

/-- The factor of the generator besides `X + 1`. -/
noncomputable def primitiveFactor : (ZMod 2)[X] := X ^ 15 + X + 1

theorem generator_factors :
    generatorPolynomial (0xA001 : BitVec 16) = (X + 1) * primitiveFactor := by
  rw [generatorPolynomial, feedback_polynomial, primitiveFactor]
  ring_nf
  reduce_mod_char

theorem two_eq_zero : (2 : (ZMod 2)[X]) = 0 := CharTwo.two_eq_zero

theorem primitive_factor_coprime_shift : IsCoprime primitiveFactor (X * (X + 1)) := by
  refine ⟨1, ∑ i ∈ Finset.range 14, X ^ i, ?_⟩
  simp only [primitiveFactor, Finset.sum_range_succ, Finset.sum_range_zero]
  ring_nf
  reduce_mod_char

theorem primitive_factor_squarefree : Squarefree primitiveFactor := by
  apply Separable.squarefree
  have derived : derivative primitiveFactor = X ^ 14 + 1 := by
    have odd : ((15 : Nat) : ZMod 2) = 1 := by decide
    rw [primitiveFactor, derivative_add, derivative_add, derivative_X_pow, derivative_X,
      derivative_one, odd, C_1, one_mul, add_zero]
  refine ⟨1, X, ?_⟩
  rw [derived, primitiveFactor]
  linear_combination (X ^ 15 + X) * two_eq_zero

/-- The top bits of the bytes as a polynomial, the last byte the constant term. -/
noncomputable def topBitPolynomial (data : List Byte) : (ZMod 2)[X] :=
  data.foldl (fun total element => X * total + if element.msb then 1 else 0) 0

theorem promote_char_low (element : Byte) :
    (promoteChar element).setWidth 16 =
      (promoteUint8 element).setWidth 16 ^^^ if element.msb then 0xFF00 else 0 := by
  revert element
  decide

/-- Widening one byte by its sign instead of by zeros moves the two registers
apart by `(X + 1) ^ 7` when its top bit is set, and eight shifts later by `X ^ 8`. -/
theorem absorb_sign_difference (left right tops : (ZMod 2)[X]) (element : Byte)
    (apart : left = right + X ^ 8 * (X + 1) ^ 7 * tops ^ 8) :
    absorbPolynomial 8 left ((promoteChar element).setWidth 16) =
      absorbPolynomial 8 right ((promoteUint8 element).setWidth 16) +
        X ^ 8 * (X + 1) ^ 7 * (X * tops + if element.msb then 1 else 0) ^ 8 := by
  have power : (X * tops + if element.msb then (1 : (ZMod 2)[X]) else 0) ^ 8 =
      X ^ 8 * tops ^ 8 + if element.msb then 1 else 0 := by
    have frobenius := add_pow_char_pow (X * tops) (if element.msb then 1 else 0) (p := 2) (n := 3)
    rw [show 2 ^ 3 = 8 from rfl, mul_pow] at frobenius
    rw [frobenius]
    cases element.msb <;> simp
  rw [absorbPolynomial, absorbPolynomial, promote_char_low, polynomial_of_xor, apart, power]
  have sign : polynomialOf (if element.msb then (0xFF00 : BitVec 16) else 0) =
      (X + 1) ^ 7 * if element.msb then (1 : (ZMod 2)[X]) else 0 := by
    cases element.msb
    · simpa using polynomial_of_zero (w := 16)
    · simpa using sign_polynomial
  rw [sign]
  ring

theorem digest_sign_difference (data : List Byte) (left right tops : (ZMod 2)[X])
    (apart : left = right + X ^ 8 * (X + 1) ^ 7 * tops ^ 8) :
    (data.map fun element => (promoteChar element).setWidth 16).foldl (absorbPolynomial 8) left =
      (data.map fun element => (promoteUint8 element).setWidth 16).foldl (absorbPolynomial 8) right +
        X ^ 8 * (X + 1) ^ 7 * (data.foldl (fun total element =>
          X * total + if element.msb then 1 else 0) tops) ^ 8 := by
  induction data generalizing left right tops with
  | nil => exact apart
  | cons element data induction =>
      exact induction _ _ _ (absorb_sign_difference left right tops element apart)

theorem generator_dvd_iff (tops : (ZMod 2)[X]) :
    generatorPolynomial (0xA001 : BitVec 16) ∣ X ^ 8 * (X + 1) ^ 7 * tops ^ 8 ↔
      primitiveFactor ∣ tops := by
  rw [generator_factors]
  constructor
  · intro divides
    have factor : primitiveFactor ∣ X ^ 8 * (X + 1) ^ 7 * tops ^ 8 :=
      (Dvd.intro_left _ rfl).trans divides
    have coprime : IsCoprime primitiveFactor (X ^ 8 * (X + 1) ^ 7) :=
      (primitive_factor_coprime_shift.of_mul_right_left.pow_right).mul_right
        primitive_factor_coprime_shift.of_mul_right_right.pow_right
    exact (primitive_factor_squarefree.dvd_pow_iff_dvd (by decide)).mp
      (coprime.dvd_of_dvd_mul_left factor)
  · intro divides
    apply mul_dvd_mul
    · exact (dvd_pow_self (X + 1) (by decide)).mul_left (X ^ 8)
    · exact divides.trans (dvd_pow_self tops (by decide))

theorem crc_registers_agree_iff (data : List Byte) :
    crcRegister promoteChar data = crcRegister promoteUint8 data ↔
      primitiveFactor ∣ topBitPolynomial data := by
  rw [crc_register_eq_digest, crc_register_eq_digest, digest_eq_iff,
    digest_sign_difference data _ _ 0 (by rw [zero_pow (by decide), mul_zero, add_zero]),
    add_sub_cancel_left, generator_dvd_iff,
    topBitPolynomial]

theorem top_bit_polynomial_append (data : List Byte) (element : Byte) :
    topBitPolynomial (data ++ [element]) =
      X * topBitPolynomial data + if element.msb then 1 else 0 := by
  rw [topBitPolynomial, List.foldl_append]
  rfl

theorem top_bit_polynomial_eq_zero_iff (data : List Byte) :
    topBitPolynomial data = 0 ↔ ∀ element ∈ data, element.msb = false := by
  induction data using List.reverseRecOn with
  | nil => simp [topBitPolynomial]
  | append_singleton data element induction =>
      rw [top_bit_polynomial_append]
      constructor
      · intro vanishes
        have constant := congrArg (fun p => p.coeff 0) vanishes
        cases top : element.msb with
        | true => simp [top] at constant
        | false =>
            have rest : topBitPolynomial data = 0 := by simpa [top] using vanishes
            intro other member
            rcases List.mem_append.mp member with earlier | last
            · exact induction.mp rest other earlier
            · rw [List.mem_singleton.mp last, top]
      · intro clear
        have rest : topBitPolynomial data = 0 :=
          induction.mpr fun other member => clear other (List.mem_append_left _ member)
        rw [rest, clear element (by simp)]
        simp

theorem ascii_registers_agree (data : List Byte) (ascii : ∀ element ∈ data, element.msb = false) :
    crcRegister promoteChar data = crcRegister promoteUint8 data := by
  rw [crc_registers_agree_iff, (top_bit_polynomial_eq_zero_iff data).mpr ascii]
  exact dvd_zero _

theorem crc16_agree_iff_registers (data : List Byte) :
    crc16Bytes data = crc16String data ↔
      crcRegister promoteChar data = crcRegister promoteUint8 data := by
  rw [crc16Bytes, crc16String, hex_text_injective.eq_iff]
  exact eq_comm

/-- The checksum that `responseToCrlfCrc` appends is the one `crlfCrcToRequest`
computes, and the line it makes passes the gate, exactly for the data whose top
bits are a multiple of `X ^ 15 + X + 1`. -/
theorem crc16_overloads_agree_iff (data : Bytes) :
    (crc16Bytes data = crc16String data ∧
      (2 ≤ data.length → crcGate (data ++ crc16Bytes data) = some data)) ↔
        (X ^ 15 + X + 1 : (ZMod 2)[X]) ∣ topBitPolynomial data := by
  rw [← primitiveFactor, ← crc_registers_agree_iff, ← crc16_agree_iff_registers]
  constructor
  · exact fun both => both.1
  · intro agree
    refine ⟨agree, fun long => ?_⟩
    exact (crc_gate_accepts_iff data _).mpr ⟨long, agree⟩

/-- The two UTF-8 bytes of a letter with an accent: the checksums differ and the
line is refused. -/
theorem crc16_overloads_differ :
    crc16Bytes [0xC3, 0xA9] ≠ crc16String [0xC3, 0xA9] ∧
      crcGate ([0xC3, 0xA9] ++ crc16Bytes [0xC3, 0xA9]) = none := by
  decide +kernel

end Serial2Redis.Crc16
