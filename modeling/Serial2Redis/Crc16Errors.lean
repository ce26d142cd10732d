import Serial2Redis.Crc16
import Serial2Redis.Library.ErrorDetection

/-!
# Transmission errors on the CR/LF link

What either overload of `crc16` notices of a damaged payload. The `uint8_t` register
is the textbook one and catches every burst of sixteen bits. The sign that the plain
`char` register adds to a byte with its top bit set can hide exactly one burst.
-/

namespace Serial2Redis.Crc16

open Polynomial ReflectedCrc

/-- The bits in which two texts of one length differ, byte by byte. -/
def errors (sent received : List Byte) : List Byte := List.zipWith (· ^^^ ·) sent received

theorem errors_clear_iff (sent received : List Byte) (length : received.length = sent.length) :
    (∀ error ∈ errors sent received, error = 0) ↔ received = sent := by
  induction sent generalizing received with
  | nil => simp [errors, List.eq_nil_of_length_eq_zero length]
  | cons element sent induction =>
      cases received with
      | nil => simp at length
      | cons other received =>
          have rest := induction received (by simpa using length)
          have first : element ^^^ other = 0 ↔ other = element :=
            BitVec.xor_eq_zero_iff.trans eq_comm
          rw [errors] at rest ⊢
          rw [List.zipWith_cons_cons, List.forall_mem_cons, rest, first, List.cons.injEq]

theorem low_byte_clear (error : Byte) : ∀ i, 8 ≤ i → error.getLsbD i = false :=
  fun i large => BitVec.getLsbD_of_ge error i large

theorem errors_transmitted (sent received : List Byte) (length : received.length = sent.length)
    (different : received ≠ sent) : true ∈ transmitted 8 (errors sent received) := by
  by_contra absent
  apply different
  rw [← errors_clear_iff sent received length,
    ← transmitted_clear_iff 8 _ fun error _ => low_byte_clear error]
  intro bit member
  cases bit with
  | false => rfl
  | true => exact absurd member absent

/-- Damage moves the register unless the register started at zero maps the errors
to zero. -/
theorem registers_agree_iff_errors (promote : Byte → BitVec 32)
    (linear : ∀ left right, promote (left ^^^ right) = promote left ^^^ promote right)
    (sent received : List Byte) (length : received.length = sent.length) :
    crcRegister promote sent = crcRegister promote received ↔
      digest 0xA001 8 0
        ((errors sent received).map fun error => (promote error).setWidth 16) = 0 := by
  rw [crc_register_eq_digest, crc_register_eq_digest,
    digest_eq_iff_difference _ _ _ _ _ (by simp [length]), List.zipWith_map, errors,
    List.map_zipWith]
  simp only [linear, BitVec.setWidth_xor]

theorem feedback_top : (0xA001 : BitVec 16).msb = true := by decide

theorem promote_uint8_low (error : Byte) (i : Nat) :
    ((promoteUint8 error).setWidth 16).getLsbD i = error.getLsbD i := by
  rw [promoteUint8, BitVec.setWidth_setWidth_of_le _ (by decide), BitVec.getLsbD_setWidth]
  by_cases small : i < 16
  · simp [small]
  · simp [small, low_byte_clear error i (by omega)]

theorem transmitted_uint8 (data : List Byte) :
    transmitted 8 (data.map fun error => (promoteUint8 error).setWidth 16) =
      transmitted 8 data := by
  rw [transmitted, transmitted, List.flatMap_map]
  congr 1
  funext error
  rw [lowBits, lowBits]
  congr 1
  funext i
  exact promote_uint8_low error i

theorem uint8_words_clear (data : List Byte) :
    ∀ word ∈ data.map fun error => (promoteUint8 error).setWidth 16,
      ∀ i, 8 ≤ i → (word : BitVec 16).getLsbD i = false := by
  intro word member i large
  obtain ⟨error, _, rfl⟩ := List.mem_map.mp member
  rw [promote_uint8_low]
  exact low_byte_clear error i large

theorem uint8_errors_eq_zero_iff (error : List Byte) :
    digest 0xA001 8 0 (error.map fun element => (promoteUint8 element).setWidth 16) = 0 ↔
      generatorPolynomial (0xA001 : BitVec 16) ∣ bitPolynomial (transmitted 8 error) := by
  rw [digest_low_eq_zero_iff _ feedback_top 8 _ (by decide) (uint8_words_clear error),
    transmitted_uint8]

theorem promote_uint8_xor (left right : Byte) :
    promoteUint8 (left ^^^ right) = promoteUint8 left ^^^ promoteUint8 right :=
  BitVec.setWidth_xor

theorem promote_char_xor (left right : Byte) :
    promoteChar (left ^^^ right) = promoteChar left ^^^ promoteChar right :=
  BitVec.signExtend_xor

/-- A burst of at most sixteen bits always changes the checksum `responseToCrlfCrc`
appends. -/
theorem crc16_bytes_detects_bursts (sent received : Bytes)
    (length : received.length = sent.length) (different : received ≠ sent)
    (burst : Burst 16 (transmitted 8 (errors sent received))) :
    (crc16Bytes sent).length = 4 ∧ (crc16Bytes received).length = 4 ∧
      crc16Bytes sent ≠ crc16Bytes received := by
  refine ⟨crc16_bytes_length sent, crc16_bytes_length received, ?_⟩
  intro same
  have registers := hex_text_injective same
  rw [registers_agree_iff_errors _ promote_uint8_xor _ _ length, uint8_errors_eq_zero_iff]
    at registers
  exact burst_not_dvd _ feedback_top _ burst (errors_transmitted sent received length different)
    registers

theorem crc16_bytes_detects_hidden_burst :
    (crc16Bytes [0x5B, 0x31, 0x5D]).length = 4 ∧ (crc16Bytes [0xDB, 0xCF, 0x02]).length = 4 ∧
      crc16Bytes [0x5B, 0x31, 0x5D] ≠ crc16Bytes [0xDB, 0xCF, 0x02] :=
  crc16_bytes_detects_bursts [0x5B, 0x31, 0x5D] [0xDB, 0xCF, 0x02] (by decide) (by decide)
    ⟨7, by decide, by decide⟩

/-- The receiver refuses a damaged payload exactly when its own register moved. -/
theorem damaged_payload_refused_iff (sent received crc : CppString)
    (accepted : crcGate (sent ++ crc) = some sent) (length : received.length = sent.length) :
    crcGate (received ++ crc) = none ↔
      digest 0xA001 8 0
        ((errors sent received).map fun error => (promoteChar error).setWidth 16) ≠ 0 := by
  obtain ⟨long, rfl⟩ := (crc_gate_accepts_iff sent crc).mp accepted
  rw [crc_gate_append received _ rfl, length]
  rw [← not_iff_not, not_not, ← registers_agree_iff_errors _ promote_char_xor sent received length]
  have texts : crc16String sent = crc16String received ↔
      crcRegister promoteChar sent = crcRegister promoteChar received := hex_text_injective.eq_iff
  rw [← texts]
  by_cases same : crc16String sent = crc16String received <;> simp [long, same]

theorem generator_vanishes_at_one :
    (generatorPolynomial (0xA001 : BitVec 16)).eval 1 = 0 := by
  have doubled : (1 + 1 : ZMod 2) = 0 := by decide
  rw [generator_factors, eval_mul, eval_add, eval_X, eval_one, doubled, zero_mul]

/-- The sign extension of a `char` does not change the value at one, so both
registers see the parity of the flipped bits. -/
theorem char_polynomial_eval_one (data : List Byte) :
    ((data.map fun element => (promoteChar element).setWidth 16).foldl
        (absorbPolynomial 8) (0 : (ZMod 2)[X])).eval 1 =
      ((transmitted 8 data).count true : ZMod 2) := by
  have doubled : (1 + 1 : ZMod 2) = 0 := by decide
  have bits := absorb_polynomial_transmitted 8 _ (by decide) (uint8_words_clear data) 0
  rw [mul_zero, mul_zero, zero_add, transmitted_uint8] at bits
  rw [digest_sign_difference data 0 0 0 (by simp), bits, eval_add, eval_mul, eval_mul, eval_mul,
    eval_pow, eval_pow, eval_pow, eval_add, eval_X, eval_one, doubled, bit_polynomial_eval_one]
  simp

/-- Every error of odd weight in the payload and every change of the checksum text
is refused. -/
theorem crc_gate_detects_odd_and_text (payload crc : CppString)
    (accepted : crcGate (payload ++ crc) = some payload) :
    (∀ received : CppString, received.length = payload.length →
      Odd ((transmitted 8 (errors payload received)).count true) →
        crcGate (received ++ crc) = none) ∧
    ∀ other : CppString, other.length = crc.length → other ≠ crc →
      crcGate (payload ++ other) = none := by
  constructor
  · intro received length odd
    rw [damaged_payload_refused_iff payload received crc accepted length, Ne, digest_eq_zero_iff]
    apply odd_weight_not_dvd _ generator_vanishes_at_one
    rw [char_polynomial_eval_one]
    exact ZMod.natCast_eq_one_iff_odd.mpr odd
  · intro other length changed
    obtain ⟨_, rfl⟩ := (crc_gate_accepts_iff payload crc).mp accepted
    rw [crc_gate_append payload other length, if_neg]
    exact fun both => changed both.2

/-- `[1]` with a bit of its digit flipped, and with the checksum text `0000`. -/
theorem crc_gate_detects_odd_and_text_array :
    crcGate ([0x5B, 0x30, 0x5D] ++ crc16String [0x5B, 0x31, 0x5D]) = none ∧
      crcGate ([0x5B, 0x31, 0x5D] ++ [0x30, 0x30, 0x30, 0x30]) = none :=
  have both := crc_gate_detects_odd_and_text [0x5B, 0x31, 0x5D] (crc16String [0x5B, 0x31, 0x5D])
    (by decide +kernel)
  ⟨both.1 [0x5B, 0x30, 0x5D] (by decide) (by decide +kernel),
    both.2 [0x30, 0x30, 0x30, 0x30] (by decide) (by decide +kernel)⟩

/-- The word with which a byte enters the register of `crc16(String)`. -/
def charWord (element : Byte) : BitVec 16 := (promoteChar element).setWidth 16

/-- The word that, between two given bytes, brings the register back to zero. -/
def middleWord (first last : Byte) : BitVec 16 :=
  shifts 0xA001 8 (charWord first) ^^^ unshifts 0xA001 8 (charWord last)

theorem middle_word_of_digest (first middle last : Byte)
    (vanishes : digest 0xA001 8 0 ([first, middle, last].map charWord) = 0) :
    middleWord first last = charWord middle := by
  have unrolled : shifts 0xA001 8 (shifts 0xA001 8 (shifts 0xA001 8 (charWord first) ^^^
      charWord middle) ^^^ charWord last) = 0 := by
    have start : (0 : BitVec 16) ^^^ charWord first = charWord first := BitVec.zero_xor
    simpa only [List.map_cons, List.map_nil, digest, List.foldl_cons, List.foldl_nil, absorb, start]
      using vanishes
  have inner := BitVec.xor_eq_zero_iff.mp ((shifts_eq_zero_iff _ feedback_top 8 _).mp unrolled)
  have undone := congrArg (unshifts 0xA001 8) inner
  rw [unshifts_shifts _ feedback_top] at undone
  rw [middleWord, ← undone, ← BitVec.xor_assoc, BitVec.xor_self, BitVec.zero_xor]

/-- Of all bytes around a burst of sixteen bits, one pair needs a middle word that
the sign extension of a byte can supply. -/
theorem middle_word_sign : ∀ start : Fin 8, ∀ high : Fin (2 ^ (8 - start.val)),
    ∀ low : Fin (2 ^ start.val),
      let first := BitVec.ofNat 8 (high.val <<< start.val)
      let last := BitVec.ofNat 8 low.val
      let middle := middleWord first last
      middle = charWord (middle.setWidth 8) →
        first = 0 ∧ middle = 0 ∧ last = 0 ∨ first = 0x80 ∧ middle = 0xFFFE ∧ last = 0x5F := by
  decide +kernel

/-- The three bytes of the burst that the sign of `char` hides. -/
def hiddenBurst : List Byte := [0x80, 0xFE, 0x5F]

theorem char_word_low (element : Byte) : (charWord element).setWidth 8 = element := by
  revert element
  decide

theorem low_bits_shifted (first : Byte) (start : Nat)
    (clear : ∀ i < start, first.getLsbD i = false) :
    first = BitVec.ofNat 8 ((first.toNat >>> start) <<< start) := by
  apply BitVec.eq_of_getLsbD_eq
  intro i bounded
  rw [BitVec.getLsbD_ofNat, Nat.testBit_shiftLeft, Nat.testBit_shiftRight]
  by_cases early : i < start
  · simp [clear i early, early]
  · have index : start + (i - start) = i := by omega
    simp [bounded, index, BitVec.getLsbD, show start ≤ i by omega]

theorem three_bytes_hidden (first middle last : Byte) (start : Nat) (small : start < 8)
    (early : ∀ i < start, first.getLsbD i = false) (late : ∀ i, start ≤ i → last.getLsbD i = false)
    (vanishes : digest 0xA001 8 0 ([first, middle, last].map charWord) = 0) :
    [first, middle, last] = [0, 0, 0] ∨ [first, middle, last] = hiddenBurst := by
  have word := middle_word_of_digest first middle last vanishes
  have below : last.toNat < 2 ^ start := by
    apply Nat.lt_pow_two_of_testBit
    exact late
  have above : first.toNat >>> start < 2 ^ (8 - start) := by
    rw [Nat.shiftRight_eq_div_pow, Nat.div_lt_iff_lt_mul (Nat.two_pow_pos start), ← pow_add,
      Nat.sub_add_cancel small.le]
    exact first.isLt
  have checked := middle_word_sign ⟨start, small⟩ ⟨first.toNat >>> start, above⟩
    ⟨last.toNat, below⟩
  simp only [← low_bits_shifted first start early, BitVec.ofNat_toNat, BitVec.setWidth_eq,
    word, char_word_low] at checked
  have middleOf (value : Byte) (same : charWord middle = charWord value) : middle = value := by
    rw [← char_word_low middle, same, char_word_low]
  rcases checked trivial with ⟨rfl, zero, rfl⟩ | ⟨rfl, top, rfl⟩
  · left
    rw [middleOf 0 zero]
  · right
    rw [middleOf 0xFE top]
    rfl

theorem early_bits_clear (first : Byte) (rest : List Byte) (start : Nat) (small : start < 8)
    (early : ∀ bit ∈ (transmitted 8 (first :: rest)).take start, bit = false) :
    ∀ i < start, first.getLsbD i = false := by
  intro i before
  apply early
  rw [transmitted_cons, List.take_append_of_le_length (by rw [low_bits_length]; exact small.le),
    List.mem_take_iff_getElem]
  refine ⟨i, by rw [low_bits_length]; omega, ?_⟩
  simp [lowBits]

theorem late_bits_clear (first middle last : Byte) (rest : List Byte) (start : Nat)
    (small : start < 8)
    (late : ∀ bit ∈ (transmitted 8 (first :: middle :: last :: rest)).drop (start + 16),
      bit = false) :
    (∀ i, start ≤ i → last.getLsbD i = false) ∧ ∀ error ∈ rest, error = 0 := by
  have window : (transmitted 8 (first :: middle :: last :: rest)).drop (start + 16) =
      (lowBits 8 last).drop start ++ transmitted 8 rest := by
    have two : start + 16 = 8 + (8 + start) := by omega
    rw [two, transmitted_cons, transmitted_cons, transmitted_cons, ← List.drop_drop,
      List.drop_left' (low_bits_length 8 first), ← List.drop_drop,
      List.drop_left' (low_bits_length 8 middle),
      List.drop_append_of_le_length (by rw [low_bits_length]; exact small.le)]
  rw [window] at late
  constructor
  · intro i after
    by_cases inside : i < 8
    · apply late
      apply List.mem_append_left
      rw [List.mem_drop_iff_getElem]
      refine ⟨i - start, by rw [low_bits_length]; omega, ?_⟩
      have index : start + (i - start) = i := by omega
      simp [lowBits, index]
    · exact low_byte_clear last i (by omega)
  · rw [← transmitted_clear_iff 8 rest fun error _ => low_byte_clear error]
    exact fun bit member => late bit (List.mem_append_right _ member)

theorem char_zeros (zeros : Nat) :
    (List.replicate zeros (0 : Byte)).map charWord = List.replicate zeros 0 := by
  rw [List.map_replicate]
  rfl

/-- A burst that starts in the first byte leaves the register at zero only as the
hidden one. -/
theorem first_byte_hidden (rest : List Byte) (start : Nat) (small : start < 8)
    (early : ∀ bit ∈ (transmitted 8 rest).take start, bit = false)
    (late : ∀ bit ∈ (transmitted 8 rest).drop (start + 16), bit = false)
    (vanishes : digest 0xA001 8 0 (rest.map charWord) = 0) :
    (∀ error ∈ rest, error = 0) ∨ ∃ after, rest = hiddenBurst ++ List.replicate after 0 := by
  have padded (zeros : Nat) :
      digest 0xA001 8 0 ((rest ++ List.replicate zeros 0).map charWord) = 0 := by
    rw [List.map_append, char_zeros, digest_append, vanishes]
    exact digest_zeros _ 8 zeros
  have zeroLate : ∀ i, start ≤ i → (0 : Byte).getLsbD i = false := fun i _ => BitVec.getLsbD_zero
  match rest with
  | [] => simp
  | [first] =>
      have clear := early_bits_clear first [] start small early
      rcases three_bytes_hidden first 0 0 start small clear zeroLate (padded 2) with zero | hidden
      · left
        simpa using zero
      · exact absurd hidden (by simp [hiddenBurst])
  | [first, middle] =>
      have clear := early_bits_clear first [middle] start small early
      rcases three_bytes_hidden first middle 0 start small clear zeroLate (padded 1) with
        zero | hidden
      · left
        simpa using zero
      · exact absurd hidden (by simp [hiddenBurst])
  | first :: middle :: last :: rest =>
      have clear := early_bits_clear first (middle :: last :: rest) start small early
      obtain ⟨lastClear, zeros⟩ := late_bits_clear first middle last rest start small late
      have repeated := List.eq_replicate_of_mem zeros
      have three : digest 0xA001 8 0 ([first, middle, last].map charWord) = 0 := by
        rw [← digest_zeros_eq_zero_iff _ feedback_top 8 rest.length, ← digest_append,
          ← char_zeros, ← List.map_append, ← repeated]
        exact vanishes
      rcases three_bytes_hidden first middle last start small clear lastClear three with
        zero | hidden
      · left
        intro error member
        have place : error ∈ [first, middle, last] ++ rest := member
        rw [zero, repeated, List.mem_append] at place
        rcases place with inside | after
        · simpa using inside
        · exact List.eq_of_mem_replicate after
      · right
        refine ⟨rest.length, ?_⟩
        rw [← hidden, ← repeated]
        rfl

theorem hidden_burst_vanishes (before after : Nat) :
    digest 0xA001 8 0
      ((List.replicate before 0 ++ hiddenBurst ++ List.replicate after 0).map charWord) = 0 := by
  rw [List.map_append, List.map_append, char_zeros, char_zeros,
    digest_padded_eq_zero_iff _ feedback_top]
  decide +kernel

/-- `crc16(String)` misses one burst of sixteen bits and no other. -/
theorem crc_gate_detects_burst_iff (sent received crc : CppString)
    (accepted : crcGate (sent ++ crc) = some sent) (length : received.length = sent.length)
    (different : received ≠ sent) (burst : Burst 16 (transmitted 8 (errors sent received))) :
    crcGate (received ++ crc) = none ↔
      ¬∃ before after, errors sent received =
        List.replicate before 0 ++ [0x80, 0xFE, 0x5F] ++ List.replicate after 0 := by
  rw [damaged_payload_refused_iff sent received crc accepted length]
  apply not_congr
  constructor
  · intro vanishes
    obtain ⟨before, start, rest, small, split, early, late⟩ := burst_first_word 8 16 (by decide)
      (errors sent received) (fun error _ => low_byte_clear error) burst
    have restVanishes : digest 0xA001 8 0 (rest.map charWord) = 0 := by
      have whole : digest 0xA001 8 0 ((errors sent received).map charWord) = 0 := vanishes
      rwa [split, List.map_append, char_zeros, digest_append, digest_zeros] at whole
    rcases first_byte_hidden rest start small early late restVanishes with clear | ⟨after, hidden⟩
    · exfalso
      apply different
      rw [← errors_clear_iff sent received length, split]
      intro error member
      rcases List.mem_append.mp member with zero | inside
      · exact List.eq_of_mem_replicate zero
      · exact clear error inside
    · exact ⟨before, after, by rw [split, hidden, List.append_assoc]; rfl⟩
  · intro pattern
    rcases pattern with ⟨before, after, hidden⟩
    rw [hidden]
    exact hidden_burst_vanishes before after

/-- `[1]` accepted, and the same checksum accepted under three other bytes although
they differ from it in sixteen consecutive bits. -/
theorem crc_gate_misses_burst :
    ¬∀ sent received crc : CppString, crcGate (sent ++ crc) = some sent →
      received.length = sent.length → received ≠ sent →
        Burst 16 (transmitted 8 (errors sent received)) → crcGate (received ++ crc) = none := by
  intro claimed
  have refused := claimed [0x5B, 0x31, 0x5D] [0xDB, 0xCF, 0x02] (crc16String [0x5B, 0x31, 0x5D])
    (by decide +kernel) (by decide) (by decide) ⟨7, by decide, by decide⟩
  exact absurd refused (by decide +kernel)

theorem crc_gate_detects_burst_array :
    crcGate ([0x5B, 0x30, 0x5C] ++ crc16String [0x5B, 0x31, 0x5D]) = none :=
  (crc_gate_detects_burst_iff [0x5B, 0x31, 0x5D] [0x5B, 0x30, 0x5C] (crc16String [0x5B, 0x31, 0x5D])
    (by decide +kernel) (by decide) (by decide) ⟨8, by decide, by decide⟩).mpr (by
      intro pattern
      rcases pattern with ⟨before, after, hidden⟩
      have member : (0x5F : Byte) ∈ errors [0x5B, 0x31, 0x5D] [0x5B, 0x30, 0x5C] := by
        rw [hidden]
        simp
      exact absurd member (by decide))

end Serial2Redis.Crc16
