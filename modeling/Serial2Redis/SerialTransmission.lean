import Mathlib.Data.Set.Finite.Lattice
import Serial2Redis.Serial

/-!
# What `txd` writes

The loop of `Serial::txd` against any answers of `write`. The loop keeps a pointer into
the buffer and a length; the answer `rc` is an `int` that is compared with the length
as an unsigned number of 64 bits.
-/

namespace Serial2Redis

/-- Linux writes fewer than 2 ^ 31 bytes at once. -/
abbrev WriteCount := { bytes : Nat // bytes < 2 ^ 31 }

/-- What the tty makes of a `write`: it has room for some bytes, or fails. -/
inductive WriteAnswer where
  | room (bytes : WriteCount)
  | failed (errno : Errno)

namespace WriteAnswer

/-- The result for a request of some bytes, of which no more can be written. -/
def rc (answer : WriteAnswer) (len : Nat) : Int :=
  match answer with
  | room bytes => (min bytes.val len : Nat)
  | failed _ => -1

def errno : WriteAnswer → Int
  | room _ => 0
  | failed errno => errno.val

/-- The answers 0 and `EAGAIN`, after which the same bytes are written again. -/
def retries : WriteAnswer → Bool
  | room bytes => bytes.val == 0
  | failed errno => decide (errno.val = EAGAIN ∨ errno.val = EWOULDBLOCK)

theorem rc_bounds (answer : WriteAnswer) (len : Nat) :
    -1 ≤ answer.rc len ∧ answer.rc len ≤ len := by
  cases answer with
  | room bytes =>
      rw [rc]
      omega
  | failed errno =>
      rw [rc]
      omega

end WriteAnswer

inductive TtyCall where
  | write (data : Bytes) (rc : Int)
  | tcdrain
  | fsync
  | tcflush
  deriving DecidableEq

/-- The calls that were made, and the code if `txd` returned. -/
abbrev TxdOutcome := List TtyCall × Option Int

/-- A `std::vector` has fewer than 2 ^ 63 bytes. -/
abbrev TxBuffer := { bytes : Bytes // bytes.length < 2 ^ 63 }

namespace Serial

def callsBefore (calls : List TtyCall) (outcome : TxdOutcome) : TxdOutcome :=
  (calls ++ outcome.1, outcome.2)

/-- `fsync(_fd); tcflush(_fd, TCOFLUSH); return 0;` -/
def txdEnd : TxdOutcome := ([.fsync, .tcflush], some 0)

/-- The loop of `txd` at the pointer `buf` with `len` bytes to go. -/
def txdLoop (buffer : Bytes) : List WriteAnswer → Nat → Nat → TxdOutcome
  | [], _, len => if 0 < len then ([], none) else txdEnd
  | answer :: answers, buf, len =>
      if 0 < len then
        let rc := answer.rc len
        let call := TtyCall.write ((buffer.drop buf).take len) rc
        if BitVec.ofInt 64 rc = BitVec.ofNat 64 len then callsBefore [call] txdEnd
        else if 0 ≤ rc then
          callsBefore [call, .tcdrain] (txdLoop buffer answers (buf + rc.toNat) (len - rc.toNat))
        else if answer.errno = EAGAIN ∨ answer.errno = EWOULDBLOCK then
          callsBefore [call, .tcdrain] (txdLoop buffer answers buf len)
        else ([call], some answer.errno)
      else txdEnd

def txd (answers : List WriteAnswer) (buffer : TxBuffer) (serial : Serial) : TxdOutcome :=
  if serial.connected then txdLoop buffer.val answers 0 buffer.val.length
  else ([], some ENOTCONN)

theorem unsigned_eq_iff (rc : Int) (len : Nat) (lower : -1 ≤ rc) (upper : rc ≤ len)
    (small : len < 2 ^ 63) : BitVec.ofInt 64 rc = BitVec.ofNat 64 len ↔ rc = len := by
  rw [← BitVec.toNat_inj, BitVec.toNat_ofInt, BitVec.toNat_ofNat]
  omega

theorem txd_loop_finished (buffer : Bytes) (answers : List WriteAnswer) (buf : Nat) :
    txdLoop buffer answers buf 0 = txdEnd := by
  cases answers <;> rfl

/-- One turn of the loop, the comparison of `rc` and `len` read as one of integers. -/
theorem txd_loop_turn {buffer : Bytes} (small : buffer.length < 2 ^ 63) (answer : WriteAnswer)
    (answers : List WriteAnswer) (buf len : Nat) (left : 0 < len)
    (inside : buf + len = buffer.length) :
    txdLoop buffer (answer :: answers) buf len =
      let rc := answer.rc len
      let call := TtyCall.write (buffer.drop buf) rc
      if rc = len then callsBefore [call] txdEnd
      else if 0 ≤ rc then
        callsBefore [call, .tcdrain] (txdLoop buffer answers (buf + rc.toNat) (len - rc.toNat))
      else if answer.errno = EAGAIN ∨ answer.errno = EWOULDBLOCK then
        callsBefore [call, .tcdrain] (txdLoop buffer answers buf len)
      else ([call], some answer.errno) := by
  have bounds := answer.rc_bounds len
  have same := unsigned_eq_iff (answer.rc len) len bounds.1 bounds.2 (by omega)
  have rest : (buffer.drop buf).take len = buffer.drop buf := by
    apply List.take_of_length_le
    rw [List.length_drop]
    omega
  rw [txdLoop, if_pos left, rest]
  simp only [same]

/-- Induction over the turns of the loop: it is over, it waits for an answer, or a
`write` takes all, some or none of the rest. -/
theorem txd_loop_induction {buffer : Bytes} (small : buffer.length < 2 ^ 63)
    {motive : List WriteAnswer → Nat → Nat → TxdOutcome → Prop}
    (finished : ∀ answers, motive answers buffer.length 0 txdEnd)
    (waiting : ∀ buf len, 0 < len → buf + len = buffer.length → motive [] buf len ([], none))
    (full : ∀ room answers buf len, 0 < len → buf + len = buffer.length → len ≤ room.val →
      motive (.room room :: answers) buf len
        (callsBefore [.write (buffer.drop buf) len] txdEnd))
    (short : ∀ (room : WriteCount) answers buf len outcome, buf + len = buffer.length →
      room.val < len → motive answers (buf + room.val) (len - room.val) outcome →
      motive (.room room :: answers) buf len
        (callsBefore [.write (buffer.drop buf) room.val, .tcdrain] outcome))
    (again : ∀ errno answers buf len outcome, 0 < len → buf + len = buffer.length →
      errno.val = EAGAIN ∨ errno.val = EWOULDBLOCK → motive answers buf len outcome →
      motive (.failed errno :: answers) buf len
        (callsBefore [.write (buffer.drop buf) (-1), .tcdrain] outcome))
    (failed : ∀ errno answers buf len, 0 < len → buf + len = buffer.length →
      ¬(errno.val = EAGAIN ∨ errno.val = EWOULDBLOCK) →
      motive (.failed errno :: answers) buf len
        ([.write (buffer.drop buf) (-1)], some errno.val))
    (answers : List WriteAnswer) (buf len : Nat) (inside : buf + len = buffer.length) :
    motive answers buf len (txdLoop buffer answers buf len) := by
  induction answers generalizing buf len with
  | nil =>
      rcases Nat.eq_zero_or_pos len with nothing | left
      · subst nothing
        have ended : buf = buffer.length := inside
        rw [ended, txd_loop_finished]
        exact finished []
      · rw [txdLoop, if_pos left]
        exact waiting buf len left inside
  | cons answer answers induction =>
      rcases Nat.eq_zero_or_pos len with nothing | left
      · subst nothing
        have ended : buf = buffer.length := inside
        rw [ended, txd_loop_finished]
        exact finished (answer :: answers)
      · rw [txd_loop_turn small answer answers buf len left inside]
        cases answer with
        | room room =>
            by_cases fits : len ≤ room.val
            · have all : (WriteAnswer.room room).rc len = len := by
                rw [WriteAnswer.rc, Nat.min_eq_right fits]
              simp only [all, if_true]
              exact full room answers buf len left inside fits
            · have part : (WriteAnswer.room room).rc len = room.val := by
                rw [WriteAnswer.rc, Nat.min_eq_left (by omega)]
              have fewer : (room.val : Int) ≠ len := by omega
              simp only [part, fewer, if_false, Int.natCast_nonneg, if_true, Int.toNat_natCast]
              apply short room answers buf len _ inside (by omega)
              exact induction (buf + room.val) (len - room.val) (by omega)
        | failed errno =>
            have differs : ((-1 : Int) = len) = False := by
              rw [eq_iff_iff, iff_false]
              omega
            simp only [WriteAnswer.rc, WriteAnswer.errno, differs, if_false]
            by_cases retry : errno.val = EAGAIN ∨ errno.val = EWOULDBLOCK
            · simp only [retry, if_true]
              exact again errno answers buf len _ left inside retry (induction buf len inside)
            · simp only [retry, if_false]
              exact failed errno answers buf len left inside retry

end Serial

/-- The bytes that a call put into the output queue. -/
def TtyCall.accepted : TtyCall → Bytes
  | .write data rc => data.take rc.toNat
  | _ => []

def acceptedBytes (calls : List TtyCall) : Bytes := calls.flatMap TtyCall.accepted

/-- Each `write` is given what was not accepted before it; with code 0 all is accepted,
and with another code the `write` that failed is the last call, with bytes left. -/
structure WritesBuffer (buffer : Bytes) (outcome : TxdOutcome) : Prop where
  suffixes : ∀ before data rc after, outcome.1 = before ++ .write data rc :: after →
    acceptedBytes before ++ data = buffer
  complete : outcome.2 = some 0 → acceptedBytes outcome.1 = buffer
  failed : ∀ code, outcome.2 = some code → code ≠ 0 →
    acceptedBytes outcome.1 <+: buffer ∧ acceptedBytes outcome.1 ≠ buffer ∧
      ∃ before data, outcome.1 = before ++ [.write data (-1)]

/-- What each `write` was given and what it returned. -/
def TtyCall.written : TtyCall → Option (Bytes × Int)
  | .write data rc => some (data, rc)
  | _ => none

def writes (calls : List TtyCall) : List (Bytes × Int) := calls.filterMap TtyCall.written

/-- The `write`s return what the tty answers them, one answer after the other. An error
code is the `errno` of the last of these answers, one that is not retried; without a code
they are all used up. -/
structure Answered (answers : List WriteAnswer) (outcome : TxdOutcome) : Prop where
  results : writes outcome.1 = List.zipWith
    (fun answer (write : Bytes × Int) => (write.1, answer.rc write.1.length)) answers
    (writes outcome.1)
  failed : ∀ code, outcome.2 = some code → code ≠ 0 →
    ∃ turn errno, (writes outcome.1).length = turn + 1 ∧
      answers[turn]? = some (.failed errno) ∧ errno.val = code ∧
      ¬(errno.val = EAGAIN ∨ errno.val = EWOULDBLOCK)
  waiting : outcome.2 = none → (writes outcome.1).length = answers.length

theorem accepted_append (before after : List TtyCall) :
    acceptedBytes (before ++ after) = acceptedBytes before ++ acceptedBytes after :=
  List.flatMap_append

theorem accepted_write (data : Bytes) (rc : Int) (calls : List TtyCall) :
    acceptedBytes (.write data rc :: calls) = data.take rc.toNat ++ acceptedBytes calls := rfl

theorem accepted_end : acceptedBytes Serial.txdEnd.1 = [] := rfl

/-- What the only `write` of some calls was given. -/
theorem only_write {written data : Bytes} {code rc : Int} {calls before after : List TtyCall}
    (others : ∀ data rc, TtyCall.write data rc ∉ calls)
    (split : .write written code :: calls = before ++ .write data rc :: after) :
    before = [] ∧ data = written := by
  cases before with
  | nil =>
      injection split with same _
      injection same with same _
      exact ⟨rfl, same.symm⟩
  | cons call before =>
      injection split with _ rest
      rw [rest] at others
      exact absurd (List.mem_append_right before List.mem_cons_self) (others data rc)

theorem writes_buffer_end : WritesBuffer [] Serial.txdEnd := by
  apply WritesBuffer.mk
  · intro before data rc after split
    have member : TtyCall.write data rc ∈ Serial.txdEnd.1 := by
      rw [split]
      exact List.mem_append_right before List.mem_cons_self
    simp [Serial.txdEnd] at member
  · exact fun _ => rfl
  · intro code returned failure
    injection returned with same
    exact absurd same.symm failure

theorem writes_buffer_full (rest : Bytes) :
    WritesBuffer rest (Serial.callsBefore [.write rest rest.length] Serial.txdEnd) := by
  apply WritesBuffer.mk
  · intro before data rc after split
    have only := only_write (by simp [Serial.txdEnd]) split
    rw [only.1, only.2]
    rfl
  · intro _
    rw [Serial.callsBefore, accepted_append, accepted_end, accepted_write, Int.toNat_natCast,
      List.take_length]
    simp [acceptedBytes]
  · intro code returned failure
    injection returned with same
    exact absurd same.symm failure

theorem writes_buffer_failed (rest : Bytes) (errno : Errno) (left : rest ≠ []) :
    WritesBuffer rest ([.write rest (-1)], some errno.val) := by
  apply WritesBuffer.mk
  · intro before data rc after split
    have only := only_write (fun _ _ => List.not_mem_nil) split
    rw [only.1, only.2]
    rfl
  · intro returned
    injection returned with same
    exact absurd same errno.property
  · intro code returned failure
    exact ⟨List.nil_prefix, Ne.symm left, [], rest, rfl⟩

/-- A `write` that takes some bytes leaves the others to the rest of the calls. -/
theorem WritesBuffer.after_write {rest : Bytes} {rc : Int} {outcome : TxdOutcome}
    (writes : WritesBuffer (rest.drop rc.toNat) outcome) :
    WritesBuffer rest (Serial.callsBefore [.write rest rc, .tcdrain] outcome) := by
  have accepted : acceptedBytes [.write rest rc, .tcdrain] = rest.take rc.toNat := by
    simp [acceptedBytes, TtyCall.accepted]
  apply WritesBuffer.mk
  · intro before data code after split
    rw [Serial.callsBefore] at split
    cases before with
    | nil =>
        injection split with same _
        injection same with same _
        rw [← same]
        rfl
    | cons first before =>
        injection split with head split
        subst head
        cases before with
        | nil =>
            injection split with head _
            cases head
        | cons second before =>
            injection split with head split
            subst head
            have suffix := writes.suffixes before data code after split
            change rest.take rc.toNat ++ acceptedBytes before ++ data = rest
            rw [List.append_assoc, suffix, List.take_append_drop]
  · intro returned
    rw [Serial.callsBefore, accepted_append, accepted, writes.complete returned,
      List.take_append_drop]
  · intro code returned failure
    rcases writes.failed code returned failure with ⟨part, left, before, data, last⟩
    rw [Serial.callsBefore, accepted_append, accepted]
    have whole := List.take_append_drop rc.toNat rest
    apply And.intro
    · have longer := (List.prefix_append_right_inj (rest.take rc.toNat)).mpr part
      rw [whole] at longer
      exact longer
    · apply And.intro
      · intro same
        exact left (List.append_cancel_left (same.trans whole.symm))
      · exact ⟨[.write rest rc, .tcdrain] ++ before, data, by rw [last, List.append_assoc]⟩

theorem txd_loop_writes {buffer : Bytes} (small : buffer.length < 2 ^ 63)
    (answers : List WriteAnswer) (buf len : Nat) (inside : buf + len = buffer.length) :
    WritesBuffer (buffer.drop buf) (Serial.txdLoop buffer answers buf len) := by
  have remaining : ∀ buf len, buf + len = buffer.length → (buffer.drop buf).length = len := by
    intro buf len inside
    rw [List.length_drop]
    omega
  apply Serial.txd_loop_induction small _ _ _ _ _ _ answers buf len inside
  · intro answers
    rw [List.drop_length]
    exact writes_buffer_end
  · intro buf len left inside
    apply WritesBuffer.mk
    · intro before data rc after split
      simp at split
    · intro returned
      cases returned
    · intro code returned
      cases returned
  · intro room answers buf len left inside fits
    have whole := writes_buffer_full (buffer.drop buf)
    rw [remaining buf len inside] at whole
    exact whole
  · intro room answers buf len outcome inside fewer writes
    apply WritesBuffer.after_write
    rw [Int.toNat_natCast, List.drop_drop]
    exact writes
  · intro errno answers buf len outcome left inside retry writes
    exact WritesBuffer.after_write writes
  · intro errno answers buf len left inside hard
    apply writes_buffer_failed
    intro empty
    have length := remaining buf len inside
    rw [empty, List.length_nil] at length
    omega

/-- A `write` and its answer in front of calls that are answered. -/
theorem Answered.after_write {answers : List WriteAnswer} {outcome : TxdOutcome}
    (answer : WriteAnswer) (data : Bytes) (answered : Answered answers outcome) :
    Answered (answer :: answers)
      (Serial.callsBefore [.write data (answer.rc data.length), .tcdrain] outcome) := by
  have first : writes (Serial.callsBefore [.write data (answer.rc data.length), .tcdrain]
      outcome).1 = (data, answer.rc data.length) :: writes outcome.1 := rfl
  apply Answered.mk
  · rw [first, List.zipWith_cons_cons, ← answered.results]
  · intro code returned failure
    obtain ⟨turn, errno, count, given, same, hard⟩ := answered.failed code returned failure
    refine ⟨turn + 1, errno, ?_, given, same, hard⟩
    rw [first, List.length_cons, count]
  · intro unfinished
    rw [first, List.length_cons, answered.waiting unfinished, List.length_cons]

theorem txd_loop_answered {buffer : Bytes} (small : buffer.length < 2 ^ 63)
    (answers : List WriteAnswer) (buf len : Nat) (inside : buf + len = buffer.length) :
    Answered answers (Serial.txdLoop buffer answers buf len) := by
  have remaining : ∀ buf len, buf + len = buffer.length → (buffer.drop buf).length = len := by
    intro buf len inside
    rw [List.length_drop]
    omega
  apply Serial.txd_loop_induction small (motive := fun answers _ _ outcome =>
    Answered answers outcome) _ _ _ _ _ _ answers buf len inside
  · intro answers
    apply Answered.mk
    · exact List.zipWith_nil_right.symm
    · intro code returned failure
      injection returned with same
      exact absurd same.symm failure
    · intro unfinished
      cases unfinished
  · intro buf len left inside
    apply Answered.mk
    · rfl
    · intro code returned
      cases returned
    · exact fun _ => rfl
  · intro room answers buf len left inside fits
    have all : (WriteAnswer.room room).rc (buffer.drop buf).length = len := by
      rw [remaining buf len inside, WriteAnswer.rc, Nat.min_eq_right fits]
    apply Answered.mk
    · change [(buffer.drop buf, (len : Int))] = List.zipWith _ _ [(buffer.drop buf, (len : Int))]
      rw [List.zipWith_cons_cons, List.zipWith_nil_right, all]
    · intro code returned failure
      injection returned with same
      exact absurd same.symm failure
    · intro unfinished
      cases unfinished
  · intro room answers buf len outcome inside fewer answered
    have part : (WriteAnswer.room room).rc (buffer.drop buf).length = room.val := by
      rw [remaining buf len inside, WriteAnswer.rc, Nat.min_eq_left (by omega)]
    rw [← part]
    exact answered.after_write (.room room) (buffer.drop buf)
  · intro errno answers buf len outcome left inside retry answered
    exact answered.after_write (.failed errno) (buffer.drop buf)
  · intro errno answers buf len left inside hard
    apply Answered.mk
    · change [(buffer.drop buf, (-1 : Int))] = List.zipWith _ _ [(buffer.drop buf, (-1 : Int))]
      rw [List.zipWith_cons_cons, List.zipWith_nil_right]
      rfl
    · intro code returned failure
      injection returned with same
      exact ⟨0, errno, rfl, rfl, same, hard⟩
    · intro unfinished
      cases unfinished

/-- As many answers that are no retries as there are bytes end the loop. -/
theorem txd_loop_returns {buffer : Bytes} (small : buffer.length < 2 ^ 63)
    (answers : List WriteAnswer) (buf len : Nat) (inside : buf + len = buffer.length)
    (enough : len ≤ answers.countP (!·.retries)) :
    (Serial.txdLoop buffer answers buf len).2.isSome = true := by
  revert enough
  apply Serial.txd_loop_induction small
    (motive := fun answers _ len outcome =>
      len ≤ answers.countP (!·.retries) → outcome.2.isSome = true)
    _ _ _ _ _ _ answers buf len inside
  · intro answers _
    rfl
  · intro buf len left inside enough
    rw [List.countP_nil] at enough
    omega
  · intro room answers buf len left inside fits _
    rfl
  · intro room answers buf len outcome inside fewer returns enough
    apply returns
    rw [List.countP_cons] at enough
    by_cases nothing : room.val = 0
    · have retry : (WriteAnswer.room room).retries = true := beq_iff_eq.mpr nothing
      simp only [retry, Bool.not_true, Bool.false_eq_true, if_false] at enough
      omega
    · split_ifs at enough <;> omega
  · intro errno answers buf len outcome left inside again returns enough
    have retry : (WriteAnswer.failed errno).retries = true := decide_eq_true again
    rw [List.countP_cons, retry] at enough
    exact returns enough
  · intro errno answers buf len left inside hard _
    rfl

/-- Where only finitely many answers are retries, enough of them end the loop. -/
theorem enough_answers (script : Nat → WriteAnswer) (len : Nat)
    (finite : { turn | (script turn).retries = true }.Finite) :
    ∃ count, len ≤ ((List.range count).map script).countP (!·.retries) := by
  obtain ⟨last, bound⟩ := finite.bddAbove
  have settled : ∀ turn, (!(script (last + 1 + turn)).retries) = true := by
    intro turn
    rw [Bool.not_eq_true', ← Bool.not_eq_true]
    intro retry
    have early := bound retry
    omega
  apply Exists.intro (last + 1 + len)
  rw [List.range_add, List.map_append, List.countP_append, List.map_map]
  have later : (List.map (script ∘ (last + 1 + ·)) (List.range len)).countP (!·.retries) = len := by
    rw [List.countP_eq_length.mpr, List.length_map, List.length_range]
    intro answer member
    obtain ⟨turn, _, same⟩ := List.mem_map.mp member
    rw [← same]
    exact settled turn
  rw [later]
  exact Nat.le_add_left _ _

theorem txd_connected (serial : Serial) (connected : serial.connected = true)
    (buffer : TxBuffer) (answers : List WriteAnswer) :
    serial.txd answers buffer = Serial.txdLoop buffer.val answers 0 buffer.val.length :=
  if_pos connected

theorem txd_writes (serial : Serial) (connected : serial.connected = true) (buffer : TxBuffer)
    (answers : List WriteAnswer) : WritesBuffer buffer.val (serial.txd answers buffer) := by
  rw [txd_connected serial connected]
  exact txd_loop_writes buffer.property answers 0 _ (Nat.zero_add _)

/-- Every `write` of `txd` is given the bytes not accepted yet and returns what the tty
answers it; code 0 means that all were accepted, any other code is the answer to the last
`write`, with bytes left. It returns unless it retries for ever. -/
theorem txd_writes_buffer (serial : Serial) (connected : serial.connected = true)
    (buffer : TxBuffer) :
    (∀ answers, WritesBuffer buffer.val (serial.txd answers buffer) ∧
      Answered answers (serial.txd answers buffer)) ∧
      ∀ script : Nat → WriteAnswer, { turn | (script turn).retries = true }.Finite →
        ∃ count, (serial.txd ((List.range count).map script) buffer).2.isSome = true := by
  constructor
  · intro answers
    apply And.intro (txd_writes serial connected buffer answers)
    rw [txd_connected serial connected]
    exact txd_loop_answered buffer.property answers 0 _ (Nat.zero_add _)
  intro script finite
  obtain ⟨count, enough⟩ := enough_answers script buffer.val.length finite
  apply Exists.intro count
  rw [txd_connected serial connected]
  exact txd_loop_returns buffer.property _ 0 _ (Nat.zero_add _) enough

def openSerial : Serial := { Serial.create with fd := 4, connected := true }

def sampleBuffer : TxBuffer := ⟨[0x61, 0x62, 0x63], by decide⟩

def sampleRoom : WriteAnswer := .room ⟨2, by decide⟩

/-- A short write, a retry and the last byte; and a tty that always has room. -/
theorem txd_writes_buffer_in_pieces :
    let again := WriteAnswer.failed ⟨EAGAIN, by decide⟩
    let outcome := openSerial.txd [sampleRoom, again, sampleRoom] sampleBuffer
    outcome.2 = some 0 ∧
      (WritesBuffer sampleBuffer.val outcome ∧ Answered [sampleRoom, again, sampleRoom] outcome) ∧
      ∃ count, (openSerial.txd ((List.range count).map fun _ => sampleRoom) sampleBuffer).2.isSome =
        true := by
  have writes := txd_writes_buffer openSerial rfl sampleBuffer
  apply And.intro (by decide)
  apply And.intro (writes.1 _)
  apply writes.2
  have once : sampleRoom.retries ≠ true := by decide
  have never : { turn : Nat | sampleRoom.retries = true } = ∅ :=
    Set.eq_empty_of_forall_notMem fun turn retry => once retry
  rw [never]
  exact Set.finite_empty

end Serial2Redis
