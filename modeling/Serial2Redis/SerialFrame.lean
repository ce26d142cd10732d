import Mathlib.Data.List.DropRight
import Mathlib.Data.List.Induction
import Serial2Redis.Basic
import Serial2Redis.Library.ByteStuffing
import Serial2Redis.Library.GuardedRun
import Serial2Redis.Library.Transducer

/-!
# The PPP frames of the device end

`SerialFrame` of the `espUdp` example: `frame` stuffs a payload between two flags,
`rxdByte` takes the bytes of the UART one by one. Of the two branches that add a byte
only the one for ordinary bytes looks at the size of the buffer, and a flag leaves a
pending escape as it is.
-/

namespace Serial2Redis

open ByteStuffing Transducer GuardedRun

def PPP_MASK_CHAR : Byte := 0x20

def PPP_ESC_CHAR : Byte := 0x7D

def PPP_FLAG_CHAR : Byte := 0x7E

def FRAME_MAX : Nat := 128

structure SerialFrame where
  frameRxd : Bytes
  escFlag : Bool
  rxdOverflow : BitVec 32
  deriving DecidableEq

namespace SerialFrame

def create : SerialFrame where
  frameRxd := []
  escFlag := false
  rxdOverflow := 0

def addEscaped (out : Bytes) (c : Byte) : Bytes :=
  if c = PPP_ESC_CHAR ∨ c = PPP_FLAG_CHAR then out ++ [PPP_ESC_CHAR] ++ [c ^^^ PPP_MASK_CHAR]
  else out ++ [c]

def frame (input : Bytes) : Bytes :=
  input.foldl addEscaped [PPP_FLAG_CHAR] ++ [PPP_FLAG_CHAR]

/-- One byte from the UART, with what it hands to `rxdFrame`. -/
def rxdByte (self : SerialFrame) (c : Byte) : SerialFrame × List Bytes :=
  if c = PPP_ESC_CHAR then ({ self with escFlag := true }, [])
  else if c = PPP_FLAG_CHAR then
    ({ self with frameRxd := [] }, if self.frameRxd.length ≠ 0 then [self.frameRxd] else [])
  else if self.escFlag then
    ({ self with frameRxd := self.frameRxd ++ [c ^^^ PPP_MASK_CHAR], escFlag := false }, [])
  else if self.frameRxd.length < FRAME_MAX then
    ({ self with frameRxd := self.frameRxd ++ [c] }, [])
  else ({ self with frameRxd := [], rxdOverflow := self.rxdOverflow + 1 }, [])

def ppp : Convention Byte where
  escape := PPP_ESC_CHAR
  flag := PPP_FLAG_CHAR
  mask c := c ^^^ PPP_MASK_CHAR
  mask_mask := by decide
  distinct := by decide
  masked_plain := by decide

theorem add_escaped_eq (out : Bytes) (c : Byte) : addEscaped out c = out ++ stuffed ppp c := by
  rw [addEscaped, stuffed]
  by_cases special : c = PPP_ESC_CHAR ∨ c = PPP_FLAG_CHAR
  · have same : c = ppp.escape ∨ c = ppp.flag := special
    rw [if_pos special, if_pos same, List.append_assoc]
    rfl
  · have same : ¬(c = ppp.escape ∨ c = ppp.flag) := special
    rw [if_neg special, if_neg same]

theorem frame_eq (input : Bytes) :
    frame input = [PPP_FLAG_CHAR] ++ (stuff ppp input ++ [PPP_FLAG_CHAR]) := by
  have loop : ∀ out, input.foldl addEscaped out = out ++ stuff ppp input := by
    induction input with
    | nil => exact fun out => (List.append_nil out).symm
    | cons c input induction =>
        intro out
        rw [List.foldl_cons, add_escaped_eq, induction, stuff_cons, List.append_assoc]
  rw [frame, loop, List.append_assoc]

theorem mask_ne (c : Byte) : ppp.mask c ≠ c := by
  revert c
  decide

/-- The receiver as the reader of the frame it is in. -/
def reader (self : SerialFrame) : Reader Byte := ⟨self.escFlag, self.frameRxd⟩

def withReader (self : SerialFrame) (reader : Reader Byte) : SerialFrame :=
  { self with frameRxd := reader.content, escFlag := reader.pending }

/-- Between flags the receiver is the reader as long as it has room for what is read. -/
theorem rxd_byte_inside (self : SerialFrame) (c : Byte) (inside : c ≠ PPP_FLAG_CHAR)
    (room : (readLetter ppp self.reader c).content.length ≤ FRAME_MAX) :
    self.rxdByte c = (self.withReader (readLetter ppp self.reader c), []) := by
  unfold rxdByte
  by_cases escape : c = PPP_ESC_CHAR
  · subst escape
    rfl
  · have plain : c ≠ ppp.escape := escape
    rw [if_neg escape, if_neg inside]
    rw [readLetter, if_neg plain] at room ⊢
    cases pending : self.escFlag with
    | true => simp [reader, withReader, pending, ppp]
    | false =>
        simp only [reader, pending, Bool.false_eq_true, if_false, List.length_append,
          List.length_singleton] at room ⊢
        have short : self.frameRxd.length < FRAME_MAX := room
        rw [if_pos short]
        rfl

theorem feed_inside (self : SerialFrame) (bytes : Bytes) (inside : PPP_FLAG_CHAR ∉ bytes)
    (room : (bytes.foldl (readLetter ppp) self.reader).content.length ≤ FRAME_MAX) :
    feed rxdByte self bytes = (self.withReader (bytes.foldl (readLetter ppp) self.reader), []) := by
  induction bytes generalizing self with
  | nil => rfl
  | cons c bytes induction =>
      rw [List.mem_cons, not_or] at inside
      have now : (readLetter ppp self.reader c).content.length ≤ FRAME_MAX :=
        Nat.le_trans (read_all_length _ bytes) room
      have first := rxd_byte_inside self c (Ne.symm inside.1) now
      have later := induction (self.withReader (readLetter ppp self.reader c)) inside.2 room
      rw [feed_cons, first, later]
      rfl

theorem rxd_byte_flag (self : SerialFrame) :
    self.rxdByte PPP_FLAG_CHAR =
      ({ self with frameRxd := [] },
        if self.frameRxd.length ≠ 0 then [self.frameRxd] else []) := rfl

/-- A frame after a flag: the opening flag finds nothing to deliver, the closing one
delivers what was read in between. -/
theorem feed_frame (self : SerialFrame) (payload content : Bytes) (empty : self.frameRxd = [])
    (unstuffed : (stuff ppp payload).foldl (readLetter ppp) ⟨self.escFlag, []⟩ = ⟨false, content⟩)
    (nonempty : content ≠ []) (short : content.length ≤ FRAME_MAX) :
    feed rxdByte self (frame payload) =
      ({ self with frameRxd := [], escFlag := false }, [content]) := by
  have opening : feed rxdByte self [PPP_FLAG_CHAR] = (self, []) := by
    rw [feed_cons, rxd_byte_flag, empty]
    cases self
    cases empty
    rfl
  have start : self.reader = ⟨self.escFlag, []⟩ := by rw [reader, empty]
  have inside := feed_inside self (stuff ppp payload) (flag_not_mem_stuff payload)
    (by rw [start, unstuffed]; exact short)
  rw [start, unstuffed] at inside
  have filled : content.length ≠ 0 := by
    intro zero
    exact nonempty (List.eq_nil_of_length_eq_zero zero)
  have closing : feed rxdByte (self.withReader ⟨false, content⟩) [PPP_FLAG_CHAR] =
      ({ self with frameRxd := [], escFlag := false }, [content]) := by
    rw [feed_cons, rxd_byte_flag, withReader]
    simp only [filled, ne_eq, not_false_eq_true, if_true, feed_nil, List.append_nil]
  rw [frame_eq, feed_append, opening, feed_append, inside, closing]
  rfl

/-- Frames sent one after the other arrive one by one, and leave the receiver as it
was in the beginning. -/
theorem frames_round_trip (payloads : List Bytes)
    (sendable : ∀ payload ∈ payloads, payload ≠ [] ∧ payload.length ≤ FRAME_MAX) :
    feed rxdByte create (payloads.flatMap frame) = (create, payloads) := by
  apply feed_codes
  intro payload member
  have fits := sendable payload member
  exact feed_frame create payload payload rfl (read_stuff [] payload) fits.1 fits.2

theorem frames_round_trip_specials :
    feed rxdByte create ([[0x7D, 0x7E, 0x41], [0x7E]].flatMap frame) =
      (create, [[0x7D, 0x7E, 0x41], [0x7E]]) :=
  frames_round_trip [[0x7D, 0x7E, 0x41], [0x7E]] (by decide)

/-- The last byte of the history that is not a flag is an escape. -/
def Dangling (history : Bytes) : Prop :=
  (history.filter (· != PPP_FLAG_CHAR)).getLast? = some PPP_ESC_CHAR

instance (history : Bytes) : Decidable (Dangling history) :=
  inferInstanceAs (Decidable (_ = _))

theorem rxd_byte_esc_flag (self : SerialFrame) (c : Byte) :
    (self.rxdByte c).1.escFlag =
      if c = PPP_ESC_CHAR then true else if c = PPP_FLAG_CHAR then self.escFlag else false := by
  unfold rxdByte
  by_cases escape : c = PPP_ESC_CHAR
  · rw [if_pos escape, if_pos escape]
  · rw [if_neg escape, if_neg escape]
    by_cases flag : c = PPP_FLAG_CHAR
    · rw [if_pos flag, if_pos flag]
    · rw [if_neg flag, if_neg flag]
      cases pending : self.escFlag with
      | true => rfl
      | false => by_cases room : self.frameRxd.length < FRAME_MAX <;> simp [room]

/-- Only ordinary bytes end an escape, so one before a flag is still pending after it. -/
theorem esc_flag_iff (history : Bytes) :
    (feed rxdByte create history).1.escFlag = true ↔ Dangling history := by
  induction history using List.reverseRecOn with
  | nil => simp [create, Dangling]
  | append_singleton history c induction =>
      rw [feed_append, Dangling, List.filter_append]
      change ((feed rxdByte create history).1.rxdByte c).1.escFlag = true ↔ _
      rw [rxd_byte_esc_flag]
      by_cases flag : c = PPP_FLAG_CHAR
      · have ordinary : PPP_FLAG_CHAR ≠ PPP_ESC_CHAR := by decide
        rw [flag, if_neg ordinary, if_pos rfl, induction, Dangling]
        simp
      · have kept : [c].filter (· != PPP_FLAG_CHAR) = [c] := by simp [flag]
        rw [kept, List.getLast?_append, List.getLast?_singleton, if_neg flag]
        by_cases escape : c = PPP_ESC_CHAR <;> simp [escape]

theorem ended_by_flag (history : Bytes) (ended : history.getLast? = some PPP_FLAG_CHAR) :
    (feed rxdByte create history).1.frameRxd = [] := by
  obtain ⟨before, rfl⟩ := List.getLast?_eq_some_iff.mp ended
  rw [feed_append]
  rfl

/-- After a flag the next frame arrives unaltered exactly when no escape is pending
from before the flag, or the payload begins with a byte that is sent escaped. -/
theorem frame_after_flag_iff (history payload : Bytes)
    (ended : history.getLast? = some PPP_FLAG_CHAR) (nonempty : payload ≠ [])
    (short : payload.length ≤ FRAME_MAX) :
    (feed rxdByte (feed rxdByte create history).1 (frame payload)).2 = [payload] ↔
      ¬Dangling history ∨ payload.head? = some PPP_ESC_CHAR ∨
        payload.head? = some PPP_FLAG_CHAR := by
  have empty := ended_by_flag history ended
  rw [← esc_flag_iff]
  cases pending : (feed rxdByte create history).1.escFlag with
  | false =>
      have clean := feed_frame _ payload payload empty
        (by rw [pending]; exact read_stuff [] payload) nonempty short
      rw [clean]
      simp
  | true =>
      cases payload with
      | nil => exact absurd rfl nonempty
      | cons c rest =>
          have masked := feed_frame _ (c :: rest) _ empty
            (by rw [pending]; exact read_stuff_pending [] c rest) (by simp) (by simpa using short)
          have altered := mask_ne c
          rw [masked]
          by_cases special : c = PPP_ESC_CHAR ∨ c = PPP_FLAG_CHAR
          · have same : c = ppp.escape ∨ c = ppp.flag := special
            simp [same, special]
          · have same : ¬(c = ppp.escape ∨ c = ppp.flag) := special
            simp [same, special, altered]

theorem frame_after_flag_delivered :
    (feed rxdByte (feed rxdByte create [0x7D, 0x41, 0x7E]).1 (frame [0x41])).2 = [[0x41]] :=
  (frame_after_flag_iff [0x7D, 0x41, 0x7E] [0x41] (by decide) (by decide) (by decide)).mpr
    (.inl (by decide))

/-- An aborted frame ends in an escape; the next frame carries `A` and arrives as `a`. -/
theorem frame_after_flag_altered :
    [PPP_ESC_CHAR, PPP_FLAG_CHAR].getLast? = some PPP_FLAG_CHAR ∧
      (feed rxdByte (feed rxdByte create [PPP_ESC_CHAR, PPP_FLAG_CHAR]).1 (frame [0x41])).2 =
        [[0x61]] := by
  decide

/-- The byte behind an escape goes into a buffer that is full. -/
def Overfills (self : SerialFrame) (c : Byte) : Prop :=
  self.escFlag = true ∧ c ≠ PPP_ESC_CHAR ∧ c ≠ PPP_FLAG_CHAR ∧ FRAME_MAX ≤ self.frameRxd.length

theorem rxd_byte_bounded_iff (self : SerialFrame) (c : Byte)
    (bounded : self.frameRxd.length ≤ FRAME_MAX) :
    (self.rxdByte c).1.frameRxd.length ≤ FRAME_MAX ↔ ¬self.Overfills c := by
  unfold rxdByte Overfills
  by_cases escape : c = PPP_ESC_CHAR
  · rw [if_pos escape]
    simp [escape, bounded]
  · by_cases flag : c = PPP_FLAG_CHAR
    · rw [if_neg escape, if_pos flag]
      simp [flag]
    · rw [if_neg escape, if_neg flag]
      cases pending : self.escFlag with
      | true =>
          simp only [if_true, List.length_append, List.length_singleton, escape, flag, ne_eq,
            not_false_eq_true, true_and]
          omega
      | false =>
          by_cases room : self.frameRxd.length < FRAME_MAX
          · have grown : self.frameRxd.length + 1 ≤ FRAME_MAX := room
            simp [room, grown]
          · simp [room]

theorem delivered_by_byte (self : SerialFrame) (c : Byte) (delivered : Bytes)
    (member : delivered ∈ (self.rxdByte c).2) :
    delivered = self.frameRxd ∧ delivered.length ≠ 0 := by
  unfold rxdByte at member
  split_ifs at member with escape flag filled
  · exact absurd member List.not_mem_nil
  · rw [List.mem_singleton] at member
    rw [member]
    exact ⟨rfl, filled⟩
  all_goals exact absurd member List.not_mem_nil

/-- Buffer and frames stay in their bounds exactly when no byte behind an escape comes
to a full buffer. -/
theorem frame_bounded_steps (bytes : Bytes) :
    ((∀ before, before <+: bytes →
        (feed rxdByte create before).1.frameRxd.length ≤ FRAME_MAX) ∧
      ∀ delivered ∈ (feed rxdByte create bytes).2,
        1 ≤ delivered.length ∧ delivered.length ≤ FRAME_MAX) ↔
      Admits (fun self c => (self.rxdByte c).1) (fun self c => ¬self.Overfills c) create bytes := by
  have reached := reached_iff_admits (fun self c => (rxdByte self c).1)
    (fun self => self.frameRxd.length ≤ FRAME_MAX) (fun self c => ¬self.Overfills c)
    rxd_byte_bounded_iff create bytes (Nat.zero_le _)
  rw [← reached]
  simp only [feed_state]
  apply and_iff_left_of_imp
  intro bounded delivered member
  obtain ⟨before, c, inside, emitted⟩ := feed_output rxdByte create bytes delivered member
  have content := delivered_by_byte _ c delivered emitted
  have short := bounded before (List.IsPrefix.trans (List.prefix_append before [c]) inside)
  rw [← feed_state, ← content.1] at short
  exact ⟨Nat.one_le_iff_ne_zero.mpr content.2, short⟩

/-- What goes into the buffer from the last flag of the history on. -/
def contentCount (history : Bytes) : Nat :=
  (history.rtakeWhile (· != PPP_FLAG_CHAR)).countP (· != PPP_ESC_CHAR)

theorem content_count_append (history : Bytes) (c : Byte) :
    contentCount (history ++ [c]) =
      if c = PPP_FLAG_CHAR then 0
      else if c = PPP_ESC_CHAR then contentCount history
      else contentCount history + 1 := by
  rw [contentCount, List.rtakeWhile_concat]
  by_cases flag : c = PPP_FLAG_CHAR
  · simp [flag]
  · by_cases escape : c = PPP_ESC_CHAR
    · subst escape
      simp [flag, contentCount]
    · simp [flag, escape, contentCount]

/-- A byte that does not overfill the buffer counts up to its size, and the next one after
that starts again from nothing. -/
theorem rxd_byte_length (self : SerialFrame) (c : Byte) (count : Nat)
    (counted : self.frameRxd.length = count % (FRAME_MAX + 1)) (fits : ¬self.Overfills c) :
    (self.rxdByte c).1.frameRxd.length =
      (if c = PPP_FLAG_CHAR then 0 else if c = PPP_ESC_CHAR then count else count + 1) %
        (FRAME_MAX + 1) := by
  have ordinary : PPP_ESC_CHAR ≠ PPP_FLAG_CHAR := by decide
  unfold rxdByte
  by_cases escape : c = PPP_ESC_CHAR
  · rw [if_pos escape, escape, if_neg ordinary, if_pos rfl]
    exact counted
  · by_cases flag : c = PPP_FLAG_CHAR
    · rw [if_neg escape, if_pos flag, if_pos flag]
      rfl
    · rw [if_neg escape, if_neg flag, if_neg flag, if_neg escape]
      unfold Overfills at fits
      rw [FRAME_MAX] at counted fits ⊢
      cases pending : self.escFlag with
      | true =>
          have room : self.frameRxd.length < 128 := by
            by_contra full
            exact fits ⟨pending, escape, flag, Nat.le_of_not_lt full⟩
          simp only [if_true, List.length_append, List.length_singleton]
          omega
      | false =>
          by_cases room : self.frameRxd.length < 128
          · simp only [Bool.false_eq_true, if_false, room, if_true, List.length_append,
              List.length_singleton]
            omega
          · simp only [Bool.false_eq_true, if_false, room, List.length_nil]
            omega

/-- While the buffer is not overfilled its length is told by the bytes alone. -/
theorem frame_length (bytes : Bytes)
    (fits : Admits (fun self c => (rxdByte self c).1) (fun self c => ¬self.Overfills c) create
      bytes) :
    (feed rxdByte create bytes).1.frameRxd.length = contentCount bytes % (FRAME_MAX + 1) := by
  induction bytes using List.reverseRecOn with
  | nil => rfl
  | append_singleton bytes c induction =>
      obtain ⟨before, last⟩ := (admits_append_singleton _ _ create bytes c).mp fits
      rw [run, ← feed_state] at last
      rw [feed_append, content_count_append]
      exact rxd_byte_length _ c _ (induction before) last

/-- The byte behind an escape is one too many. -/
def Overflows (before : Bytes) (c : Byte) : Prop :=
  Dangling before ∧ c ≠ PPP_ESC_CHAR ∧ c ≠ PPP_FLAG_CHAR ∧
    contentCount before % (FRAME_MAX + 1) = FRAME_MAX

theorem overfills_iff (before : Bytes) (c : Byte)
    (fits : Admits (fun self c => (rxdByte self c).1) (fun self c => ¬self.Overfills c) create
      before) :
    (feed rxdByte create before).1.Overfills c ↔ Overflows before c := by
  have length := frame_length before fits
  have small : contentCount before % (FRAME_MAX + 1) < FRAME_MAX + 1 :=
    Nat.mod_lt _ (Nat.succ_pos FRAME_MAX)
  rw [Overfills, Overflows, esc_flag_iff, length]
  refine and_congr_right fun _ => and_congr_right fun _ => and_congr_right fun _ => ?_
  omega

theorem never_overfills_iff (bytes : Bytes) :
    Admits (fun self c => (rxdByte self c).1) (fun self c => ¬self.Overfills c) create bytes ↔
      ∀ before c, before ++ [c] <+: bytes → ¬Overflows before c := by
  induction bytes using List.reverseRecOn with
  | nil =>
      apply iff_of_true trivial
      intro before c inside
      exact absurd (List.prefix_nil.mp inside) (by simp)
  | append_singleton bytes c induction =>
      rw [admits_append_singleton, run, ← feed_state, induction]
      constructor
      · rintro ⟨earlier, last⟩ before other inside
        rcases List.prefix_concat_iff.mp inside with whole | inner
        · obtain ⟨rfl, same⟩ := List.append_inj' whole rfl
          cases same
          rwa [overfills_iff before c (induction.mpr earlier)] at last
        · exact earlier before other inner
      · intro never
        have earlier : ∀ before other, before ++ [other] <+: bytes → ¬Overflows before other :=
          fun before other inside =>
            never before other (inside.trans (List.prefix_append bytes [c]))
        refine ⟨earlier, ?_⟩
        rw [overfills_iff bytes c (induction.mpr earlier)]
        exact never bytes c (List.prefix_refl _)

/-- Buffer and frames stay in their bounds exactly when no ordinary byte follows an escape
where 128 bytes, or a multiple of 129 more, have come since the last flag. -/
theorem frame_bound_iff (bytes : Bytes) :
    ((∀ before, before <+: bytes →
        (feed rxdByte create before).1.frameRxd.length ≤ FRAME_MAX) ∧
      ∀ delivered ∈ (feed rxdByte create bytes).2,
        1 ≤ delivered.length ∧ delivered.length ≤ FRAME_MAX) ↔
      ∀ before c, before ++ [c] <+: bytes → ¬Overflows before c :=
  (frame_bounded_steps bytes).trans (never_overfills_iff bytes)

/-- Escaped bytes fill the buffer without any bound. -/
theorem escaped_bytes_kept (count : Nat) (self : SerialFrame) :
    (feed rxdByte self (List.replicate count [PPP_ESC_CHAR, 0x41]).flatten).1.frameRxd.length =
      self.frameRxd.length + count := by
  induction count generalizing self with
  | zero => rfl
  | succ count induction =>
      have pair : (feed rxdByte self [PPP_ESC_CHAR, 0x41]).1.frameRxd =
          self.frameRxd ++ [0x61] := rfl
      rw [List.replicate_succ, List.flatten_cons, feed_append, induction, pair,
        List.length_append, List.length_singleton]
      omega

theorem frame_bound_exceeded :
    FRAME_MAX < (feed rxdByte create
      (List.replicate 129 [PPP_ESC_CHAR, 0x41]).flatten).1.frameRxd.length := by
  rw [escaped_bytes_kept]
  decide

/-- The opening flag delivers what is in the buffer, and the frame then goes on as after
a flag. -/
theorem feed_frame_anywhere (self : SerialFrame) (payload : Bytes) :
    feed rxdByte self (frame payload) =
      ((feed rxdByte { self with frameRxd := [] } (frame payload)).1,
        (if self.frameRxd.length ≠ 0 then [self.frameRxd] else []) ++
          (feed rxdByte { self with frameRxd := [] } (frame payload)).2) := by
  rw [frame_eq, List.singleton_append, feed_cons, feed_cons, rxd_byte_flag, rxd_byte_flag]
  rfl

/-- The payload as it arrives where an escape may be pending. -/
def afterEscape (pending : Bool) (payload : Bytes) : Bytes :=
  if pending ∧ payload.head? ≠ some PPP_ESC_CHAR ∧ payload.head? ≠ some PPP_FLAG_CHAR then
    payload.modifyHead (· ^^^ PPP_MASK_CHAR)
  else payload

theorem read_after_escape (pending : Bool) (payload : Bytes) (nonempty : payload ≠ []) :
    (stuff ppp payload).foldl (readLetter ppp) ⟨pending, []⟩ =
      ⟨false, afterEscape pending payload⟩ := by
  cases pending with
  | false =>
      rw [afterEscape, if_neg fun both => Bool.false_ne_true both.1]
      exact read_stuff [] payload
  | true =>
      cases payload with
      | nil => exact absurd rfl nonempty
      | cons c rest =>
          rw [read_stuff_pending, afterEscape]
          by_cases special : c = PPP_ESC_CHAR ∨ c = PPP_FLAG_CHAR
          · have same : c = ppp.escape ∨ c = ppp.flag := special
            have escaped : ¬(true = true ∧ (c :: rest).head? ≠ some PPP_ESC_CHAR ∧
                (c :: rest).head? ≠ some PPP_FLAG_CHAR) := by
              intro ordinary
              rcases special with escape | flag
              · exact ordinary.2.1 (congrArg some escape)
              · exact ordinary.2.2 (congrArg some flag)
            rw [if_pos same, if_neg escaped, List.nil_append]
          · have same : ¬(c = ppp.escape ∨ c = ppp.flag) := special
            rw [not_or] at special
            rw [if_neg same, if_pos (by simp [special.1, special.2])]
            rfl

theorem after_escape_length (pending : Bool) (payload : Bytes) :
    (afterEscape pending payload).length = payload.length := by
  unfold afterEscape
  split_ifs
  · exact List.length_modifyHead
  · rfl

/-- After any history at all the frames arrive in order behind at most one piece of noise,
the first of them with its first byte masked exactly when an escape is pending and that
byte is not sent escaped, and the receiver is clean at the end. -/
theorem frames_after_any_history (history payload : Bytes) (payloads : List Bytes)
    (sendable : ∀ sent ∈ payload :: payloads, sent ≠ [] ∧ sent.length ≤ FRAME_MAX) :
    ∃ noise : List Bytes, noise.length ≤ 1 ∧
      (feed rxdByte (feed rxdByte create history).1 ((payload :: payloads).flatMap frame)).2 =
        noise ++ afterEscape (Dangling history) payload :: payloads ∧
      (feed rxdByte (feed rxdByte create history).1
          ((payload :: payloads).flatMap frame)).1.frameRxd = [] ∧
      (feed rxdByte (feed rxdByte create history).1
          ((payload :: payloads).flatMap frame)).1.escFlag = false := by
  have pending : (feed rxdByte create history).1.escFlag = decide (Dangling history) := by
    rw [Bool.eq_iff_iff, esc_flag_iff, decide_eq_true_iff]
  generalize (feed rxdByte create history).1 = self at pending ⊢
  have fits := sendable payload List.mem_cons_self
  have length := after_escape_length (Dangling history) payload
  have filled : afterEscape (Dangling history) payload ≠ [] := by
    rw [← List.length_pos_iff, length]
    exact List.length_pos_of_ne_nil fits.1
  have first := feed_frame { self with frameRxd := [] } payload _ rfl
    (by rw [pending]; exact read_after_escape _ payload fits.1) filled (by rw [length]; exact fits.2)
  have rest := feed_codes rxdByte { self with frameRxd := [], escFlag := false } frame payloads
    (by
      intro sent member
      have small := sendable sent (List.mem_cons_of_mem _ member)
      exact feed_frame _ sent sent rfl (read_stuff [] sent) small.1 small.2)
  refine ⟨if self.frameRxd.length ≠ 0 then [self.frameRxd] else [], ?_, ?_⟩
  · split_ifs <;> simp
  · rw [List.flatMap_cons, feed_append, feed_frame_anywhere, first, rest]
    exact ⟨List.append_assoc _ _ _, rfl, rfl⟩

/-- Half a byte and an escape are left over: the noise `?` comes first and `A` as `a`. -/
theorem frames_after_noise :
    ∃ noise : List Bytes, noise.length ≤ 1 ∧
      (feed rxdByte (feed rxdByte create [0x3F, PPP_ESC_CHAR]).1 ([[0x41], [0x42]].flatMap frame)).2 =
        noise ++ afterEscape (Dangling [0x3F, PPP_ESC_CHAR]) [0x41] :: [[0x42]] ∧
      (feed rxdByte (feed rxdByte create [0x3F, PPP_ESC_CHAR]).1
          ([[0x41], [0x42]].flatMap frame)).1.frameRxd = [] ∧
      (feed rxdByte (feed rxdByte create [0x3F, PPP_ESC_CHAR]).1
          ([[0x41], [0x42]].flatMap frame)).1.escFlag = false :=
  frames_after_any_history [0x3F, PPP_ESC_CHAR] [0x41] [[0x42]] (by decide)

end SerialFrame

end Serial2Redis
