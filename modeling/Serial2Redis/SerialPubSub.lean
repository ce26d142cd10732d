import Serial2Redis.CborFlows
import Serial2Redis.PublishAlive
import Serial2Redis.Library.RunReader

/-!
# The device of the CR/LF link

`SerialPubSub` of the basicPubSub sketch: its line reader, its answer to a line and what
it sends. A line whose checksum is wrong is reported and handled all the same, and a line
too short to hold one ends the program.
-/

namespace Serial2Redis

open Transducer DelimitedRuns RunReader Crc16

/-- What the sketch is compiled with: ArduinoJson of the board, its conversion of a
variant to `uint64_t`, and the sign of a plain `char`. -/
structure Board where
  lib : ArduinoJson
  asUint64 : Json → BitVec 64
  charSigned : Bool

/-- A byte of the serial line, with the value `millis()` has while it is handled. -/
structure Received where
  byte : Byte
  millis : BitVec 32

structure SerialPubSub where
  buffer : CppString

def jsonUint32 (value : BitVec 32) : JsonInteger := ⟨value.toNat, by omega⟩

def loopbackTopic : CppString := text "dst/arduino/sys/loopback"

def latencyTopic : CppString := text "src/arduino/sys/latency"

/-- `source.substr(pos, count)`; without a count it runs to the end. -/
def CppString.substrCount (source : CppString) (pos count : Nat) : Except OutOfRange CppString :=
  (CppString.substr source pos).map (List.take count)

/-- A difference of two `size_t` of the board, which has 32 bits of them. -/
def sizeMinus (left right : Nat) : Nat := (2 ^ 32 + left - right) % 2 ^ 32

namespace Board

def crc16 (board : Board) (data : CppString) : CppString :=
  hexText (crcRegister (if board.charSigned then promoteChar else promoteUint8) data)

def sendJson (board : Board) (doc : Json) : Bytes :=
  board.lib.serializeJson doc ++ board.crc16 (board.lib.serializeJson doc) ++ text "\r\n"

def publish (board : Board) (key : CppString) (value : BitVec 32) : Bytes :=
  board.sendJson (((Json.null.setElement 0 (.literal "pub")).setElement 1 (.string key)).setElement 2
    (.int (jsonUint32 value)))

def subscribe (board : Board) (pattern : CppString) : Bytes :=
  board.sendJson ((Json.null.setElement 0 (.literal "sub")).setElement 1 (.string pattern))

/-- What `printf` writes about a checksum that is not the one of its line. -/
def crcFailed (board : Board) (line crc : CppString) : Bytes :=
  text "CRC failed :" ++ cString line ++ text " => " ++ cString crc ++ text " vs " ++
    board.crc16 (cString line) ++ text " \n"

def isLoopback (document : Json) : Bool :=
  document.isArray && (document.element 0).equals "pub" &&
    (document.element 1).equals "dst/arduino/sys/loopback"

/-- `millis() - start`, in 64 bits and cut to the 32 of the parameter of `publish`. -/
def latency (board : Board) (millis : BitVec 32) (document : Json) : BitVec 32 :=
  (millis.setWidth 64 - board.asUint64 (document.element 2)).setWidth 32

/-- What is written about a line and the checksum cut off it. -/
def reaction (board : Board) (millis : BitVec 32) (line crc : CppString) : Bytes :=
  (if cString crc ≠ board.crc16 (cString line) then board.crcFailed line crc else []) ++
    if (board.lib.deserializeJson line).1 = .ok ∧ isLoopback (board.lib.deserializeJson line).2 then
      board.publish latencyTopic (board.latency millis (board.lib.deserializeJson line).2)
    else []

def handleLine (board : Board) (millis : BitVec 32) (s : CppString) : Except OutOfRange Bytes := do
  let line ← CppString.substrCount s 0 (sizeMinus s.length 4)
  let crc ← CppString.substrCount s (sizeMinus s.length 4) 4
  return board.reaction millis line crc

end Board

def isLineEnd (received : Received) : Bool := received.byte == 0x0D || received.byte == 0x0A

/-- `handle_byte`, with what it writes to the stream. -/
def SerialPubSub.handleByte (board : Board) (pubSub : SerialPubSub) (received : Received) :
    Except OutOfRange (SerialPubSub × Bytes) := do
  let (buffer, written) ←
    if isLineEnd received then do
      let written ←
        if pubSub.buffer.length > 0 then board.handleLine received.millis pubSub.buffer else pure []
      pure ([], written)
    else pure (pubSub.buffer ++ [received.byte], [])
  return (⟨if buffer.length > 512 then [] else buffer⟩, written)

/-- One call of `rxd`, with the bytes that are available to it. -/
def SerialPubSub.rxd (board : Board) : Except OutOfRange SerialPubSub → List Received →
    Except OutOfRange SerialPubSub × Bytes :=
  feed (attempt (SerialPubSub.handleByte board))

def SerialPubSub.start : SerialPubSub := ⟨[]⟩

theorem Board.crc16_length (board : Board) (data : CppString) : (board.crc16 data).length = 4 := rfl

theorem handle_line_long (board : Board) (millis : BitVec 32) (s : CppString)
    (long : 4 ≤ s.length) (bounded : s.length ≤ 512) :
    board.handleLine millis s =
      .ok (board.reaction millis (s.take (s.length - 4)) (s.drop (s.length - 4))) := by
  have cut : sizeMinus s.length 4 = s.length - 4 := by
    unfold sizeMinus
    omega
  have whole : (s.drop (s.length - 4)).take 4 = s.drop (s.length - 4) := by
    rw [List.take_of_length_le]
    rw [List.length_drop]
    omega
  unfold Board.handleLine CppString.substrCount
  rw [cut, substr_inside s 0 (Nat.zero_le _), substr_inside s (s.length - 4) (Nat.sub_le _ _)]
  change Except.ok (board.reaction millis ((s.drop 0).take (s.length - 4))
    ((s.drop (s.length - 4)).take 4)) = _
  rw [whole, List.drop_zero]

theorem handle_line_short (board : Board) (millis : BitVec 32) (s : CppString)
    (short : s.length < 4) :
    board.handleLine millis s = .error ⟨2 ^ 32 + s.length - 4, s.length⟩ := by
  have wraps : sizeMinus s.length 4 = 2 ^ 32 + s.length - 4 := by
    unfold sizeMinus
    omega
  have outside : ¬2 ^ 32 + s.length - 4 ≤ s.length := by omega
  unfold Board.handleLine CppString.substrCount
  rw [wraps, substr_inside s 0 (Nat.zero_le _), CppString.substr, if_neg outside]
  rfl

namespace SerialPubSub

/-- The reader that has read `run` since the last line end. -/
def held (run : List Received) : SerialPubSub := ⟨openBlock 513 (run.map Received.byte)⟩

/-- What is in the buffer at the end of a line, and the time of that end. -/
def lineOf (ended : List Received × Received) : CppString × BitVec 32 :=
  (openBlock 513 (ended.1.map Received.byte), ended.2.millis)

/-- The lines that a stream makes the reader handle. -/
def handledLines (stream : List Received) : List (CppString × BitVec 32) :=
  ((endedRuns isLineEnd [] stream).map lineOf).filter fun line => !line.1.isEmpty

/-- A line that has room for a checksum. -/
def hasChecksum (line : CppString × BitVec 32) : Bool := 4 ≤ line.1.length

def answer (board : Board) (line : CppString × BitVec 32) : Bytes :=
  board.reaction line.2 (line.1.take (line.1.length - 4)) (line.1.drop (line.1.length - 4))

def tooShort (line : CppString × BitVec 32) : OutOfRange :=
  ⟨2 ^ 32 + line.1.length - 4, line.1.length⟩

def handled (board : Board) (line : CppString × BitVec 32) : Except OutOfRange Bytes :=
  if line.1.isEmpty then .ok [] else board.handleLine line.2 line.1

theorem held_length (run : List Received) : (held run).buffer.length ≤ 512 :=
  Nat.le_of_lt_succ (open_block_length_lt 513 (by omega) (run.map Received.byte))

theorem handle_byte_inside (board : Board) (run : List Received) (received : Received)
    (inside : isLineEnd received = false) :
    handleByte board (held run) received = .ok (held (run ++ [received]), []) := by
  have appended := open_block_append 513 (by omega) (run.map Received.byte) received.byte
  have bounded := open_block_length_lt 513 (by omega) (run.map Received.byte)
  rw [handleByte, inside, held, held, List.map_append, List.map_singleton, appended]
  by_cases full : (openBlock 513 (run.map Received.byte)).length + 1 = 513
  · simp [full, pure, Except.pure, Bind.bind, Except.bind]
  · have fits : (openBlock 513 (run.map Received.byte)).length < 512 := by omega
    simp [full, fits, pure, Except.pure, Bind.bind, Except.bind]

theorem handle_byte_end (board : Board) (run : List Received) (received : Received)
    (ends : isLineEnd received = true) :
    handleByte board (held run) received =
      (handled board (lineOf (run, received))).map fun written => (held [], written) := by
  rw [handleByte, ends, held, handled, lineOf]
  cases block : openBlock 513 (run.map Received.byte) with
  | nil => rfl
  | cons first rest =>
      simp only [if_true, List.length_cons, Nat.zero_lt_succ, List.isEmpty_cons, Bool.false_eq_true,
        if_false]
      cases result : board.handleLine received.millis (first :: rest) <;> rfl

theorem handled_line_cases (board : Board) (stream : List Received)
    (line : CppString × BitVec 32) (member : line ∈ handledLines stream) :
    (hasChecksum line = true → handled board line = .ok (answer board line)) ∧
      (hasChecksum line = false → handled board line = .error (tooShort line)) := by
  have kept := List.mem_filter.mp member
  rcases List.mem_map.mp kept.1 with ⟨ended, _, whole⟩
  have bounded : line.1.length ≤ 512 := by
    rw [← whole]
    exact held_length ended.1
  have filled : line.1.isEmpty = false := by simpa using kept.2
  rw [handled, filled]
  constructor
  · intro long
    exact handle_line_long board line.2 line.1 (of_decide_eq_true long) bounded
  · intro short
    exact handle_line_short board line.2 line.1 (Nat.lt_of_not_le (of_decide_eq_false short))

/-- What handling run after run gives, up to the first line that is too short. -/
theorem up_to_short_line (board : Board) (stream : List Received) :
    upToFailure (fun ended => handled board (lineOf ended)) (endedRuns isLineEnd [] stream) =
      (((handledLines stream).find? fun line => !hasChecksum line).map tooShort,
        ((handledLines stream).takeWhile hasChecksum).flatMap (answer board)) := by
  have empty (line : CppString × BitVec 32) (ignored : (!line.1.isEmpty) = false) :
      handled board line = .ok [] := if_pos (by simpa using ignored)
  have filtered := up_to_failure_filter (handled board) (fun line => !line.1.isEmpty) empty
    ((endedRuns isLineEnd [] stream).map lineOf)
  rw [up_to_failure_map] at filtered
  refine filtered.symm.trans (up_to_failure_eq _ _ _ _ _ ?_ ?_)
  · exact fun line member => (handled_line_cases board stream line member).1
  · exact fun line member => (handled_line_cases board stream line member).2

theorem rxd_run (board : Board) (chunks : List (List Received)) :
    feed (rxd board) (.ok start) chunks =
      (match (handledLines chunks.flatten).find? fun line => !hasChecksum line with
        | some line => .error (tooShort line)
        | none => .ok (held (openRun isLineEnd chunks.flatten)),
        ((handledLines chunks.flatten).takeWhile hasChecksum).flatMap (answer board)) := by
  have fed : feed (rxd board) (.ok start) chunks = _ :=
    (feed_chunks (attempt (handleByte board)) (.ok start) chunks).trans
      (feed_runs (handleByte board) held (fun ended => handled board (lineOf ended))
        (handle_byte_inside board) (handle_byte_end board) [] chunks.flatten Clean.nil)
  rw [fed, up_to_short_line, List.nil_append]
  cases (handledLines chunks.flatten).find? fun line => !hasChecksum line <;> rfl

/-- However the bytes come in, the sketch answers the lines they make, in order, until a
line too short for a checksum ends it; the buffer never holds more than 512 bytes. -/
theorem rxd_answers_lines (board : Board) (chunks : List (List Received)) :
    feed (rxd board) (.ok start) chunks =
        (match (handledLines chunks.flatten).find? fun line => !hasChecksum line with
          | some line => .error (tooShort line)
          | none => .ok (held (openRun isLineEnd chunks.flatten)),
          ((handledLines chunks.flatten).takeWhile hasChecksum).flatMap (answer board)) ∧
      ∀ pubSub, (feed (rxd board) (.ok start) chunks).1 = .ok pubSub →
        pubSub.buffer.length ≤ 512 := by
  have fed := rxd_run board chunks
  refine ⟨fed, fun pubSub reached => ?_⟩
  rw [fed] at reached
  cases short : (handledLines chunks.flatten).find? fun line => !hasChecksum line with
  | some line =>
      rw [short] at reached
      cases reached
  | none =>
      rw [short] at reached
      rw [← Except.ok.inj reached]
      exact held_length _

end SerialPubSub

end Serial2Redis
