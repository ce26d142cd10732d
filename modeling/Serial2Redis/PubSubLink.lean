import Serial2Redis.CrlfLink
import Serial2Redis.SerialPubSub
import Serial2Redis.Translators

/-!
# The device and the bridge over the CR/LF link

What the sketch sends read by `crlfCrcToRequest`, and what `responseToCrlfCrc` sends read
by the sketch.
-/

namespace Serial2Redis

open Transducer DelimitedRuns RunReader Crc16 Deframer SerialPubSub

/-- What the sketch sends on its own account. -/
inductive PubSubCall where
  | publish (key : CppString) (value : BitVec 32)
  | subscribe (pattern : CppString)

namespace PubSubCall

def send (board : Board) : PubSubCall → Bytes
  | publish key value => board.publish key value
  | subscribe pattern => board.subscribe pattern

def document : PubSubCall → Json
  | publish key value => pubDocument key (.int (jsonUint32 value))
  | subscribe pattern => .array [.literal "sub", .string pattern]

/-- The Redis request it stands for. -/
def request (host : ArduinoJson) : PubSubCall → Json
  | publish key value => publishRequest key (host.serializeJson (.int (jsonUint32 value)))
  | subscribe pattern => .array [.literal "psubscribe", .string pattern]

end PubSubCall

namespace Board

def line (board : Board) (document : Json) : CppString :=
  board.lib.serializeJson document ++ board.crc16 (board.lib.serializeJson document)

/-- The board and the bridge compute one checksum for the text. -/
def agrees (board : Board) (source : CppString) : Bool := board.crc16 source == crc16String source

end Board

/-- What the bridge needs of the text of a document that a board sends. -/
structure Readable (host : ArduinoJson) (board : Board) (maxFrameLength : Nat) (document : Json) :
    Prop where
  parsed : host.Parses (board.lib.serializeJson document) document
  long : 2 ≤ (board.lib.serializeJson document).length
  unbroken : ∀ c ∈ board.lib.serializeJson document, c ∉ crlfDelimiter
  short : (board.lib.serializeJson document).length + 4 ≤ maxFrameLength

theorem send_line (board : Board) (call : PubSubCall) :
    call.send board = board.line call.document ++ crlfDelimiter := by
  cases call with
  | publish key value =>
      rw [PubSubCall.send, Board.publish, Json.set_three]
      rfl
  | subscribe pattern => rfl

theorem board_crc16 (board : Board) (source : CppString) :
    board.crc16 source = if board.charSigned then crc16String source else crc16Bytes source := by
  unfold Board.crc16
  cases board.charSigned <;> rfl

theorem agrees_iff (board : Board) (source : CppString) :
    board.agrees source = true ↔
      board.charSigned = true ∨ primitiveFactor ∣ topBitPolynomial source := by
  rw [Board.agrees, beq_iff_eq, board_crc16, ← crc_registers_agree_iff, ← crc16_agree_iff_registers]
  cases board.charSigned <;> simp

theorem crlf_command_call (host : ArduinoJson) (call : PubSubCall) :
    crlfCommand host call.document = (true, call.request host) := by
  cases call with
  | publish key value => exact crlf_command_pub host key _
  | subscribe pattern =>
      have other : (text "sub" == text "pub") = false := by decide
      simp [crlfCommand, isCommand, PubSubCall.document, PubSubCall.request, Json.element,
        Json.isArray, Json.isString, Json.setElement, other]

theorem line_carried {host : ArduinoJson} {board : Board} {maxFrameLength : Nat} {document : Json}
    (readable : Readable host board maxFrameLength document) :
    (Framing.deframe ⟨crlfDelimiter, maxFrameLength⟩).Carries (board.line document) := by
  refine ⟨?_, ?_, ?_⟩
  · intro empty
    have long := readable.long
    rw [(List.append_eq_nil_iff.mp empty).1, List.length_nil] at long
    omega
  · rw [Board.line, List.length_append, board.crc16_length]
    exact readable.short
  · intro c member
    rcases List.mem_append.mp member with inText | inCrc
    · exact readable.unbroken c inText
    · have visible := hex_text_visible _ c inCrc
      have low : ∀ d ∈ crlfDelimiter, ¬0x20 < d := by decide
      exact fun delimiter => low c delimiter visible

theorem line_request {host : ArduinoJson} {board : Board} {maxFrameLength : Nat}
    {call : PubSubCall} (readable : Readable host board maxFrameLength call.document) :
    flow (crlfCrcToRequest host) (board.line call.document) =
      if board.agrees (board.lib.serializeJson call.document) then [call.request host] else [] := by
  have gate := crc_gate_append (board.lib.serializeJson call.document)
    (board.crc16 (board.lib.serializeJson call.document)) (board.crc16_length _)
  by_cases agree : board.crc16 (board.lib.serializeJson call.document) =
      crc16String (board.lib.serializeJson call.document)
  · rw [if_pos ⟨readable.long, agree⟩] at gate
    rw [Board.line, flow_crlf_accepted host _ _ gate, readable.parsed, crlf_command_call]
    simp [Board.agrees, agree]
  · rw [if_neg fun both => agree both.2] at gate
    simp [flow, crlfCrcToRequest, Board.line, Board.agrees, gate, agree]

/-- The requests that the bridge makes of what a board sends. -/
def accepted (host : ArduinoJson) (board : Board) (calls : List PubSubCall) : List Json :=
  (calls.filter fun call => board.agrees (board.lib.serializeJson call.document)).map
    (PubSubCall.request host)

theorem lines_requests {host : ArduinoJson} {board : Board} {maxFrameLength : Nat}
    (calls : List PubSubCall)
    (readable : ∀ call ∈ calls, Readable host board maxFrameLength call.document) :
    (calls.map fun call => board.line call.document).flatMap (flow (crlfCrcToRequest host)) =
      accepted host board calls := by
  induction calls with
  | nil => rfl
  | cons call calls induction =>
      have later := induction fun other member => readable other (List.mem_cons_of_mem _ member)
      rw [List.map_cons, List.flatMap_cons, later, line_request (readable call List.mem_cons_self),
        accepted, accepted, List.filter_cons]
      split_ifs <;> rfl

theorem sent_stream (board : Board) (calls : List PubSubCall) :
    calls.flatMap (PubSubCall.send board) =
      ((calls.map fun call => board.line call.document).map (· ++ crlfDelimiter)).flatten := by
  rw [List.map_map, ← List.flatMap_def]
  exact List.flatMap_congr fun call _ => send_line board call

/-- From an empty buffer everything that is sent arrives. -/
theorem calls_received {host : ArduinoJson} {board : Board} {maxFrameLength : Nat}
    (calls : List PubSubCall) (chunks : List Bytes)
    (readable : ∀ call ∈ calls, Readable host board maxFrameLength call.document)
    (wire : chunks.flatten = calls.flatMap (PubSubCall.send board)) :
    crlfReceive host ⟨crlfDelimiter, maxFrameLength⟩ chunks = accepted host board calls := by
  have frames : (Framing.deframe ⟨crlfDelimiter, maxFrameLength⟩).on
      ((calls.map fun call => board.line call.document).map (· ++ crlfDelimiter)).flatten =
        (Framing.deframe ⟨crlfDelimiter, maxFrameLength⟩, calls.map fun call =>
          board.line call.document) :=
    on_frames _ _ rfl (show crlfDelimiter ≠ [] by decide)
      (by
        intro frame member
        rcases List.mem_map.mp member with ⟨call, inCalls, rfl⟩
        exact line_carried (readable call inCalls))
  rw [crlfReceive, on_chunks, wire, sent_stream, frames]
  exact lines_requests calls readable

/-- With anything in the buffer the first frame may come out altered, the others not. -/
theorem on_frames_after (framing : Framing) (history : List Bytes) (payload : Bytes)
    (payloads : List Bytes) (delimited : framing.delimiter ≠ [])
    (carried : ∀ sent ∈ payload :: payloads, framing.deframe.Carries sent) :
    ∃ first, (feed on framing.deframe history).1.on
        (((payload :: payloads).map (· ++ framing.delimiter)).flatten) =
          (framing.deframe, first :: payloads) ∧
      ((feed on framing.deframe history).1.buffer = [] → first = payload) := by
  rcases on_keeps framing.deframe history.flatten with ⟨buffer, reached⟩
  have carriedHead := carried payload List.mem_cons_self
  obtain ⟨first, fed, same⟩ := on_frame { framing.deframe with buffer } payload delimited
    ⟨carriedHead.nonempty, carriedHead.short, carriedHead.clean⟩
  have rest := on_frames framing.deframe payloads rfl delimited
    fun other member => carried other (List.mem_cons_of_mem _ member)
  have cleared : on { framing.deframe with buffer } (payload ++ framing.delimiter) =
      (framing.deframe, [first]) := fed
  rw [on_chunks, reached, List.map_cons, List.flatten_cons, on_append, cleared]
  exact ⟨first, congrArg (fun result => (result.1, first :: result.2)) rest, same⟩

theorem flow_length_le {Input Output : Type} [Inhabited Output]
    (function : Output → Input → Bool × Output) (input : Input) :
    (flow function input).length ≤ 1 := by
  unfold flow
  split_ifs <;> simp

theorem accepted_all_iff (host : ArduinoJson) (board : Board) (calls : List PubSubCall) :
    accepted host board calls = calls.map (PubSubCall.request host) ↔
      ∀ call ∈ calls, board.charSigned = true ∨
        primitiveFactor ∣ topBitPolynomial (board.lib.serializeJson call.document) := by
  constructor
  · intro same call member
    have lengths := congrArg List.length same
    rw [accepted, List.length_map, List.length_map] at lengths
    have kept := List.filter_eq_self.mp (List.filter_sublist.eq_of_length lengths) call member
    exact (agrees_iff board _).mp kept
  · intro agree
    rw [accepted, List.filter_eq_self.mpr fun call member =>
      (agrees_iff board _).mpr (agree call member)]

def numberDocument (topic : CppString) (value : BitVec 32) : Json :=
  pubDocument topic (.int (jsonUint32 value))

/-- ArduinoJson on numbers of one digit and three of their documents. -/
def digitJson : ArduinoJson where
  deserializeJson source :=
    if source = text "5" then (.ok, .int (jsonUint32 5))
    else if source = text "[\"pub\",\"dst/arduino/sys/loopback\",5]" then
      (.ok, numberDocument loopbackTopic 5)
    else if source = text "[\"pub\",\"src/arduino/sys/latency\",2]" then
      (.ok, numberDocument latencyTopic 2)
    else if source = text "[\"pub\",\"dst/arduino/led\",5]" then
      (.ok, numberDocument (text "dst/arduino/led") 5)
    else (.invalidInput, .null)
  serializeJson
    | .array [_, .string topic, .int value] =>
        text "[\"pub\",\"" ++ topic ++ text "\"," ++ [BitVec.ofInt 8 (0x30 + value.val)] ++ text "]"
    | .int value => [BitVec.ofInt 8 (0x30 + value.val)]
    | _ => text "null"

/-- A board on which `char` is unsigned. -/
def digitBoard : Board where
  lib := digitJson
  asUint64
    | .int value => BitVec.ofInt 64 value.val
    | _ => 0
  charSigned := false

theorem digit_readable :
    Readable digitJson digitBoard 10000 (numberDocument loopbackTopic 5) ∧
      Readable digitJson digitBoard 10000 (numberDocument latencyTopic 2) :=
  ⟨⟨by rfl, by decide +kernel, by decide +kernel, by decide +kernel⟩,
    ⟨by rfl, by decide +kernel, by decide +kernel, by decide +kernel⟩⟩

/-- Whatever the line carried before, every call after the first becomes its request, in
order and nothing else, as far as the two checksums agree; so does the first when nothing
was left over. All of them agree exactly if `char` is signed on the board or the top bits
of the texts are multiples of `X ^ 15 + X + 1`. -/
theorem calls_reach_redis (host : ArduinoJson) (board : Board) (maxFrameLength : Nat)
    (history chunks : List Bytes) (call : PubSubCall) (calls : List PubSubCall)
    (readable : ∀ sent ∈ call :: calls, Readable host board maxFrameLength sent.document)
    (wire : chunks.flatten = (call :: calls).flatMap (PubSubCall.send board)) :
    (∃ first : List Json, first.length ≤ 1 ∧
      (feed on (feed on (Framing.deframe ⟨crlfDelimiter, maxFrameLength⟩) history).1
          chunks).2.flatMap (flow (crlfCrcToRequest host)) =
        first ++ accepted host board calls ∧
      ((feed on (Framing.deframe ⟨crlfDelimiter, maxFrameLength⟩) history).1.buffer = [] →
        first = accepted host board [call])) ∧
    (accepted host board calls = calls.map (PubSubCall.request host) ↔
      ∀ sent ∈ calls, board.charSigned = true ∨
        primitiveFactor ∣ topBitPolynomial (board.lib.serializeJson sent.document)) := by
  refine ⟨?_, accepted_all_iff host board calls⟩
  obtain ⟨first, fed, same⟩ := on_frames_after ⟨crlfDelimiter, maxFrameLength⟩ history
    (board.line call.document) (calls.map fun sent => board.line sent.document)
    (show crlfDelimiter ≠ [] by decide)
    (by
      intro frame member
      have inLines : frame ∈ (call :: calls).map fun sent => board.line sent.document := member
      rcases List.mem_map.mp inLines with ⟨sent, inCalls, rfl⟩
      exact line_carried (readable sent inCalls))
  change (feed on _ history).1.on ((((call :: calls).map fun sent =>
    board.line sent.document).map (· ++ crlfDelimiter)).flatten) = _ at fed
  have later := lines_requests calls fun sent member =>
    readable sent (List.mem_cons_of_mem _ member)
  have head := line_request (readable call List.mem_cons_self)
  refine ⟨flow (crlfCrcToRequest host) first, flow_length_le _ first, ?_, ?_⟩
  · rw [on_chunks, wire, sent_stream, fed, List.flatMap_cons, later]
  · intro empty
    rw [same empty, head, accepted, List.filter_cons, List.filter_nil]
    split_ifs <;> rfl

theorem calls_reach_redis_after_noise :
    (∃ first : List Json, first.length ≤ 1 ∧
      (feed on (feed on (Framing.deframe ⟨crlfDelimiter, 10000⟩) [text "?"]).1
          [digitBoard.publish loopbackTopic 5, digitBoard.publish latencyTopic 2]).2.flatMap
            (flow (crlfCrcToRequest digitJson)) =
        first ++ accepted digitJson digitBoard [.publish latencyTopic 2] ∧
      ((feed on (Framing.deframe ⟨crlfDelimiter, 10000⟩) [text "?"]).1.buffer = [] →
        first = accepted digitJson digitBoard [.publish loopbackTopic 5])) ∧
    (accepted digitJson digitBoard [.publish latencyTopic 2] =
        [PubSubCall.publish latencyTopic 2].map (PubSubCall.request digitJson) ↔
      ∀ sent ∈ [PubSubCall.publish latencyTopic 2], digitBoard.charSigned = true ∨
        primitiveFactor ∣ topBitPolynomial (digitBoard.lib.serializeJson sent.document)) :=
  calls_reach_redis digitJson digitBoard 10000 [text "?"] _ (.publish loopbackTopic 5)
    [.publish latencyTopic 2]
    (by
      intro sent member
      simp only [List.mem_cons, List.not_mem_nil, or_false] at member
      rcases member with rfl | rfl
      · exact digit_readable.1
      · exact digit_readable.2)
    (by rfl)

theorem crlf_line_end (received : Received) :
    isLineEnd received = true ↔ received.byte ∈ crlfDelimiter := by
  rw [show crlfDelimiter = [0x0D, 0x0A] from rfl]
  simp [isLineEnd]

/-- The return ends the line and the feed after it finds nothing to handle. -/
theorem framed_line_handled (line later : List Received) (cr lf : Received)
    (unbroken : ∀ c ∈ line.map Received.byte, c ∉ crlfDelimiter)
    (returns : isLineEnd cr = true) (feeds : isLineEnd lf = true) :
    handledLines (line ++ cr :: lf :: later) =
        ([(openBlock 513 (line.map Received.byte), cr.millis)].filter fun held =>
          !held.1.isEmpty) ++ handledLines later ∧
      openRun isLineEnd (line ++ cr :: lf :: later) = openRun isLineEnd later := by
  have clean : Clean isLineEnd line := by
    intro received member
    have outside := unbroken received.byte (List.mem_map_of_mem member)
    exact Bool.eq_false_iff.mpr fun ends => outside ((crlf_line_end received).mp ends)
  have blank : lineOf ([], lf) = ([], lf.millis) := by
    rw [lineOf, List.map_nil, open_block_eq_self 513 [] (Nat.zero_lt_succ 512)]
  have afterReturn := ended_runs_cons [] [] later Clean.nil lf feeds
  have opened := open_run_cons [] later Clean.nil lf feeds
  rw [List.nil_append] at afterReturn opened
  have rest : handledLines (lf :: later) = handledLines later := by
    rw [handledLines, afterReturn, List.map_cons, List.nil_append, blank]
    rfl
  constructor
  · rw [← rest, handledLines, ended_runs_cons [] line _ clean cr returns, List.map_cons,
      ← List.singleton_append, List.filter_append]
    rfl
  · rw [open_run_cons line _ clean cr returns, opened]

/-- What is left of a frame in the buffer of the sketch when its line ends. -/
def heldFrames (frames : List Bytes) : List CppString :=
  (frames.map (openBlock 513)).filter fun line => !line.isEmpty

theorem held_frames_cons (frame : Bytes) (frames : List Bytes) :
    heldFrames (frame :: frames) =
      ([openBlock 513 frame].filter fun line => !line.isEmpty) ++ heldFrames frames :=
  List.filter_append [openBlock 513 frame] (frames.map (openBlock 513))

/-- A stream of framed lines makes the sketch handle what it holds of them and leaves its
buffer empty. -/
theorem framed_lines_handled (frames : List Bytes) (stream : List Received)
    (unbroken : ∀ frame ∈ frames, ∀ c ∈ frame, c ∉ crlfDelimiter)
    (wire : stream.map Received.byte = (frames.map (· ++ crlfDelimiter)).flatten) :
    (handledLines stream).map Prod.fst = heldFrames frames ∧ openRun isLineEnd stream = [] := by
  induction frames generalizing stream with
  | nil =>
      rw [List.map_eq_nil_iff.mp wire]
      exact ⟨rfl, rfl⟩
  | cons frame frames induction =>
      rw [List.map_cons, List.flatten_cons, show crlfDelimiter = [0x0D, 0x0A] from rfl,
        List.append_assoc] at wire
      rcases List.map_eq_append_iff.mp wire with ⟨line, ending, rfl, inFrame, ends⟩
      rcases List.map_eq_cons_iff.mp ends with ⟨cr, afterReturn, rfl, isReturn, feed⟩
      rcases List.map_eq_cons_iff.mp feed with ⟨lf, later, rfl, isFeed, rest⟩
      have returns : isLineEnd cr = true := (crlf_line_end cr).mpr (isReturn ▸ by decide)
      have feeds : isLineEnd lf = true := (crlf_line_end lf).mpr (isFeed ▸ by decide)
      obtain ⟨lines, remains⟩ := induction later
        (fun other member => unbroken other (List.mem_cons_of_mem _ member)) rest
      obtain ⟨handled, opened⟩ := framed_line_handled line later cr lf
        (inFrame ▸ unbroken frame List.mem_cons_self) returns feeds
      rw [handled, opened, List.map_append, lines, inFrame, held_frames_cons]
      refine ⟨congrArg (· ++ heldFrames frames) ?_, remains⟩
      cases empty : (openBlock 513 frame).isEmpty <;> simp [empty]

/-- Frames that fit the buffer are held as they are. -/
theorem held_frames_short (frames : List Bytes)
    (short : ∀ frame ∈ frames, frame ≠ [] ∧ frame.length ≤ 512) : heldFrames frames = frames := by
  have whole : frames.map (openBlock 513) = frames := by
    conv_rhs => rw [← List.map_id' frames]
    exact List.map_congr_left fun frame member =>
      open_block_eq_self 513 frame (Nat.lt_succ_of_le (short frame member).2)
  rw [heldFrames, whole, List.filter_eq_self]
  intro frame member
  simpa using (short frame member).1

def deliveredValue (host : ArduinoJson) (delivery : CppString × CppString) : Json :=
  (host.deserializeJson delivery.2).2

/-- The text of the document that a delivery is handed on as. -/
def deliveredText (host : ArduinoJson) (delivery : CppString × CppString) : CppString :=
  host.serializeJson (pubDocument delivery.1 (deliveredValue host delivery))

def deliveredFrame (host : ArduinoJson) (delivery : CppString × CppString) : Bytes :=
  pubFrame host delivery.1 (deliveredValue host delivery)

/-- The text of a delivery is that of an array, on one line. -/
structure Framed (host : ArduinoJson) (delivery : CppString × CppString) : Prop where
  brackets : host.Brackets [.literal "pub", .string delivery.1, deliveredValue host delivery]
  unbroken : ∀ c ∈ deliveredText host delivery, c ∉ crlfDelimiter

/-- What a device needs of one delivery: there is no NUL in its text, its frame fits the
buffer, and the device reads it back. -/
structure Deliverable (host : ArduinoJson) (board : Board) (delivery : CppString × CppString) :
    Prop extends Framed host delivery where
  terminated : 0 ∉ deliveredText host delivery
  short : (deliveredText host delivery).length + 4 ≤ 512
  understood : board.lib.Parses (deliveredText host delivery)
    (pubDocument delivery.1 (deliveredValue host delivery))

/-- What the device writes about one delivery that it reads at the given time. -/
def deliveryAnswer (host : ArduinoJson) (board : Board) (delivery : CppString × CppString)
    (millis : BitVec 32) : Bytes :=
  (if board.crc16 (deliveredText host delivery) = crc16Bytes (deliveredText host delivery) then []
    else board.crcFailed (deliveredText host delivery)
      (crc16Bytes (deliveredText host delivery))) ++
  if delivery.1 = loopbackTopic then
    board.publish latencyTopic
      ((millis.setWidth 64 - board.asUint64 (deliveredValue host delivery)).setWidth 32)
  else []

theorem crc_text_terminated (crc : BitVec 16) : cString (hexText crc) = hexText crc := by
  apply (c_string_eq_iff _).mpr
  intro zero
  exact absurd (hex_text_visible crc 0 zero) (by decide)

theorem is_loopback_pub (topic : CppString) (value : Json) :
    Board.isLoopback (pubDocument topic value) = true ↔ topic = loopbackTopic := by
  change (true && (Json.literal "pub").equals "pub" && (topic == loopbackTopic)) = true ↔ _
  simp

theorem delivered_frame_eq (host : ArduinoJson) (delivery : CppString × CppString) :
    deliveredFrame host delivery =
      deliveredText host delivery ++ crc16Bytes (deliveredText host delivery) := rfl

theorem delivered_frame_length (host : ArduinoJson) (delivery : CppString × CppString) :
    (deliveredFrame host delivery).length = (deliveredText host delivery).length + 4 := by
  rw [delivered_frame_eq, List.length_append, crc16_bytes_length]

/-- The reaction to a frame of `responseToCrlfCrc` that is one line of the device. -/
theorem answer_pub_frame {host : ArduinoJson} {board : Board} {delivery : CppString × CppString}
    (deliverable : Deliverable host board delivery) (millis : BitVec 32) :
    answer board (deliveredFrame host delivery, millis) =
      deliveryAnswer host board delivery millis := by
  have cut : (deliveredFrame host delivery).length - 4 = (deliveredText host delivery).length := by
    rw [delivered_frame_length]
    omega
  have whole := (c_string_eq_iff _).mpr deliverable.terminated
  have crc : cString (crc16Bytes (deliveredText host delivery)) = _ := crc_text_terminated _
  have topics := is_loopback_pub delivery.1 (deliveredValue host delivery)
  rw [answer, cut, delivered_frame_eq, List.take_left, List.drop_left, Board.reaction, whole, crc,
    deliveryAnswer, deliverable.understood]
  congr 1
  · by_cases agree : board.crc16 (deliveredText host delivery) =
        crc16Bytes (deliveredText host delivery)
    · rw [if_neg fun differ => differ agree.symm, if_pos agree]
    · rw [if_pos fun same => agree same.symm, if_neg agree]
  · by_cases loop : delivery.1 = loopbackTopic
    · rw [if_pos ⟨rfl, topics.mpr loop⟩, if_pos loop]
      rfl
    · rw [if_neg fun both => loop (topics.mp both.2), if_neg loop]

theorem delivered_frame_unbroken {host : ArduinoJson} {delivery : CppString × CppString}
    (framed : Framed host delivery) : ∀ c ∈ deliveredFrame host delivery, c ∉ crlfDelimiter := by
  intro c member
  rw [delivered_frame_eq] at member
  rcases List.mem_append.mp member with inText | inCrc
  · exact framed.unbroken c inText
  · have visible := hex_text_visible _ c inCrc
    have low : ∀ d ∈ crlfDelimiter, ¬0x20 < d := by decide
    exact fun delimiter => low c delimiter visible

def deliveries (responses : List LinkResponse) : List (CppString × CppString) :=
  responses.filterMap LinkResponse.publication

theorem link_frames (host : ArduinoJson) (responses : List LinkResponse)
    (framed : ∀ delivery ∈ deliveries responses, Framed host delivery) :
    (responses.map LinkResponse.json).flatMap (flow (responseToCrlfCrc host)) =
      (deliveries responses).map (deliveredFrame host) := by
  induction responses with
  | nil => rfl
  | cons response responses induction =>
      have delivered (topic message : CppString)
          (layout : response.json = messageResponse topic message ∨
            ∃ pattern, response.json = pmessageResponse pattern topic message)
          (isDelivery : response.publication = some (topic, message)) :
          ((response :: responses).map LinkResponse.json).flatMap (flow (responseToCrlfCrc host)) =
            (deliveries (response :: responses)).map (deliveredFrame host) := by
        have split : deliveries (response :: responses) =
            (topic, message) :: deliveries responses :=
          List.filterMap_cons_some isDelivery
        rw [split] at framed ⊢
        have frame := flow_crlf_document host response.json topic message _ layout rfl
          (framed (topic, message) List.mem_cons_self).brackets
        rw [List.map_cons, List.flatMap_cons, List.map_cons, frame,
          induction fun other member => framed other (List.mem_cons_of_mem _ member)]
        rfl
      cases response with
      | pmessage pattern topic contents => exact delivered topic contents (.inr ⟨pattern, rfl⟩) rfl
      | message topic contents => exact delivered topic contents (.inl rfl) rfl
      | other response ignored =>
          have silent :
              flow (responseToCrlfCrc host) (LinkResponse.other response ignored).json = [] :=
            flow_crlf_ignored host response ignored
          have split : deliveries (LinkResponse.other response ignored :: responses) =
              deliveries responses := rfl
          rw [split] at framed ⊢
          rw [List.map_cons, List.flatMap_cons, silent, List.nil_append, induction framed]

/-- Pairs whose first halves are known, one by one. -/
theorem flat_map_paired {Key Value Item Output : Type*} (pairs : List (Key × Value))
    (items : List Item) (key : Item → Key) (onPair : Key × Value → List Output)
    (onItem : Item → Value → List Output) (keys : pairs.map Prod.fst = items.map key)
    (agree : ∀ item ∈ items, ∀ value, onPair (key item, value) = onItem item value) :
    pairs.flatMap onPair = (List.zipWith onItem items (pairs.map Prod.snd)).flatten := by
  induction items generalizing pairs with
  | nil => rw [List.map_eq_nil_iff.mp keys]; rfl
  | cons item items induction =>
      rcases List.map_eq_cons_iff.mp keys with ⟨pair, rest, rfl, first, later⟩
      have head := agree item List.mem_cons_self pair.2
      rw [← first] at head
      rw [List.flatMap_cons, List.map_cons, List.zipWith_cons_cons, List.flatten_cons,
        induction rest later fun other member => agree other (List.mem_cons_of_mem _ member),
        ← head]

/-- The times at which the sketch handles its lines. -/
def handledAt (stream : List Received) : List (BitVec 32) := (handledLines stream).map Prod.snd

/-- The bytes that the bridge sends for the deliveries among the responses. -/
theorem link_stream {host : ArduinoJson} {maxFrameLength : Nat} (responses : List LinkResponse)
    (framed : ∀ delivery ∈ deliveries responses, Framed host delivery) :
    crlfTransmit host ⟨crlfDelimiter, maxFrameLength⟩ (responses.map LinkResponse.json) =
      (((deliveries responses).map (deliveredFrame host)).map (· ++ crlfDelimiter)).flatten := by
  rw [crlfTransmit, framed_stream, link_frames host responses framed]

/-- What the sketch handles of the deliveries that are sent to it. -/
theorem deliveries_handled {host : ArduinoJson} (delivered : List (CppString × CppString))
    (stream : List Received) (framed : ∀ delivery ∈ delivered, Framed host delivery)
    (wire : stream.map Received.byte =
      ((delivered.map (deliveredFrame host)).map (· ++ crlfDelimiter)).flatten) :
    (handledLines stream).map Prod.fst = heldFrames (delivered.map (deliveredFrame host)) ∧
      openRun isLineEnd stream = [] := by
  apply framed_lines_handled _ stream _ wire
  intro frame member
  rcases List.mem_map.mp member with ⟨delivery, inDeliveries, rfl⟩
  exact delivered_frame_unbroken (framed delivery inDeliveries)

/-- A line too short for a checksum is what is left of a frame of the lengths that the
buffer cuts so. -/
theorem handled_short_iff (frames : List Bytes) (stream : List Received)
    (lines : (handledLines stream).map Prod.fst = heldFrames frames) :
    (handledLines stream).find? (fun line => !hasChecksum line) ≠ none ↔
      ∃ frame ∈ frames, frame.length % 513 ∈ [1, 2, 3] := by
  have lengths (frame : Bytes) :
      (¬(openBlock 513 frame).isEmpty = true ∧ (openBlock 513 frame).length < 4) ↔
        frame.length % 513 ∈ [1, 2, 3] := by
    rw [List.isEmpty_iff_length_eq_zero, open_block_length]
    simp only [List.mem_cons, List.not_mem_nil, or_false]
    omega
  calc (handledLines stream).find? (fun line => !hasChecksum line) ≠ none
      ↔ ∃ line ∈ (handledLines stream).map Prod.fst, line.length < 4 := by
        simp [List.find?_eq_none, hasChecksum]
    _ ↔ ∃ frame ∈ frames,
          ¬(openBlock 513 frame).isEmpty = true ∧ (openBlock 513 frame).length < 4 := by
        rw [lines, heldFrames]
        simp [List.mem_filter, and_assoc]
    _ ↔ ∃ frame ∈ frames, frame.length % 513 ∈ [1, 2, 3] :=
        exists_congr fun frame => and_congr_right fun _ => lengths frame

/-- Deliveries that fit are answered one by one. -/
theorem deliveries_run {host : ArduinoJson} {board : Board}
    (delivered : List (CppString × CppString)) (chunks : List (List Received))
    (deliverable : ∀ delivery ∈ delivered, Deliverable host board delivery)
    (wire : chunks.flatten.map Received.byte =
      ((delivered.map (deliveredFrame host)).map (· ++ crlfDelimiter)).flatten) :
    feed (rxd board) (.ok start) chunks =
        (.ok start, (List.zipWith (deliveryAnswer host board) delivered
          (handledAt chunks.flatten)).flatten) ∧
      (handledLines chunks.flatten).map Prod.fst = delivered.map (deliveredFrame host) := by
  obtain ⟨held, opened⟩ := deliveries_handled delivered chunks.flatten
    (fun delivery member => (deliverable delivery member).toFramed) wire
  have lines : (handledLines chunks.flatten).map Prod.fst =
      delivered.map (deliveredFrame host) := by
    rw [held, held_frames_short]
    intro frame member
    rcases List.mem_map.mp member with ⟨delivery, inDeliveries, rfl⟩
    have length := delivered_frame_length host delivery
    refine ⟨fun empty => ?_, length ▸ (deliverable delivery inDeliveries).short⟩
    rw [empty, List.length_nil] at length
    omega
  have long : ∀ line ∈ handledLines chunks.flatten, hasChecksum line = true := by
    intro line member
    have inFrames := List.mem_map_of_mem (f := Prod.fst) member
    rw [lines] at inFrames
    rcases List.mem_map.mp inFrames with ⟨delivery, _, frame⟩
    rw [hasChecksum, decide_eq_true_iff, ← frame, delivered_frame_length]
    omega
  have none_short : (handledLines chunks.flatten).find? (fun line => !hasChecksum line) = none :=
    List.find?_eq_none.mpr fun line member => by simp [long line member]
  have begun : SerialPubSub.held [] = start := by
    rw [SerialPubSub.held, List.map_nil, open_block_eq_self 513 [] (Nat.zero_lt_succ 512)]
    rfl
  have all : (handledLines chunks.flatten).takeWhile hasChecksum = handledLines chunks.flatten :=
    List.takeWhile_eq_self_iff.mpr long
  have answers := flat_map_paired (handledLines chunks.flatten) delivered (deliveredFrame host)
    (answer board) (deliveryAnswer host board) lines
    fun delivery member millis => answer_pub_frame (deliverable delivery member) millis
  rw [rxd_run, none_short, all, opened, begun, answers, handledAt]
  exact ⟨rfl, lines⟩

theorem same_checksum_iff (board : Board) (source : CppString) :
    board.crc16 source = crc16Bytes source ↔
      board.charSigned = false ∨ primitiveFactor ∣ topBitPolynomial source := by
  rw [board_crc16, ← crc_registers_agree_iff, ← crc16_agree_iff_registers]
  cases board.charSigned with
  | false => simp
  | true => simpa using eq_comm

theorem ascii_checksums (board : Board) (source : CppString) (ascii : ∀ c ∈ source, c < 0x80) :
    board.agrees source = true ∧ board.crc16 source = crc16Bytes source := by
  have low : ∀ c : Byte, c < 0x80 → c.msb = false := by decide
  have divides : primitiveFactor ∣ topBitPolynomial source :=
    (crc_registers_agree_iff source).mp
      (ascii_registers_agree source fun c member => low c (ascii c member))
  exact ⟨(agrees_iff board source).mpr (.inr divides),
    (same_checksum_iff board source).mpr (.inr divides)⟩

def loopResponses : List LinkResponse :=
  [.other (.int (jsonUint32 1)) (by decide),
    .pmessage (text "dst/arduino/*") loopbackTopic (text "5")]

/-- The bytes of the delivery, all read when `millis()` is 7. -/
def loopReceived : List Received :=
  (crlfTransmit digitJson ⟨crlfDelimiter, 10000⟩ (loopResponses.map LinkResponse.json)).map
    fun byte => ⟨byte, 7⟩

/-- The sketch handles what its buffer holds of each frame, and throws exactly when that is
too short for a checksum. Deliveries that fit are answered once and in order, the loopback
topic with a latency and any other with nothing; the checksum is reported besides exactly
where `char` is signed on the board and the top bits of the text are no multiple of
`X ^ 15 + X + 1`. -/
theorem deliveries_answered (host : ArduinoJson) (board : Board) (maxFrameLength : Nat)
    (responses : List LinkResponse) (chunks : List (List Received))
    (framed : ∀ delivery ∈ deliveries responses, Framed host delivery)
    (wire : chunks.flatten.map Received.byte =
      crlfTransmit host ⟨crlfDelimiter, maxFrameLength⟩ (responses.map LinkResponse.json)) :
    (handledLines chunks.flatten).map Prod.fst =
        heldFrames ((deliveries responses).map (deliveredFrame host)) ∧
      ((∃ thrown, (feed (rxd board) (.ok start) chunks).1 = .error thrown) ↔
        ∃ delivery ∈ deliveries responses,
          (deliveredFrame host delivery).length % 513 ∈ [1, 2, 3]) ∧
      ((∀ delivery ∈ deliveries responses, Deliverable host board delivery) →
        feed (rxd board) (.ok start) chunks =
            (.ok start, (List.zipWith (deliveryAnswer host board) (deliveries responses)
              (handledAt chunks.flatten)).flatten) ∧
          (handledLines chunks.flatten).map Prod.fst =
            (deliveries responses).map (deliveredFrame host)) ∧
      ∀ source : CppString, board.crc16 source = crc16Bytes source ↔
        board.charSigned = false ∨ primitiveFactor ∣ topBitPolynomial source := by
  rw [link_stream responses framed] at wire
  have lines := (deliveries_handled _ chunks.flatten framed wire).1
  refine ⟨lines, ?_, fun deliverable => deliveries_run _ chunks deliverable wire,
    same_checksum_iff board⟩
  have short := handled_short_iff _ chunks.flatten lines
  simp only [List.mem_map, exists_exists_and_eq_and] at short
  rw [← short, rxd_run]
  cases (handledLines chunks.flatten).find? fun line => !hasChecksum line with
  | none => exact iff_of_false (fun ⟨_, same⟩ => nomatch same) (fun found => found rfl)
  | some line => exact iff_of_true ⟨tooShort line, rfl⟩ (Option.some_ne_none line)

theorem loop_deliverable :
    ∀ delivery ∈ deliveries loopResponses, Deliverable digitJson digitBoard delivery := by
  intro delivery member
  rw [show deliveries loopResponses = [(loopbackTopic, text "5")] from rfl,
    List.mem_singleton] at member
  rw [member]
  exact ⟨⟨⟨text "\"pub\",\"dst/arduino/sys/loopback\",5", by rfl⟩, by decide +kernel⟩,
    by decide +kernel, by decide +kernel, by rfl⟩

theorem deliveries_answered_in_two_reads :
    feed (rxd digitBoard) (.ok start) [loopReceived.take 9, loopReceived.drop 9] =
        (.ok start, (List.zipWith (deliveryAnswer digitJson digitBoard) (deliveries loopResponses)
          (handledAt [loopReceived.take 9, loopReceived.drop 9].flatten)).flatten) ∧
      (handledLines [loopReceived.take 9, loopReceived.drop 9].flatten).map Prod.fst =
        (deliveries loopResponses).map (deliveredFrame digitJson) :=
  (deliveries_answered digitJson digitBoard 10000 loopResponses _
    (fun delivery member => (loop_deliverable delivery member).toFramed)
    (by
      simp only [List.flatten_cons, List.flatten_nil, List.append_nil, List.take_append_drop]
      rw [loopReceived, List.map_map]
      exact List.map_id _)).2.2.1 loop_deliverable

end Serial2Redis
