import Serial2Redis.PubSubLink
import Serial2Redis.FramingRuns

/-!
# The loop through Redis

The device publishes the time on its loopback topic, the bridge publishes it to Redis,
Redis delivers it back among what else the device is subscribed to, and the device publishes
what time has passed. What it prints about a checksum is a line that the bridge drops.
-/

namespace Serial2Redis

open Transducer DelimitedRuns Crc16 Deframer SerialPubSub

/-- What Redis delivers of a request to publish. -/
def published : Json → Option (CppString × CppString)
  | .array [.string command, .string topic, .string message] =>
      if command = text "publish" then some (topic, message) else none
  | _ => none

theorem published_publish (topic message : CppString) :
    published (publishRequest topic message) = some (topic, message) := by
  simp [published, publishRequest, Json.literal]

/-- What the loop needs of the two libraries for one number: they read each other's
texts of it, these are plain ASCII and `as<uint64_t>` gives the number. -/
structure LoopTexts (host : ArduinoJson) (board : Board) (maxFrameLength : Nat)
    (topic : CppString) (value : BitVec 32) : Prop where
  readable : Readable host board maxFrameLength (numberDocument topic value)
  agrees : board.agrees (board.lib.serializeJson (numberDocument topic value)) = true

/-- What Redis delivers of a number that was published on the loopback topic. -/
def loopDelivery (host : ArduinoJson) (value : BitVec 32) : CppString × CppString :=
  (loopbackTopic, host.serializeJson (.int (jsonUint32 value)))

structure LoopReturns (host : ArduinoJson) (board : Board) (value : BitVec 32) : Prop where
  parsed : host.Parses (host.serializeJson (.int (jsonUint32 value))) (.int (jsonUint32 value))
  deliverable : Deliverable host board (loopDelivery host value)
  number : board.asUint64 (.int (jsonUint32 value)) = value.setWidth 64

theorem numbers_received {host : ArduinoJson} {board : Board} {maxFrameLength : Nat}
    (topic : CppString) (values : List (BitVec 32)) (chunks : List Bytes)
    (texts : ∀ value ∈ values, LoopTexts host board maxFrameLength topic value)
    (wire : chunks.flatten = values.flatMap (board.publish topic)) :
    crlfReceive host ⟨crlfDelimiter, maxFrameLength⟩ chunks =
      values.map fun value =>
        publishRequest topic (host.serializeJson (.int (jsonUint32 value))) := by
  have received := calls_received (values.map (PubSubCall.publish topic)) chunks
    (by
      intro call member
      rcases List.mem_map.mp member with ⟨value, inValues, rfl⟩
      exact (texts value inValues).readable)
    (by rw [wire, List.flatMap_map]; rfl)
  have all : accepted host board (values.map (PubSubCall.publish topic)) =
      (values.map (PubSubCall.publish topic)).map (PubSubCall.request host) := by
    rw [accepted, List.filter_eq_self.mpr]
    intro call member
    rcases List.mem_map.mp member with ⟨value, inValues, rfl⟩
    exact (texts value inValues).agrees
  rw [received, all, List.map_map]
  rfl

theorem latency_wraps (start millis : BitVec 32) :
    (millis.setWidth 64 - start.setWidth 64).setWidth 32 = millis - start := by
  bv_omega

/-- No line that ends with a blank ends with a checksum. -/
theorem crc_gate_blank (line : CppString) (filled : line ≠ [])
    (blank : line.getLast filled = 0x20) : crcGate line = none := by
  unfold crcGate
  split
  · rfl
  · rename_i long
    rw [if_pos]
    intro agree
    have inside : line.getLast filled ∈ line.drop (line.length - 4) := by
      rw [← List.getLast_drop (show line.drop (line.length - 4) ≠ [] by
        intro empty
        have lengths := congrArg List.length empty
        rw [List.length_drop, List.length_nil] at lengths
        omega)]
      exact List.getLast_mem _
    rw [agree, blank] at inside
    exact absurd (hex_text_visible _ _ inside) (by decide)

/-- What the bridge makes of a piece of what a device writes, and that nothing of it stays in
the deframer. -/
def Makes (host : ArduinoJson) (framing : Framing) (piece : Bytes) (requests : List Json) : Prop :=
  ∃ frames, framing.deframe.on piece = (framing.deframe, frames) ∧
    frames.flatMap (flow (crlfCrcToRequest host)) = requests

theorem Makes.nil (host : ArduinoJson) (framing : Framing) : Makes host framing [] [] :=
  ⟨[], rfl, rfl⟩

theorem Makes.append {host : ArduinoJson} {framing : Framing} {left right : Bytes}
    {first later : List Json} (before : Makes host framing left first)
    (after : Makes host framing right later) :
    Makes host framing (left ++ right) (first ++ later) := by
  rcases before with ⟨firstFrames, firstFed, firstRequests⟩
  rcases after with ⟨laterFrames, laterFed, laterRequests⟩
  refine ⟨firstFrames ++ laterFrames, ?_, ?_⟩
  · rw [on_append, firstFed, laterFed]
  · rw [List.flatMap_append, firstRequests, laterRequests]

theorem number_makes {host : ArduinoJson} {board : Board} {maxFrameLength : Nat}
    {topic : CppString} {value : BitVec 32}
    (texts : LoopTexts host board maxFrameLength topic value) :
    Makes host ⟨crlfDelimiter, maxFrameLength⟩ (board.publish topic value)
      [publishRequest topic (host.serializeJson (.int (jsonUint32 value)))] := by
  have frames := on_frames (Framing.deframe ⟨crlfDelimiter, maxFrameLength⟩)
    [board.line (numberDocument topic value)] rfl (show crlfDelimiter ≠ [] by decide)
    fun frame member => List.mem_singleton.mp member ▸ line_carried texts.readable
  refine ⟨[board.line (numberDocument topic value)], ?_, ?_⟩
  · rw [show board.publish topic value = _ from send_line board (.publish topic value)]
    rw [List.map_singleton, List.flatten_singleton] at frames
    exact frames
  · have request := @line_request host board maxFrameLength (.publish topic value) texts.readable
    rw [List.flatMap_singleton]
    exact request.trans (if_pos texts.agrees)

/-- A report about a checksum is a line of its own that ends with a blank. -/
theorem report_makes (host : ArduinoJson) (board : Board) (framing : Framing)
    (source crc : CppString)
    (delimiter : framing.delimiter = crlfDelimiter)
    (unbroken : ∀ c ∈ source, c ∉ crlfDelimiter) (crcUnbroken : ∀ c ∈ crc, c ∉ crlfDelimiter) :
    Makes host framing (board.crcFailed source crc) [] := by
  obtain ⟨body, report⟩ : ∃ body, body = text "CRC failed :" ++ cString source ++ text " => " ++
    cString crc ++ text " vs " ++ board.crc16 (cString source) := ⟨_, rfl⟩
  have shown : board.crcFailed source crc = (body ++ [0x20]) ++ [0x0A] := by
    rw [report, List.append_assoc]
    rfl
  have part (whole : CppString) (clean : ∀ c ∈ whole, c ∉ crlfDelimiter) :
      ∀ c ∈ cString whole, c ∉ crlfDelimiter := fun c member =>
    clean c (List.takeWhile_subset _ member)
  have fixed (words : String) (clean : ∀ c ∈ text words, c ∉ crlfDelimiter) :
      Clean (isDelimiter crlfDelimiter) (text words) := (clean_iff _ _).mpr clean
  have clean : Clean (isDelimiter framing.delimiter) (body ++ [0x20]) := by
    have checksum : Clean (isDelimiter crlfDelimiter) (board.crc16 (cString source)) := by
      rw [clean_iff]
      intro c member
      have visible := hex_text_visible _ c member
      have low : ∀ d ∈ crlfDelimiter, ¬0x20 < d := by decide
      exact fun delimiter => low c delimiter visible
    rw [delimiter, report]
    exact ((((((fixed "CRC failed :" (by decide)).append
      ((clean_iff _ _).mpr (part source unbroken))).append (fixed " => " (by decide))).append
      ((clean_iff _ _).mpr (part crc crcUnbroken))).append (fixed " vs " (by decide))).append
      checksum).append (fixed " " (by decide))
  have ends : isDelimiter framing.delimiter 0x0A = true := by
    rw [delimiter]
    decide
  refine ⟨[lastBlock (framing.maxFrameLength + 1) (body ++ [0x20])], ?_, ?_⟩
  · have filled : body ++ [0x20] ≠ [] := List.append_ne_nil_of_right_ne_nil _ (List.cons_ne_nil _ _)
    rw [shown, on_stream, complete_runs_cons _ [] clean _ ends, open_run_cons _ [] clean _ ends,
      if_neg filled, complete_runs_clean [] Clean.nil, open_run_clean [] Clean.nil, within_nil]
    rfl
  · have filled := last_block_nonempty (framing.maxFrameLength + 1) (body ++ [0x20])
      (List.append_ne_nil_of_right_ne_nil _ (List.cons_ne_nil _ _))
    have blank :
        (lastBlock (framing.maxFrameLength + 1) (body ++ [0x20])).getLast filled = 0x20 := by
      unfold lastBlock at filled ⊢
      rw [List.getLast_drop filled, List.getLast_append_singleton]
    rw [List.flatMap_singleton, flow, crlfCrcToRequest, crc_gate_blank _ filled blank]
    rfl

theorem delivery_makes {host : ArduinoJson} {board : Board} {maxFrameLength : Nat}
    {delivery : CppString × CppString} (framed : Framed host delivery) (millis : BitVec 32)
    (requests : List Json)
    (own : Makes host ⟨crlfDelimiter, maxFrameLength⟩
      (if delivery.1 = loopbackTopic then
        board.publish latencyTopic
          ((millis.setWidth 64 - board.asUint64 (deliveredValue host delivery)).setWidth 32)
      else []) requests) :
    Makes host ⟨crlfDelimiter, maxFrameLength⟩ (deliveryAnswer host board delivery millis)
      requests := by
  have report : Makes host ⟨crlfDelimiter, maxFrameLength⟩
      (if board.crc16 (deliveredText host delivery) = crc16Bytes (deliveredText host delivery) then
        [] else board.crcFailed (deliveredText host delivery)
          (crc16Bytes (deliveredText host delivery))) [] := by
    split
    · exact Makes.nil host _
    · apply report_makes host board _ _ _ rfl framed.unbroken
      intro c member
      have visible := hex_text_visible _ c member
      have low : ∀ d ∈ crlfDelimiter, ¬0x20 < d := by decide
      exact fun delimiter => low c delimiter visible
  exact report.append own

/-- The times at which the deliveries on the loopback topic are handled. -/
def loopbackTimes : List (CppString × CppString) → List (BitVec 32) → List (BitVec 32)
  | delivery :: deliveries, millis :: times =>
      if delivery.1 = loopbackTopic then millis :: loopbackTimes deliveries times
      else loopbackTimes deliveries times
  | _, _ => []

/-- The times that passed between sending the ticks and reading them again. -/
def latencies (ticks : List (BitVec 32)) (deliveries : List (CppString × CppString))
    (times : List (BitVec 32)) : List (BitVec 32) :=
  List.zipWith (fun start millis => millis - start) ticks (loopbackTimes deliveries times)

/-- While the loopback topic carries the ticks, the device answers with their latencies. -/
theorem deliveries_make {host : ArduinoJson} {board : Board} {maxFrameLength : Nat}
    (delivered : List (CppString × CppString)) (times ticks : List (BitVec 32))
    (deliverable : ∀ delivery ∈ delivered, Deliverable host board delivery)
    (returns : ∀ value ∈ ticks, LoopReturns host board value)
    (looped : delivered.filter (·.1 = loopbackTopic) = ticks.map (loopDelivery host))
    (counted : times.length = delivered.length)
    (texts : ∀ value ∈ latencies ticks delivered times,
      LoopTexts host board maxFrameLength latencyTopic value) :
    (latencies ticks delivered times).length = ticks.length ∧
      Makes host ⟨crlfDelimiter, maxFrameLength⟩
        (List.zipWith (deliveryAnswer host board) delivered times).flatten
        ((latencies ticks delivered times).map fun value =>
          publishRequest latencyTopic (host.serializeJson (.int (jsonUint32 value)))) := by
  induction delivered generalizing times ticks with
  | nil =>
      rw [List.map_eq_nil_iff.mp looped.symm]
      exact ⟨rfl, Makes.nil host _⟩
  | cons delivery delivered induction =>
      cases times with
      | nil => cases counted
      | cons millis times =>
          have others := fun other member => deliverable other (List.mem_cons_of_mem _ member)
          have framed := (deliverable delivery List.mem_cons_self).toFramed
          have fewer : times.length = delivered.length := Nat.succ.inj counted
          by_cases loop : delivery.1 = loopbackTopic
          · rw [List.filter_cons_of_pos (by simpa using loop)] at looped
            rcases List.map_eq_cons_iff.mp looped.symm with ⟨tick, rest, rfl, same, later⟩
            have split : latencies (tick :: rest) (delivery :: delivered) (millis :: times) =
                (millis - tick) :: latencies rest delivered times := by
              rw [latencies, loopbackTimes, if_pos loop]
              rfl
            have tickReturns := returns tick List.mem_cons_self
            have value : deliveredValue host delivery = .int (jsonUint32 tick) := by
              rw [← same]
              exact congrArg Prod.snd tickReturns.parsed
            rw [split] at texts ⊢
            obtain ⟨lengths, made⟩ := induction times rest others
              (fun other member => returns other (List.mem_cons_of_mem _ member)) later.symm fewer
              fun other member => texts other (List.mem_cons_of_mem _ member)
            refine ⟨congrArg Nat.succ lengths, ?_⟩
            rw [List.zipWith_cons_cons, List.flatten_cons, List.map_cons, ← List.singleton_append]
            refine Makes.append (delivery_makes framed millis _ ?_) made
            rw [if_pos loop, value, tickReturns.number, latency_wraps]
            exact number_makes (texts _ List.mem_cons_self)
          · rw [List.filter_cons_of_neg (by simpa using loop)] at looped
            have split : latencies ticks (delivery :: delivered) (millis :: times) =
                latencies ticks delivered times := by
              rw [latencies, loopbackTimes, if_neg loop]
              rfl
            rw [split] at texts ⊢
            obtain ⟨lengths, made⟩ := induction times ticks others returns looped fewer texts
            refine ⟨lengths, ?_⟩
            rw [List.zipWith_cons_cons, List.flatten_cons]
            refine Makes.append (delivery_makes framed millis [] ?_) made
            rw [if_neg loop]
            exact Makes.nil host _

/-- Ticks sent to the loopback topic, taken through the bridge to Redis, delivered with
other traffic between them and read back by the device, come out of the bridge as the
latencies, one for each tick and in order and nothing else, whatever the cuts of the three
streams; the difference is right also where `millis()` has started again from zero. Nobody
else publishes on the loopback topic. -/
theorem loopback_latency (host : ArduinoJson) (board : Board) (maxFrameLength : Nat)
    (ticks : List (BitVec 32)) (sent : List Bytes) (responses : List LinkResponse)
    (received : List (List Received)) (echoed : List Bytes)
    (texts : ∀ value ∈ ticks, LoopTexts host board maxFrameLength loopbackTopic value)
    (returns : ∀ value ∈ ticks, LoopReturns host board value)
    (others : ∀ delivery ∈ deliveries responses, delivery.1 ≠ loopbackTopic →
      Deliverable host board delivery)
    (latencyTexts : ∀ value ∈ latencies ticks (deliveries responses) (handledAt received.flatten),
      LoopTexts host board maxFrameLength latencyTopic value)
    (sending : sent.flatten = ticks.flatMap (board.publish loopbackTopic))
    (redis : (deliveries responses).filter (·.1 = loopbackTopic) =
      (crlfReceive host ⟨crlfDelimiter, maxFrameLength⟩ sent).filterMap published)
    (delivering : received.flatten.map Received.byte =
      crlfTransmit host ⟨crlfDelimiter, maxFrameLength⟩ (responses.map LinkResponse.json))
    (answering : echoed.flatten = (feed (rxd board) (.ok start) received).2) :
    (handledLines received.flatten).map Prod.fst =
        (deliveries responses).map (deliveredFrame host) ∧
      (latencies ticks (deliveries responses) (handledAt received.flatten)).length =
        ticks.length ∧
      crlfReceive host ⟨crlfDelimiter, maxFrameLength⟩ echoed =
        (latencies ticks (deliveries responses) (handledAt received.flatten)).map fun value =>
          publishRequest latencyTopic (host.serializeJson (.int (jsonUint32 value))) := by
  have requests := numbers_received loopbackTopic ticks sent texts sending
  have looped : (deliveries responses).filter (·.1 = loopbackTopic) =
      ticks.map (loopDelivery host) := by
    have each : (published ∘ fun value => publishRequest loopbackTopic
        (host.serializeJson (.int (jsonUint32 value)))) = some ∘ loopDelivery host := by
      funext value
      exact published_publish _ _
    rw [redis, requests, List.filterMap_map, each, List.filterMap_eq_map]
  have deliverable : ∀ delivery ∈ deliveries responses, Deliverable host board delivery := by
    intro delivery member
    by_cases loop : delivery.1 = loopbackTopic
    · have inTicks : delivery ∈ ticks.map (loopDelivery host) :=
        looped ▸ List.mem_filter.mpr ⟨member, by simpa using loop⟩
      rcases List.mem_map.mp inTicks with ⟨value, inValues, rfl⟩
      exact (returns value inValues).deliverable
    · exact others delivery member loop
  rw [link_stream responses fun delivery member => (deliverable delivery member).toFramed]
    at delivering
  rcases deliveries_run _ received deliverable delivering with ⟨run, lines⟩
  have counted := congrArg List.length lines
  rw [List.length_map, List.length_map] at counted
  obtain ⟨lengths, frames, fed, made⟩ := deliveries_make (deliveries responses)
    (handledAt received.flatten) ticks deliverable returns looped
    ((List.length_map _).trans counted) latencyTexts
  refine ⟨lines, lengths, ?_⟩
  rw [crlfReceive, on_chunks, answering, run, fed]
  exact made

/-- A delivery on another topic comes before the tick that returns. -/
def mixedResponses : List LinkResponse :=
  .pmessage (text "dst/arduino/*") (text "dst/arduino/led") (text "5") :: loopResponses

def mixedReceived : List Received :=
  (crlfTransmit digitJson ⟨crlfDelimiter, 10000⟩ (mixedResponses.map LinkResponse.json)).map
    fun byte => ⟨byte, 7⟩

theorem mixed_deliverable : ∀ delivery ∈ deliveries mixedResponses,
    delivery.1 ≠ loopbackTopic → Deliverable digitJson digitBoard delivery := by
  intro delivery member other
  rw [show deliveries mixedResponses =
    [(text "dst/arduino/led", text "5"), (loopbackTopic, text "5")] from rfl] at member
  simp only [List.mem_cons, List.not_mem_nil, or_false] at member
  rcases member with rfl | rfl
  · exact ⟨⟨⟨text "\"pub\",\"dst/arduino/led\",5", by rfl⟩, by decide +kernel⟩,
      by decide +kernel, by decide +kernel, by rfl⟩
  · exact absurd rfl other

theorem mixed_latencies :
    latencies [5] (deliveries mixedResponses) (handledAt mixedReceived) = [2] := by
  decide +kernel

theorem loop_texts : LoopTexts digitJson digitBoard 10000 loopbackTopic 5 :=
  ⟨digit_readable.1, (ascii_checksums digitBoard _ (by decide)).1⟩

theorem loop_latency_texts : LoopTexts digitJson digitBoard 10000 latencyTopic 2 :=
  ⟨digit_readable.2, (ascii_checksums digitBoard _ (by decide)).1⟩

theorem loop_returns : LoopReturns digitJson digitBoard 5 :=
  ⟨by rfl, loop_deliverable (loopbackTopic, text "5") (by decide), by rfl⟩

theorem loopback_latency_two :
    (handledLines [mixedReceived].flatten).map Prod.fst =
        (deliveries mixedResponses).map (deliveredFrame digitJson) ∧
      (latencies [5] (deliveries mixedResponses) (handledAt [mixedReceived].flatten)).length =
        [(5 : BitVec 32)].length ∧
      crlfReceive digitJson ⟨crlfDelimiter, 10000⟩
          [(feed (rxd digitBoard) (.ok start) [mixedReceived]).2] =
        (latencies [5] (deliveries mixedResponses) (handledAt [mixedReceived].flatten)).map
          fun value =>
            publishRequest latencyTopic (digitJson.serializeJson (.int (jsonUint32 value))) := by
  have whole : [mixedReceived].flatten = mixedReceived := List.append_nil _
  have each : ∀ value ∈ [(5 : BitVec 32)], value = 5 := fun value member =>
    List.mem_singleton.mp member
  have received := @numbers_received digitJson digitBoard _ loopbackTopic [5]
    [digitBoard.publish loopbackTopic 5] (fun value member => each value member ▸ loop_texts)
    (by rfl)
  apply loopback_latency digitJson digitBoard 10000 [5] [digitBoard.publish loopbackTopic 5]
    mixedResponses [mixedReceived]
  · exact fun value member => each value member ▸ loop_texts
  · exact fun value member => each value member ▸ loop_returns
  · exact mixed_deliverable
  · intro value member
    rw [whole, mixed_latencies, List.mem_singleton] at member
    rw [member]
    exact loop_latency_texts
  · rfl
  · rw [received]
    decide
  · rw [whole, mixedReceived, List.map_map]
    exact List.map_id _
  · exact List.append_nil _

end Serial2Redis
