import Serial2Redis.CrlfFlows
import Serial2Redis.Framing

/-!
# The CR/LF link end to end

The pipeline `redis.response() >> responseToCrlfCrc >> crlf.frame()` on one side,
`crlf.deframe() >> crlfCrcToRequest >> redis.request()` on the other, with the
bytes between them cut into reads at will.
-/

namespace Serial2Redis

open Transducer Crc16

def crlfDelimiter : CppString := text "\r\n"

def crlfTransmit (lib : ArduinoJson) (framing : Framing) (responses : List Json) : Bytes :=
  ((responses.flatMap (flow (responseToCrlfCrc lib))).flatMap (flow framing.frame)).flatten

def crlfReceive (lib : ArduinoJson) (framing : Framing) (chunks : List Bytes) : List Json :=
  (feed Deframer.on framing.deframe chunks).2.flatMap (flow (crlfCrcToRequest lib))

/-- A Redis response on the link: one of the two layouts of a delivery, or one
whose first element is no name that `responseToCrlfCrc` knows. -/
inductive LinkResponse where
  | pmessage (pattern topic contents : CppString)
  | message (topic contents : CppString)
  | other (response : Json)
      (ignored : ∀ name ∈ ["pmessage", "message", "xadd"], (response.element 0).equals name = false)

namespace LinkResponse

def json : LinkResponse → Json
  | pmessage pattern topic contents => pmessageResponse pattern topic contents
  | message topic contents => messageResponse topic contents
  | other response _ => response

def publication : LinkResponse → Option (CppString × CppString)
  | pmessage _ topic contents => some (topic, contents)
  | message topic contents => some (topic, contents)
  | other _ _ => none

/-- What should reach Redis again: topic and re-serialized message. -/
def expected (lib : ArduinoJson) (response : LinkResponse) : List Json :=
  response.publication.toList.map fun delivery =>
    publishRequest delivery.1 (lib.serializeJson (lib.deserializeJson delivery.2).2)

end LinkResponse

/-- What the link asks of one delivery: the message is JSON text, and the frame
text parses back, is ASCII without a line break and fits the receiver's limit. -/
structure Carried (lib : ArduinoJson) (maxFrameLength : Nat) (topic message : CppString)
    (value : Json) : Prop where
  valid : lib.Parses message value
  returns : lib.RoundTrips (pubDocument topic value)
  brackets : lib.Brackets [.literal "pub", .string topic, value]
  ascii : ∀ c ∈ lib.serializeJson (pubDocument topic value), c < 0x80
  unbroken : ∀ c ∈ lib.serializeJson (pubDocument topic value), c ∉ crlfDelimiter
  short : (lib.serializeJson (pubDocument topic value)).length + 4 ≤ maxFrameLength

variable {lib : ArduinoJson} {maxFrameLength : Nat}

def pubFrame (lib : ArduinoJson) (topic : CppString) (value : Json) : Bytes :=
  lib.serializeJson (pubDocument topic value) ++
    crc16Bytes (lib.serializeJson (pubDocument topic value))

theorem pub_frame_carried {topic message : CppString} {value : Json}
    (carried : Carried lib maxFrameLength topic message value) :
    (Framing.deframe ⟨crlfDelimiter, maxFrameLength⟩).Carries (pubFrame lib topic value) := by
  have long := ArduinoJson.brackets_length carried.brackets
  refine ⟨?_, ?_, ?_⟩
  · intro empty
    have none_left := congrArg List.length empty
    rw [pubFrame, List.length_append, crc16_bytes_length, List.length_nil] at none_left
    omega
  · rw [pubFrame, List.length_append, crc16_bytes_length]
    exact carried.short
  · intro c member
    rcases List.mem_append.mp member with inText | inCrc
    · exact carried.unbroken c inText
    · have visible := hex_text_visible _ c inCrc
      intro delimiter
      have low : ∀ d ∈ crlfDelimiter, ¬0x20 < d := by decide
      exact low c delimiter visible

theorem pub_frame_accepted {topic message : CppString} {value : Json}
    (carried : Carried lib maxFrameLength topic message value) :
    flow (crlfCrcToRequest lib) (pubFrame lib topic value) =
      [publishRequest topic (lib.serializeJson value)] := by
  have long : 2 ≤ (lib.serializeJson (pubDocument topic value)).length :=
    ArduinoJson.brackets_length carried.brackets
  have low : ∀ c : Byte, c < 0x80 → c.msb = false := by decide
  have agree := (crc16_agree_iff_registers _).mpr
    (ascii_registers_agree _ fun c member => low c (carried.ascii c member))
  apply flow_crlf_publish lib _ (lib.serializeJson (pubDocument topic value)) topic value
  · exact (crc_gate_accepts_iff _ _).mpr ⟨long, agree⟩
  · exact carried.returns

/-- What the link does with one response: its frames can be carried, and reading
them gives back exactly what is expected. -/
theorem link_response_frames (response : LinkResponse)
    (carried : ∀ topic message, response.publication = some (topic, message) →
      Carried lib maxFrameLength topic message (lib.deserializeJson message).2) :
    (∀ frame ∈ flow (responseToCrlfCrc lib) response.json,
      (Framing.deframe ⟨crlfDelimiter, maxFrameLength⟩).Carries frame) ∧
    (flow (responseToCrlfCrc lib) response.json).flatMap (flow (crlfCrcToRequest lib)) =
      response.expected lib := by
  have delivered (topic message : CppString) (isDelivery : response.publication = some (topic, message))
      (layout : response.json = messageResponse topic message ∨
        ∃ pattern, response.json = pmessageResponse pattern topic message) :
      (∀ frame ∈ flow (responseToCrlfCrc lib) response.json,
        (Framing.deframe ⟨crlfDelimiter, maxFrameLength⟩).Carries frame) ∧
      (flow (responseToCrlfCrc lib) response.json).flatMap (flow (crlfCrcToRequest lib)) =
        response.expected lib := by
    have fits := carried topic message isDelivery
    have frame : flow (responseToCrlfCrc lib) response.json =
        [pubFrame lib topic (lib.deserializeJson message).2] :=
      flow_crlf_delivery lib _ topic message _ layout fits.valid fits.brackets
    rw [frame]
    constructor
    · intro only member
      rw [List.mem_singleton.mp member]
      exact pub_frame_carried fits
    · rw [List.flatMap_cons, pub_frame_accepted fits, List.flatMap_nil, List.append_nil,
        LinkResponse.expected, isDelivery]
      rfl
  cases response with
  | pmessage pattern topic contents => exact delivered topic contents rfl (.inr ⟨pattern, rfl⟩)
  | message topic contents => exact delivered topic contents rfl (.inl rfl)
  | other response ignored =>
      have silent : flow (responseToCrlfCrc lib) (LinkResponse.other response ignored).json = [] :=
        flow_crlf_ignored lib response ignored
      rw [silent]
      exact ⟨by simp, rfl⟩

/-- Every delivery arrives once, in order and unaltered, and nothing else does,
however the line is cut into reads. -/
theorem crlf_link_end_to_end (lib : ArduinoJson) (maxFrameLength : Nat)
    (responses : List LinkResponse) (chunks : List Bytes)
    (carried : ∀ response ∈ responses, ∀ topic message,
      response.publication = some (topic, message) →
        Carried lib maxFrameLength topic message (lib.deserializeJson message).2)
    (wire : chunks.flatten =
      crlfTransmit lib ⟨crlfDelimiter, maxFrameLength⟩ (responses.map LinkResponse.json)) :
    crlfReceive lib ⟨crlfDelimiter, maxFrameLength⟩ chunks =
      responses.flatMap (LinkResponse.expected lib) := by
  have frames := Deframer.on_frames (Framing.deframe ⟨crlfDelimiter, maxFrameLength⟩)
    ((responses.map LinkResponse.json).flatMap (flow (responseToCrlfCrc lib))) rfl
    (show crlfDelimiter ≠ [] by decide)
    (by
      intro frame member
      obtain ⟨json, inJson, inFrames⟩ := List.mem_flatMap.mp member
      obtain ⟨response, inResponses, rfl⟩ := List.mem_map.mp inJson
      exact (link_response_frames response (carried response inResponses)).1 frame inFrames)
  rw [crlfReceive, Deframer.on_chunks, wire, crlfTransmit, framed_stream]
  rw [show (Framing.mk crlfDelimiter maxFrameLength).delimiter =
    (Framing.deframe ⟨crlfDelimiter, maxFrameLength⟩).delimiter from rfl, frames]
  rw [List.flatMap_assoc, List.flatMap_map]
  apply List.flatMap_congr
  intro response member
  exact (link_response_frames response (carried response member)).2

def sampleResponses : List LinkResponse :=
  [.pmessage (text "*") (text "t") (text "1"), .other (.bool true) (by decide),
    .message (text "t") (text "1")]

theorem sample_carried : Carried sampleJson 20 (text "t") (text "1") (.int (jsonInteger 1)) where
  valid := rfl
  returns := rfl
  brackets := ⟨text "\"pub\",\"t\",1", rfl⟩
  ascii := by
    show ∀ c ∈ text "[\"pub\",\"t\",1]", c < 0x80
    decide
  unbroken := by
    show ∀ c ∈ text "[\"pub\",\"t\",1]", c ∉ crlfDelimiter
    decide
  short := by
    show (text "[\"pub\",\"t\",1]").length + 4 ≤ 20
    decide

theorem crlf_link_end_to_end_sample :
    crlfReceive sampleJson ⟨crlfDelimiter, 20⟩
        [(crlfTransmit sampleJson ⟨crlfDelimiter, 20⟩ (sampleResponses.map LinkResponse.json)).take 9,
          (crlfTransmit sampleJson ⟨crlfDelimiter, 20⟩ (sampleResponses.map LinkResponse.json)).drop 9] =
      [publishRequest (text "t") (text "1"), publishRequest (text "t") (text "1")] :=
  crlf_link_end_to_end sampleJson 20 sampleResponses _
    (by
      intro response member topic message delivery
      simp only [sampleResponses, List.mem_cons, List.not_mem_nil, or_false] at member
      rcases member with rfl | rfl | rfl <;> cases delivery <;> exact sample_carried)
    (by simp only [List.flatten_cons, List.flatten_nil, List.append_nil, List.take_append_drop])

end Serial2Redis
