import Serial2Redis.Crc16

/-!
# The JSON flows of the CR/LF link

`crlfCrcToRequest` takes a line of the device to a Redis request,
`responseToCrlfCrc` a Redis response to a frame for the device. A published value
travels as its serialized text on the Redis side and as a nested document on the
device side.
-/

namespace Serial2Redis

open Crc16

def publishRequest (key out : CppString) : Json :=
  .array [.literal "publish", .string key, .string out]

def pubDocument (topic : CppString) (value : Json) : Json :=
  .array [.literal "pub", .string topic, value]

def pmessageResponse (pattern topic message : CppString) : Json :=
  .array [.literal "pmessage", .string pattern, .string topic, .string message]

def messageResponse (topic message : CppString) : Json :=
  .array [.literal "message", .string topic, .string message]

def isCommand (json : Json) (name : String) : Bool :=
  (json.element 0).equals name && (json.element 1).isString

/-- The tail of `crlfCrcToRequest` from `request.clear()` on. The parser's error
code only selects a log line, so the document is all that is looked at. -/
def crlfCommand (lib : ArduinoJson) (json : Json) : Bool × Json :=
  if json.isArray then
    if isCommand json "pub" then
      (true, ((Json.null.setElement 0 (.literal "publish")).setElement 1
        (.string (lib.asString (json.element 1)))).setElement 2
          (.string (lib.serializeJson (json.element 2))))
    else if isCommand json "sub" then
      (true, (Json.null.setElement 0 (.literal "psubscribe")).setElement 1
        (.string (lib.asString (json.element 1))))
    else if isCommand json "log" then
      (true, (Json.null.setElement 0 (.literal "xadd")).setElement 1
        (.string (lib.asString (json.element 1))))
    else (false, .null)
  else (false, .null)

def crlfCrcToRequest (lib : ArduinoJson) (request : Json) (frame : Bytes) : Bool × Json :=
  match crcGate frame with
  | none => (false, request)
  | some payload => crlfCommand lib (lib.deserializeJson payload).2

/-- `txd` of `responseToCrlfCrc`, serialized; the parser's error code is dropped. -/
def txdFrame (lib : ArduinoJson) (command : String) (topic valueString : CppString) : Bytes :=
  lib.serializeJson (((Json.null.setElement 0 (.literal command)).setElement 1
    (.string topic)).setElement 2 (lib.deserializeJson valueString).2)

def appendCrc (frame : Bytes) : Bool × Bytes :=
  if frame.length > 0 then (true, frame ++ crc16Bytes frame) else (false, frame)

def responseToCrlfCrc (lib : ArduinoJson) (frame : Bytes) (response : Json) : Bool × Bytes :=
  if (response.element 0).equals "pmessage" then
    appendCrc (txdFrame lib "pub" (lib.asString (response.element 2))
      (lib.asString (response.element 3)))
  else if (response.element 0).equals "message" then
    appendCrc (txdFrame lib "pub" (lib.asString (response.element 1))
      (lib.asString (response.element 2)))
  else if (response.element 0).equals "xadd" then
    appendCrc (txdFrame lib "log" (lib.asString (response.element 1))
      (lib.asString (response.element 2)))
  else (false, frame)

theorem flow_crlf_accepted (lib : ArduinoJson) (line payload : CppString)
    (accepted : crcGate line = some payload) :
    flow (crlfCrcToRequest lib) line =
      if (crlfCommand lib (lib.deserializeJson payload).2).1 then
        [(crlfCommand lib (lib.deserializeJson payload).2).2] else [] := by
  simp only [flow, crlfCrcToRequest, accepted]

theorem crlf_command_pub (lib : ArduinoJson) (topic : CppString) (value : Json) :
    crlfCommand lib (pubDocument topic value) =
      (true, publishRequest topic (lib.serializeJson value)) := by
  have command : isCommand (pubDocument topic value) "pub" = true := by
    simp [isCommand, pubDocument, Json.element, Json.isString]
  rw [crlfCommand, command, Json.set_three]
  rfl

theorem crlf_command_emits_iff (lib : ArduinoJson) (json : Json) :
    (crlfCommand lib json).1 = true ↔
      json.isArray = true ∧ ∃ name ∈ ["pub", "sub", "log"], isCommand json name = true := by
  unfold crlfCommand
  split_ifs <;> simp_all

theorem flow_crlf_publish (lib : ArduinoJson) (line payload topic : CppString) (value : Json)
    (accepted : crcGate line = some payload)
    (parsed : lib.Parses payload (pubDocument topic value)) :
    flow (crlfCrcToRequest lib) line = [publishRequest topic (lib.serializeJson value)] := by
  rw [flow_crlf_accepted lib line payload accepted, parsed, crlf_command_pub]
  rfl

theorem txd_frame_document (lib : ArduinoJson) (command : String) (topic message : CppString) :
    txdFrame lib command topic message =
      lib.serializeJson (.array [.literal command, .string topic,
        (lib.deserializeJson message).2]) := by
  rw [txdFrame, Json.set_three]

theorem response_to_crlf_delivery (lib : ArduinoJson) (frame : Bytes) (response : Json)
    (topic message : CppString) (delivery : response = messageResponse topic message ∨
      ∃ pattern, response = pmessageResponse pattern topic message) :
    responseToCrlfCrc lib frame response = appendCrc (txdFrame lib "pub" topic message) := by
  rcases delivery with rfl | ⟨pattern, rfl⟩
  · have other : (text "message" == text "pmessage") = false := by decide
    simp [responseToCrlfCrc, messageResponse, Json.element, other]
  · simp [responseToCrlfCrc, pmessageResponse, Json.element]

/-- A delivery makes one frame of whatever document the parser left of its message. -/
theorem flow_crlf_document (lib : ArduinoJson) (response : Json) (topic message : CppString)
    (left : Json) (delivery : response = messageResponse topic message ∨
      ∃ pattern, response = pmessageResponse pattern topic message)
    (document : (lib.deserializeJson message).2 = left)
    (brackets : lib.Brackets [.literal "pub", .string topic, left]) :
    flow (responseToCrlfCrc lib) response =
      [lib.serializeJson (pubDocument topic left) ++
        crc16Bytes (lib.serializeJson (pubDocument topic left))] := by
  have positive : (lib.serializeJson (pubDocument topic left)).length > 0 :=
    (Nat.zero_lt_two).trans_le (ArduinoJson.brackets_length brackets)
  have frame : txdFrame lib "pub" topic message = lib.serializeJson (pubDocument topic left) := by
    rw [txd_frame_document, document]
    rfl
  rw [flow, response_to_crlf_delivery lib _ response topic message delivery, frame, appendCrc,
    if_pos positive]
  rfl

theorem flow_crlf_delivery (lib : ArduinoJson) (response : Json) (topic message : CppString)
    (value : Json) (delivery : response = messageResponse topic message ∨
      ∃ pattern, response = pmessageResponse pattern topic message)
    (parsed : lib.Parses message value)
    (brackets : lib.Brackets [.literal "pub", .string topic, value]) :
    flow (responseToCrlfCrc lib) response =
      [lib.serializeJson (pubDocument topic value) ++
        crc16Bytes (lib.serializeJson (pubDocument topic value))] :=
  flow_crlf_document lib response topic message value delivery (congrArg Prod.snd parsed) brackets

theorem flow_crlf_ignored (lib : ArduinoJson) (response : Json)
    (ignored : ∀ name ∈ ["pmessage", "message", "xadd"], (response.element 0).equals name = false) :
    flow (responseToCrlfCrc lib) response = [] := by
  simp only [List.mem_cons, List.not_mem_nil, or_false, forall_eq_or_imp, forall_eq] at ignored
  obtain ⟨pmessage, message, xadd⟩ := ignored
  simp [flow, responseToCrlfCrc, pmessage, message, xadd]

/-- A published value goes to Redis as text, and the text delivered back makes a
frame whose JSON part parses to the document the device had sent. -/
theorem crlf_value_transparent (lib : ArduinoJson) (line payload topic : CppString) (value : Json)
    (accepted : crcGate line = some payload)
    (parsed : lib.Parses payload (pubDocument topic value))
    (value_returns : lib.RoundTrips value)
    (document_returns : lib.RoundTrips (pubDocument topic value))
    (brackets : lib.Brackets [.literal "pub", .string topic, value]) :
    flow (crlfCrcToRequest lib) line = [publishRequest topic (lib.serializeJson value)] ∧
      ∀ response, response = messageResponse topic (lib.serializeJson value) ∨
          (∃ pattern, response = pmessageResponse pattern topic (lib.serializeJson value)) →
        ∃ json, flow (responseToCrlfCrc lib) response = [json ++ crc16Bytes json] ∧
          lib.Parses json (pubDocument topic value) := by
  refine ⟨flow_crlf_publish lib line payload topic value accepted parsed, ?_⟩
  intro response delivery
  exact ⟨lib.serializeJson (pubDocument topic value),
    flow_crlf_delivery lib response topic _ value delivery value_returns brackets,
    document_returns⟩

/-- ArduinoJson on the two texts of the examples: the number 1 and its `pub`
document on the topic `t`. -/
def sampleJson : ArduinoJson where
  deserializeJson source :=
    if source = text "1" then (.ok, .int (jsonInteger 1))
    else if source = text "[\"pub\",\"t\",1]" then
      (.ok, pubDocument (text "t") (.int (jsonInteger 1)))
    else (.invalidInput, .null)
  serializeJson
    | .array _ => text "[\"pub\",\"t\",1]"
    | _ => text "1"

theorem crlf_value_transparent_one :
    flow (crlfCrcToRequest sampleJson)
        (text "[\"pub\",\"t\",1]" ++ crc16String (text "[\"pub\",\"t\",1]")) =
        [publishRequest (text "t") (text "1")] ∧
      ∀ response, response = messageResponse (text "t") (text "1") ∨
          (∃ pattern, response = pmessageResponse pattern (text "t") (text "1")) →
        ∃ json, flow (responseToCrlfCrc sampleJson) response = [json ++ crc16Bytes json] ∧
          sampleJson.Parses json (pubDocument (text "t") (.int (jsonInteger 1))) :=
  crlf_value_transparent sampleJson _ (text "[\"pub\",\"t\",1]") (text "t") (.int (jsonInteger 1))
    ((crc_gate_accepts_iff _ _).mpr ⟨by decide, rfl⟩)
    (by rfl) (by rfl) (by rfl) ⟨text "\"pub\",\"t\",1", by rfl⟩

end Serial2Redis
