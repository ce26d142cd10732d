import Serial2Redis.CborFlows
import Mathlib.Data.List.TakeWhile

/-!
# The two request translators compared

`crlfCrcToRequest` and `cborToRequest` are hand-written copies. They make the same
request of the same document but for a published object, of which the CBOR
translator hands on one property, and both forget the content of a log entry.
-/

namespace Serial2Redis

open Crc16

theorem c_string_eq_iff (source : CppString) : cString source = source ↔ 0 ∉ source := by
  rw [cString, List.takeWhile_eq_self_iff]
  constructor
  · intro nonzero member
    exact absurd (nonzero 0 member) (by decide)
  · intro absent c member
    have different : c ≠ 0 := by
      intro zero
      rw [zero] at member
      exact absent member
    simpa using different

theorem cbor_command_object (lib : ArduinoJson) (topicPrefix : CppString)
    (properties : List (CppString × Json)) :
    cborCommand lib .null (pubDocument topicPrefix (.object properties)) =
      publishProperties lib .null topicPrefix properties := by
  have command : isCommand (pubDocument topicPrefix (.object properties)) "pub" = true := by
    simp [isCommand, pubDocument, Json.element, Json.isString]
  rw [cborCommand, command]
  rfl

/-- What is emitted for an object is its first property, under the key up to the
first NUL. -/
theorem flow_cbor_object (lib : ArduinoJson) (cbor : Cbor) (frame : Bytes)
    (topicPrefix : CppString) (properties : List (CppString × Json))
    (decodes : cbor.Decodes lib frame (pubDocument topicPrefix (.object properties))) :
    flow (cborToRequest lib cbor) frame =
      (properties.take 1).map fun property =>
        publishRequest (topicPrefix ++ cString property.1) (lib.serializeJson property.2) := by
  rw [flow_cbor_decoded lib cbor frame _ decodes, cbor_command_object]
  cases properties with
  | nil => rfl
  | cons property properties =>
      rw [publishProperties, Json.set_three]
      rfl

theorem publish_request_injective {key key' out out' : CppString}
    (same : publishRequest key out = publishRequest key' out') : key = key' ∧ out = out' := by
  simpa [publishRequest] using same

/-- Every property of a published object becomes a request exactly when there is at
most one and its key holds no NUL. -/
theorem cbor_object_published_iff (lib : ArduinoJson) (cbor : Cbor) (frame : Bytes)
    (topicPrefix : CppString) (properties : List (CppString × Json))
    (decodes : cbor.Decodes lib frame (pubDocument topicPrefix (.object properties))) :
    flow (cborToRequest lib cbor) frame =
        properties.map (fun property =>
          publishRequest (topicPrefix ++ property.1) (lib.serializeJson property.2)) ↔
      properties.length ≤ 1 ∧ ∀ property ∈ properties, 0 ∉ property.1 := by
  rw [flow_cbor_object lib cbor frame topicPrefix properties decodes]
  constructor
  · intro all
    have lengths := congrArg List.length all
    rw [List.length_map, List.length_map, List.length_take] at lengths
    have few : properties.length ≤ 1 := by omega
    refine ⟨few, ?_⟩
    rw [List.take_of_length_le few, List.map_inj_left] at all
    intro property member
    have keys := (publish_request_injective (all property member)).1
    exact (c_string_eq_iff property.1).mp (List.append_cancel_left keys)
  · intro condition
    rcases condition with ⟨few, clean⟩
    rw [List.take_of_length_le few, List.map_inj_left]
    intro property member
    rw [(c_string_eq_iff property.1).mpr (clean property member)]

/-- ArduinoJson on two published objects of which each property is the number 1. -/
def propertiesJson : ArduinoJson where
  deserializeJson source :=
    if source = text "[\"pub\",\"p/\",\x7b\"a\":1\x7d]" then
      (.ok, pubDocument (text "p/") (.object [(text "a", .int (jsonInteger 1))]))
    else if source = text "[\"pub\",\"p/\",\x7b\"a\":1,\"b\":1\x7d]" then
      (.ok, pubDocument (text "p/")
        (.object [(text "a", .int (jsonInteger 1)), (text "b", .int (jsonInteger 1))]))
    else (.invalidInput, .null)
  serializeJson document := if document.isInt64 then text "1" else text "null"

def propertiesCbor : Cbor where
  valueToJson frame :=
    if frame = [0x83, 0x63, 0x70, 0x75, 0x62, 0x62, 0x70, 0x2F, 0xA1, 0x61, 0x61, 0x01] then
      some (text "[\"pub\",\"p/\",\x7b\"a\":1\x7d]")
    else if frame = [0x83, 0x63, 0x70, 0x75, 0x62, 0x62, 0x70, 0x2F] ++
        [0xA2, 0x61, 0x61, 0x01, 0x61, 0x62, 0x01] then
      some (text "[\"pub\",\"p/\",\x7b\"a\":1,\"b\":1\x7d]")
    else none
  toBytes := sampleCbor.toBytes

theorem cbor_object_published_single :
    flow (cborToRequest propertiesJson propertiesCbor)
        [0x83, 0x63, 0x70, 0x75, 0x62, 0x62, 0x70, 0x2F, 0xA1, 0x61, 0x61, 0x01] =
      [publishRequest (text "p/a") (text "1")] :=
  (cbor_object_published_iff propertiesJson propertiesCbor _ (text "p/")
    [(text "a", .int (jsonInteger 1))]
    ⟨text "[\"pub\",\"p/\",\x7b\"a\":1\x7d]", by decide, by rfl⟩).mpr ⟨by decide, by decide⟩

/-- Of an object with the properties `a` and `b` only `a` is published. -/
theorem cbor_object_loses_property :
    propertiesCbor.Decodes propertiesJson
        [0x83, 0x63, 0x70, 0x75, 0x62, 0x62, 0x70, 0x2F, 0xA2, 0x61, 0x61, 0x01, 0x61, 0x62, 0x01]
        (pubDocument (text "p/")
          (.object [(text "a", .int (jsonInteger 1)), (text "b", .int (jsonInteger 1))])) ∧
      flow (cborToRequest propertiesJson propertiesCbor)
        [0x83, 0x63, 0x70, 0x75, 0x62, 0x62, 0x70, 0x2F, 0xA2, 0x61, 0x61, 0x01, 0x61, 0x62, 0x01] =
          [publishRequest (text "p/a") (text "1")] ∧
      [publishRequest (text "p/a") (text "1")] ≠
        [publishRequest (text "p/a") (text "1"), publishRequest (text "p/b") (text "1")] := by
  refine ⟨⟨text "[\"pub\",\"p/\",\x7b\"a\":1,\"b\":1\x7d]", by decide, by rfl⟩, by rfl, ?_⟩
  intro same
  have lengths := congrArg List.length same
  exact absurd lengths (by decide)

/-- A document that arrives over both links makes the same requests on both, none or
one, unless it publishes an object. -/
theorem translators_agree (lib : ArduinoJson) (cbor : Cbor) (line payload : CppString)
    (frame : Bytes) (document : Json) (accepted : crcGate line = some payload)
    (parsed : lib.Parses payload document) (decodes : cbor.Decodes lib frame document)
    (flat : ¬(isCommand document "pub" = true ∧ (document.element 2).isObject = true)) :
    flow (crlfCrcToRequest lib) line = flow (cborToRequest lib cbor) frame := by
  have same : (lib.deserializeJson payload).2 = document := congrArg Prod.snd parsed
  rw [flow_crlf_accepted lib line payload accepted, flow_cbor_decoded lib cbor frame _ decodes,
    cbor_command_eq_crlf lib document flat, same]

theorem translators_agree_one :
    flow (crlfCrcToRequest cborSampleJson)
        (text "[\"pub\",\"t\",1]" ++ crc16String (text "[\"pub\",\"t\",1]")) =
      flow (cborToRequest cborSampleJson sampleCbor)
        [0x9F, 0x63, 0x70, 0x75, 0x62, 0x61, 0x74, 0x01, 0xFF] :=
  translators_agree cborSampleJson sampleCbor _ (text "[\"pub\",\"t\",1]") _
    (pubDocument (text "t") (.int (jsonInteger 1)))
    ((crc_gate_accepts_iff _ _).mpr ⟨by decide, rfl⟩) (by rfl)
    ⟨text "[\"pub\",\"t\",1]", by rfl, by rfl⟩ (by
      intro published
      cases published.2)

inductive DeviceCommand where
  | pub
  | sub
  | log
  deriving DecidableEq

def DeviceCommand.name : DeviceCommand → String
  | pub => "pub"
  | sub => "sub"
  | log => "log"

/-- What a device sends: `[command, key, value]`. -/
def deviceDocument (command : DeviceCommand) (key : CppString) (value : Json) : Json :=
  .array [.literal command.name, .string key, value]

def deviceRequest (lib : ArduinoJson) (command : DeviceCommand) (key : CppString)
    (value : Json) : Json :=
  match command with
  | .pub => publishRequest key (lib.serializeJson value)
  | .sub => .array [.literal "psubscribe", .string key]
  | .log => .array [.literal "xadd", .string key]

theorem is_command_device (command : DeviceCommand) (key : CppString) (value : Json)
    (name : String) :
    isCommand (deviceDocument command key value) name = (text command.name == text name) := by
  simp [isCommand, deviceDocument, Json.element, Json.isString]

theorem crlf_command_device (lib : ArduinoJson) (command : DeviceCommand) (key : CppString)
    (value : Json) :
    crlfCommand lib (deviceDocument command key value) =
      (true, deviceRequest lib command key value) := by
  unfold crlfCommand
  simp only [is_command_device]
  cases command with
  | pub => exact crlf_command_pub lib key value
  | sub => rfl
  | log => rfl

inductive RequestTranslator where
  | crlfCrcToRequest
  | cborToRequest

namespace RequestTranslator

def requests (lib : ArduinoJson) (cbor : Cbor) : RequestTranslator → Bytes → List Json
  | crlfCrcToRequest, frame => flow (Serial2Redis.crlfCrcToRequest lib) frame
  | cborToRequest, frame => flow (Serial2Redis.cborToRequest lib cbor) frame

/-- The frame passes what stands before the JSON parser and parses to the document. -/
def Accepts (lib : ArduinoJson) (cbor : Cbor) : RequestTranslator → Bytes → Json → Prop
  | crlfCrcToRequest, frame, document =>
      ∃ payload, crcGate frame = some payload ∧ lib.Parses payload document
  | cborToRequest, frame, document => cbor.Decodes lib frame document

theorem requests_device (lib : ArduinoJson) (cbor : Cbor) (translator : RequestTranslator)
    (frame : Bytes) (command : DeviceCommand) (key : CppString) (value : Json)
    (accepts : translator.Accepts lib cbor frame (deviceDocument command key value))
    (flat : value.isObject = false) :
    translator.requests lib cbor frame = [deviceRequest lib command key value] := by
  cases translator with
  | crlfCrcToRequest =>
      obtain ⟨payload, accepted, parsed⟩ := accepts
      have same : (lib.deserializeJson payload).2 = deviceDocument command key value :=
        congrArg Prod.snd parsed
      rw [requests, flow_crlf_accepted lib frame payload accepted, same, crlf_command_device]
      rfl
  | cborToRequest =>
      have notObject : ¬(isCommand (deviceDocument command key value) "pub" = true ∧
          ((deviceDocument command key value).element 2).isObject = true) := by
        intro published
        have third : (deviceDocument command key value).element 2 = value := rfl
        rw [third, flat] at published
        cases published.2
      rw [requests, flow_cbor_decoded lib cbor frame _ accepts,
        cbor_command_eq_crlf lib _ notObject, crlf_command_device]
      rfl

end RequestTranslator

/-- Equal requests come from equal commands on equal keys, and from equal values
when they publish. -/
theorem device_request_eq_iff (lib : ArduinoJson) (command command' : DeviceCommand)
    (key key' : CppString) (value value' : Json) :
    deviceRequest lib command key value = deviceRequest lib command' key' value' ↔
      command = command' ∧ key = key' ∧
        (command = .pub → lib.serializeJson value = lib.serializeJson value') := by
  have names : text "psubscribe" ≠ text "xadd" := by decide
  cases command <;> cases command' <;>
    simp [deviceRequest, publishRequest, Json.literal, names, names.symm]

/-- Two frames of one translator with equal requests were equal in all they say,
unless both are entries of one log with different contents. The request made of a
log entry names the stream and holds nothing of the content. -/
theorem translators_lossless_iff (lib : ArduinoJson) (cbor : Cbor)
    (translator : RequestTranslator) (frame frame' : Bytes) (command command' : DeviceCommand)
    (key key' : CppString) (value value' : Json)
    (accepts : translator.Accepts lib cbor frame (deviceDocument command key value))
    (accepts' : translator.Accepts lib cbor frame' (deviceDocument command' key' value'))
    (flat : value.isObject = false) (flat' : value'.isObject = false)
    (injective : lib.serializeJson value = lib.serializeJson value' → value = value') :
    ((translator.requests lib cbor frame = translator.requests lib cbor frame' →
        command = command' ∧ key = key' ∧ (command = .pub ∨ command = .log → value = value')) ↔
      ¬(command = .log ∧ command' = .log ∧ key = key' ∧ value ≠ value')) ∧
    (command = .log →
      translator.requests lib cbor frame = [.array [.literal "xadd", .string key]]) := by
  rw [translator.requests_device lib cbor frame command key value accepts flat,
    translator.requests_device lib cbor frame' command' key' value' accepts' flat',
    List.singleton_inj, device_request_eq_iff]
  constructor
  · constructor
    · intro lossless entries
      rcases entries with ⟨rfl, rfl, rfl, different⟩
      have same := lossless ⟨rfl, rfl, fun pub => by cases pub⟩
      exact different (same.2.2 (.inr rfl))
    · intro distinct same
      rcases same with ⟨rfl, rfl, published⟩
      refine ⟨rfl, rfl, ?_⟩
      intro which
      rcases which with pub | log
      · exact injective (published pub)
      · by_contra different
        exact distinct ⟨log, log, rfl, different⟩
  · intro log
    rw [log]
    rfl

/-- ArduinoJson on two entries of the log `s` and on two publications, each of a
number of one digit. -/
def entriesJson : ArduinoJson where
  deserializeJson source :=
    if source = text "[\"log\",\"s\",1]" then
      (.ok, deviceDocument .log (text "s") (.int (jsonInteger 1)))
    else if source = text "[\"log\",\"s\",2]" then
      (.ok, deviceDocument .log (text "s") (.int (jsonInteger 2)))
    else if source = text "[\"pub\",\"s\",1]" then
      (.ok, deviceDocument .pub (text "s") (.int (jsonInteger 1)))
    else if source = text "[\"pub\",\"s\",2]" then
      (.ok, deviceDocument .pub (text "s") (.int (jsonInteger 2)))
    else (.invalidInput, .null)
  serializeJson document :=
    if document.isInt64 then [0x30 + BitVec.ofInt 8 document.asInteger.val] else text "null"

theorem entry_accepted (payload : CppString) (document : Json) (long : 2 ≤ payload.length)
    (parsed : entriesJson.Parses payload document) :
    RequestTranslator.Accepts entriesJson sampleCbor .crlfCrcToRequest
      (payload ++ crc16String payload) document :=
  ⟨payload, (crc_gate_accepts_iff payload _).mpr ⟨long, rfl⟩, parsed⟩

theorem translators_lossless_publications :
    RequestTranslator.requests entriesJson sampleCbor .crlfCrcToRequest
        (text "[\"pub\",\"s\",1]" ++ crc16String (text "[\"pub\",\"s\",1]")) ≠
      RequestTranslator.requests entriesJson sampleCbor .crlfCrcToRequest
        (text "[\"pub\",\"s\",2]" ++ crc16String (text "[\"pub\",\"s\",2]")) := by
  have lossless := translators_lossless_iff entriesJson sampleCbor .crlfCrcToRequest _ _ .pub .pub
    (text "s") (text "s") (.int (jsonInteger 1)) (.int (jsonInteger 2))
    (entry_accepted (text "[\"pub\",\"s\",1]") _ (by decide) (by rfl))
    (entry_accepted (text "[\"pub\",\"s\",2]") _ (by decide) (by rfl)) rfl rfl
    (fun same => absurd same (by decide))
  intro equal
  have values := (lossless.1.mpr (fun both => by cases both.1) equal).2.2 (.inl rfl)
  exact absurd (Json.int.inj values) (by decide)

/-- Two entries of one log with different contents make the same request. -/
theorem log_entries_confused :
    RequestTranslator.Accepts entriesJson sampleCbor .crlfCrcToRequest
        (text "[\"log\",\"s\",1]" ++ crc16String (text "[\"log\",\"s\",1]"))
        (deviceDocument .log (text "s") (.int (jsonInteger 1))) ∧
      RequestTranslator.Accepts entriesJson sampleCbor .crlfCrcToRequest
        (text "[\"log\",\"s\",2]" ++ crc16String (text "[\"log\",\"s\",2]"))
        (deviceDocument .log (text "s") (.int (jsonInteger 2))) ∧
      RequestTranslator.requests entriesJson sampleCbor .crlfCrcToRequest
          (text "[\"log\",\"s\",1]" ++ crc16String (text "[\"log\",\"s\",1]")) =
        RequestTranslator.requests entriesJson sampleCbor .crlfCrcToRequest
          (text "[\"log\",\"s\",2]" ++ crc16String (text "[\"log\",\"s\",2]")) ∧
      entriesJson.serializeJson (.int (jsonInteger 1)) ≠
        entriesJson.serializeJson (.int (jsonInteger 2)) ∧
      Json.int (jsonInteger 1) ≠ Json.int (jsonInteger 2) := by
  have first := entry_accepted (text "[\"log\",\"s\",1]")
    (deviceDocument .log (text "s") (.int (jsonInteger 1))) (by decide) (by rfl)
  have second := entry_accepted (text "[\"log\",\"s\",2]")
    (deviceDocument .log (text "s") (.int (jsonInteger 2))) (by decide) (by rfl)
  have texts : entriesJson.serializeJson (.int (jsonInteger 1)) ≠
      entriesJson.serializeJson (.int (jsonInteger 2)) := by decide
  refine ⟨first, second, ?_, texts, fun same => texts (by rw [same])⟩
  rw [RequestTranslator.requests_device _ _ _ _ _ _ _ first rfl,
    RequestTranslator.requests_device _ _ _ _ _ _ _ second rfl]
  rfl

end Serial2Redis
