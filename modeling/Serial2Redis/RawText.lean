import Serial2Redis.CborFlows

/-!
# Messages that are not JSON

Any Redis client may publish plain text. Both encoders drop the parser's error code
and go on with the document it left. `responseToCbor` falls back to the text of the
message where that document is no scalar, `responseToCrlfCrc` has no such branch.
-/

namespace Serial2Redis

open Crc16

def DeliversCrlf (lib : ArduinoJson) (pattern topic message : CppString) : Prop :=
  ∃ json, flow (responseToCrlfCrc lib) (pmessageResponse pattern topic message) =
      [json ++ crc16Bytes json] ∧
    lib.Parses json (pubDocument topic (.string message))

def DeliversCbor (lib : ArduinoJson) (cbor : Cbor) (pattern topic message : CppString) : Prop :=
  ∃ frame, flow (responseToCbor lib cbor) (pmessageResponse pattern topic message) = [frame] ∧
    cbor.Decodes lib frame (pubDocument topic (.string message))

/-- The message does not parse and `left` is what the parser leaves of it. The writer
is trusted with the document made of that, and tinycbor with the message as text. -/
structure FailedParse (lib : ArduinoJson) (cbor : Cbor) (topic message : CppString)
    (left : Json) : Prop where
  failed : ∃ error, error ≠ .ok ∧ lib.deserializeJson message = (error, left)
  returns : lib.RoundTrips (pubDocument topic left)
  brackets : lib.Brackets [.literal "pub", .string topic, left]
  faithful : cbor.Faithful lib topic (.text message)

theorem pub_document_injective {topic : CppString} {value value' : Json}
    (same : pubDocument topic value = pubDocument topic value') : value = value' := by
  simpa [pubDocument] using same

theorem parses_unique {lib : ArduinoJson} {source : CppString} {left right : Json}
    (first : lib.Parses source left) (second : lib.Parses source right) : left = right := by
  rw [ArduinoJson.Parses, first] at second
  exact (Prod.mk.inj second).2

theorem checked_frame_injective {json json' : Bytes}
    (same : json ++ crc16Bytes json = json' ++ crc16Bytes json') : json = json' := by
  apply (List.append_inj' same _).1
  rw [crc16_bytes_length, crc16_bytes_length]

namespace FailedParse

variable {lib : ArduinoJson} {cbor : Cbor} {topic message : CppString} {left : Json}

theorem document (failure : FailedParse lib cbor topic message left) :
    (lib.deserializeJson message).2 = left := by
  obtain ⟨error, _, parsed⟩ := failure.failed
  rw [parsed]

theorem crlf_frame (failure : FailedParse lib cbor topic message left) (pattern : CppString) :
    flow (responseToCrlfCrc lib) (pmessageResponse pattern topic message) =
      [lib.serializeJson (pubDocument topic left) ++
        crc16Bytes (lib.serializeJson (pubDocument topic left))] :=
  flow_crlf_document lib _ topic message left (.inr ⟨pattern, rfl⟩) failure.document
    failure.brackets

theorem delivers_crlf_iff (failure : FailedParse lib cbor topic message left)
    (pattern : CppString) : DeliversCrlf lib pattern topic message ↔ left = .string message := by
  constructor
  · intro delivered
    rcases delivered with ⟨json, emitted, parses⟩
    rw [failure.crlf_frame pattern] at emitted
    have same := checked_frame_injective (List.singleton_inj.mp emitted)
    rw [← same] at parses
    exact pub_document_injective (parses_unique failure.returns parses)
  · intro same
    subst same
    exact ⟨_, failure.crlf_frame pattern, failure.returns⟩

theorem delivers_cbor_of_text (failure : FailedParse lib cbor topic message left)
    (pattern : CppString) (raw : cborItem lib left message = .text message) :
    DeliversCbor lib cbor pattern topic message := by
  refine ⟨_, flow_cbor_document lib cbor pattern topic message left failure.document, ?_⟩
  rw [raw]
  exact failure.faithful

end FailedParse

/-- The document that is left decides which branch of `responseToCbor` is taken, and
the text goes out unaltered from the last one. -/
theorem cbor_item_raw_iff (lib : ArduinoJson) (left : Json) (message : CppString) :
    cborItem lib left message = .text message ↔
      (left = .null ∨ left.isArray = true ∨ left.isObject = true) ∨ left = .string message := by
  cases left with
  | int value => rw [cbor_item_int]; simp [Json.isArray, Json.isObject]
  | _ =>
      simp [cborItem, Json.isString, Json.isInt64, Json.isUint64, Json.isFloat, Json.isBool,
        Json.isArray, Json.isObject]

/-- Both encoders hand over two messages unaltered, and as different frames where the
messages differ. -/
structure RawTextDelivered (lib : ArduinoJson) (cbor : Cbor)
    (pattern topic message message' : CppString) : Prop where
  toCrlf : DeliversCrlf lib pattern topic message ∧ DeliversCrlf lib pattern topic message'
  toCbor : DeliversCbor lib cbor pattern topic message ∧
    DeliversCbor lib cbor pattern topic message'
  crlfFrames : message ≠ message' →
    flow (responseToCrlfCrc lib) (pmessageResponse pattern topic message) ≠
      flow (responseToCrlfCrc lib) (pmessageResponse pattern topic message')
  cborFrames : message ≠ message' →
    flow (responseToCbor lib cbor) (pmessageResponse pattern topic message) ≠
      flow (responseToCbor lib cbor) (pmessageResponse pattern topic message')

theorem crlf_delivered_different {lib : ArduinoJson} {pattern topic message message' : CppString}
    (delivered : DeliversCrlf lib pattern topic message)
    (delivered' : DeliversCrlf lib pattern topic message') (different : message ≠ message') :
    flow (responseToCrlfCrc lib) (pmessageResponse pattern topic message) ≠
      flow (responseToCrlfCrc lib) (pmessageResponse pattern topic message') := by
  obtain ⟨json, emitted, parses⟩ := delivered
  obtain ⟨json', emitted', parses'⟩ := delivered'
  intro same
  rw [emitted, emitted'] at same
  rw [checked_frame_injective (List.singleton_inj.mp same)] at parses
  exact different (Json.string.inj (pub_document_injective (parses_unique parses parses')))

theorem cbor_delivered_different {lib : ArduinoJson} {cbor : Cbor}
    {pattern topic message message' : CppString}
    (delivered : DeliversCbor lib cbor pattern topic message)
    (delivered' : DeliversCbor lib cbor pattern topic message') (different : message ≠ message') :
    flow (responseToCbor lib cbor) (pmessageResponse pattern topic message) ≠
      flow (responseToCbor lib cbor) (pmessageResponse pattern topic message') := by
  obtain ⟨frame, emitted, decodes⟩ := delivered
  obtain ⟨frame', emitted', decodes'⟩ := delivered'
  intro same
  rw [emitted, emitted'] at same
  rw [List.singleton_inj.mp same] at decodes
  exact different (Json.string.inj (pub_document_injective (decodes_unique decodes decodes')))

/-- Messages that do not parse reach the devices unaltered exactly when the failed
parses leave just their texts, as JSON strings. -/
theorem raw_text_delivered_iff (lib : ArduinoJson) (cbor : Cbor)
    (pattern topic message message' : CppString) (left left' : Json)
    (failure : FailedParse lib cbor topic message left)
    (failure' : FailedParse lib cbor topic message' left') :
    RawTextDelivered lib cbor pattern topic message message' ↔
      left = .string message ∧ left' = .string message' := by
  constructor
  · intro delivered
    exact ⟨(failure.delivers_crlf_iff pattern).mp delivered.toCrlf.1,
      (failure'.delivers_crlf_iff pattern).mp delivered.toCrlf.2⟩
  · intro leftovers
    rcases leftovers with ⟨rfl, rfl⟩
    have crlf := (failure.delivers_crlf_iff pattern).mpr rfl
    have crlf' := (failure'.delivers_crlf_iff pattern).mpr rfl
    have raw := (cbor_item_raw_iff lib (.string message) message).mpr (.inr rfl)
    have raw' := (cbor_item_raw_iff lib (.string message') message').mpr (.inr rfl)
    have carried := failure.delivers_cbor_of_text pattern raw
    have carried' := failure'.delivers_cbor_of_text pattern raw'
    exact ⟨⟨crlf, crlf'⟩, ⟨carried, carried'⟩, crlf_delivered_different crlf crlf',
      cbor_delivered_different carried carried'⟩

/-- ArduinoJson on the words `hello` and `world`, which leave null behind, and on the
`pub` documents on the topic `t` that occur with them. -/
def wordsJson : ArduinoJson where
  deserializeJson source :=
    if source = text "[\"pub\",\"t\",null]" then (.ok, pubDocument (text "t") .null)
    else if source = text "[\"pub\",\"t\",\"hello\"]" then
      (.ok, pubDocument (text "t") (.literal "hello"))
    else if source = text "[\"pub\",\"t\",\"world\"]" then
      (.ok, pubDocument (text "t") (.literal "world"))
    else (.invalidInput, .null)
  serializeJson document :=
    if document.isArray then text "[\"pub\",\"t\",null]" else text "null"

def wordsCbor : Cbor where
  valueToJson frame :=
    if frame = [0x9F, 0x63, 0x70, 0x75, 0x62, 0x61, 0x74] ++ [0x65] ++ text "hello" ++ [0xFF] then
      some (text "[\"pub\",\"t\",\"hello\"]")
    else if frame =
        [0x9F, 0x63, 0x70, 0x75, 0x62, 0x61, 0x74] ++ [0x65] ++ text "world" ++ [0xFF] then
      some (text "[\"pub\",\"t\",\"world\"]")
    else none
  toBytes := sampleCbor.toBytes

theorem raw_text_not_delivered_words :
    ¬RawTextDelivered wordsJson wordsCbor (text "*") (text "t") (text "hello") (text "world") := by
  intro delivered
  have leftovers := (raw_text_delivered_iff wordsJson wordsCbor (text "*") (text "t")
    (text "hello") (text "world") .null .null
    ⟨⟨.invalidInput, by decide, by rfl⟩, by rfl, ⟨text "\"pub\",\"t\",null", by rfl⟩,
      ⟨text "[\"pub\",\"t\",\"hello\"]", by rfl, by rfl⟩⟩
    ⟨⟨.invalidInput, by decide, by rfl⟩, by rfl, ⟨text "\"pub\",\"t\",null", by rfl⟩,
      ⟨text "[\"pub\",\"t\",\"world\"]", by rfl, by rfl⟩⟩).mp delivered
  cases leftovers.1

/-- Neither word parses, and both reach a CR/LF device as the same `null`. -/
theorem words_become_null :
    (wordsJson.deserializeJson (text "hello")).1 ≠ .ok ∧
      (wordsJson.deserializeJson (text "world")).1 ≠ .ok ∧
      flow (responseToCrlfCrc wordsJson) (pmessageResponse (text "*") (text "t") (text "hello")) =
        flow (responseToCrlfCrc wordsJson)
          (pmessageResponse (text "*") (text "t") (text "world")) ∧
      ¬DeliversCrlf wordsJson (text "*") (text "t") (text "hello") := by
  have hello : flow (responseToCrlfCrc wordsJson)
      (pmessageResponse (text "*") (text "t") (text "hello")) =
        [wordsJson.serializeJson (pubDocument (text "t") .null) ++
          crc16Bytes (wordsJson.serializeJson (pubDocument (text "t") .null))] := by rfl
  refine ⟨by decide, by decide, by rfl, ?_⟩
  intro delivered
  rcases delivered with ⟨json, emitted, parses⟩
  rw [hello] at emitted
  rw [← checked_frame_injective (List.singleton_inj.mp emitted)] at parses
  have null : wordsJson.Parses (wordsJson.serializeJson (pubDocument (text "t") .null))
      (pubDocument (text "t") .null) := by rfl
  cases pub_document_injective (parses_unique null parses)

end Serial2Redis
