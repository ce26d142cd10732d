import Serial2Redis.Basic
import Serial2Redis.Library.Transducer

/-!
# CR/LF framing

`Framing::Framing` and its `Deframer`. The delimiter is appended as a sequence and
recognised as a set of characters; the buffer survives from one read to the next
and is dropped when it has grown past the limit.
-/

namespace Serial2Redis

open Transducer

structure Framing where
  delimiter : CppString
  maxFrameLength : Nat

structure Deframer where
  buffer : Bytes
  maxFrameLength : Nat
  delimiter : CppString
  deriving DecidableEq

/-- The function inside the flow that `Framing::frame()` returns. -/
def Framing.frame (framing : Framing) (out input : Bytes) : Bool × Bytes :=
  (true, out ++ input ++ framing.delimiter)

def Framing.deframe (framing : Framing) : Deframer where
  buffer := []
  maxFrameLength := framing.maxFrameLength
  delimiter := framing.delimiter

namespace Deframer

/-- One turn of the loop of `Deframer::on`, with the frames it emits. -/
def onByte (deframer : Deframer) (c : Byte) : Deframer × List Bytes :=
  if c ∈ deframer.delimiter then
    if deframer.buffer.length > 0 then ({ deframer with buffer := [] }, [deframer.buffer])
    else (deframer, [])
  else if deframer.buffer.length > deframer.maxFrameLength then
    ({ deframer with buffer := [c] }, [])
  else ({ deframer with buffer := deframer.buffer ++ [c] }, [])

def on (deframer : Deframer) (input : Bytes) : Deframer × List Bytes :=
  feed onByte deframer input

structure Carries (deframer : Deframer) (payload : Bytes) : Prop where
  nonempty : payload ≠ []
  short : payload.length ≤ deframer.maxFrameLength
  clean : ∀ c ∈ payload, c ∉ deframer.delimiter

theorem on_chunks (deframer : Deframer) (chunks : List Bytes) :
    feed on deframer chunks = on deframer chunks.flatten :=
  feed_chunks onByte deframer chunks

theorem on_append (deframer : Deframer) (left right : Bytes) :
    deframer.on (left ++ right) =
      (((deframer.on left).1.on right).1, (deframer.on left).2 ++ ((deframer.on left).1.on right).2) :=
  feed_append onByte deframer left right

theorem on_cons (deframer : Deframer) (c : Byte) (rest : Bytes) :
    deframer.on (c :: rest) =
      (((deframer.onByte c).1.on rest).1,
        (deframer.onByte c).2 ++ ((deframer.onByte c).1.on rest).2) := rfl

theorem on_byte_keeps (deframer : Deframer) (c : Byte) :
    ∃ buffer, (deframer.onByte c).1 = { deframer with buffer } := by
  unfold onByte
  split_ifs
  · exact ⟨[], rfl⟩
  · exact ⟨deframer.buffer, rfl⟩
  · exact ⟨[c], rfl⟩
  · exact ⟨deframer.buffer ++ [c], rfl⟩

theorem on_keeps (deframer : Deframer) (input : Bytes) :
    ∃ buffer, (deframer.on input).1 = { deframer with buffer } := by
  apply feed_invariant onByte (fun state => ∃ buffer, state = { deframer with buffer })
  · intro state c holds
    obtain ⟨before, rfl⟩ := holds
    obtain ⟨after, changed⟩ := on_byte_keeps { deframer with buffer := before } c
    exact ⟨after, changed⟩
  · exact ⟨deframer.buffer, rfl⟩

theorem on_delimiters (deframer : Deframer) (input : Bytes) (empty : deframer.buffer = [])
    (delimiters : ∀ c ∈ input, c ∈ deframer.delimiter) : deframer.on input = (deframer, []) := by
  induction input with
  | nil => rfl
  | cons c rest induction =>
      have skipped : deframer.onByte c = (deframer, []) := by
        rw [onByte, if_pos (delimiters c (by simp)), if_neg (by simp [empty])]
      rw [on_cons, skipped, induction fun other member => delimiters other (by simp [member])]
      rfl

/-- The first delimiter character emits what the buffer holds, the rest of a run
of them adds nothing. -/
theorem on_delimiter_run (deframer : Deframer) (input : Bytes) (some_input : input ≠ [])
    (filled : deframer.buffer ≠ []) (delimiters : ∀ c ∈ input, c ∈ deframer.delimiter) :
    deframer.on input = ({ deframer with buffer := [] }, [deframer.buffer]) := by
  cases input with
  | nil => exact absurd rfl some_input
  | cons c rest =>
      have ended : deframer.onByte c = ({ deframer with buffer := [] }, [deframer.buffer]) := by
        rw [onByte, if_pos (delimiters c (by simp)), if_pos (List.length_pos_of_ne_nil filled)]
      rw [on_cons, ended, on_delimiters { deframer with buffer := [] } rest rfl
        fun other member => delimiters other (by simp [member])]
      rfl

/-- A clean payload emits nothing. It leaves its last byte at least, and is added
whole to the buffer when the limit is not passed on the way. -/
theorem on_payload (deframer : Deframer) (payload : Bytes)
    (clean : ∀ c ∈ payload, c ∉ deframer.delimiter) :
    ∃ buffer, deframer.on payload = ({ deframer with buffer }, []) ∧
      (payload ≠ [] → buffer ≠ []) ∧
      (deframer.buffer.length + payload.length ≤ deframer.maxFrameLength + 1 →
        buffer = deframer.buffer ++ payload) := by
  induction payload generalizing deframer with
  | nil => exact ⟨deframer.buffer, rfl, by simp, by simp⟩
  | cons c rest induction =>
      have first : c ∉ deframer.delimiter := clean c (by simp)
      obtain ⟨pushed, changed, nonempty, whole⟩ : ∃ pushed,
          deframer.onByte c = ({ deframer with buffer := pushed }, []) ∧ pushed ≠ [] ∧
            (deframer.buffer.length ≤ deframer.maxFrameLength →
              pushed = deframer.buffer ++ [c]) := by
        rw [onByte, if_neg first]
        by_cases long : deframer.buffer.length > deframer.maxFrameLength
        · exact ⟨[c], by rw [if_pos long], by simp, fun short => by omega⟩
        · exact ⟨deframer.buffer ++ [c], by rw [if_neg long], by simp, fun _ => rfl⟩
      obtain ⟨buffer, fed, remains, kept⟩ :=
        induction { deframer with buffer := pushed } fun other member => clean other (by simp [member])
      refine ⟨buffer, ?_, ?_, ?_⟩
      · rw [on_cons, changed, fed]
        rfl
      · intro _
        cases rest with
        | nil =>
            have same := congrArg (fun result => result.1.buffer) fed
            have held : pushed = buffer := same
            rw [← held]
            exact nonempty
        | cons other rest => exact remains (by simp)
      · intro fits
        rw [List.length_cons] at fits
        have appended := whole (by omega)
        rw [appended] at kept
        rw [kept (by simp only [List.length_append, List.length_singleton]; omega),
          List.append_assoc, List.singleton_append]

/-- One frame on the wire ends the run it meets: exactly one frame comes out and
the buffer is empty again. -/
theorem on_frame (deframer : Deframer) (payload : Bytes) (delimited : deframer.delimiter ≠ [])
    (carries : deframer.Carries payload) :
    ∃ first, deframer.on (payload ++ deframer.delimiter) =
        ({ deframer with buffer := [] }, [first]) ∧
      (deframer.buffer = [] → first = payload) := by
  obtain ⟨buffer, fed, remains, whole⟩ := on_payload deframer payload carries.clean
  refine ⟨buffer, ?_, ?_⟩
  · have ended := on_delimiter_run { deframer with buffer } deframer.delimiter delimited
      (remains carries.nonempty) fun _ member => member
    rw [on_append, fed, ended]
    rfl
  · intro empty
    have room := carries.short
    rw [whole (by rw [empty, List.length_nil]; omega), empty, List.nil_append]

theorem on_frames (deframer : Deframer) (payloads : List Bytes) (empty : deframer.buffer = [])
    (delimited : deframer.delimiter ≠ []) (carried : ∀ payload ∈ payloads, deframer.Carries payload) :
    deframer.on (payloads.map (· ++ deframer.delimiter)).flatten = (deframer, payloads) := by
  have restored : { deframer with buffer := [] } = deframer := by rw [← empty]
  rw [← List.flatMap_def]
  apply feed_codes onByte
  intro payload member
  obtain ⟨first, fed, same⟩ := on_frame deframer payload delimited (carried payload member)
  rw [restored, same empty] at fed
  exact fed

end Deframer

open Deframer

theorem flow_frame (framing : Framing) (payload : Bytes) :
    flow framing.frame payload = [payload ++ framing.delimiter] := rfl

theorem framed_stream (framing : Framing) (payloads : List Bytes) :
    (payloads.flatMap (flow framing.frame)).flatten =
      (payloads.map (· ++ framing.delimiter)).flatten := by
  congr 1
  induction payloads with
  | nil => rfl
  | cons payload payloads induction =>
      rw [List.flatMap_cons, induction, flow_frame, List.map_cons, List.singleton_append]

/-- Whatever bytes came before, the frames after the first one come out unaltered
and the buffer is empty at the end; the first one is unaltered too when nothing
was left over. -/
theorem deframer_resynchronises (framing : Framing) (history chunks : List Bytes)
    (payload : Bytes) (payloads : List Bytes) (delimited : framing.delimiter ≠ [])
    (carried : ∀ sent ∈ payload :: payloads, framing.deframe.Carries sent)
    (wire : chunks.flatten = ((payload :: payloads).flatMap (flow framing.frame)).flatten) :
    ∃ first, feed on (feed on framing.deframe history).1 chunks =
        (framing.deframe, first :: payloads) ∧
      ((feed on framing.deframe history).1.buffer = [] → first = payload) := by
  obtain ⟨buffer, reached⟩ := on_keeps framing.deframe history.flatten
  rw [on_chunks, on_chunks, wire, framed_stream, reached, List.map_cons, List.flatten_cons]
  have carriedHead := carried payload (by simp)
  obtain ⟨first, fed, same⟩ := on_frame { framing.deframe with buffer } payload delimited
    ⟨carriedHead.nonempty, carriedHead.short, carriedHead.clean⟩
  have rest := on_frames framing.deframe payloads rfl delimited
    fun other member => carried other (by simp [member])
  refine ⟨first, ?_, same⟩
  have cleared : on { framing.deframe with buffer } (payload ++ framing.delimiter) =
      (framing.deframe, [first]) := fed
  rw [on_append, cleared]
  exact congrArg (fun result => (result.1, first :: result.2)) rest

theorem deframer_resynchronises_after_noise :
    ∃ first, feed on (feed on (Framing.deframe ⟨text "\r\n", 4⟩) [text "?"]).1
        [text "a", text "b\r\ncd\r", text "\n"] =
          (Framing.deframe ⟨text "\r\n", 4⟩, [first, text "cd"]) ∧
      ((feed on (Framing.deframe ⟨text "\r\n", 4⟩) [text "?"]).1.buffer = [] → first = text "ab") :=
  deframer_resynchronises ⟨text "\r\n", 4⟩ [text "?"] [text "a", text "b\r\ncd\r", text "\n"]
    (text "ab") [text "cd"] (by decide)
    (by
      intro sent member
      simp only [List.mem_cons, List.not_mem_nil, or_false] at member
      rcases member with rfl | rfl <;> exact ⟨by decide, by decide, by decide⟩)
    (by decide)

end Serial2Redis
