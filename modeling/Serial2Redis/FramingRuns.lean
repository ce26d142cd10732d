import Serial2Redis.Framing
import Serial2Redis.Library.DelimitedRuns

/-!
# What the deframer makes of long lines

`Deframer::on` keeps no mark that the current line is being discarded. Its buffer is
always the last block of the line read so far, the line cut into blocks of
`_maxFrameLength + 1` bytes, and that block is what a delimiter emits.
-/

namespace Serial2Redis

open Transducer DelimitedRuns

namespace Deframer

def isDelimiter (delimiter : CppString) (c : Byte) : Bool := delimiter.contains c

theorem is_delimiter_iff (delimiter : CppString) (c : Byte) :
    isDelimiter delimiter c = true ↔ c ∈ delimiter := by
  rw [isDelimiter, List.contains_iff_mem]

theorem clean_iff (delimiter : CppString) (run : Bytes) :
    Clean (isDelimiter delimiter) run ↔ ∀ c ∈ run, c ∉ delimiter := by
  simp [Clean, isDelimiter]

/-- The deframer that has read `line` since the last delimiter. -/
def within (framing : Framing) (line : Bytes) : Deframer :=
  { framing.deframe with buffer := lastBlock (framing.maxFrameLength + 1) line }

theorem within_nil (framing : Framing) : within framing [] = framing.deframe := by
  rw [within, last_block_eq_self _ [] (Nat.zero_le _)]
  rfl

theorem on_byte_inside (framing : Framing) (line : Bytes) (c : Byte)
    (inside : c ∉ framing.delimiter) :
    (within framing line).onByte c = (within framing (line ++ [c]), []) := by
  have outside : c ∉ (within framing line).delimiter := inside
  have bounded := last_block_length_le (framing.maxFrameLength + 1) (Nat.succ_pos _) line
  have appended := last_block_append (framing.maxFrameLength + 1) (Nat.succ_pos _) line c
  rw [onByte, if_neg outside, within, within, appended]
  by_cases full : (lastBlock (framing.maxFrameLength + 1) line).length = framing.maxFrameLength + 1
  · have exceeds : (lastBlock (framing.maxFrameLength + 1) line).length >
        framing.deframe.maxFrameLength := by
      rw [full]
      exact Nat.lt_succ_self _
    rw [if_pos full, if_pos exceeds]
  · have fits : ¬(lastBlock (framing.maxFrameLength + 1) line).length >
        framing.deframe.maxFrameLength := by
      change ¬_ > framing.maxFrameLength
      omega
    rw [if_neg full, if_neg fits]

theorem on_byte_end (framing : Framing) (line : Bytes) (c : Byte) (ends : c ∈ framing.delimiter) :
    (within framing line).onByte c =
      (within framing [],
        (if line = [] then [] else [line]).map (lastBlock (framing.maxFrameLength + 1))) := by
  have delimits : c ∈ (within framing line).delimiter := ends
  rw [onByte, if_pos delimits, within_nil]
  by_cases empty : line = []
  · subst empty
    rw [within_nil]
    rfl
  · have filled := last_block_nonempty (framing.maxFrameLength + 1) line empty
    have positive : (within framing line).buffer.length > 0 := List.length_pos_of_ne_nil filled
    rw [if_pos positive, if_neg empty]
    rfl

/-- What a whole stream makes of a deframer in the middle of a line. -/
theorem on_line (framing : Framing) (line stream : Bytes)
    (clean : Clean (isDelimiter framing.delimiter) line) :
    (within framing line).on stream =
      (within framing (openRun (isDelimiter framing.delimiter) (line ++ stream)),
        (completeRuns (isDelimiter framing.delimiter) (line ++ stream)).map
          (lastBlock (framing.maxFrameLength + 1))) := by
  induction stream generalizing line with
  | nil =>
      rw [List.append_nil, open_run_clean line clean, complete_runs_clean line clean]
      rfl
  | cons c rest induction =>
      rw [on_cons]
      by_cases ends : c ∈ framing.delimiter
      · have delimits := (is_delimiter_iff framing.delimiter c).mpr ends
        have later := induction [] Clean.nil
        rw [on_byte_end framing line c ends, later, complete_runs_cons line rest clean c delimits,
          open_run_cons line rest clean c delimits, List.map_append, List.nil_append]
      · have inside : isDelimiter framing.delimiter c = false := by
          rw [← Bool.not_eq_true, is_delimiter_iff]
          exact ends
        have later := induction (line ++ [c]) (clean.push inside)
        rw [on_byte_inside framing line c ends, later, List.append_assoc, List.singleton_append]
        rfl

theorem on_stream (framing : Framing) (stream : Bytes) :
    framing.deframe.on stream =
      (within framing (openRun (isDelimiter framing.delimiter) stream),
        (completeRuns (isDelimiter framing.delimiter) stream).map
          (lastBlock (framing.maxFrameLength + 1))) := by
  have started := on_line framing [] stream Clean.nil
  rwa [within_nil, List.nil_append] at started

end Deframer

open Deframer

theorem short_lines_whole (framing : Framing) (runs : List Bytes)
    (short : ∀ run ∈ runs, run.length ≤ framing.maxFrameLength) :
    runs.map (lastBlock (framing.maxFrameLength + 1)) = runs := by
  have whole : ∀ run ∈ runs, lastBlock (framing.maxFrameLength + 1) run = run := by
    intro run member
    exact last_block_eq_self _ run ((short run member).trans (Nat.le_succ _))
  rw [List.map_congr_left whole, List.map_id']

/-- The frames are whole lines of the stream, in order and none over the limit,
exactly when no line that was ended is over it. -/
theorem deframer_emits_whole_lines_iff (framing : Framing) (chunks : List Bytes) :
    List.Sublist (feed on framing.deframe chunks).2
        ((completeRuns (isDelimiter framing.delimiter) chunks.flatten).filter
          fun run => run.length ≤ framing.maxFrameLength) ↔
      ∀ run ∈ completeRuns (isDelimiter framing.delimiter) chunks.flatten,
        run.length ≤ framing.maxFrameLength := by
  rw [on_chunks, on_stream]
  constructor
  · intro sublist
    have counted := sublist.length_le
    rw [List.length_map] at counted
    have all := List.filter_sublist.eq_of_length_le counted
    intro run member
    rw [← all] at member
    simpa using (List.mem_filter.mp member).2
  · intro short
    have kept : (completeRuns (isDelimiter framing.delimiter) chunks.flatten).filter
        (fun run => run.length ≤ framing.maxFrameLength) =
          completeRuns (isDelimiter framing.delimiter) chunks.flatten := by
      rw [List.filter_eq_self]
      intro run member
      simpa using short run member
    rw [short_lines_whole framing _ short, kept]

/-- Four bytes on a link that allows two: the fourth comes out as a line of its own. -/
theorem deframer_emits_tail :
    (feed on (Framing.deframe ⟨text "\r\n", 2⟩) [text "abc", text "d\r\n"]).2 = [text "d"] ∧
      ¬List.Sublist (feed on (Framing.deframe ⟨text "\r\n", 2⟩) [text "abc", text "d\r\n"]).2
        ((completeRuns (isDelimiter (text "\r\n")) [text "abc", text "d\r\n"].flatten).filter
          fun run => run.length ≤ 2) := by
  decide

theorem on_clean (framing : Framing) (before run : Bytes)
    (clean : Clean (isDelimiter framing.delimiter) run) :
    (framing.deframe.on (before ++ run)).1 =
      within framing (openRun (isDelimiter framing.delimiter) before ++ run) := by
  have lineClean := (runs_are_pieces (isDelimiter framing.delimiter) before).2.2
  rw [on_append, on_stream, on_line framing _ run lineClean,
    open_run_clean _ (lineClean.append clean)]

/-- A clean piece of the stream that is over the limit fills the buffer past it on
the way, wherever the line it belongs to began. -/
theorem long_run_overfills (framing : Framing) (before run : Bytes)
    (clean : Clean (isDelimiter framing.delimiter) run)
    (long : framing.maxFrameLength < run.length) :
    ∃ count, (framing.deframe.on (before ++ run.take count)).1.buffer.length =
      framing.maxFrameLength + 1 := by
  obtain ⟨count, small, reaches⟩ := next_full_block (framing.maxFrameLength + 1) (Nat.succ_pos _)
    (openRun (isDelimiter framing.delimiter) before).length
  refine ⟨count, ?_⟩
  rw [on_clean framing before _ fun c member => clean c (List.mem_of_mem_take member)]
  apply last_block_full _ _ (Nat.succ_pos _)
  rw [List.length_append, List.length_take, Nat.min_eq_left (by omega)]
  exact reaches

/-- A line within the limit is in the buffer as it is. -/
theorem on_short_line (framing : Framing) (stream : Bytes)
    (short : (openRun (isDelimiter framing.delimiter) stream).length ≤ framing.maxFrameLength) :
    (framing.deframe.on stream).1.buffer = openRun (isDelimiter framing.delimiter) stream := by
  rw [on_stream]
  exact last_block_eq_self _ _ (short.trans (Nat.le_succ _))

/-- The buffer and the frames stay within the limit, in every state the deframer
goes through, exactly when no piece of the stream without a delimiter is over it. -/
theorem deframer_bounded_iff (framing : Framing) (chunks : List Bytes) :
    ((∀ before, before <+: chunks.flatten →
        (framing.deframe.on before).1.buffer.length ≤ framing.maxFrameLength ∧
          ∀ c ∈ (framing.deframe.on before).1.buffer, c ∉ framing.delimiter) ∧
      ∀ frame ∈ (feed on framing.deframe chunks).2,
        frame ≠ [] ∧ frame.length ≤ framing.maxFrameLength) ↔
    ∀ run, run <:+: chunks.flatten → (∀ c ∈ run, c ∉ framing.delimiter) →
      run.length ≤ framing.maxFrameLength := by
  rw [on_chunks]
  constructor
  · intro bounded run inside clean
    rcases inside with ⟨before, after, placed⟩
    by_contra long
    rw [← clean_iff] at clean
    obtain ⟨count, exceeds⟩ := long_run_overfills framing before run clean (by omega)
    have reached : before ++ run.take count <+: chunks.flatten := by
      rw [← placed, List.append_assoc, List.prefix_append_right_inj]
      exact (List.take_prefix count run).trans (List.prefix_append run after)
    have small := (bounded.1 _ reached).1
    omega
  · intro short
    have piecesShort : ∀ run, run <:+: chunks.flatten → Clean (isDelimiter framing.delimiter) run →
        run.length ≤ framing.maxFrameLength := by
      intro run inside clean
      exact short run inside ((clean_iff framing.delimiter run).mp clean)
    constructor
    · intro before reached
      have pieces := runs_are_pieces (isDelimiter framing.delimiter) before
      have small := piecesShort _ (pieces.2.1.trans reached.isInfix) pieces.2.2
      rw [on_short_line framing before small]
      exact ⟨small, (clean_iff framing.delimiter _).mp pieces.2.2⟩
    · have pieces := (runs_are_pieces (isDelimiter framing.delimiter) chunks.flatten).1
      have runsShort : ∀ run ∈ completeRuns (isDelimiter framing.delimiter) chunks.flatten,
          run.length ≤ framing.maxFrameLength := by
        intro run member
        exact piecesShort run (pieces run member).2.1 (pieces run member).2.2
      rw [on_stream, short_lines_whole framing _ runsShort]
      intro frame member
      exact ⟨(pieces frame member).1, runsShort frame member⟩

/-- Three bytes on a link that allows two: all three are held and come out as one line. -/
theorem deframer_exceeds_limit :
    ¬∀ (framing : Framing) (chunks : List Bytes),
      (∀ before, before <+: chunks.flatten →
        (framing.deframe.on before).1.buffer.length ≤ framing.maxFrameLength ∧
          ∀ c ∈ (framing.deframe.on before).1.buffer, c ∉ framing.delimiter) ∧
      ∀ frame ∈ (feed on framing.deframe chunks).2,
        frame ≠ [] ∧ frame.length ≤ framing.maxFrameLength := by
  intro claimed
  have bounded := (claimed ⟨text "\r\n", 2⟩ [text "abc", text "\r\n"]).2
  exact absurd (bounded (text "abc") (by decide)).2 (by decide)

end Serial2Redis
