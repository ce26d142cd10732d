import Mathlib.Data.List.TakeWhile
import Serial2Redis.CborFlows
import Serial2Redis.PublishAlive
import Serial2Redis.Library.RunReader

/-!
# The GPS receiver of espUdp

`Neo6m.cpp`: the NMEA sentences that the receiver puts together from the bytes of its UART
and what it takes from their fields. It reads fields without asking whether they are there,
and C++ leaves open what that gives. `std::stod` and what is computed from its results are
left to the C++ library.
-/

namespace Serial2Redis

open Transducer DelimitedRuns RunReader ListSearch

/-- What ends the receiver: an exception of the library, or the memory behind the fields. -/
inductive GpsFault where
  | invalidArgument
  | outOfRange
  | memory
  deriving DecidableEq

/-- `degrees` adds minutes to whole degrees; `missing` is what it gives to read the field
with an index that none of the fields has. -/
structure CppLibrary where
  Double : Type
  stod : CppString → Except GpsFault Double
  degrees : Double → Double → Double
  missing : List CppString → Nat → Except GpsFault CppString

inductive GpsUpdate (Double : Type) where
  | location (latitude longitude : Double)
  | satellitesInView (count : Int)
  | satellitesInUse (count : Nat)

def isSpace (c : Byte) : Bool := c == 0x20 || (0x09 ≤ c && c ≤ 0x0D)

def isDigit (c : Byte) : Bool := 0x30 ≤ c && c ≤ 0x39

/-- `std::stoi` in base 10. -/
def stoi (s : CppString) : Except GpsFault Int :=
  let (negative, rest) := match (cString s).dropWhile isSpace with
    | 0x2D :: rest => (true, rest)
    | 0x2B :: rest => (false, rest)
    | rest => (false, rest)
  let digits := rest.takeWhile isDigit
  let magnitude : Nat := digits.foldl (fun value c => value * 10 + (c.toNat - 0x30)) 0
  let value : Int := if negative then -magnitude else magnitude
  if digits = [] then .error .invalidArgument
  else if -2147483648 ≤ value ∧ value ≤ 2147483647 then .ok value
  else .error .outOfRange

/-- The loop of `split`, on what is left of `s` from `pos_start` on. -/
def splitLoop (delimiter : CppString) : Nat → CppString → Option (List CppString)
  | 0, _ => none
  | fuel + 1, s =>
      match CppString.find s delimiter with
      | some posEnd =>
          (splitLoop delimiter fuel (s.drop (posEnd + delimiter.length))).map (s.take posEnd :: ·)
      | none => some [s]

def comma : Byte := 0x2C

/-- The loop of `split` always ends. -/
theorem split_loop_returns (delimiter s : CppString) (filled : delimiter ≠ []) (fuel : Nat)
    (enough : s.length < fuel) : (splitLoop delimiter fuel s).isSome = true := by
  induction fuel generalizing s with
  | zero => omega
  | succ fuel induction =>
      rw [splitLoop]
      cases found : CppString.find s delimiter with
      | none => rfl
      | some posEnd =>
          have shorter : (s.drop (posEnd + delimiter.length)).length < fuel := by
            have step := List.length_pos_of_ne_nil filled
            cases s with
            | nil => simp [CppString.find, firstOccurrence, filled] at found
            | cons first rest =>
                rw [List.length_drop]
                rw [List.length_cons] at enough ⊢
                omega
          simpa using induction _ shorter

def split (s delimiter : CppString) (filled : delimiter ≠ []) : List CppString :=
  (splitLoop delimiter (s.length + 1) s).get
    (split_loop_returns delimiter s filled _ (Nat.lt_succ_self _))

namespace Neo6m

variable (library : CppLibrary)

/-- What `toLocation` makes of two fields. The second is only read after the first was found
long enough; a sum is read from left to right. -/
def toLocation (lat : CppString) (lon : Except GpsFault CppString) :
    Except GpsFault (List (GpsUpdate library.Double)) :=
  if lat.length > 2 then do
    let lon ← lon
    if lon.length > 2 then
      let latitude ← library.stod (lat.take 2)
      let latitudeMinutes ← library.stod (lat.drop 2)
      let longitude ← library.stod (lon.take 3)
      let longitudeMinutes ← library.stod (lon.drop 3)
      return [.location (library.degrees latitude latitudeMinutes)
        (library.degrees longitude longitudeMinutes)]
    else return []
  else return []

def fieldAt (fields : List CppString) (index : Nat) : Except GpsFault CppString :=
  match fields[index]? with
  | some field => .ok field
  | none => library.missing fields index

/-- The loop over the satellites of a GPGSA sentence. -/
def countUsed (fields : List CppString) (satellites : Nat) : Except GpsFault Nat :=
  (List.range satellites).foldlM
    (fun count i => do
      let field ← fieldAt library fields (i + 2)
      return if field.length > 0 then count + 1 else count) 0

/-- What is done for the fields of a sentence with a key. -/
def report (key : CppString) (fields : List CppString) :
    Except GpsFault (List (GpsUpdate library.Double)) :=
  if key = text "GPGLL" then do
    let lat ← fieldAt library fields 0
    toLocation library lat (fieldAt library fields 2)
  else if key = text "GPGSV" then
    if fields.length > 4 then do
      let field ← fieldAt library fields 2
      let count ← stoi field
      return [.satellitesInView count]
    else return []
  else if key = text "GPGSA" then do
    let count ← countUsed library fields 12
    return [.satellitesInUse count]
  else return []

/-- A line that is at its end; `split` is done in the branches of the source, on the same
text. -/
def handleLine (line : CppString) : Except GpsFault (List (GpsUpdate library.Double)) :=
  if line.length > 8 then
    report library ((line.drop 1).take 5) (split (line.drop 7) [comma] (List.cons_ne_nil _ _))
  else return []

def isLineEnd (ch : Byte) : Bool := ch == 0x0A || ch == 0x0D

/-- One turn of the loop in `handleRxd`, on `_line`. -/
def handleChar (line : CppString) (ch : Byte) :
    Except GpsFault (CppString × List (GpsUpdate library.Double)) :=
  if isLineEnd ch then do
    let updates ← handleLine library line
    return ([], updates)
  else return (line ++ [ch], [])

/-- One call of `handleRxd`, with the bytes that the UART has. -/
def handleRxd : Except GpsFault CppString → Bytes →
    Except GpsFault CppString × List (GpsUpdate library.Double) :=
  feed (attempt (handleChar library))

end Neo6m

theorem first_occurrence_letter_none (letter : Byte) (s : CppString) (absent : letter ∉ s) :
    firstOccurrence [letter] s = none := by
  induction s with
  | nil => rfl
  | cons first rest induction =>
      have other : letter ≠ first := fun same => absent (same ▸ List.mem_cons_self)
      rw [firstOccurrence, if_neg (by simpa using other),
        induction fun member => absent (List.mem_cons_of_mem _ member)]
      rfl

theorem first_occurrence_letter_some (letter : Byte) (before after : CppString)
    (absent : letter ∉ before) :
    firstOccurrence [letter] (before ++ letter :: after) = some before.length := by
  induction before with
  | nil => simp [firstOccurrence]
  | cons first before induction =>
      have other : letter ≠ first := fun same => absent (same ▸ List.mem_cons_self)
      rw [List.cons_append, firstOccurrence, if_neg (by simpa using other),
        induction fun member => absent (List.mem_cons_of_mem _ member)]
      rfl

/-- The fields that were joined with a letter are found again. -/
theorem split_loop_join (delimiter : Byte) (first : CppString) (rest : List CppString)
    (plain : ∀ field ∈ first :: rest, delimiter ∉ field) (fuel : Nat)
    (enough : rest.length < fuel) :
    splitLoop [delimiter] fuel ([delimiter].intercalate (first :: rest)) =
      some (first :: rest) := by
  induction rest generalizing first fuel with
  | nil =>
      cases fuel with
      | zero => omega
      | succ fuel =>
          rw [List.intercalate_singleton, splitLoop, CppString.find,
            first_occurrence_letter_none delimiter first (plain first List.mem_cons_self)]
  | cons second rest induction =>
      cases fuel with
      | zero => omega
      | succ fuel =>
          have cut := first_occurrence_letter_some delimiter first
            ([delimiter].intercalate (second :: rest)) (plain first List.mem_cons_self)
          have later := induction second
            (fun field member => plain field (List.mem_cons_of_mem _ member)) fuel
            (by simpa using enough)
          rw [List.intercalate_cons_cons, List.append_assoc, List.singleton_append, splitLoop,
            CppString.find, cut]
          simp [later]

namespace Neo6m

/-- A sentence by its key and its fields, as a receiver of satellites sends it. -/
structure Sentence where
  key : CppString
  fields : List CppString
  keyed : key.length = 5
  keyVisible : ∀ ch ∈ key, isLineEnd ch = false
  filled : fields ≠ []
  visible : ∀ field ∈ fields, ∀ ch ∈ field, isLineEnd ch = false
  plain : ∀ field ∈ fields, comma ∉ field

def Sentence.line (sentence : Sentence) : CppString :=
  text "$" ++ sentence.key ++ [comma] ++ [comma].intercalate sentence.fields

/-- `\r\n` -/
def lineEnd : CppString := [0x0D, 0x0A]

theorem join_length (first : CppString) (rest : List CppString) :
    rest.length ≤ ([comma].intercalate (first :: rest)).length := by
  induction rest generalizing first with
  | nil => exact Nat.zero_le _
  | cons second rest induction =>
      have later := induction second
      rw [List.intercalate_cons_cons, List.length_append, List.length_append, List.length_singleton,
        List.length_cons]
      omega

theorem join_visible (fields : List CppString)
    (visible : ∀ field ∈ fields, ∀ ch ∈ field, isLineEnd ch = false) :
    ∀ ch ∈ [comma].intercalate fields, isLineEnd ch = false := by
  induction fields with
  | nil => exact fun ch member => absurd member List.not_mem_nil
  | cons first rest induction =>
      cases rest with
      | nil =>
          rw [List.intercalate_singleton]
          exact visible first List.mem_cons_self
      | cons second rest =>
          rw [List.intercalate_cons_cons]
          intro ch member
          rcases List.mem_append.mp member with front | later
          · rcases List.mem_append.mp front with inside | separator
            · exact visible first List.mem_cons_self ch inside
            · rw [List.mem_singleton.mp separator]
              rfl
          · exact induction (fun field inside => visible field (List.mem_cons_of_mem _ inside)) ch
              later

theorem Sentence.clean (sentence : Sentence) : Clean isLineEnd sentence.line := by
  have fields := join_visible sentence.fields sentence.visible
  intro ch member
  simp only [line, text, List.mem_append, List.mem_singleton] at member
  rcases member with ((dollar | key) | separator) | inside
  · rw [show ch = 0x24 by simpa using dollar]
    rfl
  · exact sentence.keyVisible ch key
  · rw [separator]
    rfl
  · exact fields ch inside

variable {library : CppLibrary}

theorem count_used_succ (fields : List CppString) (satellites : Nat) :
    countUsed library fields (satellites + 1) =
      countUsed library fields satellites >>= fun count =>
        fieldAt library fields (satellites + 2) >>= fun field =>
          pure (if field.length > 0 then count + 1 else count) := by
  simp [countUsed, List.range_succ, List.foldlM_append]

/-- The loop counts the fields that are not empty, if there are enough of them. -/
theorem count_used_eq (fields : List CppString) (satellites : Nat)
    (enough : satellites + 2 ≤ fields.length) :
    countUsed library fields satellites =
      .ok (((fields.drop 2).take satellites).countP fun field => field.length > 0) := by
  induction satellites with
  | zero => rfl
  | succ satellites induction =>
      have found := List.getElem?_eq_getElem (show satellites + 2 < fields.length by omega)
      have next : (fields.drop 2)[satellites]? = some fields[satellites + 2] := by
        rw [List.getElem?_drop, Nat.add_comm, found]
      rw [count_used_succ, induction (by omega), fieldAt, found, List.take_add_one, next,
        List.countP_append]
      by_cases filled : 0 < fields[satellites + 2].length
      · simp [filled, bind, Except.bind, pure, Except.pure]
      · simp [filled, bind, Except.bind, pure, Except.pure]

/-- Whether a sentence has the fields that the receiver reads. -/
def Sentence.complete (sentence : Sentence) : Bool :=
  if ([comma].intercalate sentence.fields).length ≤ 1 then true
  else if sentence.key = text "GPGLL" then
    decide ((sentence.fields.headD []).length ≤ 2 ∨ 3 ≤ sentence.fields.length)
  else if sentence.key = text "GPGSA" then decide (14 ≤ sentence.fields.length)
  else true

/-- The position in the fields of a complete sentence. -/
def positionOf (library : CppLibrary) :
    List CppString → Except GpsFault (List (GpsUpdate library.Double))
  | lat :: _ :: lon :: _ => toLocation library lat (.ok lon)
  | _ => .ok []

/-- What a complete sentence reports, by its fields. -/
def Sentence.updates (library : CppLibrary) (sentence : Sentence) :
    Except GpsFault (List (GpsUpdate library.Double)) :=
  if ([comma].intercalate sentence.fields).length ≤ 1 then .ok []
  else if sentence.key = text "GPGLL" then positionOf library sentence.fields
  else if sentence.key = text "GPGSV" then
    if sentence.fields.length > 4 then
      (stoi (sentence.fields.getD 2 [])).map fun count => [.satellitesInView count]
    else .ok []
  else if sentence.key = text "GPGSA" then
    .ok [.satellitesInUse
      (((sentence.fields.drop 2).take 12).countP fun field => field.length > 0)]
  else .ok []

theorem line_key (sentence : Sentence) : (sentence.line.drop 1).take 5 = sentence.key := by
  unfold Sentence.line
  rw [List.append_assoc, List.append_assoc]
  exact List.take_left' sentence.keyed

theorem line_fields (sentence : Sentence) :
    sentence.line.drop 7 = [comma].intercalate sentence.fields := by
  unfold Sentence.line
  apply List.drop_left'
  simp [text, sentence.keyed]

theorem line_length (sentence : Sentence) :
    sentence.line.length = 7 + ([comma].intercalate sentence.fields).length := by
  simp only [Sentence.line, text, List.length_append, List.length_map, sentence.keyed,
    List.length_singleton]
  rfl

/-- The fields of a sentence are found again in its line. -/
theorem split_line (sentence : Sentence) :
    split (sentence.line.drop 7) [comma] (List.cons_ne_nil _ _) = sentence.fields := by
  have plain := sentence.plain
  have filled := sentence.filled
  apply Option.get_of_eq_some
  rw [line_fields]
  cases fields : sentence.fields with
  | nil => exact absurd fields filled
  | cons first others =>
      rw [fields] at plain
      have enough := join_length first others
      exact split_loop_join comma first others plain _ (by omega)

/-- The position of a sentence that is complete. -/
theorem report_position (fields : List CppString) (filled : fields ≠ [])
    (complete : (fields.headD []).length ≤ 2 ∨ 3 ≤ fields.length) :
    (fieldAt library fields 0 >>= fun lat => toLocation library lat (fieldAt library fields 2)) =
      positionOf library fields := by
  have short (lat : CppString) (lon : Except GpsFault CppString) (few : lat.length ≤ 2) :
      toLocation library lat lon = .ok [] := if_neg (Nat.not_lt.mpr few)
  rcases fields with _ | ⟨lat, _ | ⟨north, _ | ⟨lon, others⟩⟩⟩
  · exact absurd rfl filled
  · exact short lat _ (complete.resolve_right (by simp))
  · exact short lat _ (complete.resolve_right (by simp))
  · rfl

theorem handle_sentence (sentence : Sentence) (complete : sentence.complete = true) :
    handleLine library sentence.line = sentence.updates library := by
  rw [handleLine, line_key, split_line, line_length, Sentence.updates]
  rw [Sentence.complete] at complete
  by_cases short : ([comma].intercalate sentence.fields).length ≤ 1
  · rw [if_neg (by omega), if_pos short]
    rfl
  · rw [if_neg short] at complete
    rw [if_pos (by omega), if_neg short, report]
    by_cases position : sentence.key = text "GPGLL"
    · rw [if_pos position, decide_eq_true_iff] at complete
      rw [if_pos position, if_pos position]
      exact report_position sentence.fields sentence.filled complete
    · rw [if_neg position] at complete
      rw [if_neg position, if_neg position]
      by_cases inView : sentence.key = text "GPGSV"
      · rw [if_pos inView, if_pos inView]
        by_cases enough : sentence.fields.length > 4
        · have third := List.getElem?_eq_getElem (show 2 < sentence.fields.length by omega)
          rw [if_pos enough, if_pos enough, fieldAt, third, List.getD_eq_getElem?_getD, third,
            Option.getD_some]
          simp only [bind, Except.bind]
          cases stoi sentence.fields[2] <;> rfl
        · rw [if_neg enough, if_neg enough]
          rfl
      · rw [if_neg inView, if_neg inView]
        by_cases inUse : sentence.key = text "GPGSA"
        · rw [if_pos inUse, decide_eq_true_iff] at complete
          rw [if_pos inUse, if_pos inUse, count_used_eq _ 12 complete]
          rfl
        · rw [if_neg inUse, if_neg inUse]
          rfl

theorem ended_runs_sentences (sentences : List Sentence) :
    endedRuns isLineEnd [] (sentences.flatMap fun sentence => sentence.line ++ lineEnd) =
      sentences.flatMap fun sentence => [(sentence.line, 0x0D), ([], 0x0A)] := by
  induction sentences with
  | nil => rfl
  | cons sentence sentences induction =>
      have first := ended_runs_cons [] sentence.line
        (0x0A :: sentences.flatMap fun sentence => sentence.line ++ lineEnd)
        sentence.clean 0x0D rfl
      rw [List.flatMap_cons, List.append_assoc]
      refine first.trans ?_
      rw [endedRuns, if_pos (by rfl : isLineEnd 0x0A = true), induction]
      rfl

theorem open_run_sentences (sentences : List Sentence) :
    openRun isLineEnd (sentences.flatMap fun sentence => sentence.line ++ lineEnd) = [] := by
  induction sentences with
  | nil => rfl
  | cons sentence sentences induction =>
      have first := open_run_cons sentence.line
        (0x0A :: sentences.flatMap fun sentence => sentence.line ++ lineEnd)
        sentence.clean 0x0D rfl
      have second := open_run_cons []
        (sentences.flatMap fun sentence => sentence.line ++ lineEnd)
        (Clean.nil : Clean isLineEnd []) 0x0A rfl
      rw [List.flatMap_cons, List.append_assoc]
      exact first.trans (second.trans induction)

theorem up_to_failure_sentences (sentences : List Sentence) :
    upToFailure (fun ended => handleLine library ended.1)
        (sentences.flatMap fun sentence => [(sentence.line, (0x0D : Byte)), ([], 0x0A)]) =
      upToFailure (fun sentence => handleLine library sentence.line) sentences := by
  induction sentences with
  | nil => rfl
  | cons sentence sentences induction =>
      have empty : handleLine library [] = .ok [] := rfl
      simp only [List.flatMap_cons, List.cons_append, List.nil_append, upToFailure, induction,
        empty]

/-- All lines, whole sentences or not, up to the first that ends the receiver. -/
theorem handle_rxd_sentences (sentences : List Sentence) (chunks : List Bytes)
    (received : chunks.flatten = sentences.flatMap fun sentence => sentence.line ++ lineEnd) :
    feed (handleRxd library) (.ok []) chunks =
      (match (upToFailure (fun sentence => handleLine library sentence.line) sentences).1 with
        | some fault => .error fault
        | none => .ok [],
        (upToFailure (fun sentence => handleLine library sentence.line) sentences).2) := by
  have inside : ∀ run ch, isLineEnd ch = false →
      handleChar library run ch = .ok (run ++ [ch], []) := by
    intro run ch visible
    rw [handleChar, if_neg (by simp [visible])]
    rfl
  have ends : ∀ run ch, isLineEnd ch = true →
      handleChar library run ch = (handleLine library run).map fun updates => ([], updates) := by
    intro run ch ended
    rw [handleChar, if_pos ended]
    cases handleLine library run <;> rfl
  have runs := feed_runs (handleChar library) (fun run => run)
    (fun ended => handleLine library ended.1) inside ends [] chunks.flatten Clean.nil
  rw [received, ended_runs_sentences, up_to_failure_sentences, List.nil_append,
    open_run_sentences] at runs
  rw [show feed (handleRxd library) = feed (feed (attempt (handleChar library))) from rfl,
    feed_chunks, received, runs]
  cases (upToFailure (fun sentence => handleLine library sentence.line) sentences).1 <;> rfl

/-- However the UART cuts up what the satellites' receiver sends, each sentence is reported
by its own fields, up to the first one whose numbers cannot be read, which ends the receiver,
or that lacks a field it reads; whatever that gives, nothing before it is changed. -/
theorem neo6m_reports_sentences (library : CppLibrary) (sentences : List Sentence)
    (chunks : List Bytes)
    (received : chunks.flatten = sentences.flatMap fun sentence => sentence.line ++ lineEnd) :
    let own := upToFailure (Sentence.updates library) (sentences.takeWhile Sentence.complete)
    let result := feed (handleRxd library) (.ok []) chunks
    (∀ fault, own.1 = some fault → result = (.error fault, own.2)) ∧
    (own.1 = none → own.2 <+: result.2) ∧
    (own.1 = none → (∀ sentence ∈ sentences, sentence.complete = true) →
      result = (.ok [], own.2)) := by
  intro own result
  have lines : result = _ := handle_rxd_sentences sentences chunks received
  have handled : upToFailure (fun sentence => handleLine library sentence.line)
      (sentences.takeWhile Sentence.complete) = own :=
    up_to_failure_congr _ _ _ fun sentence member =>
      handle_sentence sentence (List.mem_takeWhile_imp member)
  have parts := up_to_failure_append (fun sentence : Sentence => handleLine library sentence.line)
    (sentences.takeWhile Sentence.complete) (sentences.dropWhile Sentence.complete)
  rw [List.takeWhile_append_dropWhile, handled] at parts
  refine ⟨?_, ?_, ?_⟩
  · intro fault failed
    rw [failed] at parts
    rw [lines, parts]
  · intro fine
    rw [fine] at parts
    rw [lines, parts]
    exact List.prefix_append _ _
  · intro fine complete
    have all := List.takeWhile_eq_self_iff.mpr complete
    rw [all] at handled
    rw [lines, handled, fine]

/-- Numbers that are whole read as `std::stoi` reads them. -/
def wholeNumbers : CppLibrary where
  Double := Int
  stod := stoi
  degrees whole minutes := whole + minutes / 60
  missing _ _ := .error .memory

def locationSentence : Sentence where
  key := text "GPGLL"
  fields := [text "5100", text "N", text "00700", text "E"]
  keyed := rfl
  keyVisible := by decide
  filled := by decide
  visible := by decide
  plain := by decide

def viewSentence : Sentence where
  key := text "GPGSV"
  fields := [text "3", text "1", text "11", text "03", text "03", text "111", text "00*74"]
  keyed := rfl
  keyVisible := by decide
  filled := by decide
  visible := by decide
  plain := by decide

theorem neo6m_reports_sentences_two :
    feed (handleRxd wholeNumbers) (.ok [])
        [text "$GPGLL,5100,N,00700,E" ++ lineEnd ++ text "$GPG",
          text "SV,3,1,11,03,03,111,00*74" ++ lineEnd] =
      (.ok [], [.location (51 : Int) (7 : Int), .satellitesInView 11]) :=
  (neo6m_reports_sentences wholeNumbers [locationSentence, viewSentence]
    [text "$GPGLL,5100,N,00700,E" ++ lineEnd ++ text "$GPG",
      text "SV,3,1,11,03,03,111,00*74" ++ lineEnd] (by decide)).2.2 rfl (by decide)

end Neo6m

end Serial2Redis
