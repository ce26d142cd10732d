import Mathlib.Data.List.Basic

/-!
Byte stuffing over any alphabet: a flag ends a frame, and a flag or an escape inside
a frame is sent masked behind an escape. The reader of one frame keeps what it has
unstuffed and whether an escape is pending.
-/

namespace ByteStuffing

/-- The mask undoes itself and takes the two special letters to ordinary ones. -/
structure Convention (α : Type*) where
  escape : α
  flag : α
  mask : α → α
  mask_mask : ∀ letter, mask (mask letter) = letter
  distinct : flag ≠ escape
  masked_plain : ∀ letter, letter = escape ∨ letter = flag →
    mask letter ≠ escape ∧ mask letter ≠ flag

structure Reader (α : Type*) where
  pending : Bool
  content : List α

variable {α : Type*} [DecidableEq α] (convention : Convention α)

def stuffed (letter : α) : List α :=
  if letter = convention.escape ∨ letter = convention.flag then
    [convention.escape, convention.mask letter]
  else [letter]

def stuff (payload : List α) : List α := payload.flatMap (stuffed convention)

def readLetter (reader : Reader α) (letter : α) : Reader α :=
  if letter = convention.escape then { reader with pending := true }
  else if reader.pending then ⟨false, reader.content ++ [convention.mask letter]⟩
  else ⟨false, reader.content ++ [letter]⟩

variable {convention}

theorem stuff_cons (letter : α) (payload : List α) :
    stuff convention (letter :: payload) =
      stuffed convention letter ++ stuff convention payload := rfl

theorem flag_not_mem_stuff (payload : List α) : convention.flag ∉ stuff convention payload := by
  intro member
  obtain ⟨letter, _, inside⟩ := List.mem_flatMap.mp member
  rw [stuffed] at inside
  by_cases special : letter = convention.escape ∨ letter = convention.flag
  · rw [if_pos special] at inside
    have masked := (convention.masked_plain letter special).2
    rcases List.mem_cons.mp inside with escape | rest
    · exact convention.distinct escape
    · exact masked (List.mem_singleton.mp rest).symm
  · rw [if_neg special, List.mem_singleton] at inside
    exact special (.inr inside.symm)

theorem read_escape (reader : Reader α) :
    readLetter convention reader convention.escape = { reader with pending := true } := by
  rw [readLetter, if_pos rfl]

/-- A letter after an escape: it is unmasked, whatever it is but another escape. -/
theorem read_pending (content : List α) (letter : α) (plain : letter ≠ convention.escape) :
    readLetter convention ⟨true, content⟩ letter =
      ⟨false, content ++ [convention.mask letter]⟩ := by
  rw [readLetter, if_neg plain]
  rfl

theorem read_masked (pending : Bool) (content : List α) (letter : α)
    (special : letter = convention.escape ∨ letter = convention.flag) :
    (stuffed convention letter).foldl (readLetter convention) ⟨pending, content⟩ =
      ⟨false, content ++ [letter]⟩ := by
  have plain := (convention.masked_plain letter special).1
  rw [stuffed, if_pos special, List.foldl_cons, List.foldl_cons, List.foldl_nil, read_escape,
    read_pending content _ plain, convention.mask_mask]

theorem read_stuffed (content : List α) (letter : α) :
    (stuffed convention letter).foldl (readLetter convention) ⟨false, content⟩ =
      ⟨false, content ++ [letter]⟩ := by
  by_cases special : letter = convention.escape ∨ letter = convention.flag
  · exact read_masked false content letter special
  · have plain : letter ≠ convention.escape := fun same => special (.inl same)
    rw [stuffed, if_neg special, List.foldl_cons, List.foldl_nil, readLetter, if_neg plain]
    rfl

theorem read_stuff (content payload : List α) :
    (stuff convention payload).foldl (readLetter convention) ⟨false, content⟩ =
      ⟨false, content ++ payload⟩ := by
  induction payload generalizing content with
  | nil => rw [List.append_nil]; rfl
  | cons letter payload induction =>
      rw [stuff_cons, List.foldl_append, read_stuffed, induction, List.append_assoc,
        List.singleton_append]

/-- An escape left pending masks the first letter unless that one comes behind an
escape of its own. -/
theorem read_stuff_pending (content : List α) (letter : α) (payload : List α) :
    (stuff convention (letter :: payload)).foldl (readLetter convention) ⟨true, content⟩ =
      ⟨false, content ++ (if letter = convention.escape ∨ letter = convention.flag then letter
        else convention.mask letter) :: payload⟩ := by
  rw [stuff_cons, List.foldl_append]
  by_cases special : letter = convention.escape ∨ letter = convention.flag
  · rw [read_masked true content letter special, read_stuff, if_pos special, List.append_assoc,
      List.singleton_append]
  · have plain : letter ≠ convention.escape := fun same => special (.inl same)
    rw [stuffed, if_neg special, if_neg special, List.foldl_cons, List.foldl_nil,
      read_pending content letter plain, read_stuff, List.append_assoc, List.singleton_append]

theorem read_length (reader : Reader α) (letter : α) :
    reader.content.length ≤ (readLetter convention reader letter).content.length := by
  unfold readLetter
  split_ifs <;> simp

theorem read_all_length (reader : Reader α) (letters : List α) :
    reader.content.length ≤ (letters.foldl (readLetter convention) reader).content.length := by
  induction letters generalizing reader with
  | nil => exact Nat.le_refl _
  | cons letter letters induction => exact Nat.le_trans (read_length reader letter) (induction _)

end ByteStuffing
