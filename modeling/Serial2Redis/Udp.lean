import Mathlib.Data.Set.CoeSort
import Mathlib.Order.Defs.Unbundled
import Serial2Redis.Basic

/-!
# UDP addresses and their order

`UdpAddress` with the comparison that `std::map` uses. The address bytes are in
memory order, as `memcmp` sees them; what `memcmp` returns beyond its sign is left
to the C library.
-/

namespace Serial2Redis

/-- The four bytes of an `in_addr_t` in memory. -/
abbrev InAddr := { bytes : List Byte // bytes.length = 4 }

structure UdpAddress where
  ip : InAddr
  port : BitVec 16
  deriving DecidableEq

/-- Any result with the sign that the C standard prescribes. -/
structure Memcmp where
  compare : InAddr → InAddr → Int
  negative : ∀ left right, compare left right < 0 ↔ left.val < right.val
  zero : ∀ left right, compare left right = 0 ↔ left = right
  positive : ∀ left right, 0 < compare left right ↔ right.val < left.val

namespace UdpAddress

/-- `operator<`. -/
def less (memcmp : Memcmp) (self other : UdpAddress) : Bool :=
  if memcmp.compare other.ip self.ip ≠ 0 then memcmp.compare other.ip self.ip == -1
  else decide (other.port < self.port)

/-- `operator==`. -/
def equals (memcmp : Memcmp) (self other : UdpAddress) : Bool :=
  memcmp.compare other.ip self.ip == 0 && other.port == self.port

def equivalent (memcmp : Memcmp) (left right : UdpAddress) : Bool :=
  !less memcmp left right && !less memcmp right left

/-- One of the two comparisons of the address bytes gives the value that
`operator<` tests for. -/
def Separates (memcmp : Memcmp) (left right : UdpAddress) : Prop :=
  left.ip = right.ip ∨ memcmp.compare left.ip right.ip = -1 ∨
    memcmp.compare right.ip left.ip = -1

theorem less_of_same_ip (memcmp : Memcmp) (left right : UdpAddress) (same : left.ip = right.ip) :
    less memcmp left right = decide (right.port < left.port) := by
  have equal : memcmp.compare right.ip left.ip = 0 := (memcmp.zero _ _).mpr same.symm
  simp [less, equal]

theorem less_of_other_ip (memcmp : Memcmp) (left right : UdpAddress) (other : left.ip ≠ right.ip) :
    less memcmp left right = (memcmp.compare right.ip left.ip == -1) := by
  have different : memcmp.compare right.ip left.ip ≠ 0 := by
    intro equal
    exact other ((memcmp.zero _ _).mp equal).symm
  rw [less, if_pos different]

/-- The map takes two addresses for one when they are equal, or when neither
comparison of their different address bytes gives exactly -1. -/
theorem equivalent_iff (memcmp : Memcmp) (left right : UdpAddress) :
    equivalent memcmp left right = true ↔ left = right ∨ ¬Separates memcmp left right := by
  by_cases same : left.ip = right.ip
  · rw [equivalent, less_of_same_ip memcmp left right same,
      less_of_same_ip memcmp right left same.symm]
    have separates : Separates memcmp left right := .inl same
    simp only [separates, not_true_eq_false, or_false, Bool.and_eq_true, Bool.not_eq_true',
      decide_eq_false_iff_not]
    constructor
    · intro ports
      have equal : left.port = right.port := BitVec.le_antisymm
        (BitVec.not_lt.mp ports.1) (BitVec.not_lt.mp ports.2)
      cases left
      cases right
      simp_all
    · rintro rfl
      exact ⟨BitVec.lt_irrefl _, BitVec.lt_irrefl _⟩
  · have different : left ≠ right := fun equal => same (by rw [equal])
    rw [equivalent, less_of_other_ip memcmp left right same,
      less_of_other_ip memcmp right left fun equal => same equal.symm]
    simp only [Separates, same, different, false_or, Bool.and_eq_true, Bool.not_eq_true',
      beq_eq_false_iff_ne, not_or]
    exact and_comm

theorem equivalent_comm (memcmp : Memcmp) (left right : UdpAddress) :
    equivalent memcmp left right = equivalent memcmp right left := by
  rw [equivalent, equivalent, Bool.and_comm]

theorem equals_iff (memcmp : Memcmp) (left right : UdpAddress) :
    equals memcmp left right = true ↔ left = right := by
  rw [equals, Bool.and_eq_true, beq_iff_eq, beq_iff_eq, memcmp.zero]
  constructor
  · intro same
    cases left
    cases right
    simp_all
  · intro same
    rw [same]
    exact ⟨rfl, rfl⟩

/-- Where the comparison separates, the order is the reverse one of the address bytes
and then of the ports. -/
theorem less_iff_of_separates (memcmp : Memcmp) (left right : UdpAddress)
    (separates : Separates memcmp left right) :
    less memcmp left right = true ↔
      right.ip.val < left.ip.val ∨ left.ip = right.ip ∧ right.port < left.port := by
  by_cases same : left.ip = right.ip
  · have irreflexive : ¬right.ip.val < left.ip.val := by
      rw [same]
      exact List.lt_irrefl _
    rw [less_of_same_ip memcmp left right same, decide_eq_true_iff, or_iff_right irreflexive]
    exact (and_iff_right same).symm
  · rw [less_of_other_ip memcmp left right same, beq_iff_eq, ← memcmp.negative]
    simp only [same, false_and, or_false]
    constructor
    · intro found
      omega
    · intro negative
      rcases separates with equal | forward | backward
      · exact absurd equal same
      · have below := (memcmp.negative left.ip right.ip).mp (by omega)
        have above := (memcmp.negative right.ip left.ip).mp negative
        exact absurd above (List.lt_asymm below)
      · exact backward

theorem less_trans_of_separates (memcmp : Memcmp) (left middle right : UdpAddress)
    (first : Separates memcmp left middle) (second : Separates memcmp middle right)
    (ends : Separates memcmp left right) (below : less memcmp left middle = true)
    (above : less memcmp middle right = true) : less memcmp left right = true := by
  rw [less_iff_of_separates memcmp _ _ first] at below
  rw [less_iff_of_separates memcmp _ _ second] at above
  rw [less_iff_of_separates memcmp _ _ ends]
  rcases below with below | below
  · left
    rcases above with above | above
    · exact List.lt_trans above below
    · rw [← above.1]
      exact below
  · rw [below.1]
    rcases above with above | above
    · exact .inl above
    · exact .inr ⟨above.1, BitVec.lt_trans above.2 below.2⟩

/-- What `std::map` relies on, among some addresses. -/
structure WeaklyOrdered (memcmp : Memcmp) (addresses : Set UdpAddress) : Prop where
  strict_weak : IsStrictWeakOrder addresses fun left right => less memcmp left right = true
  asymmetric : ∀ left ∈ addresses, ∀ right ∈ addresses,
    less memcmp left right = true → less memcmp right left = false
  ties : ∀ left ∈ addresses, ∀ right ∈ addresses,
    equivalent memcmp left right = true ↔ left.ip = right.ip ∧ left.port = right.port
  consistent : ∀ left ∈ addresses, ∀ right ∈ addresses,
    equivalent memcmp left right = equals memcmp left right

theorem equivalent_iff_of_separates (memcmp : Memcmp) (left right : UdpAddress)
    (separates : Separates memcmp left right) :
    equivalent memcmp left right = true ↔ left = right := by
  rw [equivalent_iff]
  exact or_iff_left (not_not_intro separates)

theorem equivalent_iff_incomparable (memcmp : Memcmp) (left right : UdpAddress) :
    equivalent memcmp left right = true ↔
      ¬less memcmp left right = true ∧ ¬less memcmp right left = true := by
  rw [equivalent, Bool.and_eq_true, Bool.not_eq_true', Bool.not_eq_true', Bool.not_eq_true,
    Bool.not_eq_true]

theorem weakly_ordered_of_separates (memcmp : Memcmp) (addresses : Set UdpAddress)
    (separates : ∀ left ∈ addresses, ∀ right ∈ addresses, Separates memcmp left right) :
    WeaklyOrdered memcmp addresses := by
  have irreflexive : ∀ address, ¬less memcmp address address = true := by
    intro address
    rw [less_of_same_ip memcmp address address rfl, decide_eq_true_iff]
    exact BitVec.lt_irrefl _
  have transitive : ∀ left ∈ addresses, ∀ middle ∈ addresses, ∀ right ∈ addresses,
      less memcmp left middle = true → less memcmp middle right = true →
        less memcmp left right = true := by
    intro left first middle second right third
    exact less_trans_of_separates memcmp left middle right (separates left first middle second)
      (separates middle second right third) (separates left first right third)
  have tied : ∀ left ∈ addresses, ∀ right ∈ addresses,
      (equivalent memcmp left right = true ↔ left = right) := by
    intro left first right second
    exact equivalent_iff_of_separates memcmp left right (separates left first right second)
  have weak : IsStrictWeakOrder addresses fun left right => less memcmp left right = true :=
    { irrefl := fun address => irreflexive address
      trans := fun left middle right =>
        transitive left left.property middle middle.property right right.property
      incomp_trans := by
        intro left middle right first second
        rw [← equivalent_iff_incomparable] at first second ⊢
        rw [tied left left.property middle middle.property] at first
        rw [first]
        exact second }
  apply WeaklyOrdered.mk weak
  · intro left first right second below
    rw [← Bool.not_eq_true]
    intro above
    exact irreflexive left (transitive left first right second left first below above)
  · intro left first right second
    rw [tied left first right second]
    cases left
    cases right
    simp
  · intro left first right second
    rw [Bool.eq_iff_iff, tied left first right second, equals_iff]

/-- Among some addresses the order is a strict weak ordering that ties only what
`operator==` takes for equal, exactly when each two of them are separated. -/
theorem weakly_ordered_iff (memcmp : Memcmp) (addresses : Set UdpAddress) :
    WeaklyOrdered memcmp addresses ↔
      ∀ left ∈ addresses, ∀ right ∈ addresses, Separates memcmp left right := by
  constructor
  · intro ordered left first right second
    by_contra apart
    have tied := (equivalent_iff memcmp left right).mpr (.inr apart)
    have same := (ordered.ties left first right second).mp tied
    exact apart (.inl same.1)
  · exact weakly_ordered_of_separates memcmp addresses

end UdpAddress

/-- The difference of the first bytes that differ, as glibc may return it. -/
def byteDifference : List Byte → List Byte → Int
  | left :: lefts, right :: rights =>
      if left = right then byteDifference lefts rights else (left.toNat : Int) - right.toNat
  | _, _ => 0

theorem byte_difference_sign (left right : List Byte) (length : left.length = right.length) :
    (byteDifference left right < 0 ↔ left < right) ∧ (byteDifference left right = 0 ↔ left = right) ∧
      (0 < byteDifference left right ↔ right < left) := by
  induction left generalizing right with
  | nil =>
      have empty : right = [] := List.eq_nil_of_length_eq_zero length.symm
      subst empty
      simp [byteDifference]
  | cons first left induction =>
      cases right with
      | nil => simp at length
      | cons second right =>
          have rest := induction right (by simpa using length)
          by_cases same : first = second
          · subst same
            simpa [byteDifference, List.cons_lt_cons_iff] using rest
          · have values : first.toNat ≠ second.toNat := fun equal => same (BitVec.eq_of_toNat_eq equal)
            have decided : byteDifference (first :: left) (second :: right) =
                (first.toNat : Int) - second.toNat := if_neg same
            rw [decided]
            simp only [List.cons_lt_cons_iff, List.cons.injEq, same, Ne.symm same, false_and,
              or_false, BitVec.lt_def, iff_false]
            refine ⟨by omega, by omega, by omega⟩

def glibcMemcmp : Memcmp where
  compare left right := byteDifference left.val right.val
  negative left right := (byte_difference_sign _ _ (left.property.trans right.property.symm)).1
  zero left right := (byte_difference_sign _ _ (left.property.trans right.property.symm)).2.1.trans
    Subtype.ext_iff.symm
  positive left right := (byte_difference_sign _ _ (left.property.trans right.property.symm)).2.2

/-- With the addresses 1, 2 and 3 of a net the order is not transitive, and it takes the
first and the last for one. -/
theorem less_not_transitive :
    let address := fun host : Byte => (⟨⟨[10, 0, 0, host], rfl⟩, 5000⟩ : UdpAddress)
    UdpAddress.less glibcMemcmp (address 3) (address 2) = true ∧
      UdpAddress.less glibcMemcmp (address 2) (address 1) = true ∧
      UdpAddress.less glibcMemcmp (address 3) (address 1) = false ∧
      UdpAddress.equivalent glibcMemcmp (address 3) (address 1) = true ∧
      UdpAddress.equals glibcMemcmp (address 3) (address 1) = false :=
  ⟨by decide, by decide, by decide, by decide, by decide⟩

end Serial2Redis
