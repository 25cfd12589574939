import Mathlib.Data.Nat.Bitwise
import Mathlib.Tactic.Ring

/-!
# Layouts of C structures

Every member of a structure stands at the first place behind the members before it that its alignment
allows, and the structure ends where its own alignment allows.
-/

namespace R4OS.CLayout

/-- The bytes of a value and the places where it may stand. -/
structure Layout where
  size : Nat
  alignment : Nat

/-- The first multiple of an alignment that is not below a place. -/
def alignUp (place alignment : Nat) : Nat := (place + alignment - 1) / alignment * alignment

/-- The places of members behind a place. -/
def offsets : Nat → List Layout → List Nat
  | _, [] => []
  | cursor, member :: rest =>
    let offset := alignUp cursor member.alignment
    offset :: offsets (offset + member.size) rest

/-- The place behind members that follow a place. -/
def stop : Nat → List Layout → Nat
  | cursor, [] => cursor
  | cursor, member :: rest => stop (alignUp cursor member.alignment + member.size) rest

/-- The strictest alignment of members. -/
def strictest : Nat → List Layout → Nat
  | alignment, [] => alignment
  | alignment, member :: rest => strictest (max alignment member.alignment) rest

/-- The layout of a structure. -/
def ofMembers (members : List Layout) : Layout where
  size := alignUp (stop 0 members) (strictest 1 members)
  alignment := strictest 1 members

section Alignment

variable {place alignment : Nat}

theorem alignUp_of_dvd (positive : 0 < alignment) (allowed : alignment ∣ place) :
    alignUp place alignment = place := by
  obtain ⟨count, rfl⟩ := allowed
  have quotient : (alignment * count + alignment - 1) / alignment = count := by
    rw [Nat.add_sub_assoc positive, Nat.add_comm, Nat.add_mul_div_left _ _ positive,
      Nat.div_eq_of_lt (by omega), Nat.zero_add]
  rw [alignUp, quotient, Nat.mul_comm]

/-- Clearing the low bits of a word rounds it down. -/
theorem land_mask {value width bits : Nat} (small : value < 2 ^ width) (narrow : bits ≤ width) :
    value &&& ((2 ^ width - 1) ^^^ (2 ^ bits - 1)) = value / 2 ^ bits * 2 ^ bits := by
  rw [← Nat.shiftRight_eq_div_pow, ← Nat.shiftLeft_eq]
  refine Nat.eq_of_testBit_eq fun place => ?_
  rw [Nat.testBit_land, Nat.testBit_xor, Nat.testBit_two_pow_sub_one, Nat.testBit_two_pow_sub_one,
    Nat.testBit_shiftLeft]
  by_cases low : place < bits
  · simp [low, Nat.lt_of_lt_of_le low narrow]
  · rw [not_lt] at low
    rw [Nat.testBit_shiftRight, Nat.add_sub_cancel' low]
    by_cases inside : place < width
    · simp [inside, low]
    · have clear : value.testBit place = false :=
        Nat.testBit_lt_two_pow (small.trans_le (Nat.pow_le_pow_right (by omega) (by omega)))
      simp [clear]

end Alignment

section Members

variable {cursor size : Nat}

theorem offsets_replicate (positive : 0 < size) (allowed : size ∣ cursor) (count index : Nat)
    (inside : index < count) :
    (offsets cursor (List.replicate count ⟨size, size⟩))[index]? = some (cursor + size * index) := by
  induction count generalizing cursor index with
  | zero => omega
  | succ count induction =>
    rw [List.replicate_succ, offsets]
    dsimp only
    rw [alignUp_of_dvd positive allowed]
    cases index with
    | zero => rfl
    | succ index =>
      rw [List.getElem?_cons_succ, induction (Nat.dvd_add allowed (Nat.dvd_refl size)) index (by omega)]
      congr 1
      ring

theorem stop_replicate (positive : 0 < size) (allowed : size ∣ cursor) (count : Nat) :
    stop cursor (List.replicate count ⟨size, size⟩) = cursor + size * count := by
  induction count generalizing cursor with
  | zero => rfl
  | succ count induction =>
    rw [List.replicate_succ, stop, alignUp_of_dvd positive allowed,
      induction (Nat.dvd_add allowed (Nat.dvd_refl size))]
    ring

theorem strictest_replicate (count : Nat) {alignment : Nat} (strict : size ≤ alignment) :
    strictest alignment (List.replicate count ⟨size, size⟩) = alignment := by
  induction count with
  | zero => rfl
  | succ count induction => rw [List.replicate_succ, strictest, max_eq_left strict, induction]

end Members

end R4OS.CLayout
