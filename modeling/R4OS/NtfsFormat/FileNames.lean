import R4OS.Block.Fields

/-!
# File names

A file reference is a record with its sequence number, and the order of file names compares their
units without their case.
-/

namespace R4OS.NtfsFormat

open Text Block

structure FileReference where
  record : Nat
  sequence : Nat

def FileReference.pack (reference : FileReference) : Nat :=
  (reference.record &&& 0x0000FFFFFFFFFFFF) ||| (reference.sequence <<< 48)

def upcaseUnit (upcase : Bytes) (unit : Nat) : Nat :=
  if upcase.length < unit * 2 + 2 then unit else readLe 2 upcase (unit * 2)

/-- The order of the units of two names from a place on. -/
def compareUnits (upcase left_utf16 right_utf16 : Bytes) : List Nat → Ordering
  | [] => compare (left_utf16.length / 2) (right_utf16.length / 2)
  | index :: rest =>
    let left := upcaseUnit upcase (readLe 2 left_utf16 (index * 2))
    let right := upcaseUnit upcase (readLe 2 right_utf16 (index * 2))
    if left < right then .lt
    else if right < left then .gt
    else compareUnits upcase left_utf16 right_utf16 rest

/-- The order of two names in an index. -/
def compareFileNames (upcase left_utf16 right_utf16 : Bytes) : Ordering :=
  compareUnits upcase left_utf16 right_utf16
    (List.range (min (left_utf16.length / 2) (right_utf16.length / 2)))

def upcasedUnits (upcase name_utf16 : Bytes) : List Nat :=
  (List.range (name_utf16.length / 2)).map fun index =>
    upcaseUnit upcase (readLe 2 name_utf16 (index * 2))

theorem compareUnits_eq (upcase left_utf16 right_utf16 : Bytes) (rounds index : Nat)
    (ends : index + rounds = min (left_utf16.length / 2) (right_utf16.length / 2)) :
    compareUnits upcase left_utf16 right_utf16 (List.range' index rounds) =
      compare ((upcasedUnits upcase left_utf16).drop index)
        ((upcasedUnits upcase right_utf16).drop index) := by
  induction rounds generalizing index with
  | zero =>
    obtain ⟨first, first_eq⟩ : ∃ first, upcasedUnits upcase left_utf16 = first := ⟨_, rfl⟩
    obtain ⟨second, second_eq⟩ : ∃ second, upcasedUnits upcase right_utf16 = second := ⟨_, rfl⟩
    have first_length : left_utf16.length / 2 = first.length := by simp [← first_eq, upcasedUnits]
    have second_length : right_utf16.length / 2 = second.length := by
      simp [← second_eq, upcasedUnits]
    rw [List.range'_zero, compareUnits, first_eq, second_eq, first_length, second_length]
    rw [first_length, second_length] at ends
    rcases Nat.lt_trichotomy first.length second.length with less | same | more
    · rw [Nat.compare_eq_lt.mpr less, List.drop_of_length_le (by omega),
        List.drop_eq_getElem_cons (by omega), List.compare_nil_cons]
    · rw [Nat.compare_eq_eq.mpr same, List.drop_of_length_le (by omega),
        List.drop_of_length_le (by omega), List.compare_nil_nil]
    · rw [Nat.compare_eq_gt.mpr more, List.drop_of_length_le (l := second) (by omega),
        List.drop_eq_getElem_cons (by omega), List.compare_cons_nil]
  | succ rounds induction =>
    rw [List.range'_succ, compareUnits, induction (index + 1) (by omega),
      List.drop_eq_getElem_cons (i := index) (by simp [upcasedUnits]; omega),
      List.drop_eq_getElem_cons (i := index) (by simp [upcasedUnits]; omega),
      List.compare_cons_cons]
    simp only [upcasedUnits, List.getElem_map, List.getElem_range]
    rcases Nat.lt_trichotomy (upcaseUnit upcase (readLe 2 left_utf16 (index * 2)))
      (upcaseUnit upcase (readLe 2 right_utf16 (index * 2))) with less | same | more
    · rw [if_pos less, Nat.compare_eq_lt.mpr less, Ordering.lt_then]
    · rw [if_neg same.not_lt, if_neg same.not_gt, Nat.compare_eq_eq.mpr same, Ordering.eq_then]
    · rw [if_neg more.asymm, if_pos more, Nat.compare_eq_gt.mpr more, Ordering.gt_then]

theorem compareFileNames_eq (upcase left_utf16 right_utf16 : Bytes) :
    compareFileNames upcase left_utf16 right_utf16 =
      compare (upcasedUnits upcase left_utf16) (upcasedUnits upcase right_utf16) := by
  rw [compareFileNames, List.range_eq_range', compareUnits_eq _ _ _ _ 0 (by omega)]
  rfl

theorem upcasedUnits_eq_iff {upcase left_utf16 right_utf16 : Bytes} :
    upcasedUnits upcase left_utf16 = upcasedUnits upcase right_utf16 ↔
      left_utf16.length / 2 = right_utf16.length / 2 ∧ ∀ index < left_utf16.length / 2,
        upcaseUnit upcase (readLe 2 left_utf16 (index * 2)) =
          upcaseUnit upcase (readLe 2 right_utf16 (index * 2)) := by
  simp only [List.ext_getElem_iff, upcasedUnits, List.length_map, List.length_range,
    List.getElem_map, List.getElem_range]
  exact and_congr_right fun same => ⟨fun units index inside => units index inside (same ▸ inside),
    fun units index inside _ => units index inside⟩

/-- The order of two names is a total preorder that forgets their case. -/
theorem compareFileNames_totalPreorder (upcase : Bytes) :
    (∀ left right, compareFileNames upcase right left = (compareFileNames upcase left right).swap) ∧
    (∀ left right, (compareFileNames upcase left right).isLE ∨
      (compareFileNames upcase right left).isLE) ∧
    (∀ first second third, (compareFileNames upcase first second).isLE →
      (compareFileNames upcase second third).isLE → (compareFileNames upcase first third).isLE) ∧
    ∀ left right, compareFileNames upcase left right = .eq ↔
      left.length / 2 = right.length / 2 ∧ ∀ index < left.length / 2,
        upcaseUnit upcase (readLe 2 left (index * 2)) =
          upcaseUnit upcase (readLe 2 right (index * 2)) := by
  simp only [compareFileNames_eq]
  refine ⟨fun left right => Std.OrientedCmp.eq_swap, fun left right => ?_,
    fun first second third => Std.TransCmp.isLE_trans, fun left right => ?_⟩
  · have swapped : compare (upcasedUnits upcase right) (upcasedUnits upcase left) =
        (compare (upcasedUnits upcase left) (upcasedUnits upcase right)).swap :=
      Std.OrientedCmp.eq_swap
    rw [swapped]
    cases compare (upcasedUnits upcase left) (upcasedUnits upcase right) <;> simp
  · rw [Std.LawfulEqOrd.compare_eq_iff_eq, upcasedUnits_eq_iff]

end R4OS.NtfsFormat
