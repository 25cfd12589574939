import Mathlib.Data.List.Infix
import Mathlib.Tactic.Linarith

/-!
# Searching for a word

The first place where a word occurs in a text, and how it moves when the text grows at its end or when
a part in front that holds no occurrence is skipped.
-/

namespace R4OS.Text

variable {α : Type*} {value needle rest : List α} {place : Nat}

variable {limit start : Nat} {longer : List α}

def OccursAt (value needle : List α) (place : Nat) : Prop := needle <+: value.drop place

theorem OccursAt.length (occurs : OccursAt value needle place) (solid : needle ≠ []) :
    place + needle.length ≤ value.length := by
  have fits := occurs.length_le
  rw [List.length_drop] at fits
  have := List.length_pos_iff.mpr solid
  omega

theorem OccursAt.append (occurs : OccursAt value needle place) : OccursAt (value ++ rest) needle place := by
  obtain ⟨tail, split⟩ := occurs
  by_cases inside : place ≤ value.length
  · rw [OccursAt, List.drop_append_of_le_length inside, ← split, List.append_assoc]
    exact List.prefix_append _ _
  · rw [List.drop_eq_nil_of_le (by omega)] at split
    rw [OccursAt, (List.append_eq_nil_iff.mp split).1]
    exact List.nil_prefix

/-- An occurrence that ends inside the front part lies in the front part. -/
theorem OccursAt.of_append (occurs : OccursAt (value ++ rest) needle place)
    (inside : place + needle.length ≤ value.length) : OccursAt value needle place := by
  rw [OccursAt, List.drop_append_of_le_length (by omega)] at occurs
  refine List.prefix_of_prefix_length_le occurs (List.prefix_append _ _) ?_
  rw [List.length_drop]
  omega

theorem OccursAt.getElem? (occurs : OccursAt value needle place) {index : Nat}
    (inside : index < needle.length) : value[place + index]? = needle[index]? := by
  obtain ⟨tail, split⟩ := occurs
  rw [← List.getElem?_drop, ← split, List.getElem?_append_left inside]

theorem occursAt_drop {skipped : Nat} :
    OccursAt (value.drop skipped) needle place ↔ OccursAt value needle (skipped + place) := by
  rw [OccursAt, OccursAt, List.drop_drop]

theorem occursAt_take (solid : needle ≠ []) :
    OccursAt (value.take limit) needle place ↔
      OccursAt value needle place ∧ place + needle.length ≤ min limit value.length := by
  constructor
  · intro occurs
    have fits := occurs.length solid
    rw [List.length_take] at fits
    have whole : OccursAt (value.take limit ++ value.drop limit) needle place := occurs.append
    rw [List.take_append_drop] at whole
    exact ⟨whole, fits⟩
  · intro ⟨occurs, fits⟩
    rw [← List.take_append_drop limit value] at occurs
    exact occurs.of_append (by rw [List.length_take]; exact fits)

variable [DecidableEq α]

/-- The first place where a word occurs. -/
def indexOf : List α → List α → Option Nat
  | [], needle => if needle = [] then some 0 else none
  | item :: rest, needle =>
    if needle.isPrefixOf (item :: rest) then some 0 else (indexOf rest needle).map (· + 1)

theorem indexOf_occurs (found : indexOf value needle = some place) : OccursAt value needle place := by
  induction value generalizing place with
  | nil =>
    rw [indexOf] at found
    split at found
    · next blank =>
        rw [blank]
        exact List.nil_prefix
    · cases found
  | cons item value induction =>
    rw [indexOf] at found
    split at found
    · next starts =>
        cases found
        exact List.isPrefixOf_iff_prefix.mp starts
    · obtain ⟨later, later_found, rfl⟩ := Option.map_eq_some_iff.mp found
      exact induction later_found

theorem indexOf_first (found : indexOf value needle = some place) {earlier : Nat}
    (before : earlier < place) : ¬ OccursAt value needle earlier := by
  induction value generalizing place earlier with
  | nil =>
    rw [indexOf] at found
    split at found
    · cases found
      omega
    · cases found
  | cons item value induction =>
    rw [indexOf] at found
    split at found
    · cases found
      omega
    · next unmatched =>
        obtain ⟨later, later_found, rfl⟩ := Option.map_eq_some_iff.mp found
        cases earlier with
        | zero => exact fun starts => unmatched (List.isPrefixOf_iff_prefix.mpr starts)
        | succ earlier => exact induction later_found (by omega)

theorem indexOf_none (missing : indexOf value needle = none) (place : Nat) :
    ¬ OccursAt value needle place := by
  induction value generalizing place with
  | nil =>
    rw [indexOf] at missing
    split at missing
    · cases missing
    · next solid =>
        rw [OccursAt, List.drop_nil, List.prefix_nil]
        exact solid
  | cons item value induction =>
    rw [indexOf] at missing
    split at missing
    · cases missing
    · next unmatched =>
        rw [Option.map_eq_none_iff] at missing
        cases place with
        | zero => exact fun starts => unmatched (List.isPrefixOf_iff_prefix.mpr starts)
        | succ place => exact induction missing place

theorem indexOf_eq (occurs : OccursAt value needle place)
    (first : ∀ earlier < place, ¬ OccursAt value needle earlier) :
    indexOf value needle = some place := by
  cases found : indexOf value needle with
  | none => exact absurd occurs (indexOf_none found place)
  | some other =>
    have not_after : ¬ place < other := fun before => indexOf_first found before occurs
    have not_before : ¬ other < place := fun before => first other before (indexOf_occurs found)
    rw [Option.some_inj]
    omega

theorem indexOf_eq_none (missing : ∀ place, ¬ OccursAt value needle place) :
    indexOf value needle = none := by
  cases found : indexOf value needle with
  | none => rfl
  | some place => exact absurd (indexOf_occurs found) (missing place)

/-- A text that grows at its end keeps its first occurrence. -/
theorem indexOf_append (found : indexOf value needle = some place) (solid : needle ≠ []) :
    indexOf (value ++ rest) needle = some place := by
  have occurs := indexOf_occurs found
  have fits := occurs.length solid
  exact indexOf_eq occurs.append fun earlier before other =>
    indexOf_first found before (other.of_append (by omega))

theorem indexOf_prefix (grown : value <+: longer)
    (found : indexOf value needle = some place) (solid : needle ≠ []) :
    indexOf longer needle = some place := by
  obtain ⟨rest, rfl⟩ := grown
  exact indexOf_append found solid

section Snoc

variable {item : α}

variable (missing : indexOf value needle = none)

include missing

/-- The only new place in a longer list is at its end. -/
theorem occursAt_snoc (solid : needle ≠ [])
    (occurs : OccursAt (value ++ [item]) needle place) : place + needle.length = value.length + 1 := by
  have fits := occurs.length solid
  rw [List.length_append, List.length_singleton] at fits
  by_cases inside : place + needle.length ≤ value.length
  · exact absurd (occurs.of_append inside) (indexOf_none missing place)
  · omega

theorem indexOf_snoc_end (solid : needle ≠ []) (ends : needle <:+ value ++ [item]) :
    indexOf (value ++ [item]) needle = some (value.length + 1 - needle.length) := by
  have fits := ends.length_le
  rw [List.length_append, List.length_singleton] at fits
  refine indexOf_eq ?_ fun earlier before occurs => ?_
  · have drop_eq := List.suffix_iff_eq_drop.mp ends
    rw [List.length_append, List.length_singleton] at drop_eq
    rw [OccursAt, ← drop_eq]
  · have := occursAt_snoc missing solid occurs
    omega

theorem indexOf_snoc_open (solid : needle ≠ [])
    (unfinished : ¬ needle <:+ value ++ [item]) : indexOf (value ++ [item]) needle = none := by
  refine indexOf_eq_none fun place occurs => unfinished ?_
  have place_eq := occursAt_snoc missing solid occurs
  have whole : needle = (value ++ [item]).drop place := by
    refine occurs.eq_of_length ?_
    rw [List.length_drop, List.length_append, List.length_singleton]
    omega
  rw [whole]
  exact List.drop_suffix place _

end Snoc

/-- The first place of a word in the slice between two places. -/
def indexWithin (value needle : List α) (start limit : Nat) : Option Nat :=
  (indexOf ((value.take limit).drop start) needle).map (start + ·)

theorem indexWithin_eq_some (solid : needle ≠ []) :
    indexWithin value needle start limit = some place ↔
      start ≤ place ∧ OccursAt value needle place ∧ place + needle.length ≤ min limit value.length ∧
        ∀ earlier, start ≤ earlier → earlier < place → ¬ OccursAt value needle earlier := by
  constructor
  · intro found
    obtain ⟨relative, relative_found, rfl⟩ := Option.map_eq_some_iff.mp found
    have occurs := occursAt_drop.mp (indexOf_occurs relative_found)
    obtain ⟨whole, fits⟩ := (occursAt_take solid).mp occurs
    refine ⟨Nat.le_add_right _ _, whole, fits, fun earlier low high other => ?_⟩
    refine indexOf_first relative_found (show earlier - start < relative by omega) ?_
    rw [occursAt_drop, Nat.add_sub_cancel' low, occursAt_take solid]
    exact ⟨other, by omega⟩
  · intro ⟨low, occurs, fits, first⟩
    refine Option.map_eq_some_iff.mpr ⟨place - start, indexOf_eq ?_ fun earlier before other => ?_,
      Nat.add_sub_cancel' low⟩
    · rw [occursAt_drop, Nat.add_sub_cancel' low, occursAt_take solid]
      exact ⟨occurs, fits⟩
    · rw [occursAt_drop, occursAt_take solid] at other
      exact first (start + earlier) (by omega) (by omega) other.1

theorem indexWithin_eq_none (solid : needle ≠ []) :
    indexWithin value needle start limit = none ↔
      ∀ place, start ≤ place → place + needle.length ≤ min limit value.length →
        ¬ OccursAt value needle place := by
  constructor
  · intro missing place low fits occurs
    refine indexOf_none (Option.map_eq_none_iff.mp missing) (place - start) ?_
    rw [occursAt_drop, Nat.add_sub_cancel' low, occursAt_take solid]
    exact ⟨occurs, fits⟩
  · intro absent
    refine Option.map_eq_none_iff.mpr (indexOf_eq_none fun place occurs => ?_)
    rw [occursAt_drop, occursAt_take solid] at occurs
    exact absent _ (Nat.le_add_right _ _) occurs.2 occurs.1

/-- A search may start behind a part where nothing starts. -/
theorem indexWithin_skip {later : Nat} (solid : needle ≠ []) (low : start ≤ later)
    (skip : ∀ place, start ≤ place → place < later → ¬ OccursAt value needle place) :
    indexWithin value needle later limit = indexWithin value needle start limit := by
  cases found : indexWithin value needle later limit with
  | none =>
    refine (indexWithin_eq_none solid |>.mpr fun place after fits occurs => ?_).symm
    by_cases early : place < later
    · exact skip place after early occurs
    · exact (indexWithin_eq_none solid).mp found place (by omega) fits occurs
  | some place =>
    obtain ⟨after, occurs, fits, first⟩ := (indexWithin_eq_some solid).mp found
    refine (indexWithin_eq_some solid |>.mpr ⟨by omega, occurs, fits, fun earlier from_start before other
      => ?_⟩).symm
    by_cases early : earlier < later
    · exact skip earlier from_start early other
    · exact first earlier (by omega) before other

theorem indexWithin_grown {wider : Nat} (solid : needle ≠ [])
    (grown : value <+: longer) (within : limit ≤ wider)
    (found : indexWithin value needle start limit = some place) :
    indexWithin longer needle start wider = some place := by
  obtain ⟨low, occurs, fits, first⟩ := (indexWithin_eq_some solid).mp found
  obtain ⟨rest, rfl⟩ := grown
  refine (indexWithin_eq_some solid).mpr ⟨low, occurs.append, ?_, fun earlier after before other => ?_⟩
  · rw [List.length_append]
    omega
  · exact first earlier after before (other.of_append (by omega))

theorem indexWithin_full (grown : value <+: longer) (inside : limit ≤ value.length) :
    indexWithin longer needle start limit = indexWithin value needle start limit := by
  obtain ⟨rest, rfl⟩ := grown
  rw [indexWithin, indexWithin, List.take_append_of_le_length inside]

/-- What is found only in a longer text reaches beyond the slice of the shorter one. -/
theorem indexWithin_beyond {wider : Nat} (solid : needle ≠ [])
    (grown : value <+: longer) (missing : indexWithin value needle start limit = none)
    (found : indexWithin longer needle start wider = some place) :
    min limit value.length < place + needle.length := by
  obtain ⟨low, occurs, -, -⟩ := (indexWithin_eq_some solid).mp found
  obtain ⟨rest, rfl⟩ := grown
  by_contra inside
  exact (indexWithin_eq_none solid).mp missing place low (by omega) (occurs.of_append (by omega))

omit [DecidableEq α] in
variable [BEq α] [LawfulBEq α] in
theorem idxOf?_split {items : List α} {item : α} (found : items.idxOf? item = some place) :
    item ∉ items.take place ∧ items = items.take place ++ item :: items.drop (place + 1) := by
  obtain ⟨inside, here, first⟩ := List.idxOf?_eq_some_iff.mp found
  refine ⟨fun member => ?_, ?_⟩
  · obtain ⟨earlier, early, same⟩ := List.mem_take_iff_getElem.mp member
    exact first earlier (by omega) same
  · rw [← here, List.cons_getElem_drop_succ, List.take_append_drop]

omit [DecidableEq α] in
variable [BEq α] [LawfulBEq α] in
theorem idxOf?_append {front rest : List α} {item : α} (absent : item ∉ front) :
    (front ++ item :: rest).idxOf? item = some front.length := by
  refine List.idxOf?_eq_some_iff.mpr ⟨by simp, by simp, fun earlier early same => absent ?_⟩
  rw [List.getElem_append_left early] at same
  exact same ▸ List.getElem_mem _

end R4OS.Text
