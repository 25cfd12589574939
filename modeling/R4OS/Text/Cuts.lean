import R4OS.Text.Bytes

/-!
# Cutting texts

A text is cut before the first byte of some kind, around the first occurrence of a separator or around
the last one.  Each cut is determined by what its parts do not contain.
-/

namespace R4OS.Text

variable {α : Type*} {stop : α → Bool} {text front rest : List α}

/-- Cut a text before the first item of some kind. -/
def breakAt (stop : α → Bool) (text : List α) : List α × List α :=
  (text.takeWhile fun item => !stop item, text.dropWhile fun item => !stop item)

theorem breakAt_join (stop : α → Bool) (text : List α) :
    (breakAt stop text).1 ++ (breakAt stop text).2 = text :=
  List.takeWhile_append_dropWhile

theorem breakAt_front {item : α} (member : item ∈ (breakAt stop text).1) : stop item = false := by
  simpa using List.mem_takeWhile_imp member

theorem breakAt_rest {item : α} (member : item ∈ (breakAt stop text).2.head?) : stop item = true := by
  have found := List.head?_dropWhile_not (fun item => !stop item) text
  rw [Option.mem_def] at member
  rw [breakAt] at member
  simpa [member] using found

theorem breakAt_append (clear : ∀ item ∈ front, stop item = false)
    (stops : ∀ item ∈ rest.head?, stop item = true) : breakAt stop (front ++ rest) = (front, rest) := by
  have passes : ∀ item ∈ front, (!stop item) = true := fun item member => by simp [clear item member]
  rw [breakAt, List.takeWhile_append_of_pos passes, List.dropWhile_append_of_pos passes]
  cases rest with
  | nil => simp
  | cons first rest => simp [stops first rfl]

section Separators

variable [DecidableEq α] {separator : α} {before after : List α}

/-- Cut a text around the first occurrence of a separator. -/
def cut (separator : α) (text : List α) : Option (List α × List α) :=
  if separator ∈ text then
    some (text.takeWhile (· ≠ separator), (text.dropWhile (· ≠ separator)).tail)
  else none

def cutLast (separator : α) (text : List α) : Option (List α × List α) :=
  (cut separator text.reverse).map fun parts => (parts.2.reverse, parts.1.reverse)

theorem cut_eq_none : cut separator text = none ↔ separator ∉ text := by simp [cut]

theorem cutLast_eq_none : cutLast separator text = none ↔ separator ∉ text := by
  simp [cutLast, cut_eq_none]

theorem cut_append (clear : separator ∉ before) :
    cut separator (before ++ separator :: after) = some (before, after) := by
  have passes : ∀ item ∈ before, decide (item ≠ separator) = true := by
    intro item member
    exact decide_eq_true fun same => clear (same ▸ member)
  rw [cut, if_pos (by simp), List.takeWhile_append_of_pos passes, List.dropWhile_append_of_pos passes]
  simp

theorem cut_eq_some :
    cut separator text = some (before, after) ↔
      text = before ++ separator :: after ∧ separator ∉ before := by
  constructor
  · intro found
    have present : separator ∈ text := by
      by_contra absent
      rw [cut_eq_none.mpr absent] at found
      cases found
    obtain ⟨first, second, rfl, clear⟩ := List.eq_append_cons_of_mem present
    rw [cut_append clear] at found
    cases found
    exact ⟨rfl, clear⟩
  · rintro ⟨rfl, clear⟩
    exact cut_append clear

theorem cutLast_eq_some :
    cutLast separator text = some (before, after) ↔
      text = before ++ separator :: after ∧ separator ∉ after := by
  rw [cutLast, Option.map_eq_some_iff]
  constructor
  · rintro ⟨⟨back, front⟩, found, equal⟩
    obtain ⟨reversed, clear⟩ := cut_eq_some.mp found
    cases equal
    refine ⟨?_, by simpa using clear⟩
    rw [← List.reverse_reverse text, reversed]
    simp
  · rintro ⟨rfl, clear⟩
    refine ⟨(after.reverse, before.reverse), cut_eq_some.mpr ⟨by simp, by simpa using clear⟩, ?_⟩
    simp

end Separators

end R4OS.Text
