import Mathlib.Data.Bool.Basic
import Mathlib.Data.List.DropRight

/-!
# Parts between separators

The nonempty parts of a list between separators.  Parts that are joined again are the same parts.
-/

namespace R4OS.Text

variable {Item : Type}

def parts (separates : Item → Bool) (items : List Item) : List (List Item) :=
  (items.splitOnP separates).filter (· ≠ [])

structure Part (separates : Item → Bool) (items : List Item) : Prop where
  nonempty : items ≠ []
  clear : ∀ item ∈ items, separates item = false

section Parts

variable {separates : Item → Bool} {separator : Item} {items front rest : List Item}

@[simp] theorem parts_nil : parts separates [] = [] := rfl

theorem parts_append (front rest : List Item) (separation : separates separator = true) :
    parts separates (front ++ separator :: rest) =
      parts separates front ++ parts separates rest := by
  rw [parts, List.splitOnP_append_cons _ _ separation, List.filter_append]
  rfl

theorem parts_cons (rest : List Item) (separation : separates separator = true) :
    parts separates (separator :: rest) = parts separates rest :=
  parts_append [] rest separation

theorem Part.parts_eq (part : Part separates items) : parts separates items = [items] := by
  rw [parts, List.splitOnP_eq_singleton part.clear]
  exact List.filter_eq_self.mpr fun item member => by
    rw [List.mem_singleton.mp member]
    exact decide_eq_true part.nonempty

theorem splitOnP_clear (items : List Item) :
    ∀ part ∈ items.splitOnP separates, ∀ item ∈ part, separates item = false := by
  induction items with
  | nil =>
    intro part member
    rw [List.splitOnP_nil, List.mem_singleton] at member
    rw [member]
    exact List.forall_mem_nil _
  | cons first rest induction =>
    intro part member
    rw [List.splitOnP_cons_eq_if_modifyHead] at member
    split at member
    · rcases List.mem_cons.mp member with rfl | later
      · exact List.forall_mem_nil _
      · exact induction part later
    · next unseparated =>
      cases split : rest.splitOnP separates with
      | nil => exact absurd split (List.splitOnP_ne_nil _ _)
      | cons head others =>
        rw [split] at member induction
        rw [List.forall_mem_cons] at induction
        rcases List.mem_cons.mp member with rfl | later
        · exact List.forall_mem_cons.mpr ⟨Bool.eq_false_of_not_eq_true unseparated, induction.1⟩
        · exact induction.2 part later

theorem part_of_mem {part : List Item} (member : part ∈ parts separates items) :
    Part separates part := by
  obtain ⟨inside, nonempty⟩ := List.mem_filter.mp member
  exact ⟨of_decide_eq_true nonempty, splitOnP_clear items part inside⟩

theorem parts_join {joined : List (List Item)} (separation : separates separator = true)
    (all_parts : ∀ part ∈ joined, Part separates part) :
    parts separates ([separator].intercalate joined) = joined := by
  induction joined with
  | nil => rfl
  | cons first rest induction =>
    rw [List.forall_mem_cons] at all_parts
    cases rest with
    | nil =>
      rw [List.intercalate_singleton]
      exact all_parts.1.parts_eq
    | cons second others =>
      rw [List.intercalate_cons_cons, List.append_assoc, List.singleton_append,
        parts_append _ _ separation, all_parts.1.parts_eq, induction all_parts.2]
      rfl

end Parts

section Ends

variable {separates : Item → Bool} {items front rest : List Item} {first : Item}

theorem parts_first (unseparated : separates first = false) :
    parts separates (first :: rest) = (first :: rest.takeWhile fun item => !separates item) ::
      parts separates (rest.dropWhile fun item => !separates item) := by
  have run_clear : ∀ item ∈ first :: rest.takeWhile (fun item => !separates item),
      separates item = false := by
    refine List.forall_mem_cons.mpr ⟨unseparated, fun item member => ?_⟩
    simpa using List.mem_takeWhile_imp member
  have part : Part separates (first :: rest.takeWhile fun item => !separates item) :=
    ⟨List.cons_ne_nil _ _, run_clear⟩
  have split : first :: rest = (first :: rest.takeWhile fun item => !separates item) ++
      rest.dropWhile fun item => !separates item := by
    rw [List.cons_append, List.takeWhile_append_dropWhile]
  rw [split]
  cases behind : rest.dropWhile fun item => !separates item with
  | nil => rw [List.append_nil, part.parts_eq, parts_nil]
  | cons separator later =>
    have separation : separates separator = true := by
      have stops := List.head?_dropWhile_not (fun item => !separates item) rest
      rw [behind] at stops
      simpa using stops
    rw [parts_append _ _ separation, part.parts_eq, parts_cons _ separation]
    rfl

/-- The first part of a list that does not start with a separator. -/
theorem parts_run (nonempty : items ≠ [])
    (unseparated : ∀ item ∈ items.head?, separates item = false) :
    parts separates items = (items.takeWhile fun item => !separates item) ::
      parts separates (items.dropWhile fun item => !separates item) := by
  cases items with
  | nil => exact absurd rfl nonempty
  | cons first rest =>
    have clear : separates first = false := unseparated first rfl
    rw [parts_first clear, List.takeWhile_cons_of_pos, List.dropWhile_cons_of_pos] <;>
      rw [clear] <;> rfl

theorem parts_drop_run (items : List Item) :
    parts separates (items.drop ((items.takeWhile fun item => !separates item).length + 1)) =
      parts separates (items.dropWhile fun item => !separates item) := by
  have behind : items.drop (items.takeWhile fun item => !separates item).length =
      items.dropWhile fun item => !separates item := by
    have whole := @List.takeWhile_append_dropWhile _ (fun item => !separates item) items
    calc items.drop (items.takeWhile fun item => !separates item).length
        = (items.takeWhile (fun item => !separates item) ++
            items.dropWhile fun item => !separates item).drop
              (items.takeWhile fun item => !separates item).length := by rw [whole]
      _ = items.dropWhile fun item => !separates item := List.drop_left
  rw [← List.drop_drop, behind]
  cases left : items.dropWhile fun item => !separates item with
  | nil => rfl
  | cons separator later =>
    have stops := List.head?_dropWhile_not (fun item => !separates item) items
    rw [left] at stops
    rw [List.drop_one, List.tail_cons, parts_cons _ (by simpa using stops)]

/-- Separators in front do not matter. -/
theorem parts_dropWhile (items : List Item) :
    parts separates (items.dropWhile separates) = parts separates items := by
  induction items with
  | nil => rfl
  | cons first rest induction =>
    cases separation : separates first with
    | true => rw [List.dropWhile_cons_of_pos separation, induction, parts_cons _ separation]
    | false => rw [List.dropWhile_cons_of_neg (Bool.eq_false_iff.mp separation)]

/-- Separators at the end do not matter. -/
theorem parts_rdropWhile (items : List Item) :
    parts separates (items.rdropWhile separates) = parts separates items := by
  induction items using List.reverseRecOn with
  | nil => rfl
  | append_singleton front last induction =>
    cases separation : separates last with
    | true =>
      rw [List.rdropWhile_concat_pos _ _ _ separation, induction, parts_append _ _ separation,
        parts_nil, List.append_nil]
    | false => rw [List.rdropWhile_concat_neg _ _ _ (Bool.eq_false_iff.mp separation)]

theorem parts_last (nonempty : items ≠ [])
    (unseparated : ∀ last ∈ items.getLast?, separates last = false) :
    ∃ front last, items = front ++ last ∧ Part separates last ∧
      (∀ item ∈ front.getLast?, separates item = true) ∧
      parts separates items = parts separates front ++ [last] := by
  have run_split : items.rdropWhile (fun item => !separates item) ++
      items.rtakeWhile (fun item => !separates item) = items := List.rdropWhile_append_rtakeWhile
  have run_part : Part separates (items.rtakeWhile fun item => !separates item) := by
    refine ⟨fun empty => ?_, fun item member => ?_⟩
    · rw [List.rtakeWhile_eq_nil_iff] at empty
      have ends := unseparated _ (List.getLast_mem_getLast? nonempty)
      exact empty nonempty (by rw [ends]; rfl)
    · simpa using List.mem_rtakeWhile_imp member
  have front_ends : ∀ item ∈ (items.rdropWhile fun item => !separates item).getLast?,
      separates item = true := by
    intro item member
    have some_front : items.rdropWhile (fun item => !separates item) ≠ [] := by
      intro empty
      rw [empty] at member
      cases member
    rw [List.getLast?_eq_some_getLast some_front] at member
    have stops := List.rdropWhile_last_not (fun item => !separates item) items some_front
    rw [Option.some.inj member] at stops
    simpa using stops
  refine ⟨_, _, run_split.symm, run_part, front_ends, ?_⟩
  generalize items.rdropWhile (fun item => !separates item) = front at *
  generalize items.rtakeWhile (fun item => !separates item) = last at *
  rw [← run_split]
  cases front using List.reverseRecOn with
  | nil => exact run_part.parts_eq
  | append_singleton earlier separator =>
    have separation := front_ends separator (by rw [List.getLast?_concat]; rfl)
    rw [List.append_assoc, List.singleton_append, parts_append _ _ separation, run_part.parts_eq,
      parts_append _ _ separation, parts_nil, List.append_nil]

theorem rdropWhile_append (drops : Item → Bool) (front last : List Item) :
    (front ++ last).rdropWhile drops =
      if last.rdropWhile drops = [] then front.rdropWhile drops
      else front ++ last.rdropWhile drops := by
  rw [List.rdropWhile, List.rdropWhile, List.rdropWhile, List.reverse_append, List.dropWhile_append]
  simp only [List.isEmpty_iff, List.reverse_eq_nil_iff]
  split
  · rfl
  · rw [List.reverse_append, List.reverse_reverse]

def trimLast (blank : Item → Bool) (all_parts : List (List Item)) : List (List Item) :=
  match all_parts.getLast? with
  | none => []
  | some last => all_parts.dropLast ++ [last.rdropWhile blank].filter (· ≠ [])

variable {blank : Item → Bool}

theorem parts_trim (apart : ∀ item, separates item = true → blank item = false)
    (unseparated : ∀ last ∈ items.getLast?, separates last = false) :
    parts separates (items.rdropWhile blank) = trimLast blank (parts separates items) := by
  cases empty : items with
  | nil => rfl
  | cons first rest =>
    rw [← empty]
    obtain ⟨front, last, split, part, front_ends, parts_eq⟩ :=
      parts_last (empty ▸ List.cons_ne_nil first rest) unseparated
    have front_kept : front.rdropWhile blank = front := by
      rw [List.rdropWhile_eq_self_iff]
      intro some_front blank_end
      have separation := front_ends _ (List.getLast_mem_getLast? some_front)
      rw [apart _ separation] at blank_end
      cases blank_end
    rw [parts_eq, trimLast, List.getLast?_concat, List.dropLast_concat, split]
    dsimp only
    rw [rdropWhile_append, front_kept]
    split
    · next all_blank => rw [all_blank]; exact (List.append_nil _).symm
    · next some_left =>
      have kept : [last.rdropWhile blank].filter (· ≠ []) = [last.rdropWhile blank] :=
        List.filter_eq_self.mpr fun item member => by
          rw [List.mem_singleton.mp member]
          exact decide_eq_true some_left
      rw [kept]
      have part_left : Part separates (last.rdropWhile blank) :=
        ⟨some_left, fun item member =>
          part.clear item ((List.rdropWhile_prefix _ _).subset member)⟩
      cases front using List.reverseRecOn with
      | nil => exact part_left.parts_eq
      | append_singleton earlier separator =>
        have separation := front_ends separator (by rw [List.getLast?_concat]; rfl)
        rw [List.append_assoc, List.singleton_append, parts_append _ _ separation,
          part_left.parts_eq, parts_append _ _ separation, parts_nil, List.append_nil]

theorem trimLast_cons (first : List Item) {later : List (List Item)} (some_later : later ≠ []) :
    trimLast blank (first :: later) = first :: trimLast blank later := by
  cases later with
  | nil => exact absurd rfl some_later
  | cons second others =>
    rw [trimLast, trimLast, List.getLast?_cons_cons]
    cases ends : (second :: others).getLast? with
    | none => exact absurd (List.getLast?_eq_none_iff.mp ends) (List.cons_ne_nil _ _)
    | some last => rfl

/-- Only blanks at the end of the last part are lost. -/
theorem trimLast_eq_iff {last : List Item} (earlier : List (List Item)) (nonempty : last ≠ []) :
    trimLast blank (earlier ++ [last]) = earlier ++ [last] ↔
      ∀ item ∈ last.getLast?, blank item = false := by
  rw [trimLast, List.getLast?_concat, List.dropLast_concat]
  dsimp only
  rw [List.append_cancel_left_eq]
  constructor
  · intro same item ends
    have kept : last.rdropWhile blank = last := by
      have member : last ∈ [last.rdropWhile blank].filter (· ≠ []) := by
        rw [same]
        exact List.mem_singleton_self last
      exact (List.mem_singleton.mp (List.mem_of_mem_filter member)).symm
    rw [List.rdropWhile_eq_self_iff] at kept
    rw [List.getLast?_eq_some_getLast nonempty, Option.mem_some_iff] at ends
    exact ends ▸ Bool.eq_false_of_not_eq_true (kept nonempty)
  · intro solid
    have kept : last.rdropWhile blank = last := by
      rw [List.rdropWhile_eq_self_iff]
      intro some_last blank_end
      rw [solid _ (List.getLast_mem_getLast? some_last)] at blank_end
      cases blank_end
    rw [kept]
    exact List.filter_eq_self.mpr fun item member => by
      rw [List.mem_singleton.mp member]
      exact decide_eq_true nonempty

end Ends

end R4OS.Text
