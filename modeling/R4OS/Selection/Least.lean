import Mathlib.Order.Basic

/-!
# The least admissible item

A scan that remembers the least admissible item seen so far.  With a transitive and irreflexive
comparison no admissible item of the list is less than the one it ends with.
-/

namespace R4OS.Selection

variable {Item : Type} (admissible : Item → Bool) (less : Item → Item → Bool)

/-- Look at one more item. -/
def leastStep (best : Option Item) (item : Item) : Option Item :=
  if !admissible item then best
  else match best with
    | none => some item
    | some held => if less item held then some item else best

/-- The least admissible item of a list, the first one among equals. -/
def least (items : List Item) : Option Item := items.foldl (leastStep admissible less) none

/-- What the scan remembers about the items it has seen. -/
structure LeastOf (seen : List Item) (best : Option Item) : Prop where
  absent : best = none → ∀ item ∈ seen, admissible item = false
  member : ∀ item, best = some item → item ∈ seen ∧ admissible item = true
  below : ∀ item, best = some item → ∀ other ∈ seen, admissible other = true →
    less other item = false

variable {admissible less}

theorem LeastOf.nil : LeastOf admissible less [] none where
  absent := by simp
  member := by simp
  below := by simp

theorem LeastOf.step {seen : List Item} {best : Option Item}
    (irreflexive : ∀ item, less item item = false)
    (transitive : ∀ first second third, less first second = true → less second third = true →
      less first third = true)
    (so_far : LeastOf admissible less seen best) (item : Item) :
    LeastOf admissible less (seen ++ [item]) (leastStep admissible less best item) := by
  unfold leastStep
  cases item_admissible : admissible item with
  | false =>
    refine ⟨fun none_seen => ?_, fun held held_eq => ?_, fun held held_eq => ?_⟩
    · intro other other_mem
      rcases List.mem_append.mp other_mem with old | new
      · exact so_far.absent none_seen other old
      · rw [List.mem_singleton.mp new]
        exact item_admissible
    · obtain ⟨held_mem, held_admissible⟩ := so_far.member held held_eq
      exact ⟨List.mem_append_left _ held_mem, held_admissible⟩
    · intro other other_mem other_admissible
      rcases List.mem_append.mp other_mem with old | new
      · exact so_far.below held held_eq other old other_admissible
      · rw [List.mem_singleton.mp new, item_admissible] at other_admissible
        cases other_admissible
  | true =>
    cases best with
    | none =>
      have none_seen := so_far.absent rfl
      refine ⟨nofun, fun held held_eq => ?_, fun held held_eq => ?_⟩
      · obtain rfl : item = held := Option.some.inj held_eq
        exact ⟨by simp, item_admissible⟩
      · obtain rfl : item = held := Option.some.inj held_eq
        intro other other_mem other_admissible
        rcases List.mem_append.mp other_mem with old | new
        · rw [none_seen other old] at other_admissible
          cases other_admissible
        · rw [List.mem_singleton.mp new]
          exact irreflexive item
    | some held =>
      have held_below := so_far.below held rfl
      obtain ⟨held_mem, held_admissible⟩ := so_far.member held rfl
      simp only [Bool.not_true, Bool.false_eq_true, if_false]
      split
      · rename_i smaller
        refine ⟨nofun, fun best best_eq => ?_, fun best best_eq => ?_⟩
        · obtain rfl : item = best := Option.some.inj best_eq
          exact ⟨by simp, item_admissible⟩
        · obtain rfl : item = best := Option.some.inj best_eq
          intro other other_mem other_admissible
          rcases List.mem_append.mp other_mem with old | new
          · cases under : less other item with
            | false => rfl
            | true =>
              have under_held := transitive other item held under smaller
              rw [held_below other old other_admissible] at under_held
              cases under_held
          · rw [List.mem_singleton.mp new]
            exact irreflexive item
      · rename_i not_smaller
        refine ⟨nofun, fun best best_eq => ?_, fun best best_eq => ?_⟩
        · obtain rfl : held = best := Option.some.inj best_eq
          exact ⟨List.mem_append_left _ held_mem, held_admissible⟩
        · obtain rfl : held = best := Option.some.inj best_eq
          intro other other_mem other_admissible
          rcases List.mem_append.mp other_mem with old | new
          · exact held_below other old other_admissible
          · rw [List.mem_singleton.mp new]
            simpa using not_smaller

theorem least_spec (irreflexive : ∀ item, less item item = false)
    (transitive : ∀ first second third, less first second = true → less second third = true →
      less first third = true) (items : List Item) :
    LeastOf admissible less items (least admissible less items) := by
  have scanned (rest seen : List Item) (best : Option Item)
      (so_far : LeastOf admissible less seen best) :
      LeastOf admissible less (seen ++ rest) (rest.foldl (leastStep admissible less) best) := by
    induction rest generalizing seen best with
    | nil => simpa using so_far
    | cons item rest induction =>
      simpa using induction (seen ++ [item]) _ (so_far.step irreflexive transitive item)
  simpa [least] using scanned items [] none LeastOf.nil

end R4OS.Selection
