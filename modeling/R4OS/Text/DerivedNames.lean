import Mathlib.Data.List.Nodup
import Mathlib.Data.List.Pairwise
import Mathlib.Data.List.Perm.Basic

/-!
# Derived names

Names that are derived from other names by endings.  If no ending ends in another one, a derived name
determines the name and the ending.
-/

namespace R4OS.DerivedNames

variable {Letter : Type} {first second : List Letter} {names endings : List (List Letter)}

/-- No ending ends in another one. -/
def SuffixFree (endings : List (List Letter)) : Prop :=
  endings.Pairwise fun first second => ¬ first <:+ second ∧ ¬ second <:+ first

/-- The names with every ending. -/
def derived (names endings : List (List Letter)) : List (List Letter) :=
  names.flatMap fun name => endings.map (name ++ ·)

/-- Equal texts with two endings: one ending ends in the other. -/
theorem suffix_of_append_eq {left right : List Letter} (same : left ++ first = right ++ second) :
    first <:+ second ∨ second <:+ first :=
  List.suffix_or_suffix_of_suffix ⟨left, same⟩ ⟨right, rfl⟩

theorem append_ne_append {left right : List Letter}
    (free : ¬ first <:+ second ∧ ¬ second <:+ first) : left ++ first ≠ right ++ second :=
  fun same => (suffix_of_append_eq same).elim free.1 free.2

theorem SuffixFree.nodup (free : SuffixFree endings) : endings.Nodup := by
  refine List.Pairwise.imp ?_ free
  rintro first second apart rfl
  exact apart.1 List.suffix_rfl

/-- An ending of a derived name is determined by the name. -/
theorem SuffixFree.eq_of_append_eq (free : SuffixFree endings) (first_listed : first ∈ endings)
    (second_listed : second ∈ endings) {left right : List Letter}
    (same : left ++ first = right ++ second) : first = second := by
  by_contra different
  have symmetric : Std.Symm fun first second : List Letter =>
      ¬ first <:+ second ∧ ¬ second <:+ first := ⟨fun _ _ => And.symm⟩
  exact append_ne_append (List.Pairwise.forall free first_listed second_listed different) same

theorem nodup_derived (free : SuffixFree endings) (some_ending : endings ≠ []) :
    (derived names endings).Nodup ↔ names.Nodup := by
  unfold derived
  rw [List.nodup_flatMap]
  constructor
  · rintro ⟨-, apart⟩
    refine apart.imp fun {first second} disjoint same => ?_
    subst same
    obtain ⟨ending, listed⟩ := List.exists_mem_of_ne_nil endings some_ending
    have derived_mem : first ++ ending ∈ endings.map (first ++ ·) :=
      List.mem_map.mpr ⟨ending, listed, rfl⟩
    exact disjoint derived_mem derived_mem
  · intro distinct
    refine ⟨fun name _ => free.nodup.map (List.append_right_injective name), ?_⟩
    refine distinct.imp fun {first second} different => ?_
    intro text first_derived second_derived
    obtain ⟨ending, listed, rfl⟩ := List.mem_map.mp first_derived
    obtain ⟨other, other_listed, same⟩ := List.mem_map.mp second_derived
    have same_ending := free.eq_of_append_eq other_listed listed same
    subst same_ending
    exact different (List.append_left_injective other same).symm

end R4OS.DerivedNames
