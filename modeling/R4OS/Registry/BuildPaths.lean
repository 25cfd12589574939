import R4OS.Registry.BuildKeys

/-!
# The paths of the builder

Every path leads to one key of the table, and paths that lead to one key agree up to ASCII case.
Keys that are added later leave the paths of earlier keys alone.
-/

namespace R4OS.Registry

open Hashing Text

def childNamed (keys : List BuildKey) (parent : Nat) (name : Bytes) : Option Nat :=
  (List.range' 1 (keys.length - 1)).find? (isChild keys parent name)

/-- The key that a path leads to. -/
def walk (keys : List BuildKey) (start : Nat) (components : List Bytes) : Option Nat :=
  components.foldlM (childNamed keys) start

/-- The components of a path up to ASCII case. -/
def folded (components : List Bytes) : List Bytes := components.map (·.map toUpper)

section Lookup

variable {keys : List BuildKey} {parent index : Nat} {name : Bytes}

variable {start : Nat} {components : List Bytes} {component : Bytes}

theorem isChild_iff : isChild keys parent name index = true ↔ (keyOf keys index).parent = parent ∧
      asciiEqlIgnoreCase (keyOf keys index).name name = true := by
  simp [isChild]

theorem childNamed_eq_none : childNamed keys parent name = none ↔
    ∀ index < keys.length, index ≠ 0 → isChild keys parent name index = false := by
  rw [childNamed, List.find?_eq_none]
  simp only [mem_range'_one, Bool.not_eq_true]
  constructor
  · exact fun none index bound other => none index ⟨other, bound⟩
  · rintro none index ⟨other, bound⟩
    exact none index bound other

theorem childNamed_of_eq_some (found : childNamed keys parent name = some index) :
    index ≠ 0 ∧ index < keys.length ∧ isChild keys parent name index = true := by
  obtain ⟨other, bound⟩ := mem_range'_one.mp (List.mem_of_find?_eq_some found)
  exact ⟨other, bound, List.find?_some found⟩

theorem KeysSound.childNamed_iff (sound : KeysSound keys) :
    childNamed keys parent name = some index ↔
      index ≠ 0 ∧ index < keys.length ∧ isChild keys parent name index = true := by
  constructor
  · exact childNamed_of_eq_some
  · rintro ⟨other, bound, matching⟩
    cases found : childNamed keys parent name with
    | none =>
      rw [childNamed_eq_none.mp found index bound other] at matching
      cases matching
    | some first =>
      obtain ⟨first_other, first_bound, first_matching⟩ := childNamed_of_eq_some found
      obtain ⟨owner, same⟩ := isChild_iff.mp matching
      obtain ⟨first_owner, first_same⟩ := isChild_iff.mp first_matching
      rw [sound.distinct first first_bound index bound first_other other
        (first_owner.trans owner.symm)]
      rw [asciiEqlIgnoreCase_iff] at same first_same ⊢
      exact first_same.trans same.symm

theorem childNamed_congr {a b : Bytes} (same : a.map toUpper = b.map toUpper) :
    childNamed keys parent a = childNamed keys parent b := by
  unfold childNamed isChild asciiEqlIgnoreCase
  rw [same]

@[simp] theorem walk_nil (start : Nat) : walk keys start [] = some start := rfl

theorem walk_append {more : List Bytes} :
    walk keys start (components ++ more) =
      (walk keys start components).bind fun next => walk keys next more := by
  unfold walk
  rw [List.foldlM_append]
  rfl

theorem walk_singleton :
    walk keys start [component] = childNamed keys start component := by
  unfold walk
  rw [List.foldlM_cons]
  cases childNamed keys start component <;> rfl

theorem walk_cons :
    walk keys start (component :: components) =
      (childNamed keys start component).bind fun next => walk keys next components := by
  rw [← List.singleton_append, walk_append, walk_singleton]

/-- Paths that agree up to ASCII case lead to the same key. -/
theorem walk_congr {a b : List Bytes} (same : folded a = folded b) :
    walk keys start a = walk keys start b := by
  induction a generalizing start b with
  | nil =>
    have empty : b = [] := by simpa [folded] using same.symm
    rw [empty]
  | cons component components induction =>
    cases b with
    | nil => simp [folded] at same
    | cons other others =>
      obtain ⟨first, rest⟩ := List.cons.inj same
      rw [walk_cons, walk_cons, childNamed_congr first]
      simp [induction rest]

theorem walk_lt (inside : start < keys.length)
    (found : walk keys start components = some index) : index < keys.length := by
  induction components generalizing start with
  | nil =>
    cases found
    exact inside
  | cons component components induction =>
    rw [walk_cons] at found
    obtain ⟨next, first, rest⟩ := Option.bind_eq_some_iff.mp found
    exact induction (childNamed_of_eq_some first).2.1 rest

/-- The key behind a path that is not empty. -/
theorem walk_concat (found : walk keys start (components ++ [component]) = some index) :
    ∃ parent, walk keys start components = some parent ∧
      childNamed keys parent component = some index := by
  rw [walk_append] at found
  obtain ⟨parent, before, last⟩ := Option.bind_eq_some_iff.mp found
  exact ⟨parent, before, walk_singleton.symm.trans last⟩

/-- Paths from the root that lead to one key agree up to ASCII case. -/
theorem walk_injective {a b : List Bytes}
    (first : walk keys 0 a = some index) (second : walk keys 0 b = some index) :
    folded a = folded b := by
  induction a using List.reverseRecOn generalizing b index with
  | nil =>
    obtain rfl : 0 = index := Option.some.inj first
    rcases List.eq_nil_or_concat b with rfl | ⟨before, last, rfl⟩
    · rfl
    · rw [List.concat_eq_append] at second
      obtain ⟨_, _, found⟩ := walk_concat second
      exact absurd rfl (childNamed_of_eq_some found).1
  | append_singleton components component induction =>
    obtain ⟨parent, before, found⟩ := walk_concat first
    obtain ⟨other, _, matching⟩ := childNamed_of_eq_some found
    rcases List.eq_nil_or_concat b with rfl | ⟨others, last, rfl⟩
    · exact absurd (Option.some.inj second).symm other
    · rw [List.concat_eq_append] at second ⊢
      obtain ⟨second_parent, second_before, second_found⟩ := walk_concat second
      obtain ⟨owner, same⟩ := isChild_iff.mp matching
      obtain ⟨second_owner, second_same⟩ :=
        isChild_iff.mp (childNamed_of_eq_some second_found).2.2
      rw [owner] at second_owner
      subst second_owner
      rw [asciiEqlIgnoreCase_iff] at same second_same
      have prefixes := induction before second_before
      simp only [folded, List.map_append, List.map_cons, List.map_nil] at prefixes ⊢
      rw [prefixes, same.symm.trans second_same]

end Lookup

/-- A table with more keys behind the old ones. -/
structure Extends (before after : List BuildKey) : Prop where
  length : before.length ≤ after.length
  parent : ∀ index < before.length, (keyOf after index).parent = (keyOf before index).parent
  name : ∀ index < before.length, (keyOf after index).name = (keyOf before index).name

theorem Extends.refl (keys : List BuildKey) : Extends keys keys :=
  ⟨le_rfl, fun _ _ => rfl, fun _ _ => rfl⟩

theorem Extends.trans {first second third : List BuildKey} (before : Extends first second)
    (after : Extends second third) : Extends first third := by
  constructor
  · exact before.length.trans after.length
  · intro index inside
    rw [after.parent index (lt_of_lt_of_le inside before.length), before.parent index inside]
  · intro index inside
    rw [after.name index (lt_of_lt_of_le inside before.length), before.name index inside]

theorem SameShape.extends {before after : List BuildKey} (same : SameShape before after) :
    Extends before after :=
  ⟨same.length.ge, fun index _ => same.parent index, fun index _ => same.name index⟩

theorem extends_withChild (keys : List BuildKey) (parent : Nat) (name : Bytes) :
    Extends keys (withChild keys parent name) := by
  constructor
  · simp
  · exact fun index inside => withChild_parent inside
  · exact fun index inside => withChild_name inside

section Extend

variable {before after : List BuildKey}

theorem Extends.childNamed (extends_ : Extends before after) (sound : KeysSound after)
    {parent index : Nat} {name : Bytes}
    (found : Registry.childNamed before parent name = some index) :
    Registry.childNamed after parent name = some index := by
  obtain ⟨other, bound, matching⟩ := childNamed_of_eq_some found
  rw [sound.childNamed_iff]
  refine ⟨other, lt_of_lt_of_le bound extends_.length, ?_⟩
  rw [isChild_iff] at matching ⊢
  rwa [extends_.parent index bound, extends_.name index bound]

theorem Extends.walk (extends_ : Extends before after) (sound : KeysSound after)
    {start index : Nat} {components : List Bytes}
    (found : Registry.walk before start components = some index) :
    Registry.walk after start components = some index := by
  induction components generalizing start with
  | nil => exact found
  | cons component components induction =>
    rw [walk_cons] at found ⊢
    obtain ⟨next, first, rest⟩ := Option.bind_eq_some_iff.mp found
    rw [extends_.childNamed sound first]
    exact induction rest

end Extend

end R4OS.Registry
