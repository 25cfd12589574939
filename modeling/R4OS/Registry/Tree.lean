import Mathlib.Logic.Function.Iterate
import R4OS.Registry.Layout
import R4OS.Registry.TextExport

/-!
# The keys of a hive

Validation checks every key against its parent only.  The keys of an accepted hive form a tree rooted
at the first of them exactly when no key is its own ancestor and every other key has a name.
-/

namespace R4OS.Registry

open Text

/-- A walk in a finite set returns to some point. -/
theorem exists_iterate_eq {next : Nat → Nat} {count start : Nat} (inside : start < count)
    (closed : ∀ point < count, next point < count) :
    ∃ first second, first < second ∧ second ≤ count ∧
      next^[first] start = next^[second] start := by
  have kept : ∀ steps, next^[steps] start < count := by
    intro steps
    induction steps with
    | zero => exact inside
    | succ steps induction =>
      rw [Function.iterate_succ_apply']
      exact closed _ induction
  have fewer : (Finset.range count).card < (Finset.range (count + 1)).card := by simp
  have maps : Set.MapsTo (fun steps => next^[steps] start) (Finset.range (count + 1) : Set Nat)
      (Finset.range count) := by
    intro steps _
    simpa using kept steps
  obtain ⟨first, first_mem, second, second_mem, different, same⟩ :=
    Finset.exists_ne_map_eq_of_card_lt_of_maps_to fewer maps
  rw [Finset.mem_range] at first_mem second_mem
  rcases Nat.lt_or_gt_of_ne different with before | after
  · exact ⟨first, second, before, by omega, same⟩
  · exact ⟨second, first, after, by omega, same.symm⟩

/-- A walk that does not return to a point except its end reaches the end. -/
theorem exists_iterate_eq_end {next : Nat → Nat} {count start stop : Nat} (inside : start < count)
    (closed : ∀ point < count, next point < count)
    (simple : ∀ point < count, point ≠ stop → ∀ steps, 0 < steps → next^[steps] point ≠ point) :
    ∃ steps ≤ count, next^[steps] start = stop := by
  obtain ⟨first, second, before, bound, same⟩ := exists_iterate_eq inside closed
  refine ⟨first, by omega, ?_⟩
  by_contra elsewhere
  have kept : next^[first] start < count := by
    clear same before bound elsewhere
    induction first with
    | zero => exact inside
    | succ steps induction =>
      rw [Function.iterate_succ_apply']
      exact closed _ induction
  apply simple _ kept elsewhere (second - first) (by omega)
  rw [← Function.iterate_add_apply, Nat.sub_add_cancel (Nat.le_of_lt before)]
  exact same.symm

/-- The parent of a key.  Walks stay at the root. -/
def parentOf (view : HiveView) (index : Nat) : Nat :=
  if index = 0 then 0 else (view.keyAt index).parent_index

/-- The keys of a hive are a tree that its readers can rely on. -/
structure Tree (view : HiveView) : Prop where
  named : ∀ index < view.header.key_count, index ≠ 0 →
    view.keyName (view.keyAt index) ≠ [] ∧ validKeyName (view.keyName (view.keyAt index)) = true
  rooted : ∀ index < view.header.key_count,
    ∃ steps ≤ view.header.key_count, (parentOf view)^[steps] index = 0
  /-- Paths are found. -/
  paths : ∀ index < view.header.key_count,
    ∃ fuel path, (keyPathString view fuel index).run = some (.ok path)
  /-- The export ends. -/
  exported : ∃ fuel text, (exportTextHive view fuel).run = some (.ok text)
  found : ∀ index < view.header.key_count, index ≠ 0 →
    view.findChild (view.keyAt index).parent_index (view.keyName (view.keyAt index)) = some index

/-- A key other than the root has no name. -/
def UnnamedKey (view : HiveView) : Prop :=
  ∃ index < view.header.key_count, index ≠ 0 ∧ (view.keyAt index).name_len = 0

/-- A key other than the root is its own ancestor. -/
def ParentCycle (view : HiveView) : Prop :=
  ∃ index < view.header.key_count, index ≠ 0 ∧ ∃ steps, 0 < steps ∧
    (parentOf view)^[steps] index = index

section Tree

variable {view : HiveView} {index : Nat}

theorem parentOf_zero (view : HiveView) : parentOf view 0 = 0 := if_pos rfl

theorem parentOf_of_ne_zero (child : index ≠ 0) :
    parentOf view index = (view.keyAt index).parent_index := if_neg child

theorem Valid.listed (valid : Valid view) (inside : index < view.header.key_count)
    (child : index ≠ 0) :
    (view.keyAt index).parent_index < view.header.key_count ∧
      ∃ offset < (view.keyAt (view.keyAt index).parent_index).child_count,
        (view.keyAt (view.keyAt index).parent_index).first_child_index + offset = index := by
  obtain ⟨_, listed⟩ := (valid.keys index inside).listed child
  simp only [keyListedByParent, Bool.and_eq_true, decide_eq_true_eq, indexInRange_iff] at listed
  obtain ⟨parent, _, after, before⟩ := listed
  exact ⟨parent, index - _, by omega, Nat.add_sub_cancel' after⟩

theorem Valid.parentOf_lt (valid : Valid view) (inside : index < view.header.key_count) :
    parentOf view index < view.header.key_count := by
  by_cases root : index = 0
  · subst root
    exact inside
  · rw [parentOf_of_ne_zero root]
    exact (valid.listed inside root).1

theorem Valid.named (valid : Valid view) (inside : index < view.header.key_count)
    (child : index ≠ 0) (named : (view.keyAt index).name_len ≠ 0) :
    view.keyName (view.keyAt index) ≠ [] ∧
      validKeyName (view.keyName (view.keyAt index)) = true := by
  obtain ⟨_, sliced⟩ := (valid.keys index inside).name child
  obtain ⟨_, name⟩ := sliced named
  refine ⟨?_, name⟩
  intro empty
  rw [show sliceFromHeap _ _ _ = ([] : Bytes) from empty] at name
  cases name

theorem Valid.findChild (valid : Valid view) (inside : index < view.header.key_count)
    (child : index ≠ 0) :
    view.findChild (view.keyAt index).parent_index (view.keyName (view.keyAt index)) =
      some index := by
  obtain ⟨parent, offset, listed, position⟩ := valid.listed inside child
  have parent_valid := valid.keys _ parent
  have range : ¬ ((view.keyAt (view.keyAt index).parent_index).child_count = 0 ∨
      (view.keyAt (view.keyAt index).parent_index).first_child_index = invalid_index) := by
    rintro (empty | nothing)
    · omega
    · rcases parent_valid.children with ⟨empty, _⟩ | ⟨_, something, _⟩
      · omega
      · exact something nothing
  unfold HiveView.findChild
  rw [if_neg (by omega)]
  dsimp only
  rw [if_neg range, List.find?_range'_eq_some]
  refine ⟨?_, ?_, ?_⟩
  · simp
  · rw [List.mem_range'_1]
    omega
  · intro earlier after before
    have distinct := valid.distinct_keys _ parent offset listed
      (earlier - (view.keyAt (view.keyAt index).parent_index).first_child_index) (by omega)
    rw [position, Nat.add_sub_cancel' after] at distinct
    simp [distinct]

theorem walk_bind {First Result : Type} {first : Walk First} {rest : First → Walk Result}
    {found : First} (ended : first.run = some (.ok found)) :
    (first >>= rest).run = (rest found).run := by
  rw [ExceptT.run_bind, ended]
  rfl

/-- The names of a path are found once the walk reaches the root. -/
theorem Valid.keyPathParts (valid : Valid view) (steps : Nat) {fuel : Nat}
    (inside : index < view.header.key_count) (reached : (parentOf view)^[steps] index = 0)
    (enough : steps < fuel) :
    ∃ parts, (Registry.keyPathParts view fuel index).run = some (.ok parts) := by
  induction steps generalizing fuel index with
  | zero =>
    obtain ⟨fuel, rfl⟩ := Nat.exists_eq_succ_of_ne_zero (Nat.ne_of_gt enough)
    have root : index = 0 := reached
    exact ⟨[], by simp [Registry.keyPathParts, root]⟩
  | succ steps induction =>
    obtain ⟨fuel, rfl⟩ := Nat.exists_eq_succ_of_ne_zero (Nat.ne_zero_of_lt enough)
    by_cases root : index = 0
    · exact ⟨[], by simp [Registry.keyPathParts, root]⟩
    · rw [Function.iterate_succ_apply, parentOf_of_ne_zero root] at reached
      obtain ⟨parent, _⟩ := valid.listed inside root
      obtain ⟨parents, walked⟩ := induction parent reached (show steps < fuel by omega)
      refine ⟨parents ++ [view.keyName (view.keyAt index)], ?_⟩
      rw [Registry.keyPathParts, if_neg root]
      dsimp only
      rw [if_neg (not_le.mpr parent), walk_bind walked]
      rfl

theorem mapM_ok {Item Result : Type} {step : Item → Walk Result} {items : List Item}
    (ends : ∀ item ∈ items, ∃ result, (step item).run = some (.ok result)) :
    ∃ results, (items.mapM step).run = some (.ok results) := by
  induction items with
  | nil => exact ⟨[], rfl⟩
  | cons item items induction =>
    obtain ⟨first, ended⟩ := ends item (.head _)
    obtain ⟨results, rest⟩ := induction fun other member =>
      ends other (.tail _ member)
    refine ⟨first :: results, ?_⟩
    rw [List.mapM_cons, walk_bind ended, walk_bind rest]
    rfl

/-- Walks that reach the root make every path and the export end. -/
theorem Valid.exports (valid : Valid view) {fuel : Nat}
    (rooted : ∀ index < view.header.key_count,
      ∃ steps < fuel, (parentOf view)^[steps] index = 0) :
    (∀ index < view.header.key_count,
        ∃ path, (keyPathString view fuel index).run = some (.ok path)) ∧
      ∃ text, (exportTextHive view fuel).run = some (.ok text) := by
  have paths : ∀ index < view.header.key_count,
      ∃ path, (keyPathString view fuel index).run = some (.ok path) := by
    intro index inside
    obtain ⟨steps, bound, reached⟩ := rooted index inside
    obtain ⟨parts, walked⟩ := valid.keyPathParts steps inside reached bound
    refine ⟨joinPath view.header.hive_kind.shortRoot parts, ?_⟩
    rw [keyPathString, if_neg (not_le.mpr inside), walk_bind walked]
    rfl
  have sections : ∃ sections,
      ((List.range view.header.key_count).mapM (exportKey view fuel)).run = some (.ok sections) := by
    apply mapM_ok
    intro index member
    obtain ⟨path, found⟩ := paths index (List.mem_range.mp member)
    unfold exportKey
    dsimp only
    split
    · exact ⟨[], rfl⟩
    · exact ⟨_, walk_bind found⟩
  obtain ⟨sections, exported⟩ := sections
  exact ⟨paths, _, walk_bind exported⟩

theorem not_reached_of_cycle {steps : Nat} (child : index ≠ 0) (pos : 0 < steps)
    (cycle : (parentOf view)^[steps] index = index) (walked : Nat) :
    (parentOf view)^[walked] index ≠ 0 := by
  intro reached
  have returned : (parentOf view)^[steps * (walked + 1)] index = index := by
    rw [Function.iterate_mul]
    exact Function.iterate_fixed cycle _
  have stays : (parentOf view)^[steps * (walked + 1) - walked] 0 = 0 :=
    Function.iterate_fixed (parentOf_zero view) _
  have longer : walked ≤ steps * (walked + 1) :=
    le_trans (Nat.le_succ walked) (Nat.le_mul_of_pos_left _ pos)
  rw [← Nat.sub_add_cancel longer, Function.iterate_add_apply, reached, stays] at returned
  exact child returned.symm

theorem not_parentCycle_of_lt
    (ordered : ∀ index < view.header.key_count, index ≠ 0 →
      (view.keyAt index).parent_index < index) : ¬ ParentCycle view := by
  rintro ⟨index, inside, child, steps, pos, cycle⟩
  have smaller : ∀ steps, (parentOf view)^[steps] index ≤ index := by
    intro steps
    induction steps with
    | zero => exact le_rfl
    | succ steps induction =>
      rw [Function.iterate_succ_apply']
      by_cases root : (parentOf view)^[steps] index = 0
      · rw [root, parentOf_zero]
        exact Nat.zero_le _
      · rw [parentOf_of_ne_zero root]
        have := ordered _ (by omega) root
        omega
  obtain ⟨steps, rfl⟩ := Nat.exists_eq_succ_of_ne_zero (Nat.ne_of_gt pos)
  rw [Function.iterate_succ_apply'] at cycle
  by_cases root : (parentOf view)^[steps] index = 0
  · rw [root, parentOf_zero] at cycle
    exact child cycle.symm
  · rw [parentOf_of_ne_zero root] at cycle
    have before := ordered _ (lt_of_le_of_lt (smaller steps) inside) root
    have bound := smaller steps
    omega

/-- The keys of an accepted hive form a tree exactly when every key but the root has a name and no
key is its own ancestor. -/
theorem tree_iff {bytes : Bytes} (parsed : parseHive bytes = .ok view) :
    Tree view ↔ ¬ UnnamedKey view ∧ ¬ ParentCycle view := by
  obtain ⟨valid, _⟩ := parseHive_valid parsed
  constructor
  · intro tree
    constructor
    · rintro ⟨index, inside, child, unnamed⟩
      apply (tree.named index inside child).1
      simp [HiveView.keyName, sliceFromHeap, unnamed]
    · rintro ⟨index, inside, child, steps, pos, cycle⟩
      obtain ⟨walked, _, reached⟩ := tree.rooted index inside
      exact not_reached_of_cycle child pos cycle walked reached
  · rintro ⟨named, acyclic⟩
    have rooted : ∀ index < view.header.key_count,
        ∃ steps ≤ view.header.key_count, (parentOf view)^[steps] index = 0 := by
      intro index inside
      apply exists_iterate_eq_end inside fun _ => valid.parentOf_lt
      intro point inside child steps pos cycle
      exact acyclic ⟨point, inside, child, steps, pos, cycle⟩
    have walks : ∀ index < view.header.key_count,
        ∃ steps < view.header.key_count + 1, (parentOf view)^[steps] index = 0 := by
      intro index inside
      obtain ⟨steps, bound, reached⟩ := rooted index inside
      exact ⟨steps, Nat.lt_succ_of_le bound, reached⟩
    obtain ⟨paths, text, exported⟩ := valid.exports walks
    constructor
    · intro index inside child
      apply valid.named inside child
      intro unnamed
      exact named ⟨index, inside, child, unnamed⟩
    · exact rooted
    · exact fun index inside => ⟨_, paths index inside⟩
    · exact ⟨_, text, exported⟩
    · exact fun index inside child => valid.findChild inside child

end Tree

/-- A hive with one key besides the root. -/
def twoKeys (root : KeyRecord) (child : KeyRecord) : Layout where
  kind := .system
  generation := 1
  keys := [root, child]
  values := []
  strings := ascii "A"
  data := []

/-- A key without values. -/
def bareKey (parent_index name_len first_child_index child_count : Nat) : KeyRecord where
  parent_index
  name_offset := 0
  name_len
  first_value_index := invalid_index
  value_count := 0
  first_child_index
  child_count

/-- A root with one child. -/
def rootedHive : Layout := twoKeys (bareKey invalid_index 0 1 1) (bareKey 0 1 invalid_index 0)

theorem tree_iff_rooted : Tree rootedHive.view := by
  have parsed : parseHive rootedHive.bytes = .ok rootedHive.view := by decide +kernel
  have keys : rootedHive.view.header.key_count = 2 := rfl
  have child : (rootedHive.view.keyAt 1).name_len = 1 ∧
      (rootedHive.view.keyAt 1).parent_index = 0 := by decide
  refine (tree_iff parsed).mpr ⟨?_, not_parentCycle_of_lt ?_⟩
  · rintro ⟨index, inside, other, unnamed⟩
    obtain rfl : index = 1 := by omega
    rw [child.1] at unnamed
    cases unnamed
  · intro index inside other
    obtain rfl : index = 1 := by omega
    rw [child.2]
    exact Nat.zero_lt_one

/-- A root without children and a key that is its own child. -/
def detachedHive : Layout :=
  twoKeys (bareKey invalid_index 0 invalid_index 0) (bareKey 1 1 1 1)

/-- The parser accepts a key that is its own parent, whose path is never found. -/
theorem detached_accepted :
    parseHive detachedHive.bytes = .ok detachedHive.view ∧
      (∀ fuel, (keyPathString detachedHive.view fuel 1).run = none) ∧ ¬ Tree detachedHive.view := by
  have parsed : parseHive detachedHive.bytes = .ok detachedHive.view := by decide +kernel
  have child : (detachedHive.view.keyAt 1).parent_index = 1 := by decide
  have keys : detachedHive.view.header.key_count = 2 := rfl
  have endless : ∀ fuel, (keyPathParts detachedHive.view fuel 1).run = none := by
    intro fuel
    induction fuel with
    | zero => rfl
    | succ fuel induction => simp [keyPathParts, child, keys, induction]
  refine ⟨parsed, ?_, ?_⟩
  · intro fuel
    simp [keyPathString, keys, endless fuel]
  · intro tree
    refine ((tree_iff parsed).mp tree).2 ⟨1, by omega, Nat.one_ne_zero, 1, Nat.one_pos, ?_⟩
    exact (parentOf_of_ne_zero Nat.one_ne_zero).trans child

end R4OS.Registry
