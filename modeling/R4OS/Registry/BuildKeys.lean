import R4OS.Registry.Build

/-!
# The key table of the builder

Keys stand behind their parents, siblings differ in name, and every key is linked to its children in
the order in which they came.  A child is found by its name, with buckets or without.
-/

namespace R4OS.Registry

open Hashing Text

theorem asciiEqlIgnoreCase_comm (a b : Bytes) : asciiEqlIgnoreCase a b = asciiEqlIgnoreCase b a := by
  rw [Bool.eq_iff_iff, asciiEqlIgnoreCase_iff, asciiEqlIgnoreCase_iff, eq_comm]

section Keys

variable {keys : List BuildKey} {index target : Nat}

theorem keyOf_of_le (outside : keys.length ≤ index) : keyOf keys index = {} := by
  unfold keyOf
  exact List.getD_eq_default _ _ outside

theorem keyOf_append (more : List BuildKey) (inside : index < keys.length) :
    keyOf (keys ++ more) index = keyOf keys index := by
  unfold keyOf
  rw [List.getD_append _ _ _ _ inside]

@[simp] theorem keyOf_append_length (key : BuildKey) : keyOf (keys ++ [key]) keys.length = key := by
  simp [keyOf, List.getD_eq_getElem?_getD]

theorem keyOf_modify (change : BuildKey → BuildKey) (inside : target < keys.length) :
    keyOf (keys.modify target change) index =
      if target = index then change (keyOf keys index) else keyOf keys index := by
  unfold keyOf
  rw [List.getD_eq_getElem?_getD, List.getD_eq_getElem?_getD, List.getElem?_modify]
  split
  · next same =>
      subst same
      simp [List.getElem?_eq_getElem inside]
  · simp

theorem keyOf_modify_field {Field : Type} (field : BuildKey → Field)
    {change : BuildKey → BuildKey} (keeps : ∀ key, field (change key) = field key) :
    field (keyOf (keys.modify target change) index) = field (keyOf keys index) := by
  by_cases inside : target < keys.length
  · rw [keyOf_modify change inside]
    split
    · exact keeps _
    · rfl
  · rw [List.modify_eq_self (not_lt.mp inside)]

end Keys

/-- The part of a key that links it to other keys. -/
def BuildKey.shape (key : BuildKey) : BuildKey :=
  { key with flat_index := invalid_index, value_count := 0, value_first := 0, value_cursor := 0 }

/-- Tables with the same keys and links. -/
def SameShape (before after : List BuildKey) : Prop :=
  before.map BuildKey.shape = after.map BuildKey.shape

theorem SameShape.refl (keys : List BuildKey) : SameShape keys keys := rfl

theorem SameShape.trans {first second third : List BuildKey} (before : SameShape first second)
    (after : SameShape second third) : SameShape first third :=
  Eq.trans before after

theorem SameShape.length {before after : List BuildKey} (same : SameShape before after) :
    after.length = before.length := by
  have lengths := congrArg List.length same
  simpa using lengths.symm

theorem SameShape.modify {keys : List BuildKey} {target : Nat} {change : BuildKey → BuildKey}
    (keeps : ∀ key, (change key).shape = key.shape) : SameShape keys (keys.modify target change) := by
  apply List.ext_getElem?
  intro index
  rw [List.getElem?_map, List.getElem?_map, List.getElem?_modify]
  split
  · cases keys[index]? with
    | none => rfl
    | some key => simp [keeps]
  · simp

theorem SameShape.keyOf {before after : List BuildKey} (same : SameShape before after)
    (index : Nat) : (Registry.keyOf after index).shape = (Registry.keyOf before index).shape := by
  have mapped (keys : List BuildKey) :
      (Registry.keyOf keys index).shape = Registry.keyOf (keys.map BuildKey.shape) index := by
    unfold Registry.keyOf
    rw [List.getD_eq_getElem?_getD, List.getD_eq_getElem?_getD, List.getElem?_map]
    cases keys[index]? <;> rfl
  rw [mapped, mapped, same]

section Shape

variable {before after : List BuildKey} (same : SameShape before after)

include same

theorem SameShape.field {Field : Type} (field : BuildKey → Field)
    (kept : ∀ key : BuildKey, field key.shape = field key) (index : Nat) :
    field (Registry.keyOf after index) = field (Registry.keyOf before index) := by
  rw [← kept, same.keyOf, kept]

variable (index : Nat)

include index

theorem SameShape.parent :
    (Registry.keyOf after index).parent = (Registry.keyOf before index).parent :=
  same.field BuildKey.parent (fun _ => rfl) index

theorem SameShape.name :
    (Registry.keyOf after index).name = (Registry.keyOf before index).name :=
  same.field BuildKey.name (fun _ => rfl) index

theorem SameShape.first_child :
    (Registry.keyOf after index).first_child = (Registry.keyOf before index).first_child :=
  same.field BuildKey.first_child (fun _ => rfl) index

theorem SameShape.last_child :
    (Registry.keyOf after index).last_child = (Registry.keyOf before index).last_child :=
  same.field BuildKey.last_child (fun _ => rfl) index

theorem SameShape.next_sibling :
    (Registry.keyOf after index).next_sibling = (Registry.keyOf before index).next_sibling :=
  same.field BuildKey.next_sibling (fun _ => rfl) index

theorem SameShape.child_count :
    (Registry.keyOf after index).child_count = (Registry.keyOf before index).child_count :=
  same.field BuildKey.child_count (fun _ => rfl) index

end Shape

/-- The children of a key in the order of the table. -/
def childrenOf (keys : List BuildKey) (parent : Nat) : List Nat :=
  (List.range' 1 (keys.length - 1)).filter fun index => (keyOf keys index).parent = parent

/-- Keys that follow each other as siblings. -/
def Chain (keys : List BuildKey) : (start : Nat) → List Nat → Prop
  | start, [] => start = invalid_index
  | start, child :: rest => start = child ∧ Chain keys (keyOf keys child).next_sibling rest

/-- The links of a key lead to its children. -/
structure Linked (keys : List BuildKey) (parent : Nat) : Prop where
  chain : Chain keys (keyOf keys parent).first_child (childrenOf keys parent)
  last : (keyOf keys parent).last_child = (childrenOf keys parent).getLast?.getD invalid_index
  count : (keyOf keys parent).child_count = (childrenOf keys parent).length

/-- The invariant of a table.  Links are told from the index that refers to nothing while the table
is short enough. -/
structure KeysSound (keys : List BuildKey) : Prop where
  nonempty : 0 < keys.length
  root_parent : (keyOf keys 0).parent = invalid_index
  root_name : (keyOf keys 0).name = []
  parents : ∀ index < keys.length, index ≠ 0 → (keyOf keys index).parent < index
  names : ∀ index < keys.length, index ≠ 0 → validKeyName (keyOf keys index).name = true
  distinct : ∀ first < keys.length, ∀ second < keys.length, first ≠ 0 → second ≠ 0 →
    (keyOf keys first).parent = (keyOf keys second).parent →
    asciiEqlIgnoreCase (keyOf keys first).name (keyOf keys second).name = true → first = second
  links : keys.length ≤ invalid_index → ∀ parent < keys.length, Linked keys parent

section Children

variable {keys : List BuildKey} {parent index : Nat}

variable {before after : List BuildKey}

theorem mem_range'_one {count : Nat} : index ∈ List.range' 1 (count - 1) ↔
    index ≠ 0 ∧ index < count := by
  rw [List.mem_range'_1]
  omega

/-- The indices of all keys but the root with one more key. -/
theorem range'_one_succ {count : Nat} (nonempty : 0 < count) :
    List.range' 1 (count + 1 - 1) = List.range' 1 (count - 1) ++ [count] := by
  rw [show count + 1 - 1 = count - 1 + 1 by omega, List.range'_concat]
  congr 2
  omega

theorem mem_childrenOf : index ∈ childrenOf keys parent ↔
    index ≠ 0 ∧ index < keys.length ∧ (keyOf keys index).parent = parent := by
  rw [childrenOf, List.mem_filter, mem_range'_one, decide_eq_true_eq, and_assoc]

theorem childrenOf_nodup (keys : List BuildKey) (parent : Nat) : (childrenOf keys parent).Nodup :=
  (List.nodup_range' 1).filter _

theorem SameShape.childrenOf (same : SameShape before after)
    (parent : Nat) : Registry.childrenOf after parent = Registry.childrenOf before parent := by
  unfold Registry.childrenOf
  rw [same.length]
  simp [same.parent]

theorem Chain.congr {start : Nat} {items : List Nat} (chain : Chain before start items)
    (same : ∀ item ∈ items, (keyOf after item).next_sibling = (keyOf before item).next_sibling) :
    Chain after start items := by
  induction items generalizing start with
  | nil => exact chain
  | cons item items induction =>
    obtain ⟨first, rest⟩ := chain
    refine ⟨first, induction ?_ fun other member => same other (.tail _ member)⟩
    rwa [same item List.mem_cons_self]

theorem Chain.snoc {start last child : Nat} {items : List Nat}
    (chain : Chain before start (items ++ [last])) (distinct : last ∉ items)
    (same : ∀ item ∈ items, (keyOf after item).next_sibling = (keyOf before item).next_sibling)
    (link : (keyOf after last).next_sibling = child)
    (stop : (keyOf after child).next_sibling = invalid_index) :
    Chain after start (items ++ [last] ++ [child]) := by
  induction items generalizing start with
  | nil =>
    obtain ⟨first, _⟩ := chain
    exact ⟨first, link, stop⟩
  | cons item items induction =>
    obtain ⟨first, rest⟩ := chain
    rw [List.mem_cons, not_or] at distinct
    refine ⟨first, induction ?_ distinct.2
      fun other member => same other (.tail _ member)⟩
    rwa [same item List.mem_cons_self]

theorem SameShape.linked (same : SameShape before after)
    (linked : Linked before parent) : Linked after parent := by
  constructor
  · rw [same.first_child, same.childrenOf]
    exact linked.chain.congr fun item _ => same.next_sibling item
  · rw [same.last_child, same.childrenOf]
    exact linked.last
  · rw [same.child_count, same.childrenOf]
    exact linked.count

theorem SameShape.sound (same : SameShape before after)
    (sound : KeysSound before) : KeysSound after := by
  have length := same.length
  constructor
  · rw [length]
    exact sound.nonempty
  · rw [same.parent]
    exact sound.root_parent
  · rw [same.name]
    exact sound.root_name
  · simpa only [length, same.parent] using sound.parents
  · simpa only [length, same.name] using sound.names
  · simpa only [length, same.parent, same.name] using sound.distinct
  · intro short parent inside
    rw [length] at short inside
    exact same.linked (sound.links short parent inside)

end Children

section Add

variable {keys : List BuildKey} {parent : Nat} {name : Bytes} {index : Nat}

/-- A table with one more key. -/
def withChild (keys : List BuildKey) (parent : Nat) (name : Bytes) : List BuildKey :=
  linkChild (keys ++ [({ parent, name } : BuildKey)]) parent keys.length

@[simp] theorem length_linkChild (keys : List BuildKey) (parent child : Nat) :
    (linkChild keys parent child).length = keys.length := by
  unfold linkChild
  dsimp only
  rw [List.length_modify]
  split <;> rw [List.length_modify]

@[simp] theorem length_withChild (keys : List BuildKey) (parent : Nat) (name : Bytes) :
    (withChild keys parent name).length = keys.length + 1 := by
  simp [withChild]

theorem linkChild_field {Field : Type} (field : BuildKey → Field)
    (links : ∀ key next_sibling first_child last_child child_count,
      field { key with next_sibling, first_child, last_child, child_count } = field key)
    (keys : List BuildKey) (parent child : Nat) :
    field (keyOf (linkChild keys parent child) index) = field (keyOf keys index) := by
  unfold linkChild
  dsimp only
  rw [keyOf_modify_field field fun key => links key key.next_sibling key.first_child child
    (key.child_count + 1)]
  split
  · exact keyOf_modify_field field fun key =>
      links key child key.first_child key.last_child key.child_count
  · exact keyOf_modify_field field fun key =>
      links key key.next_sibling child key.last_child key.child_count

theorem withChild_parent (inside : index < keys.length) :
    (keyOf (withChild keys parent name) index).parent = (keyOf keys index).parent := by
  rw [withChild, linkChild_field BuildKey.parent fun _ _ _ _ _ => rfl, keyOf_append _ inside]

theorem withChild_name (inside : index < keys.length) :
    (keyOf (withChild keys parent name) index).name = (keyOf keys index).name := by
  rw [withChild, linkChild_field BuildKey.name fun _ _ _ _ _ => rfl, keyOf_append _ inside]

theorem withChild_new_parent : (keyOf (withChild keys parent name) keys.length).parent = parent := by
  rw [withChild, linkChild_field BuildKey.parent fun _ _ _ _ _ => rfl, keyOf_append_length]

theorem withChild_new_name : (keyOf (withChild keys parent name) keys.length).name = name := by
  rw [withChild, linkChild_field BuildKey.name fun _ _ _ _ _ => rfl, keyOf_append_length]

theorem childrenOf_withChild (nonempty : 0 < keys.length) (other : Nat) :
    childrenOf (withChild keys parent name) other =
      childrenOf keys other ++ if parent = other then [keys.length] else [] := by
  unfold childrenOf
  rw [length_withChild, range'_one_succ nonempty, List.filter_append]
  congr 1
  · apply List.filter_congr
    intro index member
    rw [withChild_parent (mem_range'_one.mp member).2]
  · rw [List.filter_singleton, withChild_new_parent]
    simp

variable (name) in
theorem withChild_links (inside : parent < keys.length)
    (held : (keyOf keys parent).last_child ≠ invalid_index →
      (keyOf keys parent).last_child < keys.length) (index : Nat) :
    (keyOf (withChild keys parent name) index).next_sibling =
        (if (keyOf keys parent).last_child ≠ invalid_index ∧
          (keyOf keys parent).last_child = index then keys.length
        else (keyOf (keys ++ [({ parent, name } : BuildKey)]) index).next_sibling) ∧
      (keyOf (withChild keys parent name) index).first_child =
        (if (keyOf keys parent).last_child = invalid_index ∧ parent = index then keys.length
        else (keyOf (keys ++ [({ parent, name } : BuildKey)]) index).first_child) ∧
      (keyOf (withChild keys parent name) index).last_child =
        (if parent = index then keys.length
        else (keyOf (keys ++ [({ parent, name } : BuildKey)]) index).last_child) ∧
      (keyOf (withChild keys parent name) index).child_count =
        (keyOf (keys ++ [({ parent, name } : BuildKey)]) index).child_count +
          if parent = index then 1 else 0 := by
  have longer : parent < (keys ++ [({ parent, name } : BuildKey)]).length := by
    rw [List.length_append]
    omega
  unfold withChild linkChild
  dsimp only
  rw [keyOf_append _ inside]
  by_cases first : (keyOf keys parent).last_child = invalid_index
  · rw [if_neg (not_not.mpr first), keyOf_modify _ (by rw [List.length_modify]; exact longer),
      keyOf_modify _ longer]
    rcases eq_or_ne parent index with rfl | other
    · simp [first]
    · simp [first, other]
  · have behind : (keyOf keys parent).last_child <
        (keys ++ [({ parent, name } : BuildKey)]).length := by
      have := held first
      rw [List.length_append]
      omega
    rw [if_pos first, keyOf_modify _ (by rw [List.length_modify]; exact longer),
      keyOf_modify _ behind]
    rcases eq_or_ne parent index with rfl | other
    · by_cases last : (keyOf keys parent).last_child = parent
      · rw [last] at first
        simp [first, last]
      · simp [first, last]
    · rcases eq_or_ne (keyOf keys parent).last_child index with rfl | between
      · simp [first, other]
      · simp [first, other, between]

theorem Linked.last_mem (linked : Linked keys parent)
    (some : (keyOf keys parent).last_child ≠ invalid_index) :
    (keyOf keys parent).last_child ∈ childrenOf keys parent := by
  rw [linked.last] at some ⊢
  cases last : (childrenOf keys parent).getLast? with
  | none =>
    rw [last] at some
    exact absurd rfl some
  | some child => exact List.mem_of_getLast? last

theorem Linked.withChild_other (linked : Linked keys parent) {other : Nat}
    (links : Linked keys other) (nonempty : 0 < keys.length) (inside : parent < keys.length)
    (different : parent ≠ other) (bound : other < keys.length) :
    Linked (withChild keys parent name) other := by
  have held (some : (keyOf keys parent).last_child ≠ invalid_index) :=
    (mem_childrenOf.mp (linked.last_mem some)).2.1
  have children : childrenOf (withChild keys parent name) other = childrenOf keys other := by
    rw [childrenOf_withChild nonempty, if_neg different, List.append_nil]
  obtain ⟨_, first, last, count⟩ := withChild_links name inside held other
  rw [if_neg (fun both => different both.2), keyOf_append _ bound] at first
  rw [if_neg different, keyOf_append _ bound] at last
  rw [if_neg different, keyOf_append _ bound] at count
  constructor
  · rw [first, children]
    apply links.chain.congr
    intro item member
    obtain ⟨_, item_inside, owner⟩ := mem_childrenOf.mp member
    obtain ⟨next, _⟩ := withChild_links name inside held item
    rw [next, keyOf_append _ item_inside, if_neg]
    rintro ⟨some, same⟩
    have owned := (mem_childrenOf.mp (linked.last_mem some)).2.2
    rw [same, owner] at owned
    exact different owned.symm
  · rw [last, children]
    exact links.last
  · rw [count, children]
    exact links.count

theorem Linked.withChild_self (linked : Linked keys parent) (nonempty : 0 < keys.length)
    (inside : parent < keys.length) (short : keys.length < invalid_index) :
    Linked (withChild keys parent name) parent := by
  have held (some : (keyOf keys parent).last_child ≠ invalid_index) :=
    (mem_childrenOf.mp (linked.last_mem some)).2.1
  have children : childrenOf (withChild keys parent name) parent =
      childrenOf keys parent ++ [keys.length] := by
    rw [childrenOf_withChild nonempty, if_pos rfl]
  obtain ⟨_, first, last, count⟩ := withChild_links name inside held parent
  rw [keyOf_append _ inside] at first count
  rw [if_pos rfl] at last count
  have stop : (keyOf (withChild keys parent name) keys.length).next_sibling = invalid_index := by
    obtain ⟨next, _⟩ := withChild_links name inside held keys.length
    rw [next, keyOf_append_length, if_neg]
    rintro ⟨some, same⟩
    exact Nat.lt_irrefl _ (same ▸ held some)
  constructor
  · rw [first, children]
    rcases List.eq_nil_or_concat (childrenOf keys parent) with empty | ⟨items, child, split⟩
    · have none : (keyOf keys parent).last_child = invalid_index := by rw [linked.last, empty]; rfl
      rw [if_pos ⟨none, rfl⟩, empty]
      exact ⟨rfl, stop⟩
    · rw [List.concat_eq_append] at split
      have at_end : (keyOf keys parent).last_child = child := by rw [linked.last, split]; simp
      have member : child ∈ childrenOf keys parent := by simp [split]
      have some : (keyOf keys parent).last_child ≠ invalid_index := by
        have := (mem_childrenOf.mp member).2.1
        omega
      have nodup := childrenOf_nodup keys parent
      have chain := linked.chain
      rw [split] at nodup chain
      have distinct : child ∉ items := by
        rw [List.nodup_append] at nodup
        exact fun inner => nodup.2.2 child inner child (List.mem_singleton_self _) rfl
      rw [if_neg fun both => some both.1, split]
      apply chain.snoc distinct ?_ ?_ stop
      · intro item inner
        have item_inside := (mem_childrenOf.mp (split ▸ List.mem_append_left _ inner)).2.1
        obtain ⟨next, _⟩ := withChild_links name inside held item
        rw [next, keyOf_append _ item_inside, if_neg]
        rintro ⟨_, same⟩
        rw [at_end] at same
        exact distinct (same ▸ inner)
      · obtain ⟨next, _⟩ := withChild_links name inside held child
        rw [next, if_pos ⟨some, at_end⟩]
  · rw [last, children]
    simp
  · rw [count, children, linked.count]
    simp

theorem KeysSound.withChild_new (sound : KeysSound keys) (linked : Linked keys parent)
    (inside : parent < keys.length) : Linked (withChild keys parent name) keys.length := by
  have held (some : (keyOf keys parent).last_child ≠ invalid_index) :=
    (mem_childrenOf.mp (linked.last_mem some)).2.1
  have different : parent ≠ keys.length := by omega
  have children : childrenOf (withChild keys parent name) keys.length = [] := by
    rw [childrenOf_withChild sound.nonempty, if_neg different, List.append_nil]
    apply List.eq_nil_iff_forall_not_mem.mpr
    intro index member
    obtain ⟨other, bound, owner⟩ := mem_childrenOf.mp member
    have := sound.parents index bound other
    omega
  obtain ⟨_, first, last, count⟩ := withChild_links name inside held keys.length
  rw [keyOf_append_length] at first last count
  rw [if_neg fun both => different both.2] at first
  rw [if_neg different] at last count
  constructor
  · rw [first, children]
    rfl
  · rw [last, children]
    rfl
  · rw [count, children]
    rfl

theorem KeysSound.withChild (sound : KeysSound keys) (inside : parent < keys.length)
    (valid : validKeyName name = true)
    (fresh : ∀ index < keys.length, index ≠ 0 → isChild keys parent name index = false) :
    KeysSound (withChild keys parent name) := by
  have nonempty := sound.nonempty
  constructor
  · rw [length_withChild]
    omega
  · rw [withChild_parent nonempty]
    exact sound.root_parent
  · rw [withChild_name nonempty]
    exact sound.root_name
  · intro index bound other
    rw [length_withChild] at bound
    rcases Nat.lt_succ_iff_lt_or_eq.mp bound with old | rfl
    · rw [withChild_parent old]
      exact sound.parents index old other
    · rw [withChild_new_parent]
      exact inside
  · intro index bound other
    rw [length_withChild] at bound
    rcases Nat.lt_succ_iff_lt_or_eq.mp bound with old | rfl
    · rw [withChild_name old]
      exact sound.names index old other
    · rw [withChild_new_name]
      exact valid
  · intro first first_bound second second_bound first_other second_other
    rw [length_withChild] at first_bound second_bound
    rcases Nat.lt_succ_iff_lt_or_eq.mp first_bound with first_old | rfl
    · rw [withChild_parent first_old, withChild_name first_old]
      rcases Nat.lt_succ_iff_lt_or_eq.mp second_bound with second_old | rfl
      · rw [withChild_parent second_old, withChild_name second_old]
        exact sound.distinct first first_old second second_old first_other second_other
      · rw [withChild_new_parent, withChild_new_name]
        intro owner matching
        have different := fresh first first_old first_other
        simp [isChild, owner, matching] at different
    · rw [withChild_new_parent, withChild_new_name]
      rcases Nat.lt_succ_iff_lt_or_eq.mp second_bound with second_old | rfl
      · rw [withChild_parent second_old, withChild_name second_old]
        intro owner matching
        have different := fresh second second_old second_other
        rw [asciiEqlIgnoreCase_comm] at matching
        simp [isChild, owner, matching] at different
      · exact fun _ _ => rfl
  · intro short other bound
    rw [length_withChild] at short bound
    have linked := sound.links (by omega) parent inside
    rcases Nat.lt_succ_iff_lt_or_eq.mp bound with old | rfl
    · by_cases same : parent = other
      · subst same
        exact linked.withChild_self nonempty inside (by omega)
      · exact linked.withChild_other (sound.links (by omega) other old) nonempty inside same old
    · exact sound.withChild_new linked inside

end Add

end R4OS.Registry
