import R4OS.Registry.BuildCollect
import R4OS.Traversal.LevelOrder

/-!
# Numbering the keys

The builder numbers its keys in level order.  Every key gets one number, the numbers of siblings
follow each other, and the values of a key are grouped behind those of the keys before it.
-/

namespace R4OS.Registry

open Text Traversal

/-- The children of a table form a tree. -/
theorem childrenOf_forest (keys : List BuildKey) : Forest (childrenOf keys) 0 := by
  constructor
  · intro first second child listed again
    exact (mem_childrenOf.mp listed).2.2.symm.trans (mem_childrenOf.mp again).2.2
  · exact childrenOf_nodup keys
  · exact fun parent listed => (mem_childrenOf.mp listed).1 rfl

section Order

variable {keys : List BuildKey} {order : List Nat} {cursor : Nat}

variable (sound : KeysSound keys)

include sound

theorem KeysSound.order_lt
    (level : LevelOrder (childrenOf keys) 0 order cursor) : ∀ index ∈ order, index < keys.length := by
  intro index member
  rw [level.expanded] at member
  rcases List.mem_cons.mp member with rfl | listed
  · exact sound.nonempty
  · obtain ⟨_, _, child⟩ := List.mem_flatMap.mp listed
    exact (mem_childrenOf.mp child).2.1

theorem KeysSound.order_length_le
    (level : LevelOrder (childrenOf keys) 0 order cursor) : order.length ≤ keys.length := by
  have inside : order ⊆ List.range keys.length :=
    fun index member => List.mem_range.mpr (sound.order_lt level index member)
  simpa using (level.distinct.subperm inside).length_le

theorem KeysSound.mem_order
    (level : LevelOrder (childrenOf keys) 0 order order.length) (index : Nat)
    (inside : index < keys.length) : index ∈ order := by
  induction index using Nat.strongRecOn with
  | ind index induction =>
    by_cases root : index = 0
    · rw [root]
      exact level.root_mem
    · have before := sound.parents index inside root
      exact level.child_mem (induction _ before (before.trans inside))
        (mem_childrenOf.mpr ⟨root, inside, rfl⟩)

theorem KeysSound.order_perm (level : LevelOrder (childrenOf keys) 0 order order.length) :
    order.Perm (List.range keys.length) := by
  rw [List.perm_ext_iff_of_nodup level.distinct List.nodup_range]
  intro index
  rw [List.mem_range]
  exact ⟨sound.order_lt level index, sound.mem_order level index⟩

end Order

structure Numbering (before after : List BuildKey) (order : List Nat) : Prop where
  shape : SameShape before after
  tally : ∀ index, (keyOf after index).tally = (keyOf before index).tally
  numbered : ∀ position (inside : position < order.length),
    (keyOf after order[position]).flat_index = position

section Flatten

variable {before keys after : List BuildKey} {order next items : List Nat}
  {capacity fuel child cursor : Nat}

section

variable (numbering : Numbering before keys order)

include numbering

theorem Numbering.snoc (inside : child < before.length) (fresh : child ∉ order) :
    Numbering before (keys.modify child fun key => { key with flat_index := order.length })
      (order ++ [child]) := by
  have held : child < keys.length := numbering.shape.length ▸ inside
  constructor
  · exact numbering.shape.trans (.modify fun _ => rfl)
  · intro index
    rw [← numbering.tally index]
    exact keyOf_modify_field BuildKey.tally fun _ => rfl
  · intro position bound
    rw [keyOf_modify _ held]
    rw [List.length_append] at bound
    rcases Nat.lt_succ_iff_lt_or_eq.mp bound with old | rfl
    · rw [List.getElem_append_left old, if_neg, numbering.numbered position old]
      rintro rfl
      exact fresh (List.getElem_mem old)
    · simp

theorem Numbering.siblings
    (short : before.length ≤ invalid_index) (chain : Chain before child items)
    (inside : ∀ item ∈ items, item < before.length) (distinct : (order ++ items).Nodup)
    (flattened : flattenSiblings capacity fuel child (keys, order) = .ok (after, next)) :
    next = order ++ items ∧ Numbering before after next ∧
      (order.length ≤ capacity → next.length ≤ capacity) := by
  induction items generalizing fuel child keys order with
  | nil =>
    have stop : child = invalid_index := chain
    have result : flattenSiblings capacity fuel child (keys, order) = .ok (keys, order) := by
      cases fuel with
      | zero | succ fuel => rw [flattenSiblings, if_pos stop]
    rw [result] at flattened
    cases flattened
    exact ⟨(List.append_nil _).symm, numbering, id⟩
  | cons item items induction =>
    obtain ⟨rfl, rest⟩ := chain
    obtain ⟨now, later⟩ := List.forall_mem_cons.mp inside
    have some : child ≠ invalid_index := by omega
    have fresh : child ∉ order := by
      rw [List.nodup_append] at distinct
      exact fun member => distinct.2.2 child member child (.head _) rfl
    cases fuel with
    | zero =>
      rw [flattenSiblings, if_neg some] at flattened
      cases flattened
    | succ fuel =>
      rw [flattenSiblings, if_neg some] at flattened
      obtain ⟨room, flattened⟩ := unit_bind_eq_ok.mp flattened
      have longer := numbering.snoc now fresh
      dsimp only at flattened
      rw [longer.shape.next_sibling] at flattened
      rw [List.append_cons] at distinct
      obtain ⟨order_eq, numbered, bound⟩ := induction longer rest later distinct flattened
      refine ⟨by rw [order_eq, ← List.append_cons], numbered, fun _ => bound ?_⟩
      rw [List.length_append]
      exact not_le.mp (reject_eq_ok.mp room)

theorem Numbering.siblings_total
    (short : before.length ≤ invalid_index) (chain : Chain before child items)
    (inside : ∀ item ∈ items, item < before.length) (distinct : (order ++ items).Nodup)
    (room : (order ++ items).length ≤ capacity) (enough : items.length ≤ fuel) :
    ∃ result, flattenSiblings capacity fuel child (keys, order) = .ok result := by
  induction items generalizing fuel child keys order with
  | nil =>
    have stop : child = invalid_index := chain
    refine ⟨(keys, order), ?_⟩
    cases fuel with
    | zero | succ fuel => rw [flattenSiblings, if_pos stop]
  | cons item items induction =>
    obtain ⟨rfl, rest⟩ := chain
    obtain ⟨now, later⟩ := List.forall_mem_cons.mp inside
    have some : child ≠ invalid_index := by omega
    have fresh : child ∉ order := by
      rw [List.nodup_append] at distinct
      exact fun member => distinct.2.2 child member child (.head _) rfl
    obtain ⟨fuel, rfl⟩ := Nat.exists_eq_add_one_of_ne_zero (Nat.ne_zero_of_lt enough)
    have free : ¬ capacity ≤ order.length := by
      simp only [List.length_append, List.length_cons] at room
      omega
    rw [List.append_cons] at distinct room
    rw [List.length_cons] at enough
    have longer := numbering.snoc now fresh
    have fewer : items.length ≤ fuel := by omega
    obtain ⟨result, flattened⟩ := induction longer rest later distinct room fewer
    refine ⟨result, ?_⟩
    rw [flattenSiblings, if_neg some]
    refine unit_bind_eq_ok.mpr ⟨reject_eq_ok.mpr free, ?_⟩
    dsimp only
    rw [longer.shape.next_sibling]
    exact flattened

end

theorem KeysSound.flattenFrom (sound : KeysSound before) (short : before.length ≤ invalid_index)
    (level : LevelOrder (childrenOf before) 0 order cursor)
    (numbering : Numbering before keys order) (room : order.length ≤ capacity)
    (left : cursor + fuel = capacity) (behind : cursor ≤ order.length)
    (flattened : Registry.flattenFrom capacity fuel cursor (keys, order) = .ok (after, next)) :
    LevelOrder (childrenOf before) 0 next next.length ∧ Numbering before after next := by
  induction fuel generalizing cursor keys order with
  | zero =>
    cases flattened
    have finished : cursor = next.length := by omega
    rw [finished] at level
    exact ⟨level, numbering⟩
  | succ fuel induction =>
    rw [Registry.flattenFrom] at flattened
    split at flattened
    · next inside =>
        obtain ⟨⟨between, longer⟩, siblings, rest⟩ := bind_eq_ok.mp flattened
        rw [List.getD_eq_getElem _ _ inside, numbering.shape.first_child] at siblings
        have parent := sound.order_lt level _ (List.getElem_mem inside)
        have more := level.step (childrenOf_forest before) inside
        obtain ⟨rfl, numbered, bound⟩ := numbering.siblings short (sound.links short _ parent).chain
          (fun item listed => (mem_childrenOf.mp listed).2.1) more.distinct siblings
        refine induction more numbered (bound room) (by omega) ?_ rest
        rw [List.length_append]
        omega
    · next finished =>
        cases flattened
        rw [show cursor = next.length by omega] at level
        exact ⟨level, numbering⟩

theorem KeysSound.flattenFrom_total (sound : KeysSound before)
    (short : before.length ≤ invalid_index) (level : LevelOrder (childrenOf before) 0 order cursor)
    (numbering : Numbering before keys order) (room : before.length ≤ capacity) (fuel : Nat) :
    ∃ result, Registry.flattenFrom capacity fuel cursor (keys, order) = .ok result := by
  induction fuel generalizing cursor keys order with
  | zero => exact ⟨(keys, order), rfl⟩
  | succ fuel induction =>
    rw [Registry.flattenFrom]
    split
    · next inside =>
        have parent := sound.order_lt level _ (List.getElem_mem inside)
        have chain := (sound.links short _ parent).chain
        have more := level.step (childrenOf_forest before) inside
        have listed : ∀ item ∈ childrenOf before order[cursor], item < before.length :=
          fun item member => (mem_childrenOf.mp member).2.1
        have fits := (sound.order_length_le more).trans room
        obtain ⟨⟨between, longer⟩, siblings⟩ := numbering.siblings_total short
          chain listed more.distinct fits (show _ ≤ capacity by rw [List.length_append] at fits; omega)
        obtain ⟨rfl, numbered, _⟩ :=
          numbering.siblings short chain listed more.distinct siblings
        obtain ⟨result, rest⟩ := induction more numbered
        rw [List.getD_eq_getElem _ _ inside]
        dsimp only
        rw [numbering.shape.first_child, siblings]
        exact ⟨result, rest⟩
    · exact ⟨(keys, order), rfl⟩

theorem flattenSiblings_shape
    (flattened : flattenSiblings capacity fuel child (keys, order) = .ok (after, next)) :
    SameShape keys after := by
  induction fuel generalizing child keys order with
  | zero =>
    rw [flattenSiblings] at flattened
    split at flattened
    · cases flattened
      exact .refl _
    · cases flattened
  | succ fuel induction =>
    rw [flattenSiblings] at flattened
    split at flattened
    · cases flattened
      exact .refl _
    · obtain ⟨_, rest⟩ := unit_bind_eq_ok.mp flattened
      refine .trans ?_ (induction rest)
      exact .modify fun _ => rfl

theorem flattenFrom_shape
    (flattened : flattenFrom capacity fuel cursor (keys, order) = .ok (after, next)) :
    SameShape keys after := by
  induction fuel generalizing cursor keys order with
  | zero =>
    cases flattened
    exact .refl _
  | succ fuel induction =>
    rw [flattenFrom] at flattened
    split at flattened
    · obtain ⟨⟨between, longer⟩, siblings, rest⟩ := bind_eq_ok.mp flattened
      exact (flattenSiblings_shape siblings).trans (induction rest)
    · cases flattened
      exact .refl _

theorem KeysSound.numbering_start (sound : KeysSound keys) :
    Numbering keys (keys.modify 0 fun key => { key with flat_index := 0 }) [0] := by
  constructor
  · exact .modify fun _ => rfl
  · exact fun index => keyOf_modify_field BuildKey.tally fun _ => rfl
  · intro position inside
    obtain rfl : position = 0 := Nat.lt_one_iff.mp inside
    rw [keyOf_modify _ sound.nonempty]
    rfl

end Flatten

end R4OS.Registry
