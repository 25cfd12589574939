import Mathlib.Data.List.Nodup

/-!
# Level order

Numbering the nodes of a tree level by level.  A queue starts with the root, and the children of one
entry after the other are put behind its end.  In the final queue every node stands once, and the
children of a node stand next to each other.
-/

namespace R4OS.Traversal

variable {Node : Type} {children : Node → List Node} {root : Node}

/-- A queue whose entries before the cursor have been expanded. -/
structure LevelOrder (children : Node → List Node) (root : Node) (queue : List Node)
    (cursor : Nat) : Prop where
  expanded : queue = root :: (queue.take cursor).flatMap children
  distinct : queue.Nodup

theorem LevelOrder.start (children : Node → List Node) (root : Node) :
    LevelOrder children root [root] 0 := by
  constructor
  · simp
  · simp

/-- Children of different nodes differ, and the root is nobody's child. -/
structure Forest (children : Node → List Node) (root : Node) : Prop where
  one_parent : ∀ first second child, child ∈ children first → child ∈ children second →
    first = second
  siblings : ∀ node, (children node).Nodup
  rootless : ∀ node, root ∉ children node

section Queue

variable {queue : List Node} {cursor : Nat}

theorem LevelOrder.step (forest : Forest children root)
    (level : LevelOrder children root queue cursor) (inside : cursor < queue.length) :
    LevelOrder children root (queue ++ children queue[cursor]) (cursor + 1) := by
  constructor
  · have front : (queue ++ children queue[cursor]).take (cursor + 1) =
        queue.take cursor ++ [queue[cursor]] := by
      rw [List.take_append_of_le_length (by omega), List.take_add_one, List.getElem?_eq_getElem inside]
      rfl
    rw [front, List.flatMap_append, List.flatMap_singleton, ← List.cons_append, ← level.expanded]
  · rw [List.nodup_append]
    refine ⟨level.distinct, forest.siblings _, ?_⟩
    rintro child member _ new rfl
    rw [level.expanded] at member
    rcases List.mem_cons.mp member with rfl | old
    · exact forest.rootless _ new
    · obtain ⟨node, before, listed⟩ := List.mem_flatMap.mp old
      rw [forest.one_parent _ _ _ listed new] at before
      obtain ⟨position, bound, same⟩ := List.getElem_of_mem before
      rw [List.getElem_take] at same
      have equal := (level.distinct.getElem_inj_iff).mp same
      rw [List.length_take] at bound
      omega

variable (level : LevelOrder children root queue queue.length)

include level

/-- The equation of a queue that is fully expanded. -/
theorem LevelOrder.unfold : queue = root :: queue.flatMap children := by
  have expanded := level.expanded
  rwa [List.take_length] at expanded

theorem LevelOrder.root_mem : root ∈ queue := by
  rw [level.unfold]
  exact (.head _)

theorem LevelOrder.child_mem {node child : Node} (member : node ∈ queue)
    (listed : child ∈ children node) : child ∈ queue := by
  rw [level.unfold]
  exact .tail _ (List.mem_flatMap.mpr ⟨node, member, listed⟩)

theorem LevelOrder.split {position : Nat} (inside : position < queue.length) :
    queue = (root :: (queue.take position).flatMap children) ++
      (children queue[position] ++ (queue.drop (position + 1)).flatMap children) := by
  have parts : queue = queue.take position ++ (queue[position] :: queue.drop (position + 1)) := by
    rw [← List.drop_eq_getElem_cons inside, List.take_append_drop]
  calc queue = root :: queue.flatMap children := level.unfold
    _ = root :: (queue.take position ++ (queue[position] :: queue.drop (position + 1))).flatMap
        children := by rw [← parts]
    _ = _ := by rw [List.flatMap_append, List.flatMap_cons, List.cons_append]

theorem LevelOrder.child_at {position offset : Nat} (inside : position < queue.length)
    (within : offset < (children queue[position]).length) :
    queue[((queue.take position).flatMap children).length + 1 + offset]? =
      some (children queue[position])[offset] := by
  have parts := level.split inside
  rw [congrArg (fun entries : List Node =>
    entries[((queue.take position).flatMap children).length + 1 + offset]?) parts]
  rw [List.getElem?_append_right (by simp only [List.length_cons]; omega),
    List.getElem?_append_left (by simp only [List.length_cons]; omega)]
  simp only [List.length_cons, Nat.add_sub_cancel_left]
  exact List.getElem?_eq_getElem within

end Queue

end R4OS.Traversal
