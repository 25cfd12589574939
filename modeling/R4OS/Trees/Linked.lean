import Mathlib.Data.List.Perm.Basic

/-!
# Trees of linked blocks

Blocks hold entries and refer to each other by their places in a list.  A block reads as the keys of
its entries with the keys of their children in front of them, and the keys of its last child at the
end.  Blocks are only appended, so what reads once reads for ever.
-/

namespace R4OS.Trees

structure Entry (Key : Type) where
  key : Key
  child : Option Nat

/-- Entries, with the block of the keys behind all of them. -/
structure Block (Key : Type) where
  entries : List (Entry Key)
  last : Option Nat

variable {Key : Type}

/-- The keys of entries and of a last child, given what children read as. -/
inductive Reads (below : Option Nat → List Key → Prop) :
    List (Entry Key) → Option Nat → List Key → Prop
  | last {child : Option Nat} {keys : List Key} (read : below child keys) :
      Reads below [] child keys
  | entry {entry : Entry Key} {rest : List (Entry Key)} {child : Option Nat}
      {part keys : List Key} (read : below entry.child part)
      (others : Reads below rest child keys) :
      Reads below (entry :: rest) child (part ++ entry.key :: keys)

/-- A tree of a height reads as some keys: all of its lowest blocks are at the same depth. -/
def Subtree (blocks : List (Block Key)) : Nat → Option Nat → List Key → Prop
  | 0, child, keys => child = none ∧ keys = []
  | height + 1, child, keys => ∃ place block, child = some place ∧ blocks[place]? = some block ∧
      Reads (Subtree blocks height) block.entries block.last keys

def Block.children (block : Block Key) : List Nat :=
  block.entries.filterMap Entry.child ++ block.last.toList

def references (blocks : List (Block Key)) : List Nat := blocks.flatMap Block.children

section Reading

variable {below other : Option Nat → List Key → Prop} {entries first rest : List (Entry Key)}
  {entry : Entry Key} {last : Option Nat} {keys : List Key}

theorem Reads.mono (weaker : ∀ child keys, below child keys → other child keys)
    (reads : Reads below entries last keys) : Reads other entries last keys := by
  induction reads with
  | last read => exact .last (weaker _ _ read)
  | entry read _ induction => exact .entry (weaker _ _ read) induction

/-- Entries split at one of them: its child ends the entries before it. -/
theorem Reads.split (reads : Reads below (first ++ entry :: rest) last keys) :
    ∃ front behind, keys = front ++ entry.key :: behind ∧ Reads below first entry.child front ∧
      Reads below rest last behind := by
  induction first generalizing keys with
  | nil =>
    cases reads with
    | entry read others => exact ⟨_, _, rfl, .last read, others⟩
  | cons head first induction =>
    cases reads with
    | entry read others =>
      obtain ⟨front, behind, rfl, reads_front, reads_behind⟩ := induction others
      exact ⟨_ ++ head.key :: front, behind, by simp, .entry read reads_front, reads_behind⟩

theorem Reads.join {front behind : List Key} (reads_front : Reads below first entry.child front)
    (reads_behind : Reads below rest last behind) :
    Reads below (first ++ entry :: rest) last (front ++ entry.key :: behind) := by
  induction first generalizing front with
  | nil =>
    cases reads_front with
    | last read => exact .entry read reads_behind
  | cons head first induction =>
    cases reads_front with
    | @entry _ _ _ part keys read others =>
      have joined := Reads.entry read (induction others)
      simpa using joined

theorem Reads.child_reads (reads : Reads below entries last keys) {child : Option Nat}
    (member : child ∈ entries.map Entry.child ∨ child = last) : ∃ part, below child part := by
  induction reads with
  | last read =>
    obtain none_left | rfl := member
    · cases none_left
    · exact ⟨_, read⟩
  | entry read others induction =>
    rw [List.map_cons, List.mem_cons, or_assoc] at member
    obtain rfl | later := member
    · exact ⟨_, read⟩
    · exact induction later

/-- The keys of entries that have no last child yet. -/
inductive Leads (below : Option Nat → List Key → Prop) : List (Entry Key) → List Key → Prop
  | nil : Leads below [] []
  | concat {entries : List (Entry Key)} {keys part : List Key} {entry : Entry Key}
      (leads : Leads below entries keys) (read : below entry.child part) :
      Leads below (entries ++ [entry]) (keys ++ (part ++ [entry.key]))

theorem Leads.mono (weaker : ∀ child keys, below child keys → other child keys)
    (leads : Leads below entries keys) : Leads other entries keys := by
  induction leads with
  | nil => exact .nil
  | concat _ read induction => exact .concat induction (weaker _ _ read)

theorem Leads.keys_eq_nil (leads : Leads below entries keys) (empty : entries = []) :
    keys = [] := by
  cases leads with
  | nil => rfl
  | concat => exact absurd empty (List.append_ne_nil_of_right_ne_nil _ (List.cons_ne_nil _ _))

/-- A last child makes entries complete. -/
theorem Leads.reads {child : Option Nat} {behind : List Key} (leads : Leads below entries keys)
    (read : below child behind) : Reads below entries child (keys ++ behind) := by
  induction leads generalizing child behind with
  | nil => exact .last read
  | concat _ part_read induction =>
    have joined := Reads.join (induction part_read) (.last read)
    simpa using joined

end Reading

section Growing

variable {blocks more : List (Block Key)} {height : Nat} {child : Option Nat} {keys : List Key}

theorem Subtree.extend (tree : Subtree blocks height child keys) :
    Subtree (blocks ++ more) height child keys := by
  induction height generalizing child keys with
  | zero => exact tree
  | succ height induction =>
    obtain ⟨place, block, place_eq, found, reads⟩ := tree
    have inside := (List.getElem?_eq_some_iff.mp found).1
    exact ⟨place, block, place_eq, (List.getElem?_append_left inside).trans found,
      reads.mono fun _ _ => induction⟩

theorem Subtree.close {entries : List (Entry Key)} {last : Option Nat}
    (reads : Reads (Subtree blocks height) entries last keys) :
    Subtree (blocks ++ [⟨entries, last⟩]) (height + 1) (some blocks.length) keys :=
  ⟨blocks.length, ⟨entries, last⟩, rfl, List.getElem?_concat_length, reads.mono fun _ _ => .extend⟩

theorem Subtree.isSome_eq (tree : Subtree blocks height child keys) :
    child.isSome = decide (0 < height) := by
  cases height with
  | zero => rw [tree.1]; rfl
  | succ height =>
    obtain ⟨place, block, rfl, -⟩ := tree
    rw [Option.isSome_some, decide_eq_true (Nat.succ_pos height)]

theorem references_append (block : Block Key) :
    references (blocks ++ [block]) = references blocks ++ block.children := by
  rw [references, List.flatMap_append, List.flatMap_singleton]
  rfl

end Growing

end R4OS.Trees
