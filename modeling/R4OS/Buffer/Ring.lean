import Mathlib.Data.List.Rotate

/-!
# Ring buffers

A ring keeps its items in a storage of fixed length, from a reading position on and past the end of
the storage at its front.  What it holds is a list to which items are appended and whose first items
are taken.
-/

namespace R4OS.Buffer

variable {α : Type*}

def overwrite (storage : List α) (position : Nat) (items : List α) : List α :=
  storage.take position ++ items ++ storage.drop (position + items.length)

section Overwrite

variable {storage items : List α} {position : Nat}

@[simp] theorem overwrite_length (fits : position + items.length ≤ storage.length) :
    (overwrite storage position items).length = storage.length := by
  simp only [overwrite, List.length_append, List.length_take, List.length_drop]
  omega

theorem overwrite_getElem? (fits : position + items.length ≤ storage.length) (index : Nat) :
    (overwrite storage position items)[index]? =
      if index < position then storage[index]?
      else if index < position + items.length then items[index - position]? else storage[index]? := by
  have front : (storage.take position).length = position := by
    rw [List.length_take]
    omega
  rw [overwrite, List.append_assoc]
  split
  · next before =>
      rw [List.getElem?_append_left (by omega), List.getElem?_take_of_lt before]
  next behind =>
  rw [List.getElem?_append_right (by omega), front]
  split
  · next inside => rw [List.getElem?_append_left (by omega)]
  · next beyond =>
      rw [List.getElem?_append_right (by omega), List.getElem?_drop]
      congr 1
      omega

end Overwrite

/-- A ring of items. -/
structure RingBuffer (α : Type*) where
  storage : List α
  read_pos : Nat := 0
  len : Nat := 0

namespace RingBuffer

/-- The items that a ring holds, the next one to be taken first. -/
def contents (ring : RingBuffer α) : List α := (ring.storage.rotate ring.read_pos).take ring.len

/-- A ring that reads inside its storage and holds no more than it has room for. -/
structure Fits (ring : RingBuffer α) : Prop where
  placed : ring.read_pos < ring.storage.length
  held : ring.len ≤ ring.storage.length

/-- Put items behind the last one, past the end of the storage at its front. -/
def append (ring : RingBuffer α) (items : List α) : RingBuffer α :=
  let position := (ring.read_pos + ring.len) % ring.storage.length
  let first := min items.length (ring.storage.length - position)
  { ring with
    storage := overwrite (overwrite ring.storage position (items.take first)) 0 (items.drop first)
    len := ring.len + items.length }

/-- The first items. -/
def front (ring : RingBuffer α) (count : Nat) : List α :=
  let first := min count (ring.storage.length - ring.read_pos)
  (ring.storage.drop ring.read_pos).take first ++ ring.storage.take (count - first)

/-- Forget the first items. -/
def skip (ring : RingBuffer α) (count : Nat) : RingBuffer α :=
  { ring with
    read_pos := (ring.read_pos + count) % ring.storage.length
    len := ring.len - count }

section Rules

variable {ring : RingBuffer α} {items : List α} {count : Nat}

theorem contents_length (fits : ring.Fits) : ring.contents.length = ring.len := by
  rw [contents, List.length_take, List.length_rotate]
  exact min_eq_left fits.held

theorem front_eq (fits : ring.Fits) (available : count ≤ ring.len) :
    ring.front count = ring.contents.take count := by
  have placed := fits.placed
  have held := fits.held
  rw [contents, List.take_take, min_eq_left available, List.rotate_eq_drop_append_take placed.le,
    List.take_append, List.length_drop, List.take_take, front]
  by_cases within : count ≤ ring.storage.length - ring.read_pos
  · rw [min_eq_left within, Nat.sub_self, Nat.sub_eq_zero_of_le within, Nat.zero_min]
  · rw [min_eq_right (by omega), min_eq_left (by omega)]
    congr 1
    rw [List.take_of_length_le (by rw [List.length_drop]),
      List.take_of_length_le (by rw [List.length_drop]; omega)]

theorem skip_fits (fits : ring.Fits) (count : Nat) : (ring.skip count).Fits := by
  have held := fits.held
  refine ⟨Nat.mod_lt _ (Nat.zero_lt_of_lt fits.placed), ?_⟩
  change ring.len - count ≤ ring.storage.length
  omega

theorem skip_contents (fits : ring.Fits) (available : count ≤ ring.len) :
    (ring.skip count).contents = ring.contents.drop count := by
  have held := fits.held
  have inside : count ≤ (ring.storage.rotate ring.read_pos).length := by
    rw [List.length_rotate]
    omega
  change (ring.storage.rotate ((ring.read_pos + count) % ring.storage.length)).take (ring.len - count) =
    ((ring.storage.rotate ring.read_pos).take ring.len).drop count
  rw [List.rotate_mod, ← List.rotate_rotate, List.rotate_eq_drop_append_take inside, List.drop_take,
    List.take_append_of_le_length]
  rw [List.length_drop, List.length_rotate]
  omega

theorem wrap {position length : Nat} (once : position < 2 * length) :
    position < length ∧ position % length = position ∨
      length ≤ position ∧ position % length + length = position := by
  by_cases inside : position < length
  · exact .inl ⟨inside, Nat.mod_eq_of_lt inside⟩
  · have outside := Nat.le_of_not_lt inside
    refine .inr ⟨outside, ?_⟩
    rw [Nat.mod_eq_sub_mod outside, Nat.mod_eq_of_lt (by omega)]
    omega

theorem append_storage_length (fits : ring.Fits) (room : ring.len + items.length ≤ ring.storage.length) :
    (ring.append items).storage.length = ring.storage.length := by
  have placed := fits.placed
  have position_lt := Nat.mod_lt (ring.read_pos + ring.len) (Nat.zero_lt_of_lt placed)
  unfold append
  dsimp only
  generalize (ring.read_pos + ring.len) % ring.storage.length = position at position_lt
  rw [overwrite_length, overwrite_length]
  · rw [List.length_take]
    omega
  · rw [overwrite_length]
    · rw [List.length_drop]
      omega
    · rw [List.length_take]
      omega

theorem append_fits (fits : ring.Fits) (room : ring.len + items.length ≤ ring.storage.length) :
    (ring.append items).Fits := by
  refine ⟨?_, ?_⟩
  · rw [append_storage_length fits room]
    exact fits.placed
  · rw [append_storage_length fits room]
    exact room

theorem append_getElem? (fits : ring.Fits) (room : ring.len + items.length ≤ ring.storage.length)
    {place : Nat} (inside : place < ring.storage.length) :
    (ring.append items).storage[(place + ring.read_pos) % ring.storage.length]? =
      if place < ring.len then ring.storage[(place + ring.read_pos) % ring.storage.length]?
      else if place < ring.len + items.length then items[place - ring.len]?
      else ring.storage[(place + ring.read_pos) % ring.storage.length]? := by
  have placed := fits.placed
  have held := fits.held
  have position_eq := wrap (show ring.read_pos + ring.len < 2 * ring.storage.length by omega)
  have place_eq := wrap (show place + ring.read_pos < 2 * ring.storage.length by omega)
  have position_lt := Nat.mod_lt (ring.read_pos + ring.len) (Nat.zero_lt_of_lt placed)
  unfold append
  dsimp only
  generalize (ring.read_pos + ring.len) % ring.storage.length = position at position_eq position_lt
  generalize (place + ring.read_pos) % ring.storage.length = index at place_eq
  have first_length : (items.take (min items.length (ring.storage.length - position))).length =
      min items.length (ring.storage.length - position) := by
    rw [List.length_take]
    omega
  have first_fits : position + (items.take (min items.length (ring.storage.length - position))).length ≤
      ring.storage.length := by omega
  have rest_length : (items.drop (min items.length (ring.storage.length - position))).length =
      items.length - min items.length (ring.storage.length - position) := List.length_drop
  rw [overwrite_getElem? (by rw [overwrite_length first_fits]; omega), overwrite_getElem? first_fits,
    first_length, rest_length, if_neg (Nat.not_lt_zero index), Nat.zero_add, Nat.sub_zero,
    List.getElem?_drop]
  generalize first_eq : min items.length (ring.storage.length - position) = first
  by_cases early : place < ring.len
  · rw [if_pos early, if_neg (by omega)]
    by_cases before : index < position
    · rw [if_pos before]
    · rw [if_neg before, if_neg (by omega)]
  rw [if_neg early]
  by_cases new : place < ring.len + items.length
  · rw [if_pos new]
    by_cases around : index < items.length - first
    · rw [if_pos around]
      congr 1
      omega
    · rw [if_neg around, if_neg (by omega),
        if_pos (by omega),
        List.getElem?_take_of_lt (by omega)]
      congr 1
      omega
  · rw [if_neg new, if_neg (by omega)]
    by_cases before : index < position
    · rw [if_pos before]
    · rw [if_neg before, if_neg (by omega)]

theorem append_contents (fits : ring.Fits) (room : ring.len + items.length ≤ ring.storage.length) :
    (ring.append items).contents = ring.contents ++ items := by
  have same_length := append_storage_length fits room
  have held := contents_length fits
  refine List.ext_getElem? fun place => ?_
  change (((ring.append items).storage.rotate ring.read_pos).take (ring.len + items.length))[place]? = _
  by_cases old : place < ring.len
  · rw [List.getElem?_take_of_lt (by omega), List.getElem?_rotate (by omega), same_length,
      append_getElem? fits room (by omega), if_pos old, List.getElem?_append_left (by omega), contents,
      List.getElem?_take_of_lt old, List.getElem?_rotate (by omega)]
  · rw [List.getElem?_append_right (by omega), held]
    by_cases new : place < ring.len + items.length
    · rw [List.getElem?_take_of_lt new, List.getElem?_rotate (by omega), same_length,
        append_getElem? fits room (by omega), if_neg old, if_pos new]
    · rw [List.getElem?_eq_none (by rw [List.length_take]; omega),
        List.getElem?_eq_none (by omega)]

end Rules

end RingBuffer

end R4OS.Buffer
