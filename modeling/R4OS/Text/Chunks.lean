import Mathlib.Data.List.Basic

/-!
# Chunks of lists

A list is cut into chunks of one size, of which the last may be shorter.  What is appended behind a
chunk does not change it, and a part of the list that lies inside a chunk is a part of the chunk.
-/

namespace R4OS.Chunks

variable {Value : Type} {size index : Nat} {data more : List Value}

def chunk (size index : Nat) (data : List Value) : List Value :=
  (data.drop (index * size)).take size

/-- The number of chunks that hold some values. -/
def chunkCount (size length : Nat) : Nat := (length + (size - 1)) / size

theorem chunk_length : (chunk size index data).length = min size (data.length - index * size) := by
  rw [chunk, List.length_take, List.length_drop]

theorem chunk_append (whole : index * size + size ≤ data.length) :
    chunk size index (data ++ more) = chunk size index data := by
  unfold chunk
  rw [List.drop_append_of_le_length (by omega), List.take_append_of_le_length]
  rw [List.length_drop]
  omega

theorem chunk_last (last : data.length ≤ index * size + size) :
    chunk size index data = data.drop (index * size) := by
  rw [chunk, List.take_of_length_le]
  rw [List.length_drop]
  omega

theorem take_drop_chunk {within count : Nat} (inside : within + count ≤ size) :
    ((chunk size index data).drop within).take count =
      (data.drop (index * size + within)).take count := by
  rw [chunk, List.drop_take, List.drop_drop, List.take_take, Nat.min_eq_left (by omega)]

theorem take_drop_add {place count rest : Nat} :
    (data.drop place).take (count + rest) =
      (data.drop place).take count ++ (data.drop (place + count)).take rest := by
  rw [List.take_add, List.drop_drop]

theorem index_lt_chunkCount {place length : Nat} (positive : 0 < size) (inside : place < length) :
    place / size < chunkCount size length := by
  unfold chunkCount
  rw [Nat.lt_iff_add_one_le, Nat.le_div_iff_mul_le positive]
  have below := Nat.div_mul_le_self place size
  rw [Nat.add_mul]
  omega

/-- Chunks that cover the values are enough. -/
theorem chunkCount_le {length count : Nat} (positive : 0 < size) (covers : length ≤ count * size) :
    chunkCount size length ≤ count := by
  unfold chunkCount
  rw [← Nat.lt_add_one_iff, Nat.div_lt_iff_lt_mul positive, Nat.add_mul]
  omega

end R4OS.Chunks
