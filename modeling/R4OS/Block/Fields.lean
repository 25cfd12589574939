import R4OS.Text.Bytes

/-!
# Fields of fixed-size records

Little-endian words, and the bytes of a record that are read or replaced at a fixed place.
-/

namespace R4OS.Block

open Text

/-- The little-endian bytes of a word. -/
def leBytes : Nat → Nat → Bytes
  | 0, _ => []
  | width + 1, value => UInt8.ofNat value :: leBytes width (value / 256)

/-- The word of little-endian bytes. -/
def ofLeBytes : Bytes → Nat
  | [] => 0
  | byte :: rest => byte.toNat + 256 * ofLeBytes rest

@[simp] theorem leBytes_length (width value : Nat) : (leBytes width value).length = width := by
  induction width generalizing value with
  | zero => rfl
  | succ width induction => simp [leBytes, induction]

theorem ofLeBytes_leBytes {width value : Nat} (bound : value < 256 ^ width) :
    ofLeBytes (leBytes width value) = value := by
  induction width generalizing value with
  | zero => simp_all [leBytes, ofLeBytes]
  | succ width induction =>
    have smaller : value / 256 < 256 ^ width := by
      rw [Nat.div_lt_iff_lt_mul (by decide), ← Nat.pow_succ]
      exact bound
    have low : (UInt8.ofNat value).toNat = value % 256 := rfl
    rw [leBytes, ofLeBytes, induction smaller, low]
    omega

theorem ofLeBytes_lt (bytes : Bytes) : ofLeBytes bytes < 256 ^ bytes.length := by
  induction bytes with
  | nil => decide
  | cons byte rest induction =>
    have low := byte.toNat_lt
    rw [ofLeBytes, List.length_cons, Nat.pow_succ]
    omega

def zeros (count : Nat) : Bytes := List.replicate count 0

@[simp] theorem zeros_length (count : Nat) : (zeros count).length = count := List.length_replicate

def slice (data : Bytes) (place size : Nat) : Bytes := (data.drop place).take size

def put (data : Bytes) (place : Nat) (value : Bytes) : Bytes :=
  data.take place ++ (value ++ data.drop (place + value.length))

/-- The word at a place. -/
def readLe (size : Nat) (data : Bytes) (place : Nat) : Nat := ofLeBytes (slice data place size)

section Places

variable {data value : Bytes} {place other size : Nat}

variable {data' front rest : Bytes} {place' : Nat}

theorem slice_getElem? (data : Bytes) (place size index : Nat) :
    (slice data place size)[index]? = if index < size then data[place + index]? else none := by
  rw [slice, List.getElem?_take, List.getElem?_drop]

theorem put_getElem? (inside : place + value.length ≤ data.length) (index : Nat) :
    (put data place value)[index]? =
      if place ≤ index ∧ index < place + value.length then value[index - place]?
      else data[index]? := by
  have front : (data.take place).length = place := List.length_take_of_le (by omega)
  unfold put
  rcases Nat.lt_or_ge index place with before | after
  · rw [List.getElem?_append_left (by omega), List.getElem?_take_of_lt before, if_neg (by omega)]
  rw [List.getElem?_append_right (by omega), front]
  rcases Nat.lt_or_ge index (place + value.length) with within | beyond
  · rw [List.getElem?_append_left (by omega), if_pos ⟨after, within⟩]
  · rw [List.getElem?_append_right (by omega), List.getElem?_drop, if_neg (by omega)]
    congr 1
    omega

theorem slice_length (inside : place + size ≤ data.length) : (slice data place size).length = size := by
  rw [slice, List.length_take, List.length_drop]
  omega

theorem put_length (inside : place + value.length ≤ data.length) :
    (put data place value).length = data.length := by
  simp only [put, List.length_append, List.length_take, List.length_drop]
  omega

theorem put_sized {room : Nat} (sized : data.length = room) (inside : place + value.length ≤ room) :
    (put data place value).length = room := by
  rw [put_length (by rwa [sized]), sized]

theorem slice_congr (same : ∀ index < size, data[place + index]? = data'[place' + index]?) :
    slice data place size = slice data' place' size := by
  apply List.ext_getElem?
  intro index
  rw [slice_getElem?, slice_getElem?]
  split
  · next inside => exact same index inside
  · rfl

theorem slice_put_within (inside : place + value.length ≤ data.length)
    (within : other + size ≤ value.length) :
    slice (put data place value) (place + other) size = slice value other size := by
  apply slice_congr
  intro index bound
  rw [put_getElem? inside, if_pos (by omega)]
  congr 1
  omega

theorem slice_all (data : Bytes) : slice data 0 data.length = data := by simp [slice]

theorem slice_put (inside : place + value.length ≤ data.length) :
    slice (put data place value) place value.length = value := by
  have found := @slice_put_within data value place 0 value.length inside (Nat.zero_add _).le
  rwa [slice_all, Nat.add_zero] at found

theorem slice_put_other (inside : place + value.length ≤ data.length)
    (apart : other + size ≤ place ∨ place + value.length ≤ other) :
    slice (put data place value) other size = slice data other size := by
  apply slice_congr
  intro index bound
  rw [put_getElem? inside, if_neg (by omega)]

theorem slice_slice {room : Nat} (data : Bytes) (inside : other + size ≤ room) :
    slice (slice data place room) other size = slice data (place + other) size := by
  apply slice_congr
  intro index bound
  rw [slice_getElem?, if_pos (by omega), Nat.add_assoc]

theorem readLe_lt (size : Nat) (data : Bytes) (place : Nat) :
    readLe size data place < 256 ^ size := by
  have bound := ofLeBytes_lt (slice data place size)
  have short : (slice data place size).length ≤ size := List.length_take_le _ _
  exact lt_of_lt_of_le bound (Nat.pow_le_pow_right (by decide) short)

theorem readLe_put {word : Nat} (inside : place + size ≤ data.length) (bound : word < 256 ^ size) :
    readLe size (put data place (leBytes size word)) place = word := by
  have found : slice (put data place (leBytes size word)) place (leBytes size word).length = _ :=
    slice_put (by rwa [leBytes_length])
  rw [leBytes_length] at found
  rw [readLe, found, ofLeBytes_leBytes bound]

theorem readLe_put_other (inside : place + value.length ≤ data.length)
    (apart : other + size ≤ place ∨ place + value.length ≤ other) :
    readLe size (put data place value) other = readLe size data other := by
  rw [readLe, readLe, slice_put_other inside apart]

theorem slice_append_left (sized : front.length = size) :
    slice (front ++ rest) 0 size = front := by
  rw [slice, List.drop_zero, ← sized, List.take_left]

theorem slice_append_front (inside : place + size ≤ front.length) :
    slice (front ++ rest) place size = slice front place size := by
  apply slice_congr
  intro index bound
  rw [List.getElem?_append_left (by omega)]

theorem slice_append_right (behind : front.length ≤ place) :
    slice (front ++ rest) place size = slice rest (place - front.length) size := by
  rw [slice, slice, List.drop_append, List.drop_of_length_le behind, List.nil_append]

theorem slice_add (data : Bytes) (place size more : Nat) :
    slice data place (size + more) = slice data place size ++ slice data (place + size) more := by
  rw [slice, slice, slice, List.take_add, List.drop_drop]

theorem slice_flatMap {Item : Type} {encode : Item → Bytes} {items : List Item} {rest : Bytes}
    {item : Item} {index : Nat} (sized : ∀ item ∈ items, (encode item).length = size)
    (found : items[index]? = some item) :
    slice (items.flatMap encode ++ rest) (index * size) size = encode item := by
  induction items generalizing index with
  | nil => cases found
  | cons first items induction =>
    have first_size := sized first (.head _)
    rw [List.flatMap_cons, List.append_assoc]
    cases index with
    | zero =>
      cases found
      rw [Nat.zero_mul, slice_append_left first_size]
    | succ index =>
      rw [slice_append_right (by rw [first_size]; exact Nat.le_mul_of_pos_left _ (Nat.succ_pos _)),
        first_size, Nat.succ_mul, Nat.add_sub_cancel]
      exact induction (fun item member => sized item (.tail _ member)) found

theorem flatMap_length {Item : Type} {encode : Item → Bytes} {items : List Item}
    (sized : ∀ item ∈ items, (encode item).length = size) :
    (items.flatMap encode).length = items.length * size := by
  induction items with
  | nil => rw [List.flatMap_nil, List.length_nil, List.length_nil, Nat.zero_mul]
  | cons item items induction =>
    rw [List.flatMap_cons, List.length_append, sized item (.head _),
      induction fun item member => sized item (.tail _ member), List.length_cons,
      Nat.succ_mul, Nat.add_comm]

def fixed (size : Nat) (data : Bytes) (place : Nat) : Vector UInt8 size :=
  Vector.ofFn fun index => data.getD (place + index) 0

theorem fixed_congr (same : ∀ index < size, data[place + index]? = data'[place' + index]?) :
    fixed size data place = fixed size data' place' := by
  ext index bound
  simp only [fixed, Vector.getElem_ofFn, List.getD_eq_getElem?_getD]
  rw [same index bound]

theorem fixed_of_slice (same : slice data place size = slice data' place' size) :
    fixed size data place = fixed size data' place' := by
  apply fixed_congr
  intro index bound
  have found := congrArg (fun bytes : Bytes => bytes[index]?) same
  simpa only [slice_getElem?, if_pos bound] using found

theorem fixed_eq {array : Vector UInt8 size} (found : slice data place size = array.toList) :
    fixed size data place = array := by
  ext index bound
  have same := congrArg (fun bytes : Bytes => bytes[index]?) found
  simp only [slice_getElem?, if_pos bound] at same
  simp [fixed, List.getD_eq_getElem?_getD, same, bound]

theorem readLe_eq {word : Nat} (found : slice data place size = leBytes size word)
    (bound : word < 256 ^ size) : readLe size data place = word := by
  rw [readLe, found, ofLeBytes_leBytes bound]

theorem readLe_of_slice (same : slice data place size = slice data' place' size) :
    readLe size data place = readLe size data' place' := congrArg ofLeBytes same

end Places

end R4OS.Block
