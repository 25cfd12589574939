import R4OS.Ntfs.Runlist
import Mathlib.Data.Nat.Bitwise

/-!
# Iteration over mapping pairs

An iterator reads untrusted mapping pairs one by one.  It never reads outside of them, its
arithmetic never leaves a machine word, and it yields the runs that were encoded.
-/

namespace R4OS.Ntfs

open Text

/-- An iterator over mapping pairs. -/
structure RunlistIterator where
  mapping : Bytes
  offset : Nat
  current_lcn : Int
  failed : Bool
  deriving DecidableEq

namespace RunlistIterator

def init (mapping : Bytes) : RunlistIterator :=
  { mapping := mapping, offset := 0, current_lcn := 0, failed := false }

/-- A byte shifted to its place in a word, unless the distance is not one of a word's. -/
def placeByte (byte : UInt8) (distance : Nat) : Option Nat :=
  if distance < 64 then some (byte.toNat <<< distance % 2 ^ 64) else none

/-- The word of the bytes at a place, unless one stands outside the mapping. -/
def readWord (mapping : Bytes) (start : Nat) : Nat → Option Nat
  | 0 => some 0
  | count + 1 =>
    (readWord mapping start count).bind fun word =>
      mapping[start + count]?.bind fun byte =>
        (placeByte byte (8 * count)).map fun placed => word ||| placed

/-- A distance with the sign of its top byte. -/
def extendSign (offset_size delta_bits : Nat) : Option Nat :=
  if offset_size < 8 then
    let bits := 8 * offset_size
    if 64 ≤ bits ∨ bits = 0 then none
    else if delta_bits &&& 1 <<< (bits - 1) ≠ 0 then
      some (delta_bits ||| 0xFFFFFFFFFFFFFFFF <<< bits % 2 ^ 64)
    else some delta_bits
  else some delta_bits

/-- A signed word, unless the number is none. -/
def signedWord (value : Int) : Option Int :=
  if -2 ^ 63 ≤ value ∧ value < 2 ^ 63 then some value else none

/-- Whether a location cannot move by a distance. -/
def cannotMove (current_lcn delta : Int) : Option Bool :=
  if 0 < delta then
    (signedWord (0x7FFFFFFFFFFFFFFF - delta)).map fun limit => limit < current_lcn
  else if delta < 0 then
    (signedWord (-0x8000000000000000 - delta)).map fun limit => current_lcn < limit
  else some false

def fail (self : RunlistIterator) : Option (Option Run × RunlistIterator) :=
  some (none, { self with failed := true })

/-- The run at a distance from the last one, behind a pair of a size. -/
def move (self : RunlistIterator) (encoded_size length : Nat) (delta : Int) :
    Option (Option Run × RunlistIterator) :=
  (cannotMove self.current_lcn delta).bind fun refused =>
    if refused then self.fail
    else (signedWord (self.current_lcn + delta)).bind fun moved =>
      if moved < 0 then { self with current_lcn := moved }.fail
      else some (some { length_clusters := length, lcn := some moved.toNat },
        { self with current_lcn := moved, offset := self.offset + encoded_size })

/-- The next run, or nothing when the code would trap. -/
def next (self : RunlistIterator) : Option (Option Run × RunlistIterator) :=
  if self.failed ∨ self.mapping.length ≤ self.offset then some (none, self)
  else self.mapping[self.offset]?.bind fun header =>
    let length_size := (header &&& 0x0F).toNat
    let offset_size := (header >>> 4 &&& 0x0F).toNat
    let encoded_size := 1 + length_size + offset_size
    if header = 0 then some (none, self)
    else if length_size = 0 ∨ 8 < length_size ∨ 8 < offset_size then self.fail
    else if self.mapping.length - self.offset < encoded_size then self.fail
    else (readWord self.mapping (self.offset + 1) length_size).bind fun length =>
      if length = 0 then self.fail
      else if 0 < offset_size then
        (readWord self.mapping (self.offset + 1 + length_size) offset_size).bind fun bits =>
          (extendSign offset_size bits).bind fun bits =>
            self.move encoded_size length (signExtend 8 bits)
      else some (some { length_clusters := length, lcn := none },
        { self with offset := self.offset + encoded_size })

/-- The runs that an iterator yields, and what it is when it stops. -/
inductive Yields : RunlistIterator → List Run → RunlistIterator → Prop
  | stops {self last : RunlistIterator} (stopped : self.next = some (none, last)) :
      Yields self [] last
  | run {self after last : RunlistIterator} {run : Run} {runs : List Run}
      (yielded : self.next = some (some run, after)) (rest : Yields after runs last) :
      Yields self (run :: runs) last

section Words

theorem fromLittleEndian_concat (bytes : Bytes) (byte : UInt8) :
    fromLittleEndian (bytes ++ [byte]) =
      fromLittleEndian bytes + 2 ^ (8 * bytes.length) * byte.toNat := by
  induction bytes with
  | nil => simp [fromLittleEndian]
  | cons first rest induction =>
    rw [List.cons_append, fromLittleEndian, fromLittleEndian, induction, List.length_cons,
      Nat.mul_add 8, Nat.pow_add]
    ring

theorem fromLittleEndian_lt (bytes : Bytes) : fromLittleEndian bytes < 2 ^ (8 * bytes.length) := by
  induction bytes with
  | nil => decide
  | cons first rest induction =>
    have low := first.toNat_lt
    rw [fromLittleEndian, List.length_cons, Nat.mul_add 8, Nat.pow_add]
    omega

theorem readWord_eq {mapping : Bytes} {start size : Nat} (small : size ≤ 8)
    (inside : start + size ≤ mapping.length) :
    readWord mapping start size = some (fromLittleEndian ((mapping.drop start).take size)) := by
  induction size with
  | zero => rfl
  | succ size induction =>
    have bound : start + size < mapping.length := by omega
    have length : ((mapping.drop start).take size).length = size := by
      rw [List.length_take, List.length_drop]
      omega
    have low := fromLittleEndian_lt ((mapping.drop start).take size)
    rw [length] at low
    have byte_lt := mapping[start + size].toNat_lt
    have fits : mapping[start + size].toNat <<< (8 * size) < 2 ^ 64 := by
      rw [Nat.shiftLeft_eq]
      calc mapping[start + size].toNat * 2 ^ (8 * size)
        _ < 2 ^ 8 * 2 ^ (8 * size) := Nat.mul_lt_mul_of_pos_right byte_lt (by positivity)
        _ = 2 ^ (8 + 8 * size) := (Nat.pow_add ..).symm
        _ ≤ 2 ^ 64 := Nat.pow_le_pow_right (by decide) (by omega)
    rw [readWord, induction (by omega) (by omega), Option.bind_some,
      List.getElem?_eq_getElem bound, Option.bind_some, placeByte, if_pos (by omega),
      Option.map_some, Nat.mod_eq_of_lt fits, Nat.or_comm, ← Nat.shiftLeft_add_eq_or_of_lt low,
      Nat.shiftLeft_eq, List.take_add_one, List.getElem?_drop, List.getElem?_eq_getElem bound,
      Option.toList_some, fromLittleEndian_concat, length, Nat.add_comm, Nat.mul_comm]

theorem two_pow_field {size : Nat} (positive : 0 < size) :
    2 ^ (8 * size) = 2 * 2 ^ (8 * size - 1) := by
  rw [← Nat.pow_succ']
  congr 1
  omega

/-- The code's sign extension is that of the field. -/
theorem extendSign_eq {size raw : Nat} (positive : 0 < size) (small : size ≤ 8)
    (bound : raw < 2 ^ (8 * size)) :
    ∃ bits, extendSign size raw = some bits ∧ signExtend 8 bits = signExtend size raw := by
  unfold extendSign
  rcases Nat.lt_or_eq_of_le small with narrow | rfl
  · have double := two_pow_field positive
    have half_le : 2 ^ (8 * size - 1) ≤ 2 ^ 55 := Nat.pow_le_pow_right (by decide) (by omega)
    have ones : 0xFFFFFFFFFFFFFFFF <<< (8 * size) % 2 ^ 64 =
        (2 ^ (64 - 8 * size) - 1) <<< (8 * size) := by
      interval_cases size <;> rfl
    have whole : (2 ^ (64 - 8 * size) - 1) * 2 ^ (8 * size) = 2 ^ 64 - 2 ^ (8 * size) := by
      rw [Nat.sub_mul, ← Nat.pow_add, Nat.sub_add_cancel (by omega), Nat.one_mul]
    have sign : raw &&& 1 <<< (8 * size - 1) ≠ 0 ↔ 2 ^ (8 * size - 1) ≤ raw := by
      rw [Nat.one_shiftLeft, Nat.and_two_pow]
      rcases Nat.lt_or_ge raw (2 ^ (8 * size - 1)) with low | high
      · simp [Nat.testBit_lt_two_pow low, low]
      · have top := Nat.testBit_of_two_pow_le_and_two_pow_add_one_gt high (by omega)
        simp [top, high]
    rw [if_pos narrow]
    dsimp only
    rw [if_neg (by omega)]
    have signed : ((2 ^ (8 * size) : Nat) : Int) = 2 ^ (8 * size) := by norm_cast
    split_ifs with negative
    · refine ⟨_, rfl, ?_⟩
      rw [sign] at negative
      rw [ones, Nat.or_comm, ← Nat.shiftLeft_add_eq_or_of_lt bound, Nat.shiftLeft_eq, whole,
        signExtend, signExtend, if_neg (by omega), if_neg (by omega), ← signed]
      omega
    · rw [sign] at negative
      exact ⟨raw, rfl, by rw [signExtend, signExtend, if_pos (by omega), if_pos (by omega)]⟩
  · exact ⟨raw, if_neg (by decide), rfl⟩

end Words

section Steps

variable {self : RunlistIterator} {header : UInt8} {rest : Bytes}

/-- An iterator that did not fail stands inside its mapping, at a location. -/
structure Good (iterator : RunlistIterator) : Prop where
  alive : iterator.failed = false
  inside : iterator.offset ≤ iterator.mapping.length
  nonneg : 0 ≤ iterator.current_lcn
  small : iterator.current_lcn < 2 ^ 63

theorem signedWord_eq {value : Int} (low : -2 ^ 63 ≤ value) (high : value < 2 ^ 63) :
    signedWord value = some value := if_pos ⟨low, high⟩

theorem cannotMove_eq {current delta : Int} (nonneg : 0 ≤ current) (small : current < 2 ^ 63)
    (low : -2 ^ 63 ≤ delta) (high : delta < 2 ^ 63) :
    cannotMove current delta = some (decide (2 ^ 63 ≤ current + delta)) := by
  unfold cannotMove
  split_ifs with up down
  · rw [signedWord_eq (by omega) (by omega), Option.map_some, Option.some.injEq, decide_eq_decide]
    omega
  · rw [signedWord_eq (by omega) (by omega), Option.map_some, Option.some.injEq, decide_eq_decide]
    omega
  · rw [eq_comm, Option.some.injEq, decide_eq_false_iff_not]
    omega

/-- A run is yielded when its location is a word, and the iterator fails otherwise. -/
theorem move_eq (good : self.Good) {delta : Int} (low : -2 ^ 63 ≤ delta) (high : delta < 2 ^ 63)
    (encoded_size length : Nat) :
    (0 ≤ self.current_lcn + delta ∧ self.current_lcn + delta < 2 ^ 63 ∧
      self.move encoded_size length delta = some
        (some { length_clusters := length, lcn := some (self.current_lcn + delta).toNat },
          { self with
            current_lcn := self.current_lcn + delta, offset := self.offset + encoded_size })) ∨
    (self.current_lcn + delta < 0 ∨ 2 ^ 63 ≤ self.current_lcn + delta) ∧
      ∃ last, self.move encoded_size length delta = some (none, last) := by
  obtain ⟨-, -, nonneg, small⟩ := good
  unfold move
  rw [cannotMove_eq nonneg small low high, Option.bind_some]
  by_cases far : 2 ^ 63 ≤ self.current_lcn + delta
  · exact .inr ⟨.inr far, _, if_pos (decide_eq_true far)⟩
  rw [if_neg (by simpa using far), signedWord_eq (by omega) (by omega), Option.bind_some]
  by_cases before : self.current_lcn + delta < 0
  · exact .inr ⟨.inl before, _, if_pos before⟩
  · exact .inl ⟨by omega, by omega, if_neg before⟩

theorem signExtend_bounds {size raw : Nat} (positive : 0 < size) (small : size ≤ 8)
    (bound : raw < 2 ^ (8 * size)) :
    -2 ^ 63 ≤ signExtend size raw ∧ signExtend size raw < 2 ^ 63 := by
  have double := two_pow_field positive
  have half_le : 2 ^ (8 * size - 1) ≤ 2 ^ 63 := Nat.pow_le_pow_right (by decide) (by omega)
  have signed : ((2 ^ (8 * size) : Nat) : Int) = 2 ^ (8 * size) := by norm_cast
  unfold signExtend
  rw [← signed]
  split <;> omega

theorem nibbles : ∀ header : UInt8, (header &&& 0x0F).toNat = header.toNat % 16 ∧
    (header >>> 4 &&& 0x0F).toNat = header.toNat / 16 := forall_byte (by decide +kernel)

theorem next_eq (alive : self.failed = false)
    (rest_eq : self.mapping.drop self.offset = header :: rest) :
    let length_size := header.toNat % 16
    let offset_size := header.toNat / 16
    let length := fromLittleEndian (rest.take length_size)
    let field := (rest.drop length_size).take offset_size
    self.next =
      if header = 0 then some (none, self)
      else if length_size = 0 ∨ 8 < length_size ∨ 8 < offset_size then self.fail
      else if rest.length < length_size + offset_size then self.fail
      else if length = 0 then self.fail
      else if 0 < offset_size then self.move (1 + length_size + offset_size) length
        (signExtend offset_size (fromLittleEndian field))
      else some (some { length_clusters := length, lcn := none },
        { self with offset := self.offset + (1 + length_size + offset_size) }) := by
  intro length_size offset_size length field
  have lengths := congrArg List.length rest_eq
  rw [List.length_drop, List.length_cons] at lengths
  have first : self.mapping[self.offset]? = some header := by
    rw [← List.head?_drop, rest_eq, List.head?_cons]
  have behind : self.mapping.drop (self.offset + 1) = rest := by
    rw [← List.tail_drop, rest_eq, List.tail_cons]
  unfold next
  rw [if_neg (by rw [alive]; simp; omega), first, Option.bind_some]
  dsimp only
  rw [(nibbles header).1, (nibbles header).2]
  refine ite_congr rfl (fun _ => rfl) fun _ => ?_
  refine ite_congr rfl (fun _ => rfl) fun sizes => ?_
  refine ite_congr (by rw [lengths, eq_iff_iff]; omega) (fun _ => rfl) fun enough => ?_
  rw [readWord_eq (by omega) (by omega), Option.bind_some, behind]
  refine ite_congr rfl (fun _ => rfl) fun _ => ?_
  refine ite_congr rfl (fun some_field => ?_) fun _ => rfl
  have bound := fromLittleEndian_lt field
  have field_length : field.length = offset_size := by
    rw [List.length_take, List.length_drop]
    omega
  rw [field_length] at bound
  obtain ⟨bits, extended, signed⟩ := extendSign_eq some_field (by omega) bound
  rw [readWord_eq (by omega) (by omega), ← List.drop_drop, behind, Option.bind_some, extended,
    Option.bind_some, signed]

def decoded (self : RunlistIterator) (rounds : Nat) : Option (List Run) :=
  decodeRuns rounds self.current_lcn (self.mapping.drop self.offset)

/-- An iterator stops where decoding does, or it yields the first run that is decoded, which pairs
can represent, and takes bytes for it. -/
theorem next_cases (good : self.Good) :
    (∃ last, self.next = some (none, last) ∧ ∀ rounds runs, self.decoded rounds = some runs →
      runs = [] ∧ last.failed = false) ∨
    ∃ run after, self.next = some (some run, after) ∧ run.Encodable ∧ after.Good ∧
      after.mapping = self.mapping ∧ self.offset + 2 ≤ after.offset ∧
      ∀ rounds runs, self.decoded (rounds + 1) = some runs →
        ∃ later, after.decoded rounds = some later ∧ runs = run :: later := by
  obtain ⟨alive, inside, nonneg, word⟩ := id good
  cases rest_eq : self.mapping.drop self.offset with
  | nil =>
    refine .inl ⟨self, if_pos (.inr (List.drop_eq_nil_iff.mp rest_eq)), fun rounds runs done => ?_⟩
    rw [decoded, rest_eq] at done
    cases rounds <;> cases done
  | cons header rest =>
    have lengths := congrArg List.length rest_eq
    rw [List.length_drop, List.length_cons] at lengths
    have step := next_eq alive rest_eq
    have behind (size : Nat) : self.mapping.drop (self.offset + (1 + size)) = rest.drop size := by
      rw [← List.drop_drop, rest_eq, Nat.add_comm 1, List.drop_succ_cons]
    have decoded_eq (rounds : Nat) : self.decoded (rounds + 1) =
        decodeRuns (rounds + 1) self.current_lcn (header :: rest) := by rw [decoded, rest_eq]
    simp only [decodeRuns] at step decoded_eq
    generalize header.toNat % 16 = length_size at step decoded_eq
    generalize header.toNat / 16 = offset_size at step decoded_eq
    have length_lt := fromLittleEndian_lt (rest.take length_size)
    have length_size_le := List.length_take_le length_size rest
    have field_length : ((rest.drop length_size).take offset_size).length =
        min offset_size (rest.length - length_size) := by
      rw [List.length_take, List.length_drop]
    generalize fromLittleEndian (rest.take _) = length at step length_lt decoded_eq
    generalize (rest.drop length_size).take offset_size = field at step field_length decoded_eq
    generalize tail_eq : ite (0 < offset_size) _ _ = tail at step
    split_ifs at step with zero sizes short empty
    any_goals
      refine .inl ⟨_, step, fun rounds runs done => ?_⟩
      cases rounds with
      | zero => cases done
      | succ rounds => simp_all
    rw [← tail_eq] at step
    have outcome : (∃ last, self.next = some (none, last) ∧
        readDelta self.current_lcn field = none) ∨
        ∃ lcn moved, readDelta self.current_lcn field = some (lcn, moved) ∧
          self.next = some (some { length_clusters := length, lcn := lcn }, { self with
            current_lcn := moved, offset := self.offset + (1 + length_size + offset_size) }) ∧
          0 ≤ moved ∧ moved < 2 ^ 63 ∧ ∀ place, lcn = some place → place < 2 ^ 63 := by
      unfold readDelta
      by_cases located : 0 < offset_size
      · have field_lt := fromLittleEndian_lt field
        rw [if_neg (List.length_pos_iff.mp (by omega))]
        rw [field_length, Nat.min_eq_left (by omega)] at field_lt
        have bounds := signExtend_bounds located (by omega) field_lt
        dsimp only
        rw [if_pos located] at step
        rw [field_length, Nat.min_eq_left (by omega)]
        rcases move_eq good bounds.1 bounds.2 _ length with ⟨low, high, yields⟩ | ⟨out, last, fails⟩
        · refine .inr ⟨_, _, if_neg (by omega), step.trans yields, low, high, fun place same => ?_⟩
          cases same
          omega
        · exact .inl ⟨last, step.trans fails, if_pos out⟩
      · rw [if_neg located] at step
        rw [if_pos (List.length_eq_zero_iff.mp (by omega))]
        exact .inr ⟨_, _, rfl, step, nonneg, word, by simp⟩
    rcases outcome with ⟨last, stopped, none⟩ | ⟨lcn, moved, moved_eq, yields, low, high, lcn_lt⟩
    · refine .inl ⟨last, stopped, fun rounds runs done => ?_⟩
      cases rounds with
      | zero => cases done
      | succ rounds => simp_all
    · have small : length < 2 ^ 64 :=
        length_lt.trans_le (Nat.pow_le_pow_right (by decide) (by omega))
      refine .inr ⟨_, _, yields, ⟨Nat.pos_of_ne_zero empty, small, lcn_lt⟩,
        ⟨alive, by dsimp only; omega, low, high⟩, rfl, by dsimp only; omega,
        fun rounds runs done => ?_⟩
      rw [decoded_eq, if_neg zero, if_neg sizes, if_neg short, if_neg empty, moved_eq,
        Option.bind_eq_bind, Option.bind_some] at done
      obtain ⟨later, later_eq, same⟩ := Option.bind_eq_some_iff.mp done
      exact ⟨later, by rw [decoded, Nat.add_assoc, behind]; exact later_eq,
        (Option.some.inj same).symm⟩

/-- Every iterator stops, and it yields what its pairs are decoded to. -/
theorem Good.yields (good : self.Good) : ∃ runs last, Yields self runs last ∧
    self.offset + 2 * runs.length ≤ self.mapping.length ∧ (∀ run ∈ runs, run.Encodable) ∧
    ∀ rounds others, self.decoded rounds = some others → others = runs ∧ last.failed = false := by
  induction left : self.mapping.length - self.offset using Nat.strong_induction_on
    generalizing self with
  | _ left induction =>
    rcases next_cases good with ⟨last, stopped, ends⟩ | ⟨run, after, yielded, sound, next, same,
      taken, first⟩
    · exact ⟨[], last, .stops stopped, good.inside, nofun, ends⟩
    · have inside := next.inside
      rw [same] at inside
      obtain ⟨runs, last, rest, room, all, rest_decoded⟩ :=
        induction _ (by rw [same]; omega) next rfl
      rw [same] at room
      refine ⟨run :: runs, last, .run yielded rest, ?_, List.forall_mem_cons.mpr ⟨sound, all⟩,
        fun rounds others done => ?_⟩
      · rw [List.length_cons]
        omega
      · cases rounds with
        | zero => cases done
        | succ rounds =>
          obtain ⟨later, later_eq, rfl⟩ := first rounds others done
          obtain ⟨rfl, fine⟩ := rest_decoded rounds later later_eq
          exact ⟨rfl, fine⟩

end Steps

theorem encodeRun_room {capacity length : Nat} {delta : Option Int} (positive : 0 < length)
    (bounded : ∀ distance, delta = some distance → fitsSigned 8 distance = true)
    (room : 17 ≤ capacity) :
    ∃ pair, encodeRun capacity length delta = some pair ∧ pair.length ≤ 17 := by
  have length_le := lengthSize_le length
  have offset_le : offsetSize delta ≤ 8 := by
    cases delta with
    | none => exact Nat.zero_le 8
    | some distance => exact offsetSize_le (bounded distance rfl)
  unfold encodeRun
  rw [if_neg (by omega)]
  dsimp only
  rw [if_neg (by omega)]
  refine ⟨_, rfl, ?_⟩
  rw [List.length_cons, List.length_append, littleEndian_length, littleEndian_length]
  omega

theorem encodeRuns_room {capacity : Nat} {previous : Int} {runs : List Run}
    (encodable : ∀ run ∈ runs, run.Encodable) (nonneg : 0 ≤ previous) (small : previous < 2 ^ 63)
    (room : 17 * runs.length < capacity) :
    ∃ pairs, encodeRuns capacity previous runs = some pairs := by
  induction runs generalizing capacity previous with
  | nil => exact ⟨[0], if_neg (by omega)⟩
  | cons run rest induction =>
    rw [List.forall_mem_cons] at encodable
    rw [List.length_cons] at room
    have located : run.lcn.getD 0 < 2 ^ 63 := by
      cases lcn_eq : run.lcn with
      | none => decide
      | some lcn => exact encodable.1.2.2 lcn lcn_eq
    obtain ⟨pair, pair_eq, pair_le⟩ := @encodeRun_room capacity run.length_clusters
      (run.delta previous) encodable.1.1 (fun distance distance_eq => by
        obtain ⟨lcn, lcn_eq, rfl⟩ := Option.map_eq_some_iff.mp distance_eq
        exact encodable.1.fitsSigned nonneg small lcn_eq) (by omega)
    have bounds := encodable.1.next_bounds nonneg small
    obtain ⟨pairs, pairs_eq⟩ := @induction (capacity - pair.length) _ encodable.2 bounds.1 bounds.2
      (by omega)
    rw [encodeRuns, if_neg (by omega), pair_eq]
    exact ⟨pair ++ pairs, by rw [Option.bind_eq_bind, Option.bind_some, pairs_eq]; rfl⟩

/-- Encoded runs are yielded again, and whatever the bytes are, an iterator stops and yields only
runs that pairs can represent. -/
theorem yields_encoded_runs :
    (∀ runs : List Run, (∀ run ∈ runs, run.Encodable) → ∀ capacity, 17 * runs.length < capacity →
      ∃ pairs last, encodeRuns capacity 0 runs = some pairs ∧ Yields (init pairs) runs last ∧
        last.failed = false) ∧
      ∀ mapping, ∃ runs last, Yields (init mapping) runs last ∧
        2 * runs.length ≤ mapping.length ∧ ∀ run ∈ runs, run.Encodable := by
  have good (mapping : Bytes) : (init mapping).Good := ⟨rfl, Nat.zero_le _, le_rfl, by simp [init]⟩
  refine ⟨fun runs encodable capacity room => ?_, fun mapping => ?_⟩
  · obtain ⟨pairs, pairs_eq⟩ := encodeRuns_room encodable le_rfl (by decide) room
    obtain ⟨yielded, last, yields, -, -, decoded⟩ := (good pairs).yields
    obtain ⟨rfl, fine⟩ := decoded _ runs (readMappingPairs_encodeRuns encodable pairs_eq)
    exact ⟨pairs, last, pairs_eq, yields, fine⟩
  · obtain ⟨runs, last, yields, room, all, -⟩ := (good mapping).yields
    rw [init, Nat.zero_add] at room
    exact ⟨runs, last, yields, room, all⟩

theorem yields_encoded_runs_sample : ∃ pairs last,
    encodeRuns 52 0 [⟨3, some 200⟩, ⟨7, none⟩, ⟨128, some 72⟩] = some pairs ∧
      Yields (init pairs) [⟨3, some 200⟩, ⟨7, none⟩, ⟨128, some 72⟩] last ∧ last.failed = false :=
  yields_encoded_runs.1 _ (by simp [Run.Encodable]) 52 (by decide)

end RunlistIterator
end R4OS.Ntfs
