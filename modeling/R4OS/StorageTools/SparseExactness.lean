import R4OS.StorageTools.SparseImage

/-!
# Sparse images are exact

An image that is ingested in any pieces, with requests for memory refused at any time, holds exactly
the bytes that were counted as written.
-/

namespace R4OS.StorageTools

open Text Chunks

def kept (block : Bytes) : Option Bytes := if block.all (· == 0) then none else some block

def keptSize (block : Bytes) : Nat := if block.all (· == 0) then 0 else block.length

/-- A table of blocks, of which the first ones are stored. -/
def storedBlocks (total count : Nat) (content : Bytes) : List (Option Bytes) :=
  (List.range total).map fun index =>
    if index < count then kept (chunk block_bytes index content) else none

/-- The bytes of the first blocks that are not all zero. -/
def storedBytes (count : Nat) (content : Bytes) : Nat :=
  ((List.range count).map fun index => keptSize (chunk block_bytes index content)).sum

section Stored

variable {total count : Nat} {content more : Bytes}

theorem storedBlocks_length : (storedBlocks total count content).length = total := by
  rw [storedBlocks, List.length_map, List.length_range]

section

variable (whole : count * block_bytes ≤ content.length)

include whole

theorem chunk_stored {index : Nat} (inside : index < count) :
    chunk block_bytes index (content ++ more) = chunk block_bytes index content := by
  have later : (index + 1) * block_bytes ≤ count * block_bytes := Nat.mul_le_mul_right _ inside
  rw [Nat.add_mul, Nat.one_mul] at later
  exact chunk_append (by omega)

theorem storedBlocks_append :
    storedBlocks total count (content ++ more) = storedBlocks total count content := by
  unfold storedBlocks
  refine List.map_congr_left fun index _ => ?_
  by_cases inside : index < count
  · rw [if_pos inside, if_pos inside, chunk_stored whole inside]
  · rw [if_neg inside, if_neg inside]

theorem storedBytes_append :
    storedBytes count (content ++ more) = storedBytes count content := by
  unfold storedBytes
  congr 1
  refine List.map_congr_left fun index member => ?_
  rw [chunk_stored whole (List.mem_range.mp member)]

end

theorem storedBlocks_set (inside : count < total) :
    (storedBlocks total count content).set count (kept (chunk block_bytes count content)) =
      storedBlocks total (count + 1) content := by
  refine List.ext_getElem? fun index => ?_
  rw [List.getElem?_set, storedBlocks_length]
  by_cases same : count = index
  · subst same
    simp [storedBlocks, inside]
  · rw [if_neg same]
    by_cases listed : index < total
    · have earlier : index < count ↔ index < count + 1 := by omega
      simp [storedBlocks, listed, earlier]
    · simp [storedBlocks, listed]

theorem storedBlocks_zero (zero : kept (chunk block_bytes count content) = none) :
    storedBlocks total (count + 1) content = storedBlocks total count content := by
  unfold storedBlocks
  refine List.map_congr_left fun index _ => ?_
  rcases Nat.lt_trichotomy index count with earlier | same | later
  · rw [if_pos earlier, if_pos (by omega)]
  · rw [same, zero, ite_self, ite_self]
  · rw [if_neg (by omega), if_neg (by omega)]

theorem storedBytes_succ : storedBytes (count + 1) content =
    storedBytes count content + keptSize (chunk block_bytes count content) := by
  rw [storedBytes, List.range_succ, List.map_append, List.sum_append]
  simp [storedBytes]

theorem storedBlocks_getElem? {index : Nat} (inside : index < total) :
    (storedBlocks total count content)[index]? =
      some (if index < count then kept (chunk block_bytes index content) else none) := by
  simp [storedBlocks, inside]

end Stored

/-- An image holds some content, of which the first blocks are stored and the rest is pending. -/
structure Holds (image : Image) (content : Bytes) (count : Nat) : Prop where
  written : image.written = content.length
  inside : content.length ≤ image.length
  pending : image.pending.bytes = content.drop (count * block_bytes)
  count_le : count ≤ chunkCount block_bytes image.length
  blocks : image.blocks = storedBlocks (chunkCount block_bytes image.length) count content
  stored : image.stored_bytes = storedBytes count content

/-- Content is being appended to an image. -/
structure Open (image : Image) (content : Bytes) (count : Nat) : Prop extends
    Holds image content count where
  incomplete : image.complete = false
  whole : count * block_bytes ≤ content.length

structure Closed (image : Image) (content : Bytes) : Prop extends
    Holds image content (chunkCount block_bytes image.length) where
  complete : image.complete = true
  full : content.length = image.length

def Refused (before after : Allocator) : Prop :=
  ∃ request, before.requests ≤ request ∧ request < after.requests ∧
    before.grants request = false

/-- How an operation ends: well, or after a refused request. -/
structure Ends (before after : Image) (answer : Except ImageError Unit) : Prop where
  length : after.length = before.length
  grants : after.allocator.grants = before.allocator.grants
  requests : before.allocator.requests ≤ after.allocator.requests
  answered : answer = .ok () ∨
    answer = .error .OutOfMemory ∧ Refused before.allocator after.allocator

section Operations

variable {image : Image} {content bytes : Bytes} {count : Nat}

theorem Ends.refl : Ends image image (.ok ()) := ⟨rfl, rfl, .refl, .inl rfl⟩

theorem Ends.trans {middle after : Image} {answer : Except ImageError Unit}
    (first : Ends image middle (.ok ())) (second : Ends middle after answer) :
    Ends image after answer where
  length := second.length.trans first.length
  grants := second.grants.trans first.grants
  requests := first.requests.trans second.requests
  answered := second.answered.imp_right fun ⟨same, request, above, below, refused⟩ =>
    ⟨same, request, first.requests.trans above, below, first.grants ▸ refused⟩

theorem Open.fill (held : Open image content count)
    (fits : content.length + bytes.length ≤ image.length) :
    Open (image.fill bytes) (content ++ bytes.take (image.room bytes)) count where
  written := by
    rw [Image.fill_written, List.length_append, List.length_take,
      Nat.min_eq_left (image.room_le bytes), held.written]
  inside := by
    have taken := image.room_le bytes
    rw [Image.fill_length, List.length_append, List.length_take]
    omega
  pending := by
    rw [Image.fill_pending, held.pending, List.drop_append_of_le_length held.whole]
  count_le := held.count_le
  blocks := by
    rw [storedBlocks_append held.whole]
    exact held.blocks
  stored := by
    rw [storedBytes_append held.whole]
    exact held.stored
  incomplete := held.incomplete
  whole := by
    rw [List.length_append]
    exact held.whole.trans (Nat.le_add_right _ _)

/-- Storing a block, full or the last one: it is stored, or a request is refused. -/
theorem storePending_spec (held : Holds image content count)
    (whole : count * block_bytes ≤ content.length) (some_pending : image.pending.bytes ≠ []) :
    Ends image image.storePending.2 image.storePending.1 ∧
      image.storePending.2.complete = image.complete ∧
      ((image.storePending.1 = .ok () ∧ Holds image.storePending.2 content (count + 1)) ∨
        (image.storePending.1 ≠ .ok () ∧ Holds image.storePending.2 content count)) := by
  have pending_length := congrArg List.length held.pending
  rw [List.length_drop] at pending_length
  have positive := List.length_pos_of_ne_nil some_pending
  have fits := image.pending.fits
  have index : image.pendingIndex = count := by
    unfold Image.pendingIndex
    have start : image.written - image.pending.bytes.length = count * block_bytes := by
      rw [held.written]
      omega
    rw [start, Nat.mul_div_cancel _ (by decide)]
  have is_chunk : chunk block_bytes count content = image.pending.bytes := by
    rw [held.pending, chunk_last (by omega)]
  have inside : count < chunkCount block_bytes image.length := by
    have place : count * block_bytes < image.length := by
      have := held.inside
      omega
    have positive_size : 0 < block_bytes := by decide
    have listed := index_lt_chunkCount positive_size place
    rwa [Nat.mul_div_cancel _ positive_size] at listed
  have emptied : (Bounded.empty block_bytes).bytes = content.drop ((count + 1) * block_bytes) := by
    rw [List.drop_eq_nil_of_le]
    · rfl
    · rw [Nat.add_mul]
      omega
  unfold Image.storePending
  rw [if_neg some_pending, index]
  split
  · next zero =>
    have nothing : kept (chunk block_bytes count content) = none := by
      rw [is_chunk, kept, if_pos zero]
    refine ⟨⟨rfl, rfl, .refl, .inl rfl⟩, rfl,
      .inl ⟨rfl, held.written, held.inside, emptied, inside, ?_, ?_⟩⟩
    · rw [storedBlocks_zero nothing]
      exact held.blocks
    · rw [storedBytes_succ, is_chunk, keptSize, if_pos zero]
      exact held.stored
  next nonzero =>
  split
  · next outside =>
    rw [held.blocks, storedBlocks_length] at outside
    omega
  split
  · next refused =>
    rw [Bool.not_eq_true'] at refused
    exact ⟨⟨rfl, rfl, Nat.le_succ _,
        .inr ⟨rfl, _, .refl, Nat.lt_succ_self _, refused⟩⟩, rfl,
      .inr ⟨(by rintro ⟨⟩), held.written, held.inside, held.pending, held.count_le, held.blocks,
        held.stored⟩⟩
  · refine ⟨⟨rfl, rfl, Nat.le_succ _, .inl rfl⟩, rfl,
      .inl ⟨rfl, held.written, held.inside, emptied, inside, ?_, ?_⟩⟩
    · rw [← storedBlocks_set inside, is_chunk, kept, if_neg nonzero, held.blocks]
    · rw [storedBytes_succ, is_chunk, keptSize, if_neg nonzero, held.stored]

theorem Ends.fill : Ends image (image.fill bytes) (.ok ()) :=
  ⟨rfl, rfl, .refl, .inl rfl⟩

theorem take_room (taken : Nat) : content ++ bytes.take (image.room bytes) ++
    (bytes.drop (image.room bytes)).take taken =
      content ++ bytes.take (image.room bytes + taken) := by
  rw [List.append_assoc, List.take_add]

/-- Taking bytes in: some of them are taken, and all of them if no request is refused. -/
theorem appendLoop_spec (held : Open image content count)
    (fits : content.length + bytes.length ≤ image.length) :
    Ends image (image.appendLoop bytes).2 (image.appendLoop bytes).1 ∧
      ∃ taken count_after, taken ≤ bytes.length ∧
        Open (image.appendLoop bytes).2 (content ++ bytes.take taken) count_after ∧
        ((image.appendLoop bytes).1 = .ok () → taken = bytes.length) := by
  induction image, bytes using Image.appendLoop.induct generalizing content count with
  | case1 image =>
    rw [Image.appendLoop, if_pos rfl]
    refine ⟨.refl, 0, count, Nat.zero_le _, ?_, fun _ => rfl⟩
    rwa [List.take_nil, List.append_nil]
  | case2 image bytes some_bytes full error after failed =>
    have filled := held.fill fits
    have some_pending : (image.fill bytes).pending.bytes ≠ [] := by
      intro none_pending
      rw [none_pending] at full
      cases full
    obtain ⟨ends, incomplete, stored⟩ :=
      storePending_spec filled.toHolds filled.whole some_pending
    rw [Image.appendLoop_full some_bytes full]
    rw [failed] at ends incomplete stored ⊢
    obtain ⟨succeeded, -⟩ | ⟨-, kept_holds⟩ := stored
    · cases succeeded
    · exact ⟨Ends.fill.trans ends, image.room bytes, count, image.room_le bytes,
        ⟨kept_holds, incomplete.trans filled.incomplete, filled.whole⟩, by rintro ⟨⟩⟩
  | case3 image bytes some_bytes full after done induction =>
    have filled := held.fill fits
    have some_pending : (image.fill bytes).pending.bytes ≠ [] := by
      intro none_pending
      rw [none_pending] at full
      cases full
    obtain ⟨ends, incomplete, stored⟩ :=
      storePending_spec filled.toHolds filled.whole some_pending
    have pending_length := congrArg List.length filled.pending
    rw [full, List.length_drop] at pending_length
    rw [Image.appendLoop_full some_bytes full]
    rw [done] at ends incomplete stored ⊢
    obtain ⟨-, next_holds⟩ | ⟨failed, -⟩ := stored
    · have whole : (count + 1) * block_bytes ≤
          (content ++ bytes.take (image.room bytes)).length := by
        have size : 0 < block_bytes := by decide
        rw [Nat.add_mul]
        omega
      have room_le := image.room_le bytes
      have fits_after : (content ++ bytes.take (image.room bytes)).length +
          (bytes.drop (image.room bytes)).length ≤ after.length := by
        rw [ends.length, Image.fill_length, List.length_append, List.length_take,
          List.length_drop]
        omega
      obtain ⟨rest_ends, taken, count_after, taken_le, opened, all⟩ :=
        induction ⟨next_holds, incomplete.trans filled.incomplete, whole⟩ fits_after
      rw [List.length_drop] at taken_le all
      rw [take_room] at opened
      exact ⟨(Ends.fill.trans ends).trans rest_ends, image.room bytes + taken, count_after,
        by omega, opened, fun succeeded => by rw [all succeeded]; omega⟩
    · exact absurd rfl failed
  | case4 image bytes some_bytes partly induction =>
    have filled := held.fill fits
    have room_le := image.room_le bytes
    have fits_after : (content ++ bytes.take (image.room bytes)).length +
        (bytes.drop (image.room bytes)).length ≤ (image.fill bytes).length := by
      rw [Image.fill_length, List.length_append, List.length_take, List.length_drop]
      omega
    obtain ⟨rest_ends, taken, count_after, taken_le, opened, all⟩ := induction filled fits_after
    rw [Image.appendLoop, if_neg some_bytes, if_neg partly]
    rw [List.length_drop] at taken_le all
    rw [take_room] at opened
    exact ⟨Ends.fill.trans rest_ends, image.room bytes + taken, count_after, by omega, opened,
      fun succeeded => by rw [all succeeded]; omega⟩

theorem take_drop_zero {block : Bytes} {within count : Nat} (zero : block.all (· == 0) = true)
    (inside : within + count ≤ block.length) :
    (block.drop within).take count = List.replicate count 0 := by
  rw [List.eq_replicate_iff, List.length_take, List.length_drop]
  refine ⟨by omega, fun byte member => ?_⟩
  have byte_zero := List.all_eq_true.mp zero byte
    (List.mem_of_mem_drop (List.mem_of_mem_take member))
  simpa using byte_zero

theorem Closed.readBlock (closed : Closed image content) {place count : Nat} (positive : 0 < count)
    (within : place % block_bytes + count ≤ block_bytes) (inside : place + count ≤ content.length) :
    image.readBlock (place / block_bytes) (place % block_bytes) count =
      .ok ((content.drop place).take count) := by
  have size : 0 < block_bytes := by decide
  have index_lt : place / block_bytes < chunkCount block_bytes image.length :=
    index_lt_chunkCount size (by rw [← closed.full]; omega)
  have place_eq : place / block_bytes * block_bytes + place % block_bytes = place := by
    rw [Nat.mul_comm]
    exact Nat.div_add_mod place block_bytes
  have part : ((chunk block_bytes (place / block_bytes) content).drop (place % block_bytes)).take
      count = (content.drop place).take count := by
    rw [take_drop_chunk within, place_eq]
  have chunk_inside : place % block_bytes + count ≤
      (chunk block_bytes (place / block_bytes) content).length := by
    rw [chunk_length]
    omega
  rw [Image.readBlock, closed.blocks, storedBlocks_getElem? index_lt, if_pos index_lt, ← part, kept]
  by_cases zero : (chunk block_bytes (place / block_bytes) content).all (· == 0) = true
  · rw [if_pos zero, take_drop_zero zero chunk_inside]
  · rw [if_neg zero]
    exact if_neg (by omega)

theorem Closed.readLoop (closed : Closed image content) {place remaining : Nat}
    (inside : place + remaining ≤ content.length) :
    image.readLoop place remaining = .ok ((content.drop place).take remaining) := by
  induction remaining using Nat.strong_induction_on generalizing place with
  | _ remaining induction =>
    rw [Image.readLoop]
    by_cases none_left : remaining = 0
    · rw [if_pos none_left, none_left, List.take_zero]
    have within_lt : place % block_bytes < block_bytes := Nat.mod_lt _ (by decide)
    rw [if_neg none_left]
    dsimp only
    generalize count_eq : min (block_bytes - place % block_bytes) remaining = count
    rw [closed.readBlock (by omega) (by omega) (by omega),
      induction (remaining - count) (by omega) (by omega)]
    have split : remaining = count + (remaining - count) := by omega
    conv_rhs => rw [split, take_drop_add]
    rfl

end Operations

/-- The images that calls reach, with the bytes that were counted as written: an append counts the
bytes by which it raises the count, whether it ends well or not. -/
inductive Filled (allocator : Allocator) (length : Nat) : Bytes → Image → Prop
  | init {image : Image} (made : Image.init allocator length = .ok image) :
      Filled allocator length [] image
  | append {content : Bytes} {image : Image} (bytes : Bytes)
      (filled : Filled allocator length content image) :
      Filled allocator length
        (content ++ bytes.take ((image.append bytes).2.written - image.written))
        (image.append bytes).2
  | finish {content : Bytes} {image : Image} (filled : Filled allocator length content image) :
      Filled allocator length content image.finish.2

/-- The total size of the blocks of some content that are not all zero. -/
def nonzeroBytes (content : Bytes) : Nat :=
  storedBytes (chunkCount block_bytes content.length) content

/-- An image is as good as the bytes that were counted as written. -/
structure Exact (length : Nat) (content : Bytes) (image : Image) : Prop where
  written : image.written = content.length
  inside : content.length ≤ length
  read : ∀ place count, image.source.read place count =
    if length < place ∨ length - place < count then .error .SourceBounds
    else if image.complete = true then .ok ((content.drop place).take count)
    else .error .SourceIncomplete
  complete : image.complete = true →
    content.length = length ∧ image.stored_bytes = nonzeroBytes content
  append_refused : ∀ bytes, image.complete = true ∨ length < content.length + bytes.length →
    image.append bytes = (.error .SourceBounds, image)
  append_taken : ∀ bytes, image.complete = false → content.length + bytes.length ≤ length →
    Ends image (image.append bytes).2 (image.append bytes).1 ∧
      ((image.append bytes).1 = .ok () →
        (image.append bytes).2.written = image.written + bytes.length)
  finish_refused : image.complete = true ∨ content.length ≠ length →
    image.finish = (.error .SourceBounds, image)
  finish_done : image.complete = false → content.length = length →
    Ends image image.finish.2 image.finish.1 ∧
      (image.finish.1 = .ok () ↔ image.finish.2.complete = true)

/-- Every image is either open or closed. -/
def Intact (image : Image) (content : Bytes) : Prop :=
  (∃ count, Open image content count) ∨ Closed image content

section Runs

variable {allocator : Allocator} {length : Nat} {image : Image} {content : Bytes}

theorem Intact.holds (intact : Intact image content) : ∃ count, Holds image content count := by
  obtain ⟨count, opened⟩ | closed := intact
  · exact ⟨count, opened.toHolds⟩
  · exact ⟨_, closed.toHolds⟩

theorem init_open (made : Image.init allocator length = .ok image) :
    image.length = length ∧ Open image [] 0 := by
  unfold Image.init at made
  split at made
  · cases made
  split at made
  · cases made
  dsimp only at made
  split at made
  · next none_needed =>
    cases made
    refine ⟨rfl, ⟨rfl, Nat.zero_le _, rfl, Nat.zero_le _, ?_, rfl⟩, rfl,
      Nat.le_of_eq (Nat.zero_mul _)⟩
    rw [none_needed]
    rfl
  split at made
  · cases made
  · cases made
    refine ⟨rfl, ⟨rfl, Nat.zero_le _, rfl, Nat.zero_le _, ?_, rfl⟩, rfl,
      Nat.le_of_eq (Nat.zero_mul _)⟩
    refine List.ext_getElem? fun index => ?_
    simp [storedBlocks, List.getElem?_replicate]

theorem append_refuses {bytes : Bytes} (holds : image.written = content.length)
    (refused : image.complete = true ∨ image.length < content.length + bytes.length)
    (inside : content.length ≤ image.length) :
    image.append bytes = (.error .SourceBounds, image) := by
  unfold Image.append
  rw [if_pos]
  rw [Bool.or_eq_true, decide_eq_true_eq, holds]
  exact refused.imp_right fun _ => by omega

theorem Open.append {count : Nat} (opened : Open image content count) {bytes : Bytes}
    (fits : content.length + bytes.length ≤ image.length) :
    Ends image (image.append bytes).2 (image.append bytes).1 ∧
      ∃ taken count_after, taken ≤ bytes.length ∧
        Open (image.append bytes).2 (content ++ bytes.take taken) count_after ∧
        ((image.append bytes).1 = .ok () → taken = bytes.length) := by
  have admitted : image.append bytes = image.appendLoop bytes := by
    unfold Image.append
    rw [if_neg]
    rw [Bool.or_eq_true, decide_eq_true_eq, opened.written, opened.incomplete]
    rintro (closed | beyond)
    · cases closed
    · omega
  rw [admitted]
  exact appendLoop_spec opened fits

theorem finish_refuses (written : image.written = content.length)
    (refused : image.complete = true ∨ content.length ≠ image.length) :
    image.finish = (.error .SourceBounds, image) := by
  unfold Image.finish
  rw [if_pos]
  rw [Bool.or_eq_true, decide_eq_true_eq, written]
  exact refused

theorem Open.finish {count : Nat} (opened : Open image content count)
    (full : content.length = image.length) :
    Ends image image.finish.2 image.finish.1 ∧
      ((image.finish.1 = .ok () ∧ Closed image.finish.2 content) ∨
        (image.finish.1 ≠ .ok () ∧ Open image.finish.2 content count)) := by
  have size : 0 < block_bytes := by decide
  have admitted : ¬ (image.complete || decide (image.written ≠ image.length)) = true := by
    rw [Bool.or_eq_true, decide_eq_true_eq, opened.written, opened.incomplete]
    rintro (closed | short)
    · cases closed
    · exact short full
  unfold Image.finish
  rw [if_neg admitted]
  by_cases none_pending : image.pending.bytes = []
  · have stored : image.storePending = (.ok (), image) := by
      rw [Image.storePending, if_pos none_pending]
    have covers : image.length ≤ count * block_bytes := by
      have rest := congrArg List.length (opened.pending.symm.trans none_pending)
      rw [List.length_drop, List.length_nil] at rest
      omega
    have every : count = chunkCount block_bytes image.length :=
      Nat.le_antisymm opened.count_le (chunkCount_le size covers)
    rw [stored]
    refine ⟨⟨rfl, rfl, .refl, .inl rfl⟩, .inl ⟨rfl, ?_, rfl, full⟩⟩
    have held := opened.toHolds
    rw [every] at held
    exact ⟨held.written, held.inside, held.pending, held.count_le, held.blocks, held.stored⟩
  · obtain ⟨ends, incomplete, stored⟩ :=
      storePending_spec opened.toHolds opened.whole none_pending
    cases answer : image.storePending with
    | mk result after =>
      rw [answer] at ends incomplete stored
      cases result with
      | error error =>
        obtain ⟨succeeded, -⟩ | ⟨-, held⟩ := stored
        · cases succeeded
        · exact ⟨ends, .inr ⟨(by rintro ⟨⟩), held, incomplete.trans opened.incomplete,
            opened.whole⟩⟩
      | ok done =>
        obtain ⟨-, held⟩ | ⟨failed, -⟩ := stored
        · have covers : after.length ≤ (count + 1) * block_bytes := by
            have fits := image.pending.fits
            rw [opened.pending, List.length_drop] at fits
            rw [ends.length, ← full, Nat.add_mul]
            omega
          have every : count + 1 = chunkCount block_bytes after.length :=
            Nat.le_antisymm held.count_le (chunkCount_le size covers)
          rw [every] at held
          exact ⟨⟨ends.length, ends.grants, ends.requests, .inl rfl⟩, .inl ⟨rfl,
            ⟨held.written, held.inside, held.pending, held.count_le, held.blocks, held.stored⟩,
            rfl, full.trans ends.length.symm⟩⟩
        · exact absurd rfl failed

theorem Filled.intact (filled : Filled allocator length content image) :
    image.length = length ∧ Intact image content := by
  induction filled with
  | init made =>
    obtain ⟨sized, opened⟩ := init_open made
    exact ⟨sized, .inl ⟨0, opened⟩⟩
  | @append content image bytes filled induction =>
    obtain ⟨sized, intact⟩ := induction
    obtain ⟨count, holds⟩ := intact.holds
    by_cases refused : image.complete = true ∨ image.length < content.length + bytes.length
    · rw [append_refuses holds.written refused holds.inside]
      rw [Nat.sub_self, List.take_zero, List.append_nil]
      exact ⟨sized, intact⟩
    · rw [not_or, Nat.not_lt] at refused
      obtain ⟨count, opened⟩ | closed := intact
      · obtain ⟨ends, taken, count_after, taken_le, after, -⟩ := opened.append refused.2
        have grown : (image.append bytes).2.written - image.written = taken := by
          rw [after.written, opened.written, List.length_append, List.length_take]
          omega
        rw [grown]
        exact ⟨ends.length.trans sized, .inl ⟨count_after, after⟩⟩
      · exact absurd closed.complete refused.1
  | @finish content image filled induction =>
    obtain ⟨sized, intact⟩ := induction
    obtain ⟨count, holds⟩ := intact.holds
    by_cases refused : image.complete = true ∨ content.length ≠ image.length
    · rw [finish_refuses holds.written refused]
      exact ⟨sized, intact⟩
    · rw [not_or, not_not] at refused
      obtain ⟨count, opened⟩ | closed := intact
      · obtain ⟨ends, ⟨-, closed⟩ | ⟨-, opened⟩⟩ := opened.finish refused.2
        · exact ⟨ends.length.trans sized, .inr closed⟩
        · exact ⟨ends.length.trans sized, .inl ⟨count, opened⟩⟩
      · exact absurd closed.complete refused.1

end Runs

/-- Whatever calls an image has seen and whatever requests for memory were refused, it is as good as
the bytes that were counted as written. -/
theorem sparse_image_exact {allocator : Allocator} {length : Nat} {content : Bytes} {image : Image}
    (filled : Filled allocator length content image) : Exact length content image := by
  obtain ⟨rfl, intact⟩ := filled.intact
  obtain ⟨count, holds⟩ := intact.holds
  constructor
  case written => exact holds.written
  case inside => exact holds.inside
  case read =>
    intro place count
    unfold Image.source Source.read
    dsimp only
    rw [Nat.zero_add]
    by_cases beyond : image.length < place ∨ image.length - place < count
    · rw [if_pos beyond, if_pos beyond]
    rw [if_neg beyond, if_neg beyond, Image.read]
    obtain ⟨stored, opened⟩ | closed := intact
    · rw [opened.incomplete]
      rfl
    · rw [closed.complete]
      exact closed.readLoop (by rw [closed.full]; omega)
  case complete =>
    intro done
    obtain ⟨stored, opened⟩ | closed := intact
    · cases opened.incomplete.symm.trans done
    · exact ⟨closed.full, by rw [closed.stored, nonzeroBytes, closed.full]⟩
  case append_refused =>
    exact fun bytes refused => append_refuses holds.written refused holds.inside
  case append_taken =>
    intro bytes incomplete fits
    obtain ⟨stored, opened⟩ | closed := intact
    · obtain ⟨ends, taken, stored_after, -, after, all⟩ := opened.append fits
      refine ⟨ends, fun succeeded => ?_⟩
      rw [after.written, opened.written, all succeeded, List.take_length, List.length_append]
    · cases incomplete.symm.trans closed.complete
  case finish_refused => exact fun refused => finish_refuses holds.written refused
  case finish_done =>
    intro incomplete full
    obtain ⟨stored, opened⟩ | closed := intact
    · obtain ⟨ends, ⟨succeeded, after⟩ | ⟨failed, after⟩⟩ := opened.finish full
      · exact ⟨ends, fun _ => after.complete, fun _ => succeeded⟩
      · refine ⟨ends, fun succeeded => absurd succeeded failed, fun done => ?_⟩
        cases after.incomplete.symm.trans done
    · cases incomplete.symm.trans closed.complete

/-- An image for one byte, from an allocator that refuses nothing. -/
def sampleImage : Image where
  allocator := ⟨fun _ => true, 2⟩
  length := 1
  blocks := [none]

theorem sampleImage_filled : Filled ⟨fun _ => true, 0⟩ 1 [] sampleImage := .init rfl

/-- One byte that is appended to an image. -/
theorem sparse_image_exact_sample :
    Exact 1 ([] ++ [42].take ((sampleImage.append [42]).2.written - sampleImage.written))
      (sampleImage.append [42]).2 :=
  sparse_image_exact (sampleImage_filled.append [42])

end R4OS.StorageTools
