import R4OS.Text.Bytes
import R4OS.Text.Chunks

/-!
# Sparse images

An image is ingested in sequence and keeps only those of its blocks that are not all zero.  A
request for memory may be refused in the middle of an operation.
-/

namespace R4OS.StorageTools

open Text Chunks

def block_bytes : Nat := 64 * 1024

def maximum_bytes : Nat := 22 * 1024 * 1024 * 1024

inductive ImageError
  | ImageLimit
  | OutOfMemory
  | SourceBounds
  | SourceIncomplete
  -- an index outside a block or outside the blocks
  | trap

/-- An allocator: the requests that it grants, and how many were made. -/
structure Allocator where
  grants : Nat → Bool
  requests : Nat := 0

/-- The allocator after a request. -/
def Allocator.asked (allocator : Allocator) : Allocator :=
  { allocator with requests := allocator.requests + 1 }

/-- Whether the next request is granted. -/
def Allocator.granted (allocator : Allocator) : Bool := allocator.grants allocator.requests

/-- A bounded reader. -/
structure Source where
  length : Nat
  offset : Nat := 0
  read_fn : Nat → Nat → Except ImageError Bytes

def Source.read (source : Source) (place count : Nat) : Except ImageError Bytes :=
  if source.length < place ∨ source.length - place < count then .error .SourceBounds
  else source.read_fn (source.offset + place) count

/-- An image that is being ingested. -/
structure Image where
  allocator : Allocator
  length : Nat
  blocks : List (Option Bytes)
  written : Nat := 0
  stored_bytes : Nat := 0
  pending : Bounded block_bytes := .empty block_bytes
  complete : Bool := false

namespace Image

variable (image : Image)

/-- An image without content. -/
def init (allocator : Allocator) (length : Nat) : Except ImageError Image :=
  if maximum_bytes < length then .error .ImageLimit
  else if !allocator.granted then .error .OutOfMemory
  else
    let count := chunkCount block_bytes length
    -- a request for nothing is not made
    if count = 0 then .ok { allocator := allocator.asked, length := length, blocks := [] }
    else if !allocator.asked.granted then .error .OutOfMemory
    else .ok {
      allocator := allocator.asked.asked
      length := length
      blocks := List.replicate count none }

def pendingIndex (image : Image) : Nat :=
  (image.written - image.pending.bytes.length) / block_bytes

/-- Keep the block that is pending, unless it is all zero. -/
def storePending (image : Image) : Except ImageError Unit × Image :=
  if image.pending.bytes = [] then (.ok (), image)
  else if image.pending.bytes.all (· == 0) then
    (.ok (), { image with pending := .empty block_bytes })
  else if image.blocks.length ≤ image.pendingIndex then (.error .trap, image)
  else if !image.allocator.granted then
    (.error .OutOfMemory, { image with allocator := image.allocator.asked })
  else
    (.ok (), { image with
      allocator := image.allocator.asked
      blocks := image.blocks.set image.pendingIndex (some image.pending.bytes)
      stored_bytes := image.stored_bytes + image.pending.bytes.length
      pending := .empty block_bytes })

/-- The bytes that still fit into the pending block. -/
def room (image : Image) (bytes : Bytes) : Nat :=
  min (block_bytes - image.pending.bytes.length) bytes.length

/-- Take bytes into the pending block. -/
def fill (image : Image) (bytes : Bytes) : Image :=
  { image with
    pending := ⟨image.pending.bytes ++ bytes.take (image.room bytes), by
      have fits := image.pending.fits
      simp only [room, List.length_append, List.length_take]
      omega⟩
    written := image.written + image.room bytes }

variable (bytes : Bytes)

theorem room_le : image.room bytes ≤ bytes.length :=
  Nat.min_le_right _ _

theorem fill_pending :
    (image.fill bytes).pending.bytes = image.pending.bytes ++ bytes.take (image.room bytes) := rfl

theorem fill_written :
    (image.fill bytes).written = image.written + image.room bytes := rfl

theorem fill_length : (image.fill bytes).length = image.length :=
  rfl

theorem fill_pending_length :
    (image.fill bytes).pending.bytes.length =
      image.pending.bytes.length + image.room bytes := by
  rw [fill_pending, List.length_append, List.length_take, Nat.min_eq_left (image.room_le bytes)]

theorem storePending_ok {image after : Image} (stored : image.storePending = (.ok (), after)) :
    after.pending.bytes = [] := by
  unfold storePending at stored
  split at stored
  · next empty =>
    cases stored
    exact empty
  split at stored
  · cases stored
    rfl
  split at stored
  · cases stored
  split at stored
  · cases stored
  · cases stored
    rfl

/-- The work that is left: bytes to take, and a full block to store. -/
def work (image : Image) (bytes : Bytes) : Nat :=
  2 * bytes.length + if image.pending.bytes.length = block_bytes then 1 else 0

theorem work_stored {image after : Image} {bytes : Bytes} (some_bytes : bytes ≠ [])
    (emptied : after.pending.bytes = []) :
    after.work (bytes.drop (image.room bytes)) < image.work bytes := by
  have positive := List.length_pos_of_ne_nil some_bytes
  have fits := image.pending.fits
  unfold work
  rw [emptied, List.length_drop, List.length_nil, if_neg (by decide)]
  unfold room
  split_ifs <;> omega

theorem work_filled {image : Image} {bytes : Bytes} (some_bytes : bytes ≠ [])
    (partly : (image.fill bytes).pending.bytes.length ≠ block_bytes) :
    (image.fill bytes).work (bytes.drop (image.room bytes)) < image.work bytes := by
  have positive := List.length_pos_of_ne_nil some_bytes
  unfold work
  rw [if_neg partly, List.length_drop]
  rw [fill_pending_length] at partly
  unfold room at partly ⊢
  have fits := image.pending.fits
  omega

/-- Take bytes block by block. -/
def appendLoop (image : Image) (bytes : Bytes) : Except ImageError Unit × Image :=
  if bytes = [] then (.ok (), image)
  else if (image.fill bytes).pending.bytes.length = block_bytes then
    match _stored : (image.fill bytes).storePending with
    | (.error error, after) => (.error error, after)
    | (.ok (), after) => after.appendLoop (bytes.drop (image.room bytes))
  else (image.fill bytes).appendLoop (bytes.drop (image.room bytes))
termination_by image.work bytes
decreasing_by
  · exact work_stored ‹_› (storePending_ok _stored)
  · exact work_filled ‹_› ‹_›

theorem appendLoop_full {image : Image} {bytes : Bytes} (some_bytes : bytes ≠ [])
    (full : (image.fill bytes).pending.bytes.length = block_bytes) :
    image.appendLoop bytes =
      match (image.fill bytes).storePending with
      | (.error error, after) => (.error error, after)
      | (.ok (), after) => after.appendLoop (bytes.drop (image.room bytes)) := by
  rw [appendLoop, if_neg some_bytes, if_pos full]
  split <;> next same => rw [same]

/-- Take bytes in, if they stay inside the image. -/
def append (image : Image) (bytes : Bytes) : Except ImageError Unit × Image :=
  if image.complete || image.length - image.written < bytes.length then
    (.error .SourceBounds, image)
  else image.appendLoop bytes

/-- Close an image that has all of its content. -/
def finish (image : Image) : Except ImageError Unit × Image :=
  if image.complete || image.written ≠ image.length then (.error .SourceBounds, image)
  else
    match image.storePending with
    | (.error error, after) => (.error error, after)
    | (.ok (), after) => (.ok (), { after with complete := true })

/-- A part of one block. -/
def readBlock (image : Image) (index within count : Nat) : Except ImageError Bytes :=
  match image.blocks[index]? with
  | none => .error .trap
  | some none => .ok (List.replicate count 0)
  | some (some bytes) =>
    if bytes.length < within + count then .error .trap
    else .ok ((bytes.drop within).take count)

/-- Read block by block. -/
def readLoop (image : Image) (place remaining : Nat) : Except ImageError Bytes :=
  if remaining = 0 then .ok []
  else do
    let within := place % block_bytes
    let count := min (block_bytes - within) remaining
    let part ← image.readBlock (place / block_bytes) within count
    let rest ← image.readLoop (place + count) (remaining - count)
    return part ++ rest
termination_by remaining
decreasing_by
  have within_lt : place % block_bytes < block_bytes := Nat.mod_lt _ (by decide)
  omega

def read (image : Image) (place count : Nat) : Except ImageError Bytes :=
  if !image.complete then .error .SourceIncomplete else image.readLoop place count

def source (image : Image) : Source := { length := image.length, read_fn := image.read }

end Image

end R4OS.StorageTools
