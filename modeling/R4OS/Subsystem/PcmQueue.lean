import R4OS.Buffer.Ring
import R4OS.Text.Bytes

/-!
# The queue of PCM

PCM waits in a ring of bytes.  It is written, copied and dropped in whole frames.
-/

namespace R4OS.Subsystem

open Buffer Text

/-- The largest multiple of a number below another one. -/
def wholeFrames (bytes frame_bytes : Nat) : Nat := bytes - bytes % frame_bytes

theorem wholeFrames_le (bytes frame_bytes : Nat) : wholeFrames bytes frame_bytes ≤ bytes :=
  Nat.sub_le _ _

theorem wholeFrames_dvd (bytes frame_bytes : Nat) : frame_bytes ∣ wholeFrames bytes frame_bytes :=
  Nat.dvd_sub_mod bytes

theorem wholeFrames_eq {bytes frame_bytes : Nat} (whole : frame_bytes ∣ bytes) :
    wholeFrames bytes frame_bytes = bytes := by
  rw [wholeFrames, Nat.mod_eq_zero_of_dvd whole, Nat.sub_zero]

structure PcmQueue extends RingBuffer UInt8 where
  frame_bytes : Nat := 1

namespace PcmQueue

/-- A queue over a storage of whole frames. -/
def init (storage : Bytes) (frame_bytes : Nat) : Option PcmQueue :=
  if frame_bytes = 0 ∨ storage.length < frame_bytes ∨ storage.length % frame_bytes ≠ 0 then none
  else some { storage, frame_bytes }

def available (queue : PcmQueue) : Nat := queue.len

def free (queue : PcmQueue) : Nat := queue.storage.length - queue.len

def clear (queue : PcmQueue) : PcmQueue := { queue with read_pos := 0, len := 0 }

/-- Append what fits of some data; the number of bytes. -/
def write (queue : PcmQueue) (data : Bytes) : Nat × PcmQueue :=
  let requested := min data.length queue.free
  let count := wholeFrames requested queue.frame_bytes
  (count, { queue with toRingBuffer := queue.append (data.take count) })

/-- The next bytes for a buffer of some size. -/
def peek (queue : PcmQueue) (size : Nat) : Bytes :=
  let requested := min size queue.len
  queue.front (wholeFrames requested queue.frame_bytes)

/-- Drop the next bytes; how many they were. -/
def discard (queue : PcmQueue) (byte_count : Nat) : Nat × PcmQueue :=
  let requested := min byte_count queue.len
  let count := wholeFrames requested queue.frame_bytes
  let ring := queue.skip count
  (count, { queue with toRingBuffer := if ring.len = 0 then { ring with read_pos := 0 } else ring })

end PcmQueue

/-- A queue that reads inside its storage and holds no more than it has room for. -/
structure PcmQueue.Sound (queue : PcmQueue) : Prop where
  placed : queue.storage ≠ [] → queue.read_pos < queue.storage.length
  held : queue.len ≤ queue.storage.length

section Contents

variable {queue : PcmQueue} {data : Bytes} {size : Nat}

theorem PcmQueue.write_len (queue : PcmQueue) (data : Bytes) :
    (queue.write data).2.len = queue.len + (queue.write data).1 := by
  have fits : wholeFrames (min data.length queue.free) queue.frame_bytes ≤ data.length :=
    (wholeFrames_le _ _).trans (min_le_left _ _)
  change queue.len + (data.take _).length = _
  rw [List.length_take, min_eq_left fits]
  rfl

theorem PcmQueue.init_sound {storage : Bytes} {frame_bytes : Nat}
    (made : PcmQueue.init storage frame_bytes = some queue) :
    queue.Sound ∧ queue.contents = [] ∧ queue.frame_bytes = frame_bytes ∧ 0 < frame_bytes := by
  unfold PcmQueue.init at made
  split at made
  · cases made
  next fits =>
  cases made
  simp only [not_or] at fits
  exact ⟨⟨List.length_pos_of_ne_nil, Nat.zero_le _⟩, List.take_zero, rfl, Nat.pos_of_ne_zero fits.1⟩

namespace PcmQueue.Sound

theorem fits (sound : queue.Sound) (room : queue.storage ≠ []) : queue.Fits :=
  ⟨sound.placed room, sound.held⟩

theorem empty (sound : queue.Sound) (nothing : queue.storage = []) :
    queue.len = 0 ∧ queue.contents = [] := by
  have held := sound.held
  rw [nothing] at held
  exact ⟨Nat.eq_zero_of_le_zero held, by simp [RingBuffer.contents, nothing]⟩

theorem contents_length (sound : queue.Sound) : queue.contents.length = queue.len := by
  by_cases room : queue.storage = []
  · rw [(sound.empty room).1, (sound.empty room).2]
    rfl
  · exact RingBuffer.contents_length (sound.fits room)

theorem clear : queue.clear.Sound :=
  ⟨List.length_pos_of_ne_nil, Nat.zero_le _⟩

@[simp] theorem clear_contents : queue.clear.contents = [] := List.take_zero

theorem write (sound : queue.Sound) (whole : queue.frame_bytes ∣ data.length)
    (room : data.length ≤ queue.free) (some_data : data ≠ []) :
    (queue.write data).1 = data.length ∧ (queue.write data).2.Sound ∧
      (queue.write data).2.contents = queue.contents ++ data := by
  have filled := List.length_pos_of_ne_nil some_data
  have count_eq : wholeFrames (min data.length queue.free) queue.frame_bytes = data.length := by
    rw [min_eq_left room, wholeFrames_eq whole]
  have storage_ne : queue.storage ≠ [] := by
    intro nothing
    rw [PcmQueue.free, nothing] at room
    exact absurd room (by simpa using some_data)
  have space : queue.len + data.length ≤ queue.storage.length := by
    have held := sound.held
    rw [PcmQueue.free] at room
    omega
  unfold PcmQueue.write
  simp only [count_eq, List.take_length]
  have fits := RingBuffer.append_fits (sound.fits storage_ne) space
  exact ⟨trivial, ⟨fun _ => fits.placed, fits.held⟩,
    RingBuffer.append_contents (sound.fits storage_ne) space⟩

theorem peek (sound : queue.Sound) (size : Nat) : queue.peek size <+: queue.contents ∧
    queue.frame_bytes ∣ (queue.peek size).length ∧ (queue.peek size).length ≤ size := by
  have count_le : wholeFrames (min size queue.len) queue.frame_bytes ≤ min size queue.len :=
    wholeFrames_le _ _
  have front : queue.peek size =
      queue.contents.take (wholeFrames (min size queue.len) queue.frame_bytes) := by
    by_cases room : queue.storage = []
    · simp [PcmQueue.peek, RingBuffer.front, (sound.empty room).1, (sound.empty room).2, room]
    · exact RingBuffer.front_eq (sound.fits room) (by omega)
  have all_held : min (wholeFrames (min size queue.len) queue.frame_bytes) queue.len =
      wholeFrames (min size queue.len) queue.frame_bytes := by omega
  rw [front, List.length_take, sound.contents_length, all_held]
  exact ⟨List.take_prefix _ _, wholeFrames_dvd _ _, by omega⟩

theorem discard (sound : queue.Sound) (whole : queue.frame_bytes ∣ size)
    (whole_len : queue.frame_bytes ∣ queue.len) :
    (queue.discard size).2.Sound ∧ (queue.discard size).2.contents = queue.contents.drop size := by
  have count_eq : wholeFrames (min size queue.len) queue.frame_bytes = min size queue.len := by
    refine wholeFrames_eq ?_
    rcases min_choice size queue.len with least | least
    · rwa [least]
    · rwa [least]
  have length_eq := sound.contents_length
  have dropped : queue.contents.drop size = queue.contents.drop (min size queue.len) := by
    rcases Nat.le_total size queue.len with less | more
    · rw [min_eq_left less]
    · rw [min_eq_right more, List.drop_of_length_le (by omega), List.drop_of_length_le (by omega)]
  unfold PcmQueue.discard
  simp only [count_eq]
  split
  · next emptied =>
    change queue.len - min size queue.len = 0 at emptied
    have nothing : (queue.skip (min size queue.len)).len = 0 := emptied
    refine ⟨⟨List.length_pos_of_ne_nil, ?_⟩, ?_⟩
    · change (queue.skip (min size queue.len)).len ≤ _
      omega
    · rw [dropped, List.drop_of_length_le (by omega), RingBuffer.contents, nothing, List.take_zero]
  · next rest =>
    change queue.len - min size queue.len ≠ 0 at rest
    have room : queue.storage ≠ [] := by
      intro nothing
      exact rest (by rw [(sound.empty nothing).1, Nat.zero_sub])
    have fits := RingBuffer.skip_fits (sound.fits room) (min size queue.len)
    exact ⟨⟨fun _ => fits.placed, fits.held⟩,
      (RingBuffer.skip_contents (sound.fits room) (min_le_right _ _)).trans dropped.symm⟩

end PcmQueue.Sound

end Contents

end R4OS.Subsystem
