import R4OS.Incremental.Checks
import R4OS.Web.StoredImage

/-!
# Writing storages

Every writer appends the bytes of what it writes, or finds that they do not fit.  A storage whose names
are in lower case is written as an image, and a canonical image is what its storage is written as.
-/

namespace R4OS.Web

open Incremental Text

namespace PersistenceWriter

variable {Item : Type} (writer : PersistenceWriter)

theorem bytes_nil : writer.bytes [] = .ok writer := by
  simp [bytes]

theorem bytes_append (front back : Bytes) :
    writer.bytes (front ++ back) = writer.bytes front >>= fun writer => writer.bytes back := by
  unfold bytes
  by_cases full : writer.capacity - writer.written.length < front.length ∨
      max_persistence_bytes - writer.written.length < front.length
  · rw [if_pos full, if_pos (by rw [List.length_append]; omega)]
    rfl
  · rw [if_neg full]
    change _ = bytes back { writer with written := writer.written ++ front }
    unfold bytes
    dsimp only
    by_cases both : writer.capacity - (writer.written ++ front).length < back.length ∨
        max_persistence_bytes - (writer.written ++ front).length < back.length
    · rw [if_pos both, if_pos]
      rw [List.length_append] at both ⊢
      omega
    · rw [if_neg both, if_neg, List.append_assoc]
      rw [List.length_append] at both ⊢
      omega

theorem byte_eq (value : UInt8) : writer.byte value = writer.bytes [value] := by
  unfold byte bytes
  congr 1
  rw [List.length_singleton, eq_iff_iff]
  omega

theorem u16Value_eq (value : UInt16) : writer.u16Value value = writer.bytes (u16Bytes value) := by
  unfold u16Value
  simp only [byte_eq]
  exact (bytes_append writer [value.toUInt8] [(value >>> 8).toUInt8]).symm

theorem u32Value_eq (value : UInt32) : writer.u32Value value = writer.bytes (u32Bytes value) := by
  unfold u32Value
  simp only [u16Value_eq]
  exact (bytes_append writer _ _).symm

theorem string_eq {value : Bytes} (short : value.length < 65536) :
    writer.string value = writer.bytes (stringBytes value) := by
  unfold string
  rw [if_neg (by omega)]
  simp only [u16Value_eq]
  exact (bytes_append writer _ _).symm

theorem foldlM_eq {write : PersistenceWriter → Item → Except Error PersistenceWriter}
    {text : Item → Bytes} {items : List Item}
    (each : ∀ writer, ∀ item ∈ items, write writer item = writer.bytes (text item)) :
    items.foldlM write writer = writer.bytes (items.flatMap text) := by
  induction items generalizing writer with
  | nil => exact (bytes_nil writer).symm
  | cons item rest induction =>
    rw [List.foldlM_cons, each writer item (.head _), List.flatMap_cons, bytes_append]
    congr 1
    funext after
    exact induction after fun writer item member => each writer item (.tail _ member)

end PersistenceWriter

def Cookie.bytes (entry : Cookie) : Bytes :=
  stringBytes entry.name.bytes ++ stringBytes entry.value.bytes ++ stringBytes entry.domain.bytes ++
    stringBytes entry.path.bytes ++ [entry.flags] ++ u32Bytes entry.sequence

def StorageEntry.bytes (entry : StorageEntry) : Bytes :=
  stringBytes entry.key.bytes ++ stringBytes entry.value.bytes

def StorageArea.occupiedEntries (area : StorageArea) : List StorageEntry :=
  area.entries.filter (·.occupied)

def Origin.bytes (origin : Origin) : Bytes :=
  originBytes origin.scheme origin.hostBytes origin.port origin.opaque_id

def StorageArea.bytes (area : StorageArea) : Bytes :=
  area.origin.bytes ++ u16Bytes (UInt16.ofNat area.count) ++
    area.occupiedEntries.flatMap StorageEntry.bytes

def BrowserStorage.bytes (storage : BrowserStorage) : Bytes :=
  ascii "R4WS" ++ u16Bytes 1 ++
    u16Bytes (UInt16.ofNat storage.writtenCookies.length) ++
    storage.writtenCookies.flatMap Cookie.bytes ++
    u16Bytes (UInt16.ofNat storage.writtenAreas.length) ++
    storage.writtenAreas.flatMap StorageArea.bytes

namespace BrowserStorage

theorem bounded_short {capacity : Nat} (text : Bounded capacity) (small : capacity < 65536) :
    text.bytes.length < 65536 := Nat.lt_of_le_of_lt text.fits small

section

variable (writer : PersistenceWriter)

include writer

theorem writeCookie_eq (entry : Cookie) :
    writeCookie writer entry = writer.bytes entry.bytes := by
  unfold writeCookie Cookie.bytes
  simp only [writer.string_eq (bounded_short entry.name (by decide)), PersistenceWriter.byte_eq,
    PersistenceWriter.string_eq _ (bounded_short entry.value (by decide)),
    PersistenceWriter.string_eq _ (bounded_short entry.domain (by decide)),
    PersistenceWriter.string_eq _ (bounded_short entry.path (by decide)),
    PersistenceWriter.u32Value_eq, PersistenceWriter.bytes_append, bind_assoc]

theorem writeEntry_eq (entry : StorageEntry) :
    writeEntry writer entry = writer.bytes entry.bytes := by
  unfold writeEntry StorageEntry.bytes
  simp [writer.string_eq (bounded_short entry.key (by decide)), PersistenceWriter.string_eq _ (bounded_short entry.value (by decide)), PersistenceWriter.bytes_append]

theorem writeOrigin_eq (origin : Origin) :
    writer.origin origin = writer.bytes origin.bytes := by
  unfold PersistenceWriter.origin Origin.bytes originBytes Origin.hostBytes
  simp only [PersistenceWriter.byte_eq, PersistenceWriter.u16Value_eq, PersistenceWriter.u32Value_eq,
    PersistenceWriter.string_eq _ (bounded_short origin.host (by decide)),
    PersistenceWriter.bytes_append, bind_assoc]

theorem writeArea_eq (area : StorageArea) :
    writeArea writer area = writer.bytes area.bytes := by
  unfold writeArea StorageArea.bytes
  simp only [writeOrigin_eq, PersistenceWriter.u16Value_eq,
    PersistenceWriter.foldlM_eq _ fun writer entry _ => writeEntry_eq writer entry,
    PersistenceWriter.bytes_append, bind_assoc]
  rfl

end

theorem encode_eq_ok {storage : BrowserStorage} {capacity : Nat} {written : Bytes} :
    storage.encode capacity = .ok written ↔ written = storage.bytes ∧
      storage.bytes.length ≤ capacity ∧ storage.bytes.length ≤ max_persistence_bytes := by
  have whole : storage.encode capacity =
      (({ capacity } : PersistenceWriter).bytes storage.bytes >>= fun writer =>
        .ok writer.written) := by
    unfold encode BrowserStorage.bytes
    simp only [PersistenceWriter.u16Value_eq,
      PersistenceWriter.foldlM_eq _ fun writer entry _ => writeCookie_eq writer entry,
      PersistenceWriter.foldlM_eq _ fun writer area _ => writeArea_eq writer area,
      PersistenceWriter.bytes_append, bind_assoc]
    rfl
  rw [whole, PersistenceWriter.bytes]
  simp only [List.length_nil, Nat.sub_zero, List.nil_append]
  by_cases full : capacity < storage.bytes.length ∨ max_persistence_bytes < storage.bytes.length
  · rw [if_pos full]
    constructor
    · intro written
      cases written
    · rintro ⟨-, fits, small⟩
      omega
  · rw [if_neg full]
    change Except.ok storage.bytes = Except.ok written ↔ _
    rw [Except.ok.injEq]
    constructor
    · rintro rfl
      exact ⟨rfl, by omega, by omega⟩
    · rintro ⟨rfl, -, -⟩
      rfl

end BrowserStorage

end R4OS.Web
