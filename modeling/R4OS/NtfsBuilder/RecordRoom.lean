import R4OS.NtfsBuilder.RecordBuilder

/-!
# Room in records

A record is built exactly when every attribute fits behind the ones before it.
-/

namespace R4OS.NtfsBuilder

open Text Block NtfsFormat
open CLayout (alignUp)

/-- The bytes that an attribute asks for, and the bytes that it keeps. -/
structure AttrRoom where
  checked : Nat
  stored : Nat

/-- The room of an attribute with a name of some bytes behind a place, and with a value. -/
def roomOf (name_offset name_length value_length : Nat) : AttrRoom :=
  let value_offset := alignUp (name_offset + name_length) 8
  ⟨alignUp (value_offset + (value_offset - name_offset + value_length)) 8,
    alignUp (value_offset + value_length) 8⟩

def Attr.room : Attr → Option AttrRoom
  | .resident _ name_utf16 value _ => some (roomOf 0x18 name_utf16.length value.length)
  | .nonResident _ name_utf16 runs _ _ _ _ =>
    (mappingPairs 64 0 runs).map fun pairs => roomOf 0x40 name_utf16.length (pairs.length + 1)

/-- Attributes that fit a record from a place on. -/
def fitsFrom : Nat → List Attr → Bool
  | offset, [] => offset + 8 ≤ RECORD
  | offset, attr :: rest =>
    match attr.room with
    | none => false
    | some room =>
      offset + room.checked + 8 ≤ RECORD && fitsFrom (offset + room.stored) rest

/-- A record of which the header announces its fixups. -/
structure Headed (record : Bytes) : Prop where
  length : record.length = RECORD
  array : readLe 2 record 4 = 0x30
  words : readLe 2 record 6 = 3

/-- A record with room for its end. -/
structure RecordBuilder.Sound (rb : RecordBuilder) : Prop where
  headed : Headed rb.record
  low : 0x38 ≤ rb.offset
  high : rb.offset + 8 ≤ RECORD

section Records

variable {record : Bytes} {rb : RecordBuilder} {attr : Attr}

variable {attrs : List Attr} {spec : RecordSpec}

theorem alignUp_mono {first second : Nat} (le : first ≤ second) :
    alignUp first 8 ≤ alignUp second 8 := by
  unfold alignUp
  omega

theorem alignUp_le (place : Nat) : alignUp place 8 ≤ place + 7 := by
  unfold alignUp
  omega

theorem roomOf_stored_le (name_offset name_length value_length : Nat) :
    (roomOf name_offset name_length value_length).stored ≤
      (roomOf name_offset name_length value_length).checked := by
  unfold roomOf
  exact alignUp_mono (by omega)

theorem Headed.put (headed : Headed record) {place : Nat} {value : Bytes} (behind : 8 ≤ place)
    (inside : place + value.length ≤ RECORD) : Headed (put record place value) := by
  have fits : place + value.length ≤ record.length := headed.length.symm ▸ inside
  refine ⟨(put_length fits).trans headed.length, ?_, ?_⟩
  · rw [readLe_put_other fits (.inl (by omega)), headed.array]
  · rw [readLe_put_other fits (.inl (by omega)), headed.words]

theorem Headed.writeFields (headed : Headed record) {fields : List (Nat × Bytes)}
    (placed : ∀ field ∈ fields, 8 ≤ field.1 ∧ field.1 + field.2.length ≤ RECORD) :
    Headed (writeFields record fields) := by
  induction fields generalizing record with
  | nil => exact headed
  | cons field rest induction =>
    rw [List.forall_mem_cons] at placed
    exact induction (headed.put placed.1.1 placed.1.2) placed.2

theorem writeFields_length {fields : List (Nat × Bytes)}
    (placed : ∀ field ∈ fields, field.1 + field.2.length ≤ record.length) :
    (writeFields record fields).length = record.length := by
  induction fields generalizing record with
  | nil => rfl
  | cons field rest induction =>
    rw [List.forall_mem_cons] at placed
    have length := put_length placed.1
    exact (induction (by rw [length]; exact placed.2)).trans length

theorem beginRecord_sound (number sequence flags link_count : Nat) :
    (beginRecord number sequence flags link_count).Sound := by
  have magic : (leBytes 4 FILE_MAGIC).length = 4 := leBytes_length _ _
  have room : 0x38 + 8 ≤ RECORD := by decide
  refine ⟨⟨?_, ?_, ?_⟩, .refl, room⟩
  · simp only [beginRecord, List.length_append, leBytes_length, zeros_length]
    rfl
  · exact readLe_field (leBytes 4 FILE_MAGIC) _ rfl magic (by decide)
  · exact readLe_field (leBytes 4 FILE_MAGIC ++ leBytes 2 0x30) _ rfl rfl (by decide)

theorem attrBlock_length {attr_type : AttrType} {name_utf16 : Bytes} {non_resident : Bool}
    {attr_flags total instance_ : Nat}
    (room : (if non_resident then 0x40 else 0x18) + name_utf16.length ≤ total) :
    (attrBlock attr_type name_utf16 non_resident attr_flags total instance_).length = total := by
  have start : 0x18 ≤ (if non_resident then 0x40 else 0x18) := by split <;> decide
  unfold attrBlock
  dsimp only
  rw [writeFields_length, zeros_length]
  simp only [List.mem_cons, List.not_mem_nil, or_false, forall_eq_or_imp, forall_eq,
    leBytes_length, zeros_length]
  omega

theorem attrHeader_sound (sound : rb.Sound) (attr_type : AttrType) (name_utf16 : Bytes)
    (non_resident : Bool) (attr_flags body_len : Nat) :
    let name_offset := if non_resident then 0x40 else 0x18
    let value_offset := alignUp (name_offset + name_utf16.length) 8
    let total := alignUp (value_offset + body_len) 8
    (RECORD < rb.offset + total + 8 →
      rb.attrHeader attr_type name_utf16 non_resident attr_flags body_len = none) ∧
    (rb.offset + total + 8 ≤ RECORD → ∃ next,
      rb.attrHeader attr_type name_utf16 non_resident attr_flags body_len = some next ∧
        Headed next.record ∧ next.failed = rb.failed) := by
  dsimp only
  rw [RecordBuilder.attrHeader]
  refine ⟨fun exceeds => if_pos exceeds, fun fits => ?_⟩
  rw [if_neg (Nat.not_lt.mpr fits)]
  refine ⟨_, rfl, ?_, rfl⟩
  have low := sound.low
  have first := le_alignUp ((if non_resident then 0x40 else 0x18) + name_utf16.length)
  have second := le_alignUp
    (alignUp ((if non_resident then 0x40 else 0x18) + name_utf16.length) 8 + body_len)
  refine sound.headed.put (by omega) ?_
  rw [attrBlock_length (by omega)]
  omega

theorem residentAttr_spec (sound : rb.Sound) (attr_type : AttrType) (name_utf16 value : Bytes)
    (indexed : Nat) :
    let room := roomOf 0x18 name_utf16.length value.length
    (RECORD < rb.offset + room.checked + 8 →
      (rb.residentAttr attr_type name_utf16 value indexed).failed = true) ∧
    (rb.offset + room.checked + 8 ≤ RECORD →
      (rb.residentAttr attr_type name_utf16 value indexed).Sound ∧
      (rb.residentAttr attr_type name_utf16 value indexed).failed = rb.failed ∧
      (rb.residentAttr attr_type name_utf16 value indexed).offset = rb.offset + room.stored) := by
  obtain ⟨refused, placed⟩ := attrHeader_sound sound attr_type name_utf16 false 0
    (alignUp (0x18 + name_utf16.length) 8 - 0x18 + value.length)
  have less := roomOf_stored_le 0x18 name_utf16.length value.length
  dsimp only [roomOf] at less ⊢
  refine ⟨fun exceeds => ?_, fun fits => ?_⟩
  · rw [RecordBuilder.residentAttr]
    dsimp only
    rw [refused exceeds]
  · obtain ⟨next, started, headed, failed⟩ := placed fits
    have low := sound.low
    have first := le_alignUp (0x18 + name_utf16.length)
    have second := le_alignUp (alignUp (0x18 + name_utf16.length) 8 + value.length)
    rw [RecordBuilder.residentAttr]
    dsimp only
    rw [started]
    refine ⟨⟨headed.writeFields ?_, ?_, ?_⟩, failed, rfl⟩
    · simp only [List.mem_cons, List.not_mem_nil, or_false, forall_eq_or_imp, forall_eq,
        leBytes_length]
      omega
    · dsimp only
      omega
    · dsimp only
      omega

theorem nonResidentAttr_spec (sound : rb.Sound) (attr_type : AttrType) (name_utf16 : Bytes)
    {runs : List Ntfs.Run} {pairs : Bytes} (mapped : mappingPairs 64 0 runs = some pairs)
    (data_size init_size alloc_size attr_flags : Nat) :
    let room := roomOf 0x40 name_utf16.length (pairs.length + 1)
    let after := rb.nonResidentAttr attr_type name_utf16 runs data_size init_size alloc_size
      attr_flags
    (RECORD < rb.offset + room.checked + 8 → after.failed = true) ∧
    (rb.offset + room.checked + 8 ≤ RECORD →
      after.Sound ∧ after.failed = rb.failed ∧ after.offset = rb.offset + room.stored) := by
  obtain ⟨refused, placed⟩ := attrHeader_sound sound attr_type name_utf16 true attr_flags
    (alignUp (0x40 + name_utf16.length) 8 - 0x40 + (pairs ++ [0]).length)
  have length : (pairs ++ [0]).length = pairs.length + 1 := by
    rw [List.length_append, List.length_singleton]
  have less := roomOf_stored_le 0x40 name_utf16.length (pairs.length + 1)
  dsimp only [roomOf] at less ⊢
  rw [← length] at less ⊢
  rw [RecordBuilder.nonResidentAttr, mapped]
  dsimp only
  refine ⟨fun exceeds => ?_, fun fits => ?_⟩
  · rw [refused exceeds]
  · obtain ⟨next, started, headed, failed⟩ := placed fits
    have low := sound.low
    have first := le_alignUp (0x40 + name_utf16.length)
    have second := le_alignUp (alignUp (0x40 + name_utf16.length) 8 + (pairs ++ [0]).length)
    rw [started]
    refine ⟨⟨headed.writeFields ?_, ?_, ?_⟩, failed, rfl⟩
    · simp only [List.mem_cons, List.not_mem_nil, or_false, forall_eq_or_imp, forall_eq,
        leBytes_length]
      omega
    · dsimp only
      omega
    · dsimp only
      omega

theorem addAttr_failed (failed : rb.failed = true) : (rb.addAttr attr).failed = true := by
  have header (attr_type : AttrType) (name_utf16 : Bytes) (non_resident : Bool)
      (attr_flags body_len : Nat) {next : RecordBuilder}
      (started : rb.attrHeader attr_type name_utf16 non_resident attr_flags body_len = some next) :
      next.failed = true := by
    unfold RecordBuilder.attrHeader at started
    dsimp only at started
    rw [Option.ite_none_left_eq_some] at started
    obtain ⟨-, next_eq⟩ := started
    cases next_eq
    exact failed
  cases attr with
  | resident attr_type name_utf16 value indexed =>
    rw [RecordBuilder.addAttr, RecordBuilder.residentAttr]
    dsimp only
    split
    · rfl
    · next started =>
      have still_failed := header _ _ _ _ _ started
      exact still_failed
  | nonResident attr_type name_utf16 runs data_size init_size alloc_size attr_flags =>
    rw [RecordBuilder.addAttr, RecordBuilder.nonResidentAttr]
    split
    · rfl
    · dsimp only
      split
      · rfl
      · next started =>
      have still_failed := header _ _ _ _ _ started
      exact still_failed

theorem addAttrs_failed (failed : rb.failed = true) :
    (attrs.foldl RecordBuilder.addAttr rb).failed = true := by
  induction attrs generalizing rb with
  | nil => exact failed
  | cons attr rest induction => exact induction (addAttr_failed failed)

theorem addAttr_spec (sound : rb.Sound) (alive : rb.failed = false) :
    match attr.room with
    | none => (rb.addAttr attr).failed = true
    | some room =>
      (RECORD < rb.offset + room.checked + 8 → (rb.addAttr attr).failed = true) ∧
      (rb.offset + room.checked + 8 ≤ RECORD → (rb.addAttr attr).Sound ∧
        (rb.addAttr attr).failed = false ∧
        (rb.addAttr attr).offset = rb.offset + room.stored) := by
  cases attr with
  | resident attr_type name_utf16 value indexed =>
    have spec := residentAttr_spec sound attr_type name_utf16 value indexed
    rw [alive] at spec
    exact spec
  | nonResident attr_type name_utf16 runs data_size init_size alloc_size attr_flags =>
    rw [Attr.room]
    cases mapped : mappingPairs 64 0 runs with
    | none =>
      rw [RecordBuilder.addAttr, RecordBuilder.nonResidentAttr, mapped]
      rfl
    | some pairs =>
      have spec := nonResidentAttr_spec sound attr_type name_utf16 mapped data_size init_size
        alloc_size attr_flags
      rw [alive] at spec
      exact spec

theorem finish_sound (sound : rb.Sound) (alive : rb.failed = false) :
    ∃ bytes, rb.finish = .ok bytes ∧ bytes.length = RECORD := by
  have low := sound.low
  have high := sound.high
  unfold RECORD at high
  have headed : Headed (writeFields rb.record
      [(rb.offset, leBytes 4 END_MARKER), (rb.offset + 4, leBytes 4 0),
        (0x18, leBytes 4 (rb.offset + 8)), (0x28, leBytes 2 rb.instance_)]) := by
    refine sound.headed.writeFields ?_
    simp only [List.mem_cons, List.not_mem_nil, or_false, forall_eq_or_imp, forall_eq,
      leBytes_length, RECORD]
    omega
  rw [RecordBuilder.finish, alive, if_neg (by unfold RECORD; simp; omega)]
  generalize writeFields rb.record _ = record at headed ⊢
  have length := headed.length
  have array : usaOffset record = 0x30 := headed.array
  have words : usaCount record = 3 := headed.words
  have admitted : fixupSectors record = .ok 2 := by
    unfold fixupSectors
    rw [array, words, length]
    rfl
  have placed : ArrayPlaced (usaOffset record) 2 record := by
    rw [array]
    exact ⟨length, by decide, by decide, by decide⟩
  obtain ⟨stamped, -, installed, stamped_length, -⟩ :=
    applyFixups_installFixups 0 admitted placed.apart
  rw [installed]
  exact ⟨stamped, rfl, stamped_length.trans length⟩

theorem addAttrs_spec (sound : rb.Sound) (alive : rb.failed = false) :
    (fitsFrom rb.offset attrs = true → ∃ bytes,
      (attrs.foldl RecordBuilder.addAttr rb).finish = .ok bytes ∧ bytes.length = RECORD) ∧
    (fitsFrom rb.offset attrs = false →
      (attrs.foldl RecordBuilder.addAttr rb).finish = .error .RecordOverflow) := by
  have dead {other : RecordBuilder} (failed : other.failed = true) :
      other.finish = .error .RecordOverflow := by
    rw [RecordBuilder.finish, if_pos (.inl failed)]
  induction attrs generalizing rb with
  | nil =>
    refine ⟨fun _ => finish_sound sound alive, fun exceeds => ?_⟩
    rw [fitsFrom, decide_eq_false_iff_not] at exceeds
    exact absurd sound.high exceeds
  | cons attr rest induction =>
    rw [fitsFrom, List.foldl_cons]
    have spec := @addAttr_spec rb attr sound alive
    cases room_eq : attr.room with
    | none =>
      rw [room_eq] at spec
      exact ⟨fun fits => (Bool.false_ne_true fits).elim, fun _ => dead (addAttrs_failed spec)⟩
    | some room =>
      rw [room_eq] at spec
      dsimp only at spec ⊢
      by_cases fits : rb.offset + room.checked + 8 ≤ RECORD
      · obtain ⟨next_sound, next_alive, offset⟩ := spec.2 fits
        rw [decide_eq_true fits, Bool.true_and, ← offset]
        exact induction next_sound next_alive
      · rw [decide_eq_false fits, Bool.false_and]
        exact ⟨fun none_fits => (Bool.false_ne_true none_fits).elim,
          fun _ => dead (addAttrs_failed (spec.1 (Nat.lt_of_not_le fits)))⟩

theorem build_ok (attrs_eq : spec.attrs = .ok attrs) (fits : fitsFrom 0x38 attrs = true) :
    ∃ bytes, spec.build = .ok bytes ∧ bytes.length = RECORD := by
  rw [RecordSpec.build, attrs_eq]
  exact (addAttrs_spec (beginRecord_sound _ _ _ _) rfl).1 fits

theorem build_error (attrs_eq : spec.attrs = .ok attrs)
    (exceeds : fitsFrom 0x38 attrs = false) : spec.build = .error .RecordOverflow := by
  rw [RecordSpec.build, attrs_eq]
  exact (addAttrs_spec (beginRecord_sound _ _ _ _) rfl).2 exceeds

theorem build_length {bytes : Bytes} (built : spec.build = .ok bytes) :
    bytes.length = RECORD := by
  cases attrs_eq : spec.attrs with
  | error error => rw [RecordSpec.build, attrs_eq] at built; cases built
  | ok attrs =>
    cases fits : fitsFrom 0x38 attrs with
    | false => rw [build_error attrs_eq fits] at built; cases built
    | true =>
      obtain ⟨other, same, length⟩ := build_ok attrs_eq fits
      rw [built] at same
      cases same
      exact length

end Records

end R4OS.NtfsBuilder
