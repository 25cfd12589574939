import R4OS.Block.Fields

/-!
# Fixups of records

The last word of every sector of a record is moved into an array of the record, and a number that
changes with every write takes its place.  A record whose fixups are removed is as it was before
they were installed, beside the array.
-/

namespace R4OS.NtfsFormat

open Text Block

def SECTOR_SIZE : Nat := 512

inductive FixupError
  | too_short
  | bad_offsets
  | usn_mismatch
  deriving DecidableEq

/-- The place of the array of a record. -/
def usaOffset (record : Bytes) : Nat := readLe 2 record 0x04

/-- The words of the array of a record. -/
def usaCount (record : Bytes) : Nat := readLe 2 record 0x06

/-- The number of sectors of a record with an array. -/
def fixupSectors (record : Bytes) : Except FixupError Nat :=
  if record.length < 0x0A then .error .too_short
  else if usaCount record < 2 then .error .bad_offsets
  else if record.length < (usaCount record - 1) * SECTOR_SIZE then .error .too_short
  else if record.length ≠ (usaCount record - 1) * SECTOR_SIZE then .error .bad_offsets
  else if record.length < usaOffset record + usaCount record * 2 then .error .bad_offsets
  else .ok (usaCount record - 1)

/-- The last word of a sector. -/
def sectorEnd (sector : Nat) : Nat := (sector + 1) * SECTOR_SIZE - 2

def savedAt (array sector : Nat) : Nat := array + 2 + sector * 2

/-- Put the last word of a sector back. -/
def restoreSector (array usn : Nat) (record : Bytes) (sector : Nat) : Except FixupError Bytes :=
  if readLe 2 record (sectorEnd sector) ≠ usn then .error .usn_mismatch
  else .ok (put record (sectorEnd sector) (slice record (savedAt array sector) 2))

def applyFixups (record : Bytes) : Except FixupError Bytes :=
  match fixupSectors record with
  | .error error => .error error
  | .ok sectors =>
    (List.range sectors).foldlM
      (restoreSector (usaOffset record) (readLe 2 record (usaOffset record))) record

/-- Save the last word of a sector, and put the number in its place. -/
def stampSector (array usn : Nat) (record : Bytes) (sector : Nat) : Bytes :=
  put (put record (savedAt array sector) (slice record (sectorEnd sector) 2)) (sectorEnd sector)
    (leBytes 2 usn)

/-- The number after a number. -/
def nextUsn (previous_usn : Nat) : Nat :=
  let usn := (previous_usn + 1) % 2 ^ 16
  if usn = 0 ∨ usn = 0xFFFF then 1 else usn

def installFixups (record : Bytes) (previous_usn : Nat) : Except FixupError Bytes :=
  match fixupSectors record with
  | .error error => .error error
  | .ok sectors =>
    .ok ((List.range sectors).foldl (stampSector (usaOffset record) (nextUsn previous_usn))
      (put record (usaOffset record) (leBytes 2 (nextUsn previous_usn))))

/-- The array of a record with some sectors stands in its first sector, behind its header. -/
structure ArrayPlaced (array sectors : Nat) (record : Bytes) : Prop where
  length : record.length = sectors * SECTOR_SIZE
  positive : 0 < sectors
  behind : 8 ≤ array
  inside : array + 2 + sectors * 2 ≤ SECTOR_SIZE - 2

def OutsideArray (array sectors index : Nat) : Prop :=
  index < array ∨ array + 2 + sectors * 2 ≤ index

/-- The array of a record meets neither the fields that describe it nor a sector's last word. -/
structure ArrayApart (array sectors : Nat) (record : Bytes) : Prop where
  length : record.length = sectors * SECTOR_SIZE
  within : array + 2 + sectors * 2 ≤ record.length
  header : array + 2 + sectors * 2 ≤ 4 ∨ 8 ≤ array
  ends : ∀ sector < sectors,
    array + 2 + sectors * 2 ≤ sectorEnd sector ∨ sectorEnd sector + 2 ≤ array

/-- An index is not one of the last words of some sectors. -/
def OutsideEnds (first stop index : Nat) : Prop :=
  ∀ sector, first ≤ sector → sector < stop →
    index < sectorEnd sector ∨ sectorEnd sector + 2 ≤ index

/-- Records agree at the indices that satisfy a condition. -/
def AgreeOn (condition : Nat → Prop) (first second : Bytes) : Prop :=
  ∀ index, condition index → first[index]? = second[index]?

/-- A record of which the first sectors carry a number. -/
structure Stamped (array sectors usn stamped : Nat) (record result : Bytes) : Prop where
  length : result.length = record.length
  number : slice result array 2 = leBytes 2 usn
  stamps : ∀ sector < stamped, slice result (sectorEnd sector) 2 = leBytes 2 usn
  saved : ∀ sector < stamped,
    slice result (savedAt array sector) 2 = slice record (sectorEnd sector) 2
  kept : AgreeOn (fun index => OutsideArray array sectors index ∧ OutsideEnds 0 stamped index)
    result record

section Stamping

variable {array sectors usn : Nat} {record result : Bytes}

theorem sectorEnd_eq (sector : Nat) : sectorEnd sector = sector * 512 + 510 := by
  unfold sectorEnd SECTOR_SIZE
  omega

theorem ArrayPlaced.apart (placed : ArrayPlaced array sectors record) :
    ArrayApart array sectors record := by
  obtain ⟨length, positive, behind, inside⟩ := placed
  unfold SECTOR_SIZE at inside
  refine ⟨length, ?_, .inr behind, fun sector _ => .inl ?_⟩
  · rw [length, SECTOR_SIZE]
    omega
  · rw [sectorEnd_eq]
    omega

theorem Stamped.start (apart : ArrayApart array sectors record) :
    Stamped array sectors usn 0 record (put record array (leBytes 2 usn)) := by
  have within := apart.within
  have fits : array + (leBytes 2 usn).length ≤ record.length := by
    rw [leBytes_length]
    omega
  refine ⟨put_length fits, ?_, fun _ none => absurd none (Nat.not_lt_zero _),
    fun _ none => absurd none (Nat.not_lt_zero _), ?_⟩
  · have found := slice_put fits
    rwa [leBytes_length] at found
  · intro index outside
    rw [put_getElem? fits, if_neg]
    rw [leBytes_length]
    rcases outside.1 with before | behind <;> omega

theorem Stamped.next (apart : ArrayApart array sectors record) {stamped : Nat}
    (state : Stamped array sectors usn stamped record result) (more : stamped < sectors) :
    Stamped array sectors usn (stamped + 1) record (stampSector array usn result stamped) := by
  obtain ⟨length, within, -, ends⟩ := apart
  unfold SECTOR_SIZE at length
  have result_length := state.length
  have free := ends stamped more
  have word : slice result (sectorEnd stamped) 2 = slice record (sectorEnd stamped) 2 := by
    refine slice_congr fun index small => state.kept _ ⟨?_, fun sector _ earlier => .inr ?_⟩
    · unfold OutsideArray
      omega
    · rw [sectorEnd_eq, sectorEnd_eq]
      omega
  have word_length : (slice result (sectorEnd stamped) 2).length = 2 :=
    slice_length (by rw [sectorEnd_eq]; omega)
  have fits : savedAt array stamped + (slice result (sectorEnd stamped) 2).length ≤
      result.length := by
    unfold savedAt
    omega
  have middle_length := put_length fits
  have end_fits : sectorEnd stamped + (leBytes 2 usn).length ≤
      (put result (savedAt array stamped) (slice result (sectorEnd stamped) 2)).length := by
    rw [leBytes_length, middle_length, sectorEnd_eq]
    omega
  -- a word that is neither the saved one nor the stamped one stays
  have elsewhere (place : Nat) (not_saved : place + 2 ≤ savedAt array stamped ∨
      savedAt array stamped + 2 ≤ place) (not_end : place + 2 ≤ sectorEnd stamped ∨
      sectorEnd stamped + 2 ≤ place) :
      slice (stampSector array usn result stamped) place 2 = slice result place 2 := by
    unfold stampSector
    rw [slice_put_other end_fits (by rwa [leBytes_length]),
      slice_put_other fits (by rwa [word_length])]
  refine ⟨?_, ?_, fun sector below => ?_, fun sector below => ?_, fun index outside => ?_⟩
  · unfold stampSector
    rw [put_length end_fits, middle_length, result_length]
  · rw [elsewhere array (.inl (by unfold savedAt; omega)) (by omega), state.number]
  · rcases Nat.lt_succ_iff_lt_or_eq.mp below with earlier | rfl
    · have free := ends sector (by omega)
      rw [elsewhere (sectorEnd sector), state.stamps sector earlier]
      · unfold savedAt
        omega
      · exact .inl (by rw [sectorEnd_eq, sectorEnd_eq]; omega)
    · have found := slice_put end_fits
      rwa [leBytes_length] at found
  · rcases Nat.lt_succ_iff_lt_or_eq.mp below with earlier | rfl
    · rw [elsewhere (savedAt array sector), state.saved sector earlier]
      · exact .inl (by unfold savedAt; omega)
      · unfold savedAt
        omega
    · have found := slice_put fits
      rw [word_length] at found
      unfold stampSector
      rw [slice_put_other end_fits, found, word]
      rw [leBytes_length, savedAt]
      omega
  · obtain ⟨not_array, not_ends⟩ := outside
    have not_end := not_ends stamped (Nat.zero_le _) (Nat.lt_succ_self _)
    unfold stampSector
    rw [put_getElem? end_fits, if_neg (by rw [leBytes_length]; omega), put_getElem? fits, if_neg]
    · exact state.kept index ⟨not_array, fun sector low earlier =>
        not_ends sector low (Nat.lt_succ_of_lt earlier)⟩
    · rw [word_length]
      unfold savedAt
      rcases not_array with before | behind <;> omega

theorem Stamped.all (apart : ArrayApart array sectors record) :
    Stamped array sectors usn sectors record
      ((List.range sectors).foldl (stampSector array usn)
        (put record array (leBytes 2 usn))) := by
  have every (count : Nat) (within : count ≤ sectors) :
      Stamped array sectors usn count record
        ((List.range count).foldl (stampSector array usn) (put record array (leBytes 2 usn))) := by
    induction count with
    | zero => exact .start apart
    | succ count induction =>
      rw [List.range_succ, List.foldl_concat]
      exact (induction (by omega)).next apart within
  exact every sectors .refl

structure Restored (array sectors usn restored : Nat) (record result : Bytes) : Prop where
  length : result.length = record.length
  stamps : ∀ sector, restored ≤ sector → sector < sectors →
    slice result (sectorEnd sector) 2 = leBytes 2 usn
  saved : ∀ sector < sectors,
    slice result (savedAt array sector) 2 = slice record (sectorEnd sector) 2
  kept : AgreeOn (fun index => OutsideArray array sectors index ∧
    OutsideEnds restored sectors index) result record

theorem Stamped.restorable (state : Stamped array sectors usn sectors record result) :
    Restored array sectors usn 0 record result :=
  ⟨state.length, fun sector _ within => state.stamps sector within, state.saved, state.kept⟩

theorem Restored.next (apart : ArrayApart array sectors record) (small : usn < 2 ^ 16)
    {restored : Nat} (state : Restored array sectors usn restored record result)
    (more : restored < sectors) :
    ∃ after, restoreSector array usn result restored = .ok after ∧
      Restored array sectors usn (restored + 1) record after := by
  obtain ⟨length, inside, -, ends⟩ := apart
  unfold SECTOR_SIZE at length
  have result_length := state.length
  have free := ends restored more
  have word := state.saved restored more
  have word_length : (slice result (savedAt array restored) 2).length = 2 :=
    slice_length (by unfold savedAt; omega)
  have fits : sectorEnd restored + (slice result (savedAt array restored) 2).length ≤
      result.length := by
    rw [word_length, sectorEnd_eq]
    omega
  have number : readLe 2 result (sectorEnd restored) = usn := by
    rw [readLe, state.stamps restored .refl more, ofLeBytes_leBytes small]
  have elsewhere (place : Nat) (apart : place + 2 ≤ sectorEnd restored ∨
      sectorEnd restored + 2 ≤ place) :
      slice (put result (sectorEnd restored) (slice result (savedAt array restored) 2)) place 2 =
        slice result place 2 := slice_put_other fits (by rwa [word_length])
  refine ⟨_, by rw [restoreSector, if_neg (not_not.mpr number)], put_length fits |>.trans
    result_length, fun sector low within => ?_, fun sector within => ?_, fun index outside => ?_⟩
  · rw [elsewhere, state.stamps sector (by omega) within]
    rw [sectorEnd_eq, sectorEnd_eq]
    omega
  · rw [elsewhere, state.saved sector within]
    unfold savedAt
    omega
  · obtain ⟨not_array, not_ends⟩ := outside
    rw [put_getElem? fits, word_length]
    split
    · next within =>
      have back := congrArg (fun bytes : Bytes => bytes[index - sectorEnd restored]?) word
      rw [slice_getElem? record, if_pos (by omega)] at back
      rw [back]
      congr 1
      omega
    · next apart =>
      refine state.kept index ⟨not_array, fun sector low within => ?_⟩
      rcases Nat.eq_or_lt_of_le low with same | later
      · rw [← same]
        omega
      · exact not_ends sector later within

theorem nextUsn_lt (previous_usn : Nat) : nextUsn previous_usn < 2 ^ 16 := by
  unfold nextUsn
  dsimp only
  split <;> omega

theorem Stamped.header (apart : ArrayApart array sectors record)
    (state : Stamped array sectors usn sectors record result) {place : Nat} (high : 4 ≤ place)
    (low : place + 2 ≤ 8) : readLe 2 result place = readLe 2 record place := by
  have header := apart.header
  unfold readLe
  congr 1
  refine slice_congr fun index small => state.kept _ ⟨?_, fun sector _ _ => .inl ?_⟩
  · unfold OutsideArray
    omega
  · rw [sectorEnd_eq]
    omega

theorem restore_all (apart : ArrayApart array sectors record) (small : usn < 2 ^ 16)
    (state : Restored array sectors usn 0 record result) (count : Nat) (within : count ≤ sectors) :
    ∃ after, (List.range count).foldlM (restoreSector array usn) result = .ok after ∧
      Restored array sectors usn count record after := by
  induction count with
  | zero => exact ⟨result, rfl, state⟩
  | succ count induction =>
    obtain ⟨middle, done, middle_state⟩ := induction (by omega)
    obtain ⟨after, restored, after_state⟩ := middle_state.next apart small within
    refine ⟨after, ?_, after_state⟩
    rw [List.range_succ, List.foldlM_append, done]
    change [count].foldlM (restoreSector array usn) middle = .ok after
    rw [List.foldlM_cons, restored]
    rfl

theorem applyFixups_installFixups (previous_usn : Nat)
    (admitted : fixupSectors record = .ok sectors)
    (apart : ArrayApart (usaOffset record) sectors record) :
    ∃ stamped restored, installFixups record previous_usn = .ok stamped ∧
      stamped.length = record.length ∧ applyFixups stamped = .ok restored ∧
      restored.length = record.length ∧
      AgreeOn (OutsideArray (usaOffset record) sectors) restored record := by
  have small := nextUsn_lt previous_usn
  have state : Stamped (usaOffset record) sectors (nextUsn previous_usn) sectors record _ :=
    Stamped.all apart
  generalize stamped_eq : (List.range sectors).foldl
    (stampSector (usaOffset record) (nextUsn previous_usn))
    (put record (usaOffset record) (leBytes 2 (nextUsn previous_usn))) = stamped at state
  have offset : usaOffset stamped = usaOffset record := state.header apart (by decide) (by decide)
  have count : usaCount stamped = usaCount record := state.header apart (by decide) (by decide)
  have number : readLe 2 stamped (usaOffset record) = nextUsn previous_usn := by
    rw [readLe, state.number, ofLeBytes_leBytes small]
  have sectors_eq : fixupSectors stamped = .ok sectors := by
    unfold fixupSectors at admitted ⊢
    rw [state.length, offset, count]
    exact admitted
  obtain ⟨restored, done, final⟩ :=
    restore_all apart small state.restorable sectors .refl
  refine ⟨stamped, restored, ?_, state.length, ?_, final.length, fun index outside => ?_⟩
  · rw [installFixups, admitted, ← stamped_eq]
  · rw [applyFixups, sectors_eq, offset, number]
    exact done
  · exact final.kept index ⟨outside, fun sector low within => by omega⟩

end Stamping

section Lengths

variable {record : Bytes} {sectors : Nat}

/-- What a record with an array is like. -/
theorem fixupSectors_ok (admitted : fixupSectors record = .ok sectors) :
    record.length = sectors * SECTOR_SIZE ∧ 1 ≤ sectors ∧
      usaOffset record + (sectors + 1) * 2 ≤ record.length := by
  unfold fixupSectors at admitted
  split at admitted
  · cases admitted
  split at admitted
  · cases admitted
  split at admitted
  · cases admitted
  split at admitted
  · cases admitted
  split at admitted
  · cases admitted
  cases admitted
  omega

theorem installFixups_length {previous_usn : Nat} {stamped : Bytes}
    (installed : installFixups record previous_usn = .ok stamped) :
    stamped.length = record.length := by
  unfold installFixups at installed
  split at installed
  · cases installed
  next sectors admitted =>
  cases installed
  obtain ⟨whole, positive, array⟩ := fixupSectors_ok admitted
  unfold SECTOR_SIZE at whole
  have first := @put_length record (leBytes 2 (nextUsn previous_usn)) (usaOffset record)
    (by rw [leBytes_length]; omega)
  have every (count : Nat) (within : count ≤ sectors) :
      ((List.range count).foldl (stampSector (usaOffset record) (nextUsn previous_usn))
        (put record (usaOffset record) (leBytes 2 (nextUsn previous_usn)))).length =
        record.length := by
    induction count with
    | zero => exact first
    | succ count induction =>
      rw [List.range_succ, List.foldl_concat]
      have before := induction (by omega)
      generalize (List.range count).foldl _ _ = middle at before ⊢
      have word : (slice middle (sectorEnd count) 2).length = 2 :=
        slice_length (by rw [sectorEnd_eq]; omega)
      have saved := @put_length middle (slice middle (sectorEnd count) 2)
        (savedAt (usaOffset record) count) (by unfold savedAt; omega)
      rw [stampSector, put_length (by rw [leBytes_length, saved, sectorEnd_eq]; omega), saved,
        before]
  exact every sectors .refl

theorem restoreSector_header {array usn number : Nat} {start stop : Bytes}
    (within : (number + 1) * SECTOR_SIZE ≤ start.length)
    (restored : restoreSector array usn start number = .ok stop) :
    stop.length = start.length ∧ usaOffset stop = usaOffset start ∧
      usaCount stop = usaCount start := by
  unfold SECTOR_SIZE at within
  unfold restoreSector at restored
  split at restored
  · cases restored
  cases restored
  have short : (slice start (savedAt array number) 2).length ≤ 2 := List.length_take_le _ _
  have inside : sectorEnd number + (slice start (savedAt array number) 2).length ≤
      start.length := by
    rw [sectorEnd_eq]
    omega
  have behind : 510 ≤ sectorEnd number := by
    rw [sectorEnd_eq]
    omega
  exact ⟨put_length inside, readLe_put_other inside (.inl (by omega)),
    readLe_put_other inside (.inl (by omega))⟩

theorem applyFixups_header {restored : Bytes} (applied : applyFixups record = .ok restored) :
    fixupSectors restored = fixupSectors record ∧ restored.length = record.length := by
  unfold applyFixups at applied
  split at applied
  · cases applied
  next sectors admitted =>
  obtain ⟨whole, -, -⟩ := fixupSectors_ok admitted
  generalize readLe 2 record (usaOffset record) = usn at applied
  have every (numbers : List Nat) (within : ∀ number ∈ numbers, number < sectors) (start : Bytes)
      (length : start.length = record.length)
      (done : numbers.foldlM (restoreSector (usaOffset record) usn) start = .ok restored) :
      restored.length = start.length ∧ usaOffset restored = usaOffset start ∧
        usaCount restored = usaCount start := by
    induction numbers generalizing start with
    | nil =>
      cases done
      exact ⟨rfl, rfl, rfl⟩
    | cons number rest induction =>
      rw [List.forall_mem_cons] at within
      rw [List.foldlM_cons] at done
      cases stepped : restoreSector (usaOffset record) usn start number with
      | error error => rw [stepped] at done; cases done
      | ok middle =>
        rw [stepped] at done
        have inside : (number + 1) * SECTOR_SIZE ≤ start.length := by
          rw [length, whole]
          exact Nat.mul_le_mul_right _ within.1
        have first := restoreSector_header inside stepped
        obtain ⟨rest_length, offset, words⟩ :=
          induction within.2 middle (first.1.trans length) done
        exact ⟨rest_length.trans first.1, offset.trans first.2.1, words.trans first.2.2⟩
  obtain ⟨length, offset, words⟩ := every (List.range sectors)
    (fun number member => List.mem_range.mp member) record rfl applied
  refine ⟨?_, length⟩
  unfold fixupSectors
  rw [length, offset, words]

end Lengths

section Overlaps

/-- The array of a record stands apart from what its fixups need. -/
def StandsApart (record : Bytes) : Prop :=
  let stop := usaOffset record + usaCount record * 2
  (stop ≤ 4 ∨ 8 ≤ usaOffset record) ∧ ∀ sector < usaCount record - 1,
    stop ≤ sectorEnd sector ∨ sectorEnd sector + 2 ≤ usaOffset record

instance (record : Bytes) : Decidable (StandsApart record) := instDecidableAnd

/-- Fixups are removed from every record whose array stands apart. -/
theorem installed_fixups_come_off {record stamped : Bytes} {previous_usn : Nat}
    (installed : installFixups record previous_usn = .ok stamped) (apart : StandsApart record) :
    ∃ restored, applyFixups stamped = .ok restored ∧ restored.length = record.length ∧
      AgreeOn (OutsideArray (usaOffset record) (usaCount record - 1)) restored record := by
  have admitted : fixupSectors record = .ok (usaCount record - 1) := by
    unfold installFixups at installed
    unfold fixupSectors at installed ⊢
    split_ifs at installed ⊢
    rfl
  obtain ⟨whole, positive, array⟩ := fixupSectors_ok admitted
  have words : usaOffset record + usaCount record * 2 =
      usaOffset record + 2 + (usaCount record - 1) * 2 := by omega
  rw [StandsApart, words] at apart
  obtain ⟨same, restored, done, -, applied, length, agree⟩ :=
    applyFixups_installFixups previous_usn admitted ⟨whole, by omega, apart.1, apart.2⟩
  obtain rfl := Except.ok.inj (installed.symm.trans done)
  exact ⟨restored, applied, length, agree⟩

def recordWithArray (place : Nat) : Bytes :=
  put (put (zeros 1024) 0x04 (leBytes 2 place ++ leBytes 2 3)) 1022 [0x5A, 0xA5]

theorem installed_fixups_come_off_sample :
    ∃ stamped restored, installFixups (recordWithArray 0x30) 7 = .ok stamped ∧
      applyFixups stamped = .ok restored ∧ restored.length = 1024 ∧
      AgreeOn (OutsideArray 0x30 2) restored (recordWithArray 0x30) := by
  have admitted : fixupSectors (recordWithArray 0x30) = .ok 2 := by decide +kernel
  have installed : ∃ stamped, installFixups (recordWithArray 0x30) 7 = .ok stamped :=
    ⟨_, by rw [installFixups, admitted]⟩
  obtain ⟨stamped, installed⟩ := installed
  obtain ⟨restored, applied, length, agree⟩ :=
    installed_fixups_come_off installed (by decide)
  have place : usaOffset (recordWithArray 0x30) = 0x30 := by decide
  have words : usaCount (recordWithArray 0x30) = 3 := by decide
  rw [place, words] at agree
  exact ⟨stamped, restored, installed, applied, length.trans (by decide +kernel), agree⟩

/-- An array over the end of the first sector is not removed. -/
theorem array_over_sector_end : (installFixups (recordWithArray 506) 7).isOk ∧
    (installFixups (recordWithArray 506) 7).bind applyFixups = .error .usn_mismatch := by
  decide +kernel

end Overlaps

end R4OS.NtfsFormat
