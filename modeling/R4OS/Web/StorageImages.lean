import R4OS.Web.Normal
import R4OS.Web.StorageWriting

/-!
# Storages and their images

A storage whose names are in lower case is written as an image, unless an opaque origin without an
identity has an area.  Filling a storage from an image leaves what the image records, and a canonical
image is what the filled storage is written as.
-/

namespace R4OS.Web

open Text

/-- Every table of areas has its size. -/
structure StorageSet.Sized (set : StorageSet) : Prop where
  areas : set.areas.length = max_storage_origins
  entries : ∀ area ∈ set.areas, area.entries.length = max_storage_entries

/-- Every table has its size. -/
structure BrowserStorage.Sized (storage : BrowserStorage) : Prop where
  cookies : storage.cookies.entries.length = max_cookies
  local_set : storage.local_set.Sized
  session_set : storage.session_set.Sized

/-- The names of a storage are in lower case. -/
structure BrowserStorage.Lowered (storage : BrowserStorage) : Prop where
  domains : ∀ entry ∈ storage.cookies.entries, lowered entry.domain = entry.domain
  hosts : ∀ area ∈ storage.local_set.areas, lowered area.origin.host = area.origin.host

/-- Opaque origins without an identity have no local area that is written. -/
def BrowserStorage.Known (storage : BrowserStorage) : Prop :=
  ∀ area ∈ storage.writtenAreas,
    ¬ (area.origin.scheme = .opaque_origin ∧ area.origin.opaque_id = 0)

/-- The origin of an area and its keys and values. -/
def StorageArea.contents (area : StorageArea) : Origin × List (Bytes × Bytes) :=
  (area.origin, area.occupiedEntries.map fun entry => (entry.key.bytes, entry.value.bytes))

def AreaRecord.contents (record : AreaRecord) : Origin × List (Bytes × Bytes) :=
  (record.origin, record.entries.map fun pair => (pair.1.bytes, pair.2.bytes))

/-- The rule about other sites is a part of the flags. -/
theorem flags_same_site (entry : Cookie) : (entry.flags >>> 3) &&& 3 = entry.same_site.code := by
  unfold Cookie.flags
  cases entry.host_only <;> cases entry.secure <;> cases entry.http_only <;>
    cases entry.same_site <;> cases entry.persistent <;> decide

def CookieRecord.of (entry : Cookie) : CookieRecord where
  name := entry.name
  value := entry.value
  domain := entry.domain
  path := entry.path
  flags := entry.flags
  same_site := entry.same_site
  sequence := entry.sequence
  flagged := flags_same_site entry

theorem flags_bits (entry : Cookie) : decide (entry.flags &&& 1 ≠ 0) = entry.host_only ∧
    decide (entry.flags &&& 2 ≠ 0) = entry.secure ∧
    decide (entry.flags &&& 4 ≠ 0) = entry.http_only ∧
    decide (entry.flags &&& 0x20 ≠ 0) = entry.persistent := by
  unfold Cookie.flags
  cases entry.host_only <;> cases entry.secure <;> cases entry.http_only <;>
    cases entry.same_site <;> cases entry.persistent <;> decide

theorem CookieRecord.of_cookie {entry : Cookie} (occupied : entry.occupied = true)
    (lower : lowered entry.domain = entry.domain) : (CookieRecord.of entry).cookie = entry := by
  obtain ⟨host_only, secure, http_only, persistent⟩ := flags_bits entry
  unfold CookieRecord.cookie CookieRecord.of
  dsimp only
  rw [lower, host_only, secure, http_only, persistent, ← occupied]

def Recordable (area : StorageArea) : Prop :=
  ¬ (area.origin.scheme = .opaque_origin ∧ area.origin.opaque_id = 0) ∧
    area.entries.length = max_storage_entries

def AreaRecord.of (area : StorageArea) (recordable : Recordable area) : AreaRecord where
  scheme := area.origin.scheme
  host := area.origin.host
  port := area.origin.port
  opaque_id := area.origin.opaque_id
  entries := area.occupiedEntries.map fun entry => (entry.key, entry.value)
  known := recordable.1
  fits := by
    rw [List.length_map, ← recordable.2]
    exact List.length_filter_le _ _

theorem StorageArea.count_eq (area : StorageArea) : area.count = area.occupiedEntries.length :=
  List.countP_eq_length_filter

variable {area : StorageArea}

theorem AreaRecord.of_bytes (recordable : Recordable area) :
    (AreaRecord.of area recordable).bytes = area.bytes := by
  unfold AreaRecord.bytes StorageArea.bytes AreaRecord.of Origin.bytes Origin.hostBytes
  rw [StorageArea.count_eq, List.length_map, List.flatMap_map]
  rfl

theorem AreaRecord.of_contents (recordable : Recordable area)
    (lower : lowered area.origin.host = area.origin.host) :
    (AreaRecord.of area recordable).contents = area.contents := by
  unfold AreaRecord.contents StorageArea.contents AreaRecord.of AreaRecord.origin
  dsimp only
  rw [lower, List.map_map]
  rfl

section Images

variable {storage : BrowserStorage}

theorem writtenAreas_recordable (sized : storage.Sized) (known : storage.Known) :
    ∀ area ∈ storage.writtenAreas, Recordable area := by
  intro area member
  exact ⟨known area member, sized.local_set.entries area (List.mem_of_mem_filter member)⟩

def StorageImage.of (storage : BrowserStorage) (sized : storage.Sized) (known : storage.Known) :
    StorageImage where
  cookies := storage.writtenCookies.map CookieRecord.of
  areas := storage.writtenAreas.pmap AreaRecord.of (writtenAreas_recordable sized known)
  cookies_fit := by
    rw [List.length_map, ← sized.cookies]
    exact List.length_filter_le _ _
  areas_fit := by
    rw [List.length_pmap, ← sized.local_set.areas]
    exact List.length_filter_le _ _

variable (sized : storage.Sized) (known : storage.Known)

theorem StorageImage.of_bytes :
    (StorageImage.of storage sized known).bytes = storage.bytes := by
  unfold StorageImage.bytes BrowserStorage.bytes StorageImage.of
  dsimp only
  have areas : (storage.writtenAreas.pmap AreaRecord.of
      (writtenAreas_recordable sized known)).flatMap AreaRecord.bytes =
      storage.writtenAreas.flatMap StorageArea.bytes := by
    rw [List.flatMap_def, List.flatMap_def]
    congr 1
    refine List.ext_getElem (by simp) fun index _ _ => ?_
    rw [List.getElem_map, List.getElem_map, List.getElem_pmap]
    exact AreaRecord.of_bytes _
  rw [areas, List.length_map, List.length_pmap, List.flatMap_map]
  rfl

theorem StorageImage.of_cookies (lower : storage.Lowered) :
    (StorageImage.of storage sized known).cookies.map CookieRecord.cookie =
      storage.writtenCookies := by
  unfold StorageImage.of
  rw [List.map_map]
  refine (List.map_congr_left fun entry member => ?_).trans (List.map_id _)
  obtain ⟨stored, kept⟩ := List.mem_filter.mp member
  exact CookieRecord.of_cookie (Bool.and_eq_true_iff.mp kept).1 (lower.domains entry stored)

theorem StorageImage.of_areas (lower : storage.Lowered) :
    (StorageImage.of storage sized known).areas.map AreaRecord.contents =
      storage.writtenAreas.map StorageArea.contents := by
  unfold StorageImage.of
  refine List.ext_getElem (by simp) fun index _ bound => ?_
  rw [List.getElem_map, List.getElem_map, List.getElem_pmap]
  exact AreaRecord.of_contents _ (lower.hosts _ (List.mem_of_mem_filter (List.getElem_mem _)))

section Filling

open Decoder BrowserStorage

variable {target : BrowserStorage}

variable (record : AreaRecord)

theorem reset_sized (sized : target.Sized) : target.reset.Sized := by
  have reset_set : ∀ {set : StorageSet}, set.Sized → (resetStorageSet set).Sized := by
    intro set set_sized
    refine ⟨(List.length_map _).trans set_sized.areas, fun area member => ?_⟩
    obtain ⟨former, former_member, rfl⟩ := List.mem_map.mp member
    exact (List.length_map _).trans (set_sized.entries former former_member)
  exact ⟨(List.length_map _).trans sized.cookies, reset_set sized.local_set,
    reset_set sized.session_set⟩

/-- Nothing of a set is in use. -/
def StorageSet.Unused (set : StorageSet) : Prop :=
  ∀ area ∈ set.areas, area.occupied = false ∧ ∀ entry ∈ area.entries, entry.occupied = false

theorem resetStorageSet_unused (set : StorageSet) : (resetStorageSet set).Unused := by
  intro area member
  obtain ⟨former, -, rfl⟩ := List.mem_map.mp member
  refine ⟨rfl, fun entry entry_member => ?_⟩
  obtain ⟨former_entry, -, rfl⟩ := List.mem_map.mp entry_member
  rfl

theorem reset_cookies_free : ∀ entry ∈ target.reset.cookies.entries, entry.occupied = false := by
  intro entry member
  obtain ⟨former, -, rfl⟩ := List.mem_map.mp member
  rfl

theorem filled_entries {record : AreaRecord} (sized : area.entries.length = max_storage_entries) :
    (record.fill area).entries =
      record.entries.map pairEntry ++ area.entries.drop record.entries.length := by
  unfold AreaRecord.fill
  dsimp only
  rw [putAll_set (by rw [sized]; simpa using record.fits), List.take_zero, List.nil_append,
    Nat.zero_add]

variable (image : StorageImage)

theorem fill_eq (sized : target.Sized) :
    (image.fill target).cookies.entries = image.cookies.map CookieRecord.cookie ++
        target.reset.cookies.entries.drop image.cookies.length ∧
      (image.fill target).local_set.areas =
        List.zipWith AreaRecord.fill image.areas target.reset.local_set.areas ++
          target.reset.local_set.areas.drop image.areas.length ∧
      (image.fill target).session_set = target.reset.session_set := by
  have again := reset_sized sized
  refine ⟨?_, ?_, ?_⟩
  · calc (image.fill target).cookies.entries
        = (putAll (fun index record => setCookie index record.cookie) 0 image.cookies
            target.reset).cookies.entries :=
          putAll_kept (fun storage : BrowserStorage => storage.cookies.entries) (by intros; rfl)
      _ = putAll (fun index record entries => entries.set index record.cookie) 0 image.cookies
            target.reset.cookies.entries :=
          putAll_view (fun storage : BrowserStorage => storage.cookies.entries) _ (by intros; rfl)
      _ = _ := by
          rw [putAll_set (by rw [again.cookies]; simpa using image.cookies_fit), List.take_zero,
            List.nil_append, Nat.zero_add]
  · calc (image.fill target).local_set.areas
        = putAll (fun place record areas => areas.modify place record.fill) 0 image.areas
            (putAll (fun index record => setCookie index record.cookie) 0 image.cookies
              target.reset).local_set.areas :=
          putAll_view (fun storage : BrowserStorage => storage.local_set.areas) _ (by intros; rfl)
      _ = putAll (fun place record areas => areas.modify place record.fill) 0 image.areas
            target.reset.local_set.areas :=
          congrArg _ (putAll_kept (fun storage : BrowserStorage => storage.local_set.areas)
            (by intros; rfl))
      _ = _ := by
          rw [putAll_modify (by rw [again.local_set.areas]; simpa using image.areas_fit),
            List.take_zero, List.nil_append, Nat.zero_add, List.drop_zero]
  · calc (image.fill target).session_set
        = (putAll (fun index record => setCookie index record.cookie) 0 image.cookies
            target.reset).session_set :=
          putAll_kept (fun storage : BrowserStorage => storage.session_set) (by intros; rfl)
      _ = _ := putAll_kept (fun storage : BrowserStorage => storage.session_set) (by intros; rfl)

theorem filled_occupiedEntries {area : StorageArea}
    (sized : area.entries.length = max_storage_entries)
    (free : ∀ entry ∈ area.entries, entry.occupied = false) :
    (record.fill area).occupiedEntries = record.entries.map pairEntry := by
  unfold StorageArea.occupiedEntries
  rw [filled_entries sized, List.filter_append, List.filter_eq_self.mpr, List.filter_eq_nil_iff.mpr,
    List.append_nil]
  · intro entry member
    simp [free entry (List.mem_of_mem_drop member)]
  · intro entry member
    obtain ⟨pair, -, rfl⟩ := List.mem_map.mp member
    rfl

theorem filled_contents {area : StorageArea} (sized : area.entries.length = max_storage_entries)
    (free : ∀ entry ∈ area.entries, entry.occupied = false) :
    (record.fill area).contents = record.contents := by
  unfold StorageArea.contents AreaRecord.contents
  rw [filled_occupiedEntries record sized free, List.map_map]
  rfl

theorem filled_bytes {area : StorageArea} (sized : area.entries.length = max_storage_entries)
    (free : ∀ entry ∈ area.entries, entry.occupied = false)
    (lower : lowered record.host = record.host) : (record.fill area).bytes = record.bytes := by
  have origin : (record.fill area).origin.bytes =
      originBytes record.scheme record.host.bytes record.port record.opaque_id := by
    change originBytes record.scheme (lowered record.host).bytes record.port record.opaque_id = _
    rw [lower]
  unfold StorageArea.bytes AreaRecord.bytes
  rw [StorageArea.count_eq, filled_occupiedEntries record sized free, origin, List.length_map,
    List.flatMap_map]
  rfl

theorem zipWith_fill {Shown : Type} {image : StorageImage} (show_area : StorageArea → Shown)
    (show_record : AreaRecord → Shown) (sized : target.Sized)
    (same : ∀ record ∈ image.areas, ∀ area : StorageArea,
      area.entries.length = max_storage_entries → (∀ entry ∈ area.entries, entry.occupied = false) →
      show_area (record.fill area) = show_record record) :
    (List.zipWith AreaRecord.fill image.areas target.reset.local_set.areas).map show_area =
      image.areas.map show_record := by
  have room : image.areas.length ≤ target.reset.local_set.areas.length := by
    rw [(reset_sized sized).local_set.areas]
    exact image.areas_fit
  refine List.ext_getElem (by simpa using room) fun index _ _ => ?_
  rw [List.getElem_map, List.getElem_map, List.getElem_zipWith]
  have inside : index < target.reset.local_set.areas.length := by
    simp only [List.length_map] at *
    omega
  have member := List.getElem_mem inside
  exact same _ (List.getElem_mem _) _ ((reset_sized sized).local_set.entries _ member)
    (resetStorageSet_unused target.local_set _ member).2

theorem filled_cookies (sized : target.Sized) :
    (image.fill target).cookies.entries.filter (·.occupied) =
      image.cookies.map CookieRecord.cookie := by
  rw [(fill_eq image sized).1, List.filter_append, List.filter_eq_self.mpr,
    List.filter_eq_nil_iff.mpr, List.append_nil]
  · intro entry member
    simp [reset_cookies_free entry (List.mem_of_mem_drop member)]
  · intro entry member
    obtain ⟨record, -, rfl⟩ := List.mem_map.mp member
    rfl

theorem filled_areas (sized : target.Sized) :
    (image.fill target).local_set.areas.filter (·.occupied) =
      List.zipWith AreaRecord.fill image.areas target.reset.local_set.areas := by
  rw [(fill_eq image sized).2.1, List.filter_append, List.filter_eq_self.mpr,
    List.filter_eq_nil_iff.mpr, List.append_nil]
  · intro area member
    have free := (resetStorageSet_unused target.local_set area (List.mem_of_mem_drop member)).1
    simp [free]
  · intro area member
    obtain ⟨index, _, rfl⟩ := List.mem_iff_getElem.mp member
    rw [List.getElem_zipWith]
    rfl

/-- A record as a storage writes it. -/
structure StorageImage.Canonical (image : StorageImage) : Prop where
  flags : ∀ record ∈ image.cookies, record.flags &&& 0xE0 = 0x20
  domains : ∀ record ∈ image.cookies, lowered record.domain = record.domain
  hosts : ∀ record ∈ image.areas, lowered record.host = record.host
  filled : ∀ record ∈ image.areas, record.entries ≠ []

theorem canonical_flags {record : CookieRecord} (canonical : record.flags &&& 0xE0 = 0x20) :
    record.cookie.persistent = true ∧ record.cookie.flags = record.flags := by
  have every : ∀ flags : UInt8, flags &&& 0xE0 = 0x20 → flags &&& 0x20 ≠ 0 ∧
      (if decide (flags &&& 1 ≠ 0) then (1 : UInt8) else 0) |||
        (if decide (flags &&& 2 ≠ 0) then (2 : UInt8) else 0) |||
        (if decide (flags &&& 4 ≠ 0) then (4 : UInt8) else 0) ||| ((flags >>> 3) &&& 3) <<< 3 |||
        (if decide (flags &&& 0x20 ≠ 0) then (0x20 : UInt8) else 0) = flags :=
    forall_byte (by decide +kernel)
  obtain ⟨persistent, whole⟩ := every record.flags canonical
  rw [record.flagged] at whole
  exact ⟨decide_eq_true persistent, whole⟩

theorem canonical_bytes {record : CookieRecord} (canonical : record.flags &&& 0xE0 = 0x20)
    (lower : lowered record.domain = record.domain) : record.cookie.bytes = record.bytes := by
  unfold Cookie.bytes CookieRecord.bytes
  rw [(canonical_flags canonical).2]
  change _ ++ stringBytes (lowered record.domain).bytes ++ _ ++ _ ++ _ = _
  rw [lower]
  rfl

theorem writtenCookies_eq (storage : BrowserStorage) : storage.writtenCookies =
    (storage.cookies.entries.filter (·.occupied)).filter (·.persistent) := by
  rw [List.filter_filter]
  exact List.filter_congr fun entry _ => Bool.and_comm _ _

theorem writtenAreas_eq (storage : BrowserStorage) : storage.writtenAreas =
    (storage.local_set.areas.filter (·.occupied)).filter fun area => decide (0 < area.count) := by
  rw [List.filter_filter]
  exact List.filter_congr fun area _ => Bool.and_comm _ _

theorem filled_storage_bytes {image : StorageImage} (canonical : image.Canonical)
    (sized : target.Sized) : (image.fill target).bytes = image.bytes := by
  have cookies : (image.fill target).writtenCookies = image.cookies.map CookieRecord.cookie := by
    rw [writtenCookies_eq, filled_cookies image sized]
    refine List.filter_eq_self.mpr fun entry member => ?_
    obtain ⟨record, stored, rfl⟩ := List.mem_map.mp member
    exact (canonical_flags (canonical.flags record stored)).1
  have areas : (image.fill target).writtenAreas =
      List.zipWith AreaRecord.fill image.areas target.reset.local_set.areas := by
    have counts : (List.zipWith AreaRecord.fill image.areas target.reset.local_set.areas).map
        StorageArea.count = image.areas.map fun record => record.entries.length :=
      zipWith_fill _ _ sized fun record _ area area_sized free => by
        rw [StorageArea.count_eq, filled_occupiedEntries record area_sized free, List.length_map]
    rw [writtenAreas_eq, filled_areas image sized]
    refine List.filter_eq_self.mpr fun area member => ?_
    have shown : area.count ∈ (List.zipWith AreaRecord.fill image.areas
        target.reset.local_set.areas).map StorageArea.count := List.mem_map_of_mem member
    rw [counts] at shown
    obtain ⟨record, stored, same⟩ := List.mem_map.mp shown
    rw [← same]
    exact decide_eq_true (List.length_pos_iff.mpr (canonical.filled record stored))
  have cookie_bytes : (image.cookies.map CookieRecord.cookie).flatMap Cookie.bytes =
      image.cookies.flatMap CookieRecord.bytes := by
    rw [List.flatMap_map, List.flatMap_def, List.flatMap_def]
    congr 1
    exact List.map_congr_left fun record stored =>
      canonical_bytes (canonical.flags record stored) (canonical.domains record stored)
  have area_bytes : (List.zipWith AreaRecord.fill image.areas
      target.reset.local_set.areas).flatMap StorageArea.bytes =
        image.areas.flatMap AreaRecord.bytes := by
    rw [List.flatMap_def, List.flatMap_def]
    congr 1
    exact zipWith_fill _ _ sized fun record stored area area_sized free =>
      filled_bytes record area_sized free (canonical.hosts record stored)
  have area_count : (List.zipWith AreaRecord.fill image.areas
      target.reset.local_set.areas).length = image.areas.length := by
    rw [List.length_zipWith, (reset_sized sized).local_set.areas]
    exact Nat.min_eq_left image.areas_fit
  unfold BrowserStorage.bytes StorageImage.bytes
  rw [cookies, areas, cookie_bytes, area_bytes, area_count, List.length_map]

/-- What a storage keeps of another one. -/
structure Restored (storage after : BrowserStorage) : Prop where
  cookies : after.cookies.entries.filter (·.occupied) = storage.writtenCookies
  areas : (after.local_set.areas.filter (·.occupied)).map StorageArea.contents =
    storage.writtenAreas.map StorageArea.contents
  session : after.session_set.Unused
  bytes : after.bytes = storage.bytes

theorem StorageImage.of_canonical (lower : storage.Lowered) :
    (StorageImage.of storage sized known).Canonical := by
  have area_of : ∀ record ∈ (StorageImage.of storage sized known).areas,
      ∃ area ∈ storage.writtenAreas, ∃ recordable, record = AreaRecord.of area recordable := by
    intro record member
    obtain ⟨area, stored, rfl⟩ := List.mem_pmap.mp member
    exact ⟨area, stored, _, rfl⟩
  refine ⟨?_, ?_, ?_, ?_⟩
  · intro record member
    obtain ⟨entry, stored, rfl⟩ := List.mem_map.mp member
    have persistent := (Bool.and_eq_true_iff.mp (List.mem_filter.mp stored).2).2
    change entry.flags &&& 0xE0 = 0x20
    unfold Cookie.flags
    rw [persistent]
    cases entry.host_only <;> cases entry.secure <;> cases entry.http_only <;>
      cases entry.same_site <;> decide
  · intro record member
    obtain ⟨entry, stored, rfl⟩ := List.mem_map.mp member
    exact lower.domains entry (List.mem_of_mem_filter stored)
  · intro record member
    obtain ⟨area, stored, recordable, rfl⟩ := area_of record member
    exact lower.hosts area (List.mem_of_mem_filter stored)
  · intro record member
    obtain ⟨area, stored, recordable, rfl⟩ := area_of record member
    have counted := of_decide_eq_true (Bool.and_eq_true_iff.mp (List.mem_filter.mp stored).2).2
    rw [StorageArea.count_eq] at counted
    intro empty
    rw [List.map_eq_nil_iff.mp empty] at counted
    exact absurd counted (by decide)

theorem filled_restored {storage : BrowserStorage} (sized : storage.Sized) (known : storage.Known)
    (lower : storage.Lowered) (target_sized : target.Sized) :
    Restored storage ((StorageImage.of storage sized known).fill target) where
  cookies := (filled_cookies _ target_sized).trans (StorageImage.of_cookies sized known lower)
  areas := by
    rw [filled_areas _ target_sized, ← StorageImage.of_areas sized known lower]
    exact zipWith_fill _ _ target_sized fun record _ area area_sized free =>
      filled_contents record area_sized free
  session := by
    rw [(fill_eq _ target_sized).2.2]
    exact resetStorageSet_unused target.session_set
  bytes := (filled_storage_bytes (StorageImage.of_canonical sized known lower) target_sized).trans
    (StorageImage.of_bytes sized known)

end Filling

end Images

end R4OS.Web
