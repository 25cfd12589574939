import R4OS.Web.Storage

/-!
# Images of storages

An image is what a storage is written as: the records of its persistent cookies and of its local areas.
Writing a storage gives the bytes of its image, and a byte string is read exactly when it is the bytes
of an image.
-/

namespace R4OS.Web

open Text

def u16Bytes (value : UInt16) : Bytes := [value.toUInt8, (value >>> 8).toUInt8]

def u32Bytes (value : UInt32) : Bytes :=
  u16Bytes value.toUInt16 ++ u16Bytes (value >>> 16).toUInt16

/-- A text behind its length. -/
def stringBytes (value : Bytes) : Bytes := u16Bytes (UInt16.ofNat value.length) ++ value

theorem joined16_toNat (low high : UInt8) :
    (low.toUInt16 ||| high.toUInt16 <<< 8).toNat = high.toNat * 256 + low.toNat := by
  have small := low.toNat_lt
  have large := high.toNat_lt
  rw [UInt16.toNat_or, UInt16.toNat_shiftLeft, Nat.or_comm]
  simp only [UInt8.toNat_toUInt16, UInt16.reduceToNat, Nat.reduceMod]
  rw [Nat.mod_eq_of_lt (by rw [Nat.shiftLeft_eq]; omega), ← Nat.shiftLeft_add_eq_or_of_lt small,
    Nat.shiftLeft_eq]

theorem joined32_toNat (low high : UInt16) :
    (low.toUInt32 ||| high.toUInt32 <<< 16).toNat = high.toNat * 65536 + low.toNat := by
  have small := low.toNat_lt
  have large := high.toNat_lt
  rw [UInt32.toNat_or, UInt32.toNat_shiftLeft, Nat.or_comm]
  simp only [UInt16.toNat_toUInt32, UInt32.reduceToNat, Nat.reduceMod]
  rw [Nat.mod_eq_of_lt (by rw [Nat.shiftLeft_eq]; omega), ← Nat.shiftLeft_add_eq_or_of_lt small,
    Nat.shiftLeft_eq]

theorem split16_toNat (value : UInt16) :
    value.toNat = (value >>> 8).toUInt8.toNat * 256 + value.toUInt8.toNat := by
  have small := value.toNat_lt
  simp [Nat.shiftRight_eq_div_pow]
  omega

theorem split32_toNat (value : UInt32) :
    value.toNat = (value >>> 16).toUInt16.toNat * 65536 + value.toUInt16.toNat := by
  have small := value.toNat_lt
  simp [Nat.shiftRight_eq_div_pow]
  omega

theorem u16Bytes_iff {low high : UInt8} {value : UInt16} :
    [low, high] = u16Bytes value ↔ value = low.toUInt16 ||| high.toUInt16 <<< 8 := by
  rw [← UInt16.toNat_inj, joined16_toNat, u16Bytes, List.cons.injEq, List.cons.injEq,
    ← UInt8.toNat_inj, ← UInt8.toNat_inj]
  have split := split16_toNat value
  have low_lt := low.toNat_lt
  have first_lt := value.toUInt8.toNat_lt
  constructor
  · rintro ⟨first, second, -⟩
    rw [first, second, split]
  · intro joined
    exact ⟨by omega, by omega, rfl⟩

theorem u32_iff {low high : UInt16} {value : UInt32} :
    low = value.toUInt16 ∧ high = (value >>> 16).toUInt16 ↔
      value = low.toUInt32 ||| high.toUInt32 <<< 16 := by
  rw [← UInt32.toNat_inj, joined32_toNat, ← UInt16.toNat_inj, ← UInt16.toNat_inj]
  have split := split32_toNat value
  have low_lt := low.toNat_lt
  have first_lt := value.toUInt16.toNat_lt
  constructor
  · rintro ⟨first, second⟩
    rw [first, second, split]
  · intro joined
    exact ⟨by omega, by omega⟩

structure CookieRecord where
  name : Bounded max_cookie_name_bytes
  value : Bounded max_cookie_value_bytes
  domain : Bounded max_origin_host_bytes
  path : Bounded max_cookie_path_bytes
  flags : UInt8
  same_site : SameSite
  sequence : UInt32
  /-- The rule about other sites is a part of the flags. -/
  flagged : (flags >>> 3) &&& 3 = same_site.code

structure AreaRecord where
  scheme : OriginScheme
  host : Bounded max_origin_host_bytes
  port : UInt16
  opaque_id : UInt32
  entries : List (Bounded max_storage_key_bytes × Bounded max_storage_value_bytes)
  /-- An opaque origin has an identity. -/
  known : ¬ (scheme = .opaque_origin ∧ opaque_id = 0)
  fits : entries.length ≤ max_storage_entries

/-- What a storage is written as. -/
structure StorageImage where
  cookies : List CookieRecord
  areas : List AreaRecord
  cookies_fit : cookies.length ≤ max_cookies
  areas_fit : areas.length ≤ max_storage_origins

def CookieRecord.bytes (record : CookieRecord) : Bytes :=
  stringBytes record.name.bytes ++ stringBytes record.value.bytes ++
    stringBytes record.domain.bytes ++ stringBytes record.path.bytes ++ [record.flags] ++
    u32Bytes record.sequence

def originBytes (scheme : OriginScheme) (host : Bytes) (port : UInt16) (opaque_id : UInt32) : Bytes :=
  [scheme.code] ++ stringBytes host ++ u16Bytes port ++ u32Bytes opaque_id

def pairBytes (pair : Bounded max_storage_key_bytes × Bounded max_storage_value_bytes) : Bytes :=
  stringBytes pair.1.bytes ++ stringBytes pair.2.bytes

def AreaRecord.bytes (record : AreaRecord) : Bytes :=
  originBytes record.scheme record.host.bytes record.port record.opaque_id ++
    u16Bytes (UInt16.ofNat record.entries.length) ++ record.entries.flatMap pairBytes

def StorageImage.bytes (image : StorageImage) : Bytes :=
  ascii "R4WS" ++ u16Bytes 1 ++
    u16Bytes (UInt16.ofNat image.cookies.length) ++ image.cookies.flatMap CookieRecord.bytes ++
    u16Bytes (UInt16.ofNat image.areas.length) ++ image.areas.flatMap AreaRecord.bytes

/-- A text in lower case. -/
def lowered {capacity : Nat} (text : Bounded capacity) : Bounded capacity :=
  ⟨text.bytes.map toLower, by rw [List.length_map]; exact text.fits⟩

def CookieRecord.cookie (record : CookieRecord) : Cookie where
  occupied := true
  name := record.name
  value := record.value
  domain := lowered record.domain
  path := record.path
  host_only := record.flags &&& 1 ≠ 0
  secure := record.flags &&& 2 ≠ 0
  http_only := record.flags &&& 4 ≠ 0
  persistent := record.flags &&& 0x20 ≠ 0
  same_site := record.same_site
  sequence := record.sequence

def AreaRecord.origin (record : AreaRecord) : Origin where
  scheme := record.scheme
  host := lowered record.host
  port := record.port
  opaque_id := record.opaque_id

def pairEntry (pair : Bounded max_storage_key_bytes × Bounded max_storage_value_bytes) :
    StorageEntry where
  occupied := true
  key := pair.1
  value := pair.2

open Decoder in
def AreaRecord.fill (record : AreaRecord) (area : StorageArea) : StorageArea where
  occupied := true
  origin := record.origin
  entries := putAll (fun index pair entries => entries.set index (pairEntry pair)) 0 record.entries
    area.entries

open Decoder in
def StorageImage.fill (image : StorageImage) (storage : BrowserStorage) : BrowserStorage :=
  putAll (fun place record => BrowserStorage.changeArea place record.fill) 0 image.areas
    (putAll (fun index record => BrowserStorage.setCookie index record.cookie) 0 image.cookies
      storage.reset)

section Readers

open Decoder PersistenceReader BrowserStorage

variable {capacity place : Nat} {storage : BrowserStorage}

theorem byte_takes : Takes max_persistence_bytes byte fun text before value after =>
    text = [value] ∧ after = before := by
  refine ((Takes.take 1).bind fun value => Takes.pure _).congr fun text before value after => ?_
  constructor
  · rintro ⟨first, _, _, _, rfl, ⟨single, rfl, rfl⟩, rfl, rfl, rfl⟩
    obtain ⟨read, rfl⟩ := List.length_eq_one_iff.mp single
    exact ⟨rfl, rfl⟩
  · rintro ⟨rfl, rfl⟩
    exact ⟨[value], [], _, _, rfl, ⟨rfl, rfl, rfl⟩, rfl, rfl, rfl⟩

theorem u16Value_takes : Takes max_persistence_bytes u16Value fun text before value after =>
    text = u16Bytes value ∧ after = before := by
  refine ((Takes.take 2).bind fun value => Takes.pure _).congr fun text before value after => ?_
  constructor
  · rintro ⟨first, _, _, _, rfl, ⟨double, rfl, rfl⟩, rfl, rfl, rfl⟩
    obtain ⟨low, high, rfl⟩ := List.length_eq_two.mp double
    exact ⟨u16Bytes_iff.mpr rfl, rfl⟩
  · rintro ⟨rfl, rfl⟩
    exact ⟨u16Bytes value, [], _, _, (List.append_nil _).symm, ⟨rfl, rfl, rfl⟩, rfl,
      u16Bytes_iff.mp rfl, rfl⟩

theorem u32Value_takes : Takes max_persistence_bytes u32Value fun text before value after =>
    text = u32Bytes value ∧ after = before := by
  refine (u16Value_takes.bind fun low => u16Value_takes.bind fun high => .pure _).congr
    fun text before value after => ?_
  constructor
  · rintro ⟨_, _, low, _, rfl, ⟨rfl, rfl⟩, _, _, high, _, rfl, ⟨rfl, rfl⟩, rfl, joined, rfl⟩
    obtain ⟨rfl, rfl⟩ := u32_iff.mpr joined
    exact ⟨by rw [List.append_nil, u32Bytes], rfl⟩
  · rintro ⟨rfl, rfl⟩
    exact ⟨_, _, _, _, rfl, ⟨rfl, rfl⟩, _, [], _, _, (List.append_nil _).symm, ⟨rfl, rfl⟩, rfl,
      u32_iff.mp ⟨rfl, rfl⟩, rfl⟩

theorem string_takes {maximum : Nat} (small : maximum < 65536) :
    Takes max_persistence_bytes (string maximum) fun text before value after =>
      text = stringBytes value ∧ value.length ≤ maximum ∧ after = before := by
  refine (u16Value_takes.bind fun count => .ite (.throw _) (.take count.toNat)).congr
    fun text before value after => ?_
  constructor
  · rintro ⟨_, _, count, _, rfl, ⟨rfl, rfl⟩, taken⟩
    split at taken
    · exact taken.elim
    · next short =>
      obtain ⟨counted, rfl, rfl⟩ := taken
      refine ⟨?_, by omega, rfl⟩
      rw [stringBytes, counted, UInt16.ofNat_toNat]
  · rintro ⟨rfl, short, rfl⟩
    have counted : (UInt16.ofNat value.length).toNat = value.length := by
      rw [UInt16.toNat_ofNat', Nat.mod_eq_of_lt (by omega)]
    refine ⟨_, _, _, _, rfl, ⟨rfl, rfl⟩, ?_⟩
    rw [if_neg (by omega)]
    exact ⟨counted.symm, rfl, rfl⟩

theorem field_takes (value : Bytes) :
    Takes max_persistence_bytes (field capacity value) fun text before answer after =>
      text = [] ∧ answer.bytes = value ∧ after = before := by
  unfold field Fixed.set
  by_cases fits : value.length ≤ capacity
  · rw [dif_pos fits]
    refine (Takes.pure _).congr fun text before answer after => ?_
    constructor
    · rintro ⟨rfl, rfl, rfl⟩
      exact ⟨rfl, rfl, rfl⟩
    · rintro ⟨rfl, rfl, rfl⟩
      exact ⟨rfl, rfl, rfl⟩
  · rw [dif_neg fits]
    refine (Takes.throw _).congr fun text before answer after => ?_
    constructor
    · exact False.elim
    · rintro ⟨-, rfl, -⟩
      exact fits answer.fits

theorem fixed_takes (small : capacity < 65536) :
    Takes max_persistence_bytes (fixed capacity)
      fun text before answer after => text = stringBytes answer.bytes ∧ after = before := by
  refine ((string_takes small).bind fun value => field_takes value).congr
    fun text before answer after => ?_
  constructor
  · rintro ⟨_, _, _, _, rfl, ⟨rfl, -, rfl⟩, rfl, rfl, rfl⟩
    exact ⟨List.append_nil _, rfl⟩
  · rintro ⟨rfl, rfl⟩
    exact ⟨_, [], _, _, (List.append_nil _).symm, ⟨rfl, answer.fits, rfl⟩, rfl, rfl, rfl⟩

theorem fixedLower_takes (small : capacity < 65536) :
    Takes max_persistence_bytes (fixedLower capacity) fun text before answer after =>
      ∃ raw : Bounded capacity, text = stringBytes raw.bytes ∧ answer = lowered raw ∧
        after = before := by
  refine ((string_takes small).bind fun value => field_takes (value.map toLower)).congr
    fun text before answer after => ?_
  constructor
  · rintro ⟨_, _, value, _, rfl, ⟨rfl, short, rfl⟩, rfl, shown, rfl⟩
    exact ⟨⟨value, short⟩, List.append_nil _, Bounded.ext shown, rfl⟩
  · rintro ⟨raw, rfl, rfl, rfl⟩
    exact ⟨_, [], _, _, (List.append_nil _).symm, ⟨rfl, raw.fits, rfl⟩, rfl, rfl, rfl⟩

theorem scheme_takes (code : UInt8) :
    Takes max_persistence_bytes (PersistenceReader.scheme code) fun text before answer after =>
      text = [] ∧ code = answer.code ∧ after = before := by
  refine (Takes.ite (Takes.pure _) (Takes.ite (Takes.pure _) (Takes.ite (Takes.pure _)
    (Takes.throw _)))).congr fun text before answer after => ?_
  constructor
  · intro taken
    split_ifs at taken with code code code
    iterate 3
      · obtain ⟨rfl, rfl, rfl⟩ := taken
        exact ⟨rfl, code, rfl⟩
  · rintro ⟨rfl, rfl, rfl⟩
    cases answer <;> simp [OriginScheme.code]

theorem sameSite_takes (flags : UInt8) :
    Takes max_persistence_bytes (sameSite flags) fun text before answer after =>
      text = [] ∧ (flags >>> 3) &&& 3 = answer.code ∧ after = before := by
  refine (Takes.ite (Takes.pure _) (Takes.ite (Takes.pure _) (Takes.ite (Takes.pure _)
    (Takes.throw _)))).congr fun text before answer after => ?_
  constructor
  · intro taken
    split_ifs at taken with code code code
    iterate 3
      · obtain ⟨rfl, rfl, rfl⟩ := taken
        exact ⟨rfl, code, rfl⟩
  · rintro ⟨rfl, known, rfl⟩
    cases answer <;> simp [known, SameSite.code]

theorem decodeCookie_takes (index : Nat) :
    Takes max_persistence_bytes (decodeCookie index) fun text before _ after =>
      ∃ record : CookieRecord, text = record.bytes ∧ after = setCookie index record.cookie before := by
  refine ((fixed_takes (by decide)).bind fun name => (fixed_takes (by decide)).bind fun value =>
    (fixedLower_takes (by decide)).bind fun domain => (fixed_takes (by decide)).bind fun path =>
    byte_takes.bind fun flags => (sameSite_takes flags).bind fun same_site =>
    u32Value_takes.bind fun sequence => .write _).congr fun text before answer after => ?_
  constructor
  · rintro ⟨_, _, name, _, rfl, ⟨rfl, rfl⟩, _, _, value, _, rfl, ⟨rfl, rfl⟩, _, _, _, _, rfl,
      ⟨domain, rfl, rfl, rfl⟩, _, _, path, _, rfl, ⟨rfl, rfl⟩, _, _, flags, _, rfl, ⟨rfl, rfl⟩,
      _, _, same_site, _, rfl, ⟨rfl, flagged, rfl⟩, _, _, sequence, _, rfl, ⟨rfl, rfl⟩, rfl, rfl⟩
    exact ⟨{ name, value, domain, path, flags, same_site, sequence, flagged },
      by simp [CookieRecord.bytes], rfl⟩
  · rintro ⟨record, rfl, rfl⟩
    refine ⟨_, _, record.name, _, ?_, ⟨rfl, rfl⟩, _, _, record.value, _, rfl, ⟨rfl, rfl⟩, _, _, _, _,
      rfl, ⟨record.domain, rfl, rfl, rfl⟩, _, _, record.path, _, rfl, ⟨rfl, rfl⟩, _, _, record.flags,
      _, rfl, ⟨rfl, rfl⟩, _, _, record.same_site, _, rfl, ⟨rfl, record.flagged, rfl⟩, _, _,
      record.sequence, _, rfl, ⟨rfl, rfl⟩, rfl, rfl⟩
    simp [CookieRecord.bytes]

theorem origin_takes : Takes max_persistence_bytes PersistenceReader.origin
    fun text before answer after => ∃ host : Bounded max_origin_host_bytes,
      text = originBytes answer.scheme host.bytes answer.port answer.opaque_id ∧
        answer.host = lowered host ∧ ¬ (answer.scheme = .opaque_origin ∧ answer.opaque_id = 0) ∧
        after = before := by
  refine (byte_takes.bind fun code => (scheme_takes code).bind fun scheme =>
    (fixedLower_takes (by decide)).bind fun host => u16Value_takes.bind fun port =>
    u32Value_takes.bind fun opaque_id => .ite (.throw _) (.pure _)).congr
    fun text before answer after => ?_
  constructor
  · rintro ⟨_, _, code, _, rfl, ⟨rfl, rfl⟩, _, _, scheme, _, rfl, ⟨rfl, rfl, rfl⟩, _, _, _, _, rfl,
      ⟨host, rfl, rfl, rfl⟩, _, _, port, _, rfl, ⟨rfl, rfl⟩, _, _, opaque_id, _, rfl, ⟨rfl, rfl⟩,
      taken⟩
    split at taken
    · exact taken.elim
    · next known =>
      obtain ⟨rfl, rfl, rfl⟩ := taken
      exact ⟨host, by simp [originBytes], rfl, known, rfl⟩
  · rintro ⟨host, rfl, lower, known, rfl⟩
    refine ⟨_, _, _, _, ?_, ⟨rfl, rfl⟩, _, _, answer.scheme, _, rfl, ⟨rfl, rfl, rfl⟩, _, _, _, _, rfl,
      ⟨host, rfl, rfl, rfl⟩, _, _, answer.port, _, rfl, ⟨rfl, rfl⟩, _, [], answer.opaque_id, _, rfl,
      ⟨rfl, rfl⟩, ?_⟩
    · simp [originBytes]
    · rw [if_neg known, ← lower]
      exact ⟨rfl, rfl, rfl⟩

theorem changeArea_changeArea {first second : StorageArea → StorageArea} : changeArea place second (changeArea place first storage) =
      changeArea place (second ∘ first) storage := by
  simp only [changeArea, List.modify_modify_eq]

theorem changeEntry_changeEntry {index : Nat} {first second : StorageEntry → StorageEntry} : changeEntry place index second (changeEntry place index first storage) =
      changeEntry place index (second ∘ first) storage := by
  unfold changeEntry
  rw [changeArea_changeArea]
  congr 1
  funext area
  simp only [Function.comp_apply, List.modify_modify_eq]

theorem decodeEntry_takes (place index : Nat) :
    Takes max_persistence_bytes (decodeEntry place index) fun text before _ after =>
      ∃ pair, text = pairBytes pair ∧
        after = changeEntry place index (fun _ => pairEntry pair) before := by
  refine ((Takes.write _).bind fun _ => (fixed_takes (by decide)).bind fun key =>
    (Takes.write _).bind fun _ => (fixed_takes (by decide)).bind fun value => Takes.write _).congr
    fun text before answer after => ?_
  constructor
  · rintro ⟨_, _, _, _, rfl, ⟨rfl, rfl⟩, _, _, key, _, rfl, ⟨rfl, rfl⟩, _, _, _, _, rfl, ⟨rfl, rfl⟩,
      _, _, value, _, rfl, ⟨rfl, rfl⟩, rfl, rfl⟩
    refine ⟨(key, value), by simp [pairBytes], ?_⟩
    simp only [changeEntry_changeEntry]
    rfl
  · rintro ⟨⟨key, value⟩, rfl, rfl⟩
    refine ⟨[], _, (), _, rfl, ⟨rfl, rfl⟩, _, _, key, _, rfl, ⟨rfl, rfl⟩, [], _, (), _, rfl,
      ⟨rfl, rfl⟩, _, [], value, _, (List.append_nil _).symm, ⟨rfl, rfl⟩, rfl, ?_⟩
    simp only [changeEntry_changeEntry]
    rfl

theorem putAll_changeEntry {index : Nat} {change : StorageArea → StorageArea}
    {pairs : List (Bounded max_storage_key_bytes × Bounded max_storage_value_bytes)} :
    putAll (fun index pair => changeEntry place index fun _ => pairEntry pair) index pairs
        (changeArea place change storage) =
      changeArea place (fun area => { change area with
        entries := putAll (fun index pair entries => entries.set index (pairEntry pair)) index pairs
          (change area).entries }) storage := by
  induction pairs generalizing index change with
  | nil => rfl
  | cons pair rest induction =>
    rw [putAll, changeEntry, changeArea_changeArea, induction]
    simp only [Function.comp_apply, List.set_eq_modify]
    rfl

theorem counted_takes {Item : Type} {text : Item → Bytes}
    {put : Nat → Item → BrowserStorage → BrowserStorage} {body : Nat → PersistenceReader Unit}
    {most : Nat} (small : most < 65536)
    (each : ∀ place, Takes max_persistence_bytes (body place) fun part before _ after =>
      ∃ item, part = text item ∧ after = put place item before) :
    Takes max_persistence_bytes (do
      let count ← u16Value
      if most < count.toNat then throw .malformed_persistence else forPlaces body 0 count.toNat)
      fun whole before _ after => ∃ items, items.length ≤ most ∧
        whole = u16Bytes (UInt16.ofNat items.length) ++ items.flatMap text ∧
        after = putAll put 0 items before := by
  refine (u16Value_takes.bind fun count => .ite (.throw _)
    (.forPlaces each 0 count.toNat)).congr fun whole before answer after => ?_
  constructor
  · rintro ⟨_, _, count, _, rfl, ⟨rfl, rfl⟩, taken⟩
    split at taken
    · exact taken.elim
    · next few =>
      obtain ⟨items, counted, rfl, rfl⟩ := repeated_iff.mp taken
      exact ⟨items, by omega, by rw [counted, UInt16.ofNat_toNat], rfl⟩
  · rintro ⟨items, few, rfl, rfl⟩
    have counted : (UInt16.ofNat items.length).toNat = items.length := by
      rw [UInt16.toNat_ofNat', Nat.mod_eq_of_lt (by omega)]
    refine ⟨_, items.flatMap text, UInt16.ofNat items.length, _, rfl, ⟨rfl, rfl⟩, ?_⟩
    rw [if_neg (by omega)]
    exact repeated_iff.mpr ⟨items, counted.symm, rfl, rfl⟩

theorem decodeArea_takes (place : Nat) :
    Takes max_persistence_bytes (decodeArea place) fun text before _ after =>
      ∃ record : AreaRecord, text = record.bytes ∧ after = changeArea place record.fill before := by
  refine ((Takes.write _).bind fun _ => origin_takes.bind fun origin => (Takes.write _).bind fun _ =>
    counted_takes (by decide) fun index => decodeEntry_takes place index).congr
    fun text before answer after => ?_
  constructor
  · rintro ⟨_, _, _, _, rfl, ⟨rfl, rfl⟩, _, _, origin, _, rfl, ⟨host, rfl, lower, known, rfl⟩, _, _, _,
      _, rfl, ⟨rfl, rfl⟩, pairs, fits, rfl, rfl⟩
    refine ⟨⟨origin.scheme, host, origin.port, origin.opaque_id, pairs, known, fits⟩, ?_, ?_⟩
    · simp [AreaRecord.bytes]
    · rw [changeArea_changeArea, putAll_changeEntry]
      unfold AreaRecord.fill AreaRecord.origin
      rw [← lower]
      rfl
  · rintro ⟨record, rfl, rfl⟩
    refine ⟨[], _, (), _, rfl, ⟨rfl, rfl⟩, _, _, record.origin, _, ?_,
      ⟨record.host, rfl, rfl, record.known, rfl⟩, [], _, (), _, rfl, ⟨rfl, rfl⟩, record.entries,
      record.fits, rfl, ?_⟩
    · simp [originBytes, AreaRecord.origin]
    · rw [changeArea_changeArea, putAll_changeEntry]
      rfl

theorem checkHeader_takes : Takes max_persistence_bytes checkHeader fun text before _ after =>
    text = ascii "R4WS" ++ u16Bytes 1 ∧ after = before := by
  refine ((Takes.take 4).bind fun magic => Takes.ite (Takes.throw _) (u16Value_takes.bind
    fun version => Takes.ite (Takes.throw _) (Takes.pure _))).congr fun text before answer after => ?_
  constructor
  · rintro ⟨_, _, magic, _, rfl, ⟨-, rfl, rfl⟩, taken⟩
    split at taken
    · exact taken.elim
    next named =>
    obtain ⟨_, _, version, _, rfl, ⟨rfl, rfl⟩, taken⟩ := taken
    split at taken
    · exact taken.elim
    next current =>
    obtain ⟨rfl, -, rfl⟩ := taken
    rw [not_not] at named current
    exact ⟨by rw [named, current, List.append_nil], rfl⟩
  · rintro ⟨rfl, rfl⟩
    refine ⟨_, _, _, _, rfl, ⟨by decide, rfl, rfl⟩, ?_⟩
    rw [if_neg (by simp)]
    refine ⟨_, [], 1, _, (List.append_nil _).symm, ⟨rfl, rfl⟩, ?_⟩
    rw [if_neg (by simp)]
    exact ⟨rfl, rfl, rfl⟩

theorem decodeRecords_takes : Takes max_persistence_bytes decodeRecords fun text before _ after =>
    ∃ image : StorageImage, text = image.bytes ∧ after = image.fill before := by
  refine (checkHeader_takes.bind fun _ => (Takes.write _).bind fun _ =>
    (counted_takes (by decide) decodeCookie_takes).bind fun _ =>
      counted_takes (by decide) decodeArea_takes).congr fun text before answer after => ?_
  constructor
  · rintro ⟨_, _, _, _, rfl, ⟨rfl, rfl⟩, _, _, _, _, rfl, ⟨rfl, rfl⟩, _, _, _, _, rfl,
      ⟨cookies, cookies_fit, rfl, rfl⟩, areas, areas_fit, rfl, rfl⟩
    exact ⟨⟨cookies, areas, cookies_fit, areas_fit⟩, by simp [StorageImage.bytes], rfl⟩
  · rintro ⟨image, rfl, rfl⟩
    refine ⟨_, _, (), _, ?_, ⟨rfl, rfl⟩, [], _, (), _, rfl, ⟨rfl, rfl⟩, _, _, (), _, rfl,
      ⟨image.cookies, image.cookies_fit, rfl, rfl⟩, image.areas, image.areas_fit, rfl, rfl⟩
    simp [StorageImage.bytes]

/-- A byte string is read exactly when it is the bytes of an image. -/
theorem decode_iff {after : BrowserStorage} {input : Bytes} {cursor : Cursor} :
    storage.decode input = (.ok (), ⟨cursor, after⟩) ↔
      cursor = ⟨input, input.length⟩ ∧ ∃ image : StorageImage, input = image.bytes ∧
        input.length ≤ max_persistence_bytes ∧ after = image.fill storage := by
  have records := fun result => decodeRecords_takes [] input storage () result (Nat.zero_le _)
  simp only [List.nil_append, List.length_nil] at records
  have both : decoder = EStateM.bind decodeRecords fun _ => checkEnd := rfl
  rw [BrowserStorage.decode, both]
  unfold EStateM.bind checkEnd
  constructor
  · intro ran
    cases read : decodeRecords ⟨⟨input, 0⟩, storage⟩ with
    | error failure state =>
      rw [read] at ran
      cases ran
    | ok value state =>
      obtain ⟨text, rest, memory, rfl, short, rfl, image, rfl, rfl⟩ := (records state).mp read
      rw [read] at ran
      dsimp only at ran
      rw [List.length_append] at ran
      split at ran
      · next answer state' ended =>
        split at ended
        · cases ended
        · next whole =>
          cases ended
          cases ran
          have empty : rest = [] := List.length_eq_zero_iff.mp (by omega)
          subst empty
          rw [List.append_nil]
          exact ⟨rfl, image, rfl, short, rfl⟩
      · cases ran
  · rintro ⟨rfl, image, rfl, short, rfl⟩
    rw [(records ⟨⟨image.bytes, image.bytes.length⟩, image.fill storage⟩).mpr
      ⟨image.bytes, [], _, (List.append_nil _).symm, short, rfl, image, rfl, rfl⟩]
    dsimp only
    rw [if_neg (by simp)]

end Readers

end R4OS.Web
