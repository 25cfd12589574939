import R4OS.Text.Decoder
import R4OS.Web.Cookies

/-!
# Browser storage

Cookies and the key-value areas of origins, in tables of fixed sizes.  Persistent cookies and local
areas are written to a byte string, from which a storage is filled again.
-/

namespace R4OS.Web

open Text

def max_storage_origins : Nat := 8

def max_storage_entries : Nat := 24

def max_storage_value_bytes : Nat := 512

def max_persistence_bytes : Nat := 192 * 1024

structure StorageEntry where
  occupied : Bool := false
  key : Bounded max_storage_key_bytes := .empty _
  value : Bounded max_storage_value_bytes := .empty _

structure StorageArea where
  occupied : Bool := false
  origin : Origin := {}
  entries : List StorageEntry := List.replicate max_storage_entries {}

namespace StorageArea

def get (area : StorageArea) (key : Bytes) : Option Bytes :=
  (area.entries.find? fun entry => entry.occupied && entry.key.bytes == key).map (·.value.bytes)

def set (area : StorageArea) (key value : Bytes) : Except Error Unit × StorageArea :=
  if key_fits : key.length ≤ max_storage_key_bytes then
    if value_fits : value.length ≤ max_storage_value_bytes then
      match area.entries.findIdx? fun entry => entry.occupied && entry.key.bytes == key with
      | some index =>
        (.ok (), { area with entries := area.entries.modify index fun entry =>
          { entry with value := ⟨value, value_fits⟩ } })
      | none =>
        match area.entries.findIdx? fun entry => !entry.occupied with
        | some index =>
          let entry : StorageEntry :=
            { occupied := true, key := ⟨key, key_fits⟩, value := ⟨value, value_fits⟩ }
          (.ok (), { area with entries := area.entries.set index entry })
        | none => (.error .storage_limit, area)
    else (.error .value_too_large, area)
  else (.error .key_too_large, area)

def remove (area : StorageArea) (key : Bytes) : StorageArea :=
  match area.entries.findIdx? fun entry => entry.occupied && entry.key.bytes == key with
  | some index => { area with entries := area.entries.set index {} }
  | none => area

def clear (area : StorageArea) : StorageArea :=
  { area with entries := List.replicate max_storage_entries {} }

def count (area : StorageArea) : Nat := area.entries.countP (·.occupied)

end StorageArea

structure StorageSet where
  areas : List StorageArea := List.replicate max_storage_origins {}

/-- The place of the area of an origin, which is claimed when there is none yet. -/
def StorageSet.area (set : StorageSet) (origin : Origin) : Except Error Nat × StorageSet :=
  match set.areas.findIdx? fun candidate => candidate.occupied && candidate.origin.same origin with
  | some index => (.ok index, set)
  | none =>
    match set.areas.findIdx? fun candidate => !candidate.occupied with
    | some index =>
      (.ok index, { areas := set.areas.modify index fun candidate =>
        { candidate with occupied := true, origin } })
    | none => (.error .origin_limit, set)

def resetStorageSet (set : StorageSet) : StorageSet where
  areas := set.areas.map fun area => { area with
    occupied := false
    entries := area.entries.map fun entry => { entry with occupied := false } }

structure BrowserStorage where
  cookies : CookieJar := {}
  local_set : StorageSet := {}
  session_set : StorageSet := {}

def BrowserStorage.reset (storage : BrowserStorage) : BrowserStorage where
  cookies := {
    entries := storage.cookies.entries.map fun entry => { entry with occupied := false }
    next_sequence := 1 }
  local_set := resetStorageSet storage.local_set
  session_set := resetStorageSet storage.session_set

structure PersistenceWriter where
  capacity : Nat
  written : Bytes := []

namespace PersistenceWriter

def byte (value : UInt8) (writer : PersistenceWriter) : Except Error PersistenceWriter :=
  if writer.capacity ≤ writer.written.length ∨ max_persistence_bytes ≤ writer.written.length then
    .error .persistence_limit
  else .ok { writer with written := writer.written ++ [value] }

def bytes (value : Bytes) (writer : PersistenceWriter) : Except Error PersistenceWriter :=
  if writer.capacity - writer.written.length < value.length ∨
      max_persistence_bytes - writer.written.length < value.length then
    .error .persistence_limit
  else .ok { writer with written := writer.written ++ value }

def u16Value (value : UInt16) (writer : PersistenceWriter) : Except Error PersistenceWriter := do
  let writer ← writer.byte value.toUInt8
  writer.byte (value >>> 8).toUInt8

def u32Value (value : UInt32) (writer : PersistenceWriter) : Except Error PersistenceWriter := do
  let writer ← writer.u16Value value.toUInt16
  writer.u16Value (value >>> 16).toUInt16

def string (value : Bytes) (writer : PersistenceWriter) : Except Error PersistenceWriter :=
  if 65535 < value.length then .error .persistence_limit
  else do
    let writer ← writer.u16Value (UInt16.ofNat value.length)
    writer.bytes value

end PersistenceWriter

def OriginScheme.code : OriginScheme → UInt8
  | .opaque_origin => 0
  | .http => 1
  | .https => 2

def SameSite.code : SameSite → UInt8
  | .lax => 0
  | .strict => 1
  | .none => 2

def PersistenceWriter.origin (value : Origin) (writer : PersistenceWriter) :
    Except Error PersistenceWriter := do
  let writer ← writer.byte value.scheme.code
  let writer ← writer.string value.hostBytes
  let writer ← writer.u16Value value.port
  writer.u32Value value.opaque_id

def Cookie.flags (entry : Cookie) : UInt8 :=
  let bit (set : Bool) (mask : UInt8) : UInt8 := if set then mask else 0
  bit entry.host_only 1 ||| bit entry.secure 2 ||| bit entry.http_only 4 |||
    entry.same_site.code <<< 3 ||| bit entry.persistent 0x20

namespace BrowserStorage

def writtenCookies (storage : BrowserStorage) : List Cookie :=
  storage.cookies.entries.filter fun entry => entry.occupied && entry.persistent

def writtenAreas (storage : BrowserStorage) : List StorageArea :=
  storage.local_set.areas.filter fun area => area.occupied && decide (0 < area.count)

def writeCookie (writer : PersistenceWriter) (entry : Cookie) : Except Error PersistenceWriter := do
  let writer ← writer.string entry.name.bytes
  let writer ← writer.string entry.value.bytes
  let writer ← writer.string entry.domain.bytes
  let writer ← writer.string entry.path.bytes
  let writer ← writer.byte entry.flags
  writer.u32Value entry.sequence

def writeEntry (writer : PersistenceWriter) (entry : StorageEntry) :
    Except Error PersistenceWriter := do
  let writer ← writer.string entry.key.bytes
  writer.string entry.value.bytes

def writeArea (writer : PersistenceWriter) (area : StorageArea) : Except Error PersistenceWriter := do
  let writer ← writer.origin area.origin
  let writer ← writer.u16Value (UInt16.ofNat area.count)
  (area.entries.filter (·.occupied)).foldlM writeEntry writer

def encode (storage : BrowserStorage) (capacity : Nat) : Except Error Bytes := do
  let writer : PersistenceWriter := { capacity }
  let writer ← writer.bytes (ascii "R4WS")
  let writer ← writer.u16Value 1
  let writer ← writer.u16Value (UInt16.ofNat storage.writtenCookies.length)
  let writer ← storage.writtenCookies.foldlM writeCookie writer
  let writer ← writer.u16Value (UInt16.ofNat storage.writtenAreas.length)
  let writer ← storage.writtenAreas.foldlM writeArea writer
  return writer.written

end BrowserStorage

/-- A reader beside the storage that it fills. -/
abbrev PersistenceReader := Decoder Error BrowserStorage

namespace PersistenceReader

open Decoder

def bytes (count : Nat) : PersistenceReader Bytes :=
  take max_persistence_bytes .malformed_persistence count

def byte : PersistenceReader UInt8 := do
  let value ← bytes 1
  return value.getD 0 0

def u16Value : PersistenceReader UInt16 := do
  let value ← bytes 2
  return (value.getD 0 0).toUInt16 ||| (value.getD 1 0).toUInt16 <<< 8

def u32Value : PersistenceReader UInt32 := do
  let low ← u16Value
  let high ← u16Value
  return low.toUInt32 ||| high.toUInt32 <<< 16

def string (maximum : Nat) : PersistenceReader Bytes := do
  let count ← u16Value
  if maximum < count.toNat then throw .malformed_persistence
  else bytes count.toNat

def scheme (code : UInt8) : PersistenceReader OriginScheme :=
  if code = 0 then pure .opaque_origin
  else if code = 1 then pure .http
  else if code = 2 then pure .https
  else throw .malformed_persistence

/-- A text for a field of fixed capacity. -/
def field (capacity : Nat) (value : Bytes) : PersistenceReader (Bounded capacity) :=
  match Fixed.set capacity value with
  | .ok value => pure value
  | .error failure => throw failure

/-- Read a text for a field. -/
def fixed (capacity : Nat) : PersistenceReader (Bounded capacity) := do
  let value ← string capacity
  field capacity value

/-- Read a text for a field in lower case. -/
def fixedLower (capacity : Nat) : PersistenceReader (Bounded capacity) := do
  let value ← string capacity
  field capacity (value.map toLower)

def origin : PersistenceReader Origin := do
  let raw_scheme ← byte
  let scheme ← scheme raw_scheme
  let host ← fixedLower max_origin_host_bytes
  let port ← u16Value
  let opaque_id ← u32Value
  if scheme = .opaque_origin ∧ opaque_id = 0 then throw .malformed_persistence
  else return { scheme, host, port, opaque_id }

end PersistenceReader

namespace BrowserStorage

open Decoder PersistenceReader

/-- The rule of a cookie about other sites, in its flags. -/
def sameSite (flags : UInt8) : PersistenceReader SameSite :=
  let same_site := (flags >>> 3) &&& 3
  if same_site = 0 then pure .lax
  else if same_site = 1 then pure .strict
  else if same_site = 2 then pure .none
  else throw .malformed_persistence

def setCookie (index : Nat) (entry : Cookie) (storage : BrowserStorage) : BrowserStorage :=
  { storage with cookies := {
      entries := storage.cookies.entries.set index entry
      next_sequence := max storage.cookies.next_sequence (entry.sequence + 1) } }

def decodeCookie (index : Nat) : PersistenceReader Unit := do
  let name ← fixed max_cookie_name_bytes
  let value ← fixed max_cookie_value_bytes
  let domain ← fixedLower max_origin_host_bytes
  let path ← fixed max_cookie_path_bytes
  let flags ← byte
  let same_site ← sameSite flags
  let sequence ← u32Value
  write (setCookie index {
    occupied := true, name, value, domain, path
    host_only := flags &&& 1 ≠ 0
    secure := flags &&& 2 ≠ 0
    http_only := flags &&& 4 ≠ 0
    persistent := flags &&& 0x20 ≠ 0
    same_site, sequence })

def changeArea (place : Nat) (change : StorageArea → StorageArea) (storage : BrowserStorage) :
    BrowserStorage :=
  { storage with local_set := { areas := storage.local_set.areas.modify place change } }

def changeEntry (place index : Nat) (change : StorageEntry → StorageEntry) :
    BrowserStorage → BrowserStorage :=
  changeArea place fun area => { area with entries := area.entries.modify index change }

def decodeEntry (place index : Nat) : PersistenceReader Unit := do
  write (changeEntry place index fun entry => { entry with occupied := true })
  let key ← fixed max_storage_key_bytes
  write (changeEntry place index fun entry => { entry with key })
  let value ← fixed max_storage_value_bytes
  write (changeEntry place index fun entry => { entry with value })

def decodeArea (place : Nat) : PersistenceReader Unit := do
  write (changeArea place fun area => { area with occupied := true })
  let origin ← PersistenceReader.origin
  write (changeArea place fun area => { area with origin })
  let entry_count ← u16Value
  if max_storage_entries < entry_count.toNat then throw .malformed_persistence
  else forPlaces (decodeEntry place) 0 entry_count.toNat

def checkHeader : PersistenceReader Unit := do
  let magic ← bytes 4
  if magic ≠ ascii "R4WS" then throw .malformed_persistence
  else
    let version ← u16Value
    if version ≠ 1 then throw .malformed_persistence else return ()

def decodeCookies : PersistenceReader Unit := do
  let cookie_count ← u16Value
  if max_cookies < cookie_count.toNat then throw .malformed_persistence
  else forPlaces decodeCookie 0 cookie_count.toNat

def decodeAreas : PersistenceReader Unit := do
  let area_count ← u16Value
  if max_storage_origins < area_count.toNat then throw .malformed_persistence
  else forPlaces decodeArea 0 area_count.toNat

def checkEnd : PersistenceReader Unit := fun state =>
  if state.cursor.pos ≠ state.cursor.input.length then .error .malformed_persistence state
  else .ok () state

def decodeRecords : PersistenceReader Unit := do
  checkHeader
  write BrowserStorage.reset
  decodeCookies
  decodeAreas

def decoder : PersistenceReader Unit := do
  decodeRecords
  checkEnd

/-- Fill a storage from a byte string.  What was filled stays when the rest is malformed. -/
def decode (storage : BrowserStorage) (input : Bytes) : Except Error Unit × Decoding BrowserStorage :=
  match decoder ⟨{ input }, storage⟩ with
  | .ok _ state => (.ok (), state)
  | .error failure state => (.error failure, state)

end BrowserStorage

end R4OS.Web
