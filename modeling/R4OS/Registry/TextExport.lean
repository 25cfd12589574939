import R4OS.Registry.Validation

/-!
# Exporting a hive as text

The keys that have values, each with its path and one line for every value.  Paths are found by
walking parents up to the root.
-/

namespace R4OS.Registry

open Text

/-- Computations that walk the keys of a hive.  The value `none` stands for a walk that has not ended
when its fuel runs out. -/
abbrev Walk (Result : Type) : Type := ExceptT Error Option Result

section Paths

variable (view : HiveView)

/-- The names on the way from the root to a key. -/
def keyPathParts : (fuel current : Nat) → Walk (List Bytes)
  | 0, _ => (none : Option _)
  | fuel + 1, current =>
    if current = 0 then return []
    else do
      let key := view.keyAt current
      if view.header.key_count ≤ key.parent_index then throw .BadKey
      else
        let parents ← keyPathParts fuel key.parent_index
        return parents ++ [view.keyName key]

/-- The components of a path behind its root. -/
def joinPath (root : Bytes) (parts : List Bytes) : Bytes :=
  root ++ parts.flatMap fun part => chr '\\' :: part

def keyPathString (fuel key_index : Nat) : Walk Bytes := do
  if view.header.key_count ≤ key_index then throw .BadKey
  else
    let parts ← keyPathParts view fuel key_index
    return joinPath view.header.hive_kind.shortRoot parts

end Paths

def hexDigit (nibble : Nat) : UInt8 := (ascii "0123456789ABCDEF").getD nibble 0

def hexByte (byte : UInt8) : Bytes := [hexDigit (byte.toNat / 16), hexDigit (byte.toNat % 16)]

/-- One byte of a quoted string. -/
def escapeByte (ch : UInt8) : Bytes :=
  if ch = chr '\\' then ascii "\\\\"
  else if ch = chr '"' then ascii "\\\""
  else if ch = chr '\n' then ascii "\\n"
  else if ch = chr '\r' then ascii "\\r"
  else if ch = chr '\t' then ascii "\\t"
  else if ch < 0x20 ∨ ch = 0x7f then ascii "\\x" ++ hexByte ch
  else [ch]

def escapedString (text : Bytes) : Bytes :=
  chr '"' :: (text.flatMap escapeByte ++ [chr '"'])

def multiStringItems (data : Bytes) : (count offset : Nat) → List Bytes
  | 0, _ => []
  | count + 1, offset =>
    let len := readU16 data offset
    (data.drop (offset + 2)).take len :: multiStringItems data count (offset + 2 + len)

def valueTypeName : ValueType → Bytes
  | .string => ascii "string"
  | .u32 => ascii "u32"
  | .u64 => ascii "u64"
  | .bool => ascii "bool"
  | .binary => ascii "binary"
  | .multi_string => ascii "multi_string"

def textValueData (value_type : ValueType) (data : Bytes) : Bytes :=
  match value_type with
  | .string => escapedString data
  | .u32 => decimal (readU32 data 0)
  | .u64 => decimal (readU64 data 0)
  | .bool => if data.getD 0 0 = 0 then ascii "false" else ascii "true"
  | .binary => [chr ' '].intercalate (data.map hexByte)
  | .multi_string =>
    chr '(' :: ([chr ','].intercalate
      ((multiStringItems data (readU32 data 0) 4).map escapedString) ++ [chr ')'])

def valueLine (name : Bytes) (value_type : ValueType) (data : Bytes) : Bytes :=
  name ++ chr ':' :: (valueTypeName value_type ++ chr '=' :: textValueData value_type data)

def lineEnding : Bytes := ascii "\r\n"

def formatLine : Bytes := ascii "R4REG_FORMAT=1"

section Export

variable (view : HiveView)

/-- The line of a stored value. -/
def exportValue (value_index : Nat) : Bytes :=
  let value := view.valueAt value_index
  valueLine (view.valueName value) value.value_type (view.valueData value) ++ lineEnding

/-- The section of a key with values. -/
def exportKey (fuel key_index : Nat) : Walk Bytes := do
  let key := view.keyAt key_index
  if key.value_count = 0 then return []
  else
    let path ← keyPathString view fuel key_index
    let values := (List.range' key.first_value_index key.value_count).flatMap (exportValue view)
    return chr '[' :: (path ++ chr ']' :: lineEnding) ++ values ++ lineEnding

def exportTextHive (fuel : Nat) : Walk Bytes := do
  let sections ← (List.range view.header.key_count).mapM (exportKey view fuel)
  return formatLine ++ lineEnding ++ lineEnding ++ sections.flatten

end Export

end R4OS.Registry
