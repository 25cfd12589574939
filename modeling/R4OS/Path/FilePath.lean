import R4OS.Text.Bytes

/-!
# File paths of the SDK

The allocation-free path policy: drive roots, both separators, dot segments, and the byte and
character limits of paths and components.
-/

namespace R4OS.Path

open Text

/-- Why a path is refused. -/
inductive Error
  | Empty
  | TooLong
  | ComponentTooLong
  | EmbeddedNul
  | InvalidCharacter
  | ExpectedAbsolute
  | ExpectedRelative
  | RootTraversal
  deriving DecidableEq

/-- Bytes of a canonical path. -/
def file_path_max : Nat := 1023

/-- Bytes of one component. -/
def component_max : Nat := 765

/-- Characters of a canonical path. -/
def file_path_max_chars : Nat := 260

def component_max_chars : Nat := 255

/-- Components that can be rolled back by a parent segment. -/
def path_rollback_entries : Nat := 160

/-- Both slashes separate components. -/
def isSeparator (byte : UInt8) : Bool := byte == chr '\\' || byte == chr '/'

/-- ASCII letters of either case. -/
def isAsciiAlpha (byte : UInt8) : Bool := chr 'A' ≤ toUpper byte && toUpper byte ≤ chr 'Z'

/-- The nonempty pieces of a path between separators. -/
def segments (value : Bytes) : List Bytes :=
  (value.splitOnP isSeparator).filter fun segment => segment ≠ []

/-- Reject control characters and the reserved punctuation. -/
def validateFileByte (byte : UInt8) : Except Error Unit :=
  if byte = 0 then .error .EmbeddedNul
  else if byte < 0x20 ∨ byte = 0x7F then .error .InvalidCharacter
  else if byte ∈ ascii "<>\"|?*:" then .error .InvalidCharacter
  else .ok ()

/-- Validate one component and count its characters.  Only well-formed two- and three-byte
sequences of the basic plane are admitted beside ASCII. -/
def validateFileSegment : Bytes → Except Error Nat
  | [] => .ok 0
  | a :: rest =>
    if a < 0x80 then do
      validateFileByte a
      return (← validateFileSegment rest) + 1
    else if a &&& 0xE0 = 0xC0 then
      if a < 0xC2 then .error .InvalidCharacter
      else match rest with
        | b :: rest =>
          if b &&& 0xC0 ≠ 0x80 then .error .InvalidCharacter
          else do return (← validateFileSegment rest) + 1
        | [] => .error .InvalidCharacter
    else if a &&& 0xF0 = 0xE0 then
      match rest with
      | b :: c :: rest =>
        if b &&& 0xC0 ≠ 0x80 ∨ c &&& 0xC0 ≠ 0x80 then .error .InvalidCharacter
        else if a = 0xE0 ∧ b < 0xA0 then .error .InvalidCharacter
        else if a = 0xED ∧ 0xA0 ≤ b then .error .InvalidCharacter
        else do return (← validateFileSegment rest) + 1
      | _ => .error .InvalidCharacter
    else .error .InvalidCharacter

/-- Progress of normalization: the canonical prefix, where each kept component started in bytes and
characters (last one first), and the characters used so far. -/
structure Progress where
  out : Bytes
  starts : List (Nat × Nat)
  chars : Nat

/-- Take back the last kept component. -/
def rollbackSegment (absolute : Bool) (progress : Progress) : Except Error Progress :=
  match progress.starts with
  | [] => .error .RootTraversal
  | (start, charStart) :: starts =>
    .ok
      { out := progress.out.take (if absolute ∧ start = 2 then 3 else start)
        starts
        chars := if absolute ∧ charStart < 3 then 3 else charStart }

/-- Append one ordinary component, with a separator where one is due. -/
def appendSegment (absolute : Bool) (progress : Progress) (segment : Bytes) :
    Except Error Progress := do
  if component_max < segment.length then throw .ComponentTooLong
  let segment_chars ← validateFileSegment segment
  if component_max_chars < segment_chars then throw .ComponentTooLong
  if path_rollback_entries ≤ progress.starts.length then throw .TooLong
  let before := progress.out.length
  let separated := (absolute && 3 < before) || (!absolute && 0 < before)
  if separated && file_path_max ≤ before then throw .TooLong
  let out := if separated then progress.out ++ [chr '\\'] else progress.out
  let chars := if separated then progress.chars + 1 else progress.chars
  if file_path_max - out.length < segment.length then throw .TooLong
  if file_path_max_chars < chars + segment_chars then throw .TooLong
  return { out := out ++ segment,
           starts := (before, progress.chars) :: progress.starts,
           chars := chars + segment_chars }

/-- Process one component of the input. -/
def normalizeSegment (absolute : Bool) (progress : Progress) (segment : Bytes) :
    Except Error Progress :=
  if segment = ascii "." then .ok progress
  else if segment = ascii ".." then rollbackSegment absolute progress
  else appendSegment absolute progress segment

/-- Whether a path starts with a drive root. -/
def absoluteInput : Bytes → Bool
  | drive :: colon :: separator :: _ =>
    isAsciiAlpha drive && colon == chr ':' && isSeparator separator
  | _ => false

/-- Normalize a path and tell whether it is absolute. -/
def normalizeFile (input : Bytes) (require_absolute : Option Bool) : Except Error (Bytes × Bool) := do
  if input = [] then throw .Empty
  if file_path_max < input.length then throw .TooLong
  let absolute := absoluteInput input
  if require_absolute = some true ∧ !absolute then throw .ExpectedAbsolute
  if require_absolute = some false ∧ absolute then throw .ExpectedRelative
  if !absolute && isSeparator input.head! then throw .ExpectedAbsolute
  let root := if absolute then [toUpper input.head!, chr ':', chr '\\'] else []
  let progress ← (segments (input.drop root.length)).foldlM (normalizeSegment absolute)
    { out := root, starts := [], chars := root.length }
  return (if !absolute ∧ progress.out = [] then ascii "." else progress.out, absolute)

def AbsoluteFilePath.parse (input : Bytes) : Except Error Bytes :=
  Prod.fst <$> normalizeFile input (some true)

def RelativeFilePath.parse (input : Bytes) : Except Error Bytes :=
  Prod.fst <$> normalizeFile input (some false)

example : AbsoluteFilePath.parse (ascii "c:/R4OS//CONFIG/./APPS/../TIME.R4S") =
    .ok (ascii "C:\\R4OS\\CONFIG\\TIME.R4S") := by decide +kernel

example : AbsoluteFilePath.parse (ascii "C:\\..\\BOOT.R4S") = .error .RootTraversal := by
  decide

end R4OS.Path
