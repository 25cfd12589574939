import R4OS.Update.Batch

/-!
# Inventory entries

The entries of the component inventory and the rules that every stored inventory obeys.
-/

namespace R4OS.SystemInventory

open Text
open R4OS.Path (isSeparator)
open Update.Batch (eqlIgnoreCase validSemanticVersion validToken)

def component_name_max_bytes : Nat := 48

inductive ComponentKind
  | kernel
  | r4x
  | r4l
  | r4d
  | r4p
  deriving DecidableEq

namespace ComponentKind

def text : ComponentKind → Bytes
  | kernel => ascii "KERNEL"
  | r4x => ascii "R4X"
  | r4l => ascii "R4L"
  | r4d => ascii "R4D"
  | r4p => ascii "R4P"

/-- The kinds in order of declaration. -/
def all : List ComponentKind := [kernel, r4x, r4l, r4d, r4p]

/-- The kind of a text, up to ASCII case. -/
def parse (value : Bytes) : Option ComponentKind := all.find? fun kind => eqlIgnoreCase value kind.text

end ComponentKind

/-- ASCII letters. -/
def isAlphabetic (byte : UInt8) : Bool :=
  chr 'a' ≤ byte && byte ≤ chr 'z' || chr 'A' ≤ byte && byte ≤ chr 'Z'

/-- ASCII letters and digits. -/
def isAlphanumeric (byte : UInt8) : Bool := isAlphabetic byte || isDigit byte

/-- ASCII lower case of one byte. -/
def toLower (byte : UInt8) : UInt8 :=
  if chr 'A' ≤ byte ∧ byte ≤ chr 'Z' then byte + 32 else byte

def endsWithIgnoreCase (value suffix : Bytes) : Bool :=
  suffix.length ≤ value.length && eqlIgnoreCase (value.drop (value.length - suffix.length)) suffix

/-- Write separators as `/` and only the first one of a run. -/
def collapseSeparators (previous_separator : Bool) : Bytes → Bytes
  | [] => []
  | byte :: rest =>
    if isSeparator byte && previous_separator then collapseSeparators true rest
    else (if isSeparator byte then chr '/' else byte) :: collapseSeparators (isSeparator byte) rest

/-- The target of a payload below its image root, in a buffer of the given capacity.  The result is
never longer than the target, which has to fit. -/
def canonicalInventoryTarget (capacity : Nat) (payload_target : Bytes) : Option Bytes := do
  let first ← payload_target.head?
  let drive := 3 ≤ payload_target.length && isAlphabetic first &&
    payload_target[1]? == some (chr ':') && payload_target[2]?.any isSeparator
  guard (drive || isSeparator first)
  let source := if drive && toUpper first == chr 'C' then payload_target.drop 2 else payload_target
  guard (source.length ≠ 0 ∧ source.length ≤ capacity)
  let out := collapseSeparators false source
  let foreign := 4 ≤ out.length && out.head?.any isAlphabetic && out[1]? == some (chr ':') &&
    out[2]? == some (chr '/')
  guard (out ≠ [] ∧ (out.head? = some (chr '/') ∨ foreign) ∧ out.getLast? ≠ some (chr '/'))
  return if foreign then out.modifyHead toUpper else out

/-- One byte of a target, up to ASCII case and the kind of separator. -/
def foldTarget (byte : UInt8) : UInt8 := if isSeparator byte then chr '/' else toUpper byte

/-- Whether two targets name the same file. -/
def targetEquals (left right : Bytes) : Bool := left.map foldTarget == right.map foldTarget

def max_entries : Nat := 192

def max_guest_formats : Nat := 16

def max_guest_extensions : Nat := 32

def max_guest_features : Nat := 32

def max_guest_probe_bytes : Nat := 256 * 1024

def subsystem_display_name_max_bytes : Nat := 96

/-- The roles of modules. -/
inductive ModuleRole
  | subsystem
  deriving DecidableEq

def ModuleRole.text : ModuleRole → Bytes
  | .subsystem => ascii "subsystem"

def ModuleRole.parse (value : Bytes) : Option ModuleRole :=
  if value = ascii "subsystem" then some .subsystem else none

/-- The profiles of images. -/
inductive Profile
  | slim
  | full
  | test_image
  deriving DecidableEq

def Profile.text : Profile → Bytes
  | .slim => ascii "slim"
  | .full => ascii "full"
  | .test_image => ascii "test"

def Profile.parse (value : Bytes) : Option Profile :=
  if value = ascii "slim" then some .slim
  else if value = ascii "full" then some .full
  else if value = ascii "test" then some .test_image
  else none

/-- One installed component. -/
structure Entry where
  name : Bytes
  kind : ComponentKind
  version : Bytes
  target : Bytes
  module_role : Option ModuleRole := none
  subsystem_id : Option Bytes := none
  subsystem_display_name : Option Bytes := none
  guest_formats : List Bytes := []
  guest_extensions : List Bytes := []
  guest_features : List Bytes := []

/-- The components of an image. -/
structure Inventory where
  profile : Profile
  entries : List Entry

/-- Bytes of identifiers. -/
def isIdByte (byte : UInt8) : Bool :=
  toLower byte == byte && (isAlphanumeric byte || byte == chr '.' || byte == chr '_' || byte == chr '-')

def validCanonicalId (value : Bytes) (max_len : Nat) : Bool :=
  value.length ≠ 0 && value.length ≤ max_len && value.head?.any isAlphabetic &&
    value.getLast?.any isAlphanumeric && value.all isIdByte

/-- Blanks that no display name starts or ends with. -/
def isPadding (byte : UInt8) : Bool := byte == chr ' ' || byte == chr '\t'

def validDisplayName (value : Bytes) : Bool :=
  value.length ≠ 0 && value.length ≤ subsystem_display_name_max_bytes && utf8ValidateSlice value &&
    value == (value.dropWhile isPadding).rdropWhile isPadding &&
    value.all fun byte => 0x20 ≤ byte && byte ≠ 0x7f && byte ≠ chr '"' && byte ≠ chr '\\'

/-- The value of a hexadecimal digit. -/
def probeHexNibble (byte : UInt8) : Option Nat :=
  if isDigit byte then some (digitValue byte)
  else if chr 'a' ≤ byte ∧ byte ≤ chr 'f' then some (byte.toNat - 97 + 10)
  else if chr 'A' ≤ byte ∧ byte ≤ chr 'F' then some (byte.toNat - 65 + 10)
  else none

def validProbeHex (value : Bytes) : Bool := value.all fun byte => (probeHexNibble byte).isSome

def parseProbeHexUnsigned (value : Bytes) : Option Nat := do
  guard (value.length ≠ 0 ∧ value.length ≤ 8)
  value.foldlM (fun result byte => (probeHexNibble byte).map (result * 16 + ·)) 0

/-- Whether every pair of hexadecimal digits is a printable byte. -/
def printablePairs : Bytes → Bool
  | high :: low :: rest =>
    (match probeHexNibble high, probeHexNibble low with
      | some high, some low => 0x21 ≤ high * 16 + low && high * 16 + low ≤ 0x7e
      | _, _ => false) && printablePairs rest
  | _ => true

/-- A probe for bytes at an offset of the guest file. -/
def validMagicProbe (descriptor : Bytes) : Bool :=
  let offset := descriptor.takeWhile (· != chr '.')
  match descriptor.dropWhile (· != chr '.'), parseProbeHexUnsigned offset with
  | _ :: bytes, some offset =>
    2 ≤ bytes.length && bytes.length ≤ 32 && bytes.length % 2 == 0 && validProbeHex bytes &&
      offset ≤ max_guest_probe_bytes && bytes.length / 2 ≤ max_guest_probe_bytes - offset
  | _, _ => false

def validKnownGuestFeature (value : Bytes) : Bool :=
  let magic_prefix := ascii "probe.magic-v1."
  let token_prefix := ascii "probe.text-token-v1."
  if startsWith value magic_prefix then validMagicProbe (value.drop magic_prefix.length)
  else if startsWith value token_prefix then
    let token := value.drop token_prefix.length
    2 ≤ token.length && token.length ≤ 42 && token.length % 2 == 0 && validProbeHex token &&
      printablePairs token
  else true

/-- File name extensions of guests. -/
def validGuestExtension (value : Bytes) : Bool :=
  2 ≤ value.length && value.length ≤ 16 && value.head? == some (chr '.') &&
    value[1]?.any isAlphanumeric && value.getLast?.any isAlphanumeric && (value.drop 1).all isIdByte

/-- A mapping has a declared format, a colon, and an extension or a feature. -/
def validGuestMapping (formats : List Bytes) (mapping : Bytes) (extension : Bool) : Bool :=
  let format_id := mapping.takeWhile (· != chr ':')
  match mapping.dropWhile (· != chr ':') with
  | [] => false
  | _ :: value =>
    format_id != [] && value != [] && !value.contains (chr ':') && formats.contains format_id &&
      if extension then validGuestExtension value
      else validCanonicalId value 63 && validKnownGuestFeature value

/-- The target that a kind of component has. -/
def kindValid (entry : Entry) : Bool :=
  match entry.kind with
  | .kernel => targetEquals entry.target (ascii "/boot/r4os.elf") &&
      eqlIgnoreCase entry.name (ascii "KERNEL")
  | .r4x => endsWithIgnoreCase entry.target (ascii ".R4X")
  | .r4l => endsWithIgnoreCase entry.target (ascii ".R4L")
  | .r4d => endsWithIgnoreCase entry.target (ascii ".R4D")
  | .r4p => endsWithIgnoreCase entry.target (ascii ".R4P")

/-- The rules of a subsystem. -/
def validSubsystem (entry : Entry) : Bool :=
  match entry.subsystem_id, entry.subsystem_display_name with
  | some subsystem_id, some display_name =>
    let expected := ascii "/R4OS/SUBSYSTEMS/" ++ subsystem_id ++ ascii "/" ++ entry.name ++
      ascii ".R4X"
    entry.kind == .r4x && entry.guest_formats.length ≠ 0 &&
      entry.guest_formats.length ≤ max_guest_formats &&
      entry.guest_extensions.length ≤ max_guest_extensions &&
      entry.guest_features.length ≤ max_guest_features && validCanonicalId subsystem_id 63 &&
      validDisplayName display_name && expected.length ≤ 1024 &&
      targetEquals expected entry.target &&
      (entry.guest_formats.all fun format => validCanonicalId format 63) &&
      decide entry.guest_formats.Nodup &&
      (entry.guest_extensions.all fun mapping =>
        validGuestMapping entry.guest_formats mapping true) &&
      decide entry.guest_extensions.Nodup &&
      (entry.guest_features.all fun mapping =>
        validGuestMapping entry.guest_formats mapping false) &&
      decide entry.guest_features.Nodup
  | _, _ => false

/-- The rules of one entry. -/
def validEntry (entry : Entry) : Bool :=
  validToken entry.name component_name_max_bytes && validSemanticVersion entry.version &&
    (canonicalInventoryTarget 1024 entry.target).any (targetEquals · entry.target) &&
    kindValid entry &&
    match entry.module_role with
    | none => entry.subsystem_id == none && entry.subsystem_display_name == none &&
        entry.guest_formats == [] && entry.guest_extensions == [] && entry.guest_features == []
    | some .subsystem => validSubsystem entry

/-- Two entries that cannot stand in one inventory. -/
def entriesClash (entry prior : Entry) : Bool :=
  targetEquals entry.target prior.target ||
    (entry.kind == prior.kind && eqlIgnoreCase entry.name prior.name) ||
    (entry.module_role == some .subsystem && prior.module_role == some .subsystem &&
      entry.subsystem_id == prior.subsystem_id)

/-- The rules of an inventory. -/
def Inventory.validate (inventory : Inventory) : Bool :=
  inventory.entries.length ≠ 0 && inventory.entries.length ≤ max_entries &&
    inventory.entries.all validEntry &&
    decide (inventory.entries.Pairwise fun prior entry => entriesClash entry prior = false)

end R4OS.SystemInventory
