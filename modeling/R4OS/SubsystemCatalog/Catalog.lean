import Mathlib.Data.List.Lex
import Mathlib.Data.List.Sort
import R4OS.SystemInventory.Entry
import R4OS.Text.Search

/-!
# The catalog of subsystems

The subsystems of an installed inventory, in a sorted view.  A guest file is resolved to the formats
that may run it: by an association of the user, by what its first bytes confirm, by a default
association, or by the extension of its name.
-/

namespace R4OS.SubsystemCatalog

open Text
open SystemInventory (Inventory Profile max_entries max_guest_probe_bytes isAlphabetic
  isAlphanumeric toLower)
open R4OS.Path (isSeparator)
open Update.Batch (eqlIgnoreCase)

def max_candidates : Nat := 128

def max_associations : Nat := 64

def max_probe_bytes : Nat := max_guest_probe_bytes

inductive HostState
  | present
  | missing
  | failed

inductive LoadError
  | invalid_inventory
  | too_many_subsystems
  | missing_host
  | host_check_failed
  deriving DecidableEq

/-- A key and a value around the first colon. -/
def splitMapping (mapping : Bytes) : Option (Bytes × Bytes) :=
  match mapping.dropWhile (· ≠ chr ':') with
  | [] => none
  | _ :: value =>
    let key := mapping.takeWhile (· ≠ chr ':')
    if key = [] ∨ value = [] then none else some (key, value)

structure Entry where
  subsystem_id : Bytes
  host_path : Bytes
  display_name : Bytes
  module_name : Bytes
  module_version : Bytes
  guest_formats : List Bytes
  guest_extensions : List Bytes
  guest_features : List Bytes
  deriving DecidableEq

def Entry.mapsExtension (entry : Entry) (format_id extension : Bytes) : Bool :=
  entry.guest_extensions.any fun mapping =>
    match splitMapping mapping with
    | none => false
    | some (key, value) => key = format_id ∧ eqlIgnoreCase value extension

structure Catalog where
  profile : Profile := .full
  entries : List Entry := []
  deriving DecidableEq

/-- The order of byte strings. -/
def before (a b : Bytes) : Bool := a.map UInt8.toNat < b.map UInt8.toNat

def lessEntry (a b : Entry) : Bool :=
  if a.subsystem_id ≠ b.subsystem_id then before a.subsystem_id b.subsystem_id
  else before a.host_path b.host_path

/-- Add the entry of a component that is a subsystem. -/
def projectEntry (check : Bytes → HostState) (entries : List Entry) (source : SystemInventory.Entry) :
    Except LoadError (List Entry) :=
  if source.module_role ≠ some .subsystem then .ok entries
  else if max_entries ≤ entries.length then .error .too_many_subsystems
  else match check source.target with
    | .missing => .error .missing_host
    | .failed => .error .host_check_failed
    | .present =>
      match source.subsystem_id, source.subsystem_display_name with
      | some subsystem_id, some display_name => .ok (entries ++ [{
          subsystem_id
          host_path := source.target
          display_name
          module_name := source.name
          module_version := source.version
          guest_formats := source.guest_formats
          guest_extensions := source.guest_extensions
          guest_features := source.guest_features }])
      | _, _ => .error .invalid_inventory

def projectInstalled (inventory : Inventory) (check : Bytes → HostState) :
    Except LoadError Catalog := do
  let entries ← inventory.entries.foldlM (projectEntry check) []
  return {
    profile := inventory.profile
    entries := entries.insertionSort fun a b => lessEntry b a = false }

structure Association where
  extension : Bytes
  subsystem_id : Bytes
  format_id : Bytes

structure Policy where
  user_associations : List Association := []
  default_associations : List Association := []

/-- A guest file: its path, its first bytes and its size.  The window is complete only when it has all
bytes that probes may look at. -/
structure Input where
  path : Bytes
  probe_prefix_bytes : Bytes
  file_size : Nat
  probe_window_complete : Bool

inductive Evidence
  | user_association
  | confirmed_probe
  | default_association
  | extension
  deriving DecidableEq

structure Candidate where
  subsystem_id : Bytes
  format_id : Bytes
  host_path : Bytes
  display_name : Bytes
  module_version : Bytes
  evidence : Evidence
  host_validation_required : Bool := true
  deriving DecidableEq

inductive ResolutionState
  | unknown
  | selected
  | ambiguous
  deriving DecidableEq

structure Resolution where
  state : ResolutionState := .unknown
  candidates : List Candidate := []
  deriving DecidableEq

def Resolution.selected (resolution : Resolution) : Option Candidate :=
  if resolution.state ≠ .selected ∨ resolution.candidates.length ≠ 1 then none
  else resolution.candidates.head?

inductive ResolveError
  | invalid_input
  | invalid_association
  | stale_association
  | too_many_candidates
  deriving DecidableEq

inductive ProbeState
  | absent
  | confirmed
  | rejected
  | indeterminate
  deriving DecidableEq

def hexNibble (byte : UInt8) : Option UInt8 :=
  if chr '0' ≤ byte ∧ byte ≤ chr '9' then some (byte - chr '0')
  else if chr 'a' ≤ byte ∧ byte ≤ chr 'f' then some (byte - chr 'a' + 10)
  else if chr 'A' ≤ byte ∧ byte ≤ chr 'F' then some (byte - chr 'A' + 10)
  else none

def parseHexByte (high low : UInt8) : Option UInt8 := do
  let high ← hexNibble high
  let low ← hexNibble low
  return high * 16 + low

def parseHexUnsigned (text : Bytes) : Option Nat :=
  if text = [] ∨ 8 < text.length then none
  else text.foldlM (fun result byte => (hexNibble byte).map (result * 16 + ·.toNat)) 0

def isWordByte (byte : UInt8) : Bool := isAlphanumeric byte || byte == chr '_'

/-- Compare bytes with the pairs of hexadecimal digits that are expected. -/
def compareMagic : Bytes → Bytes → Option ProbeState
  | high :: low :: rest, byte :: bytes =>
    match parseHexByte high low with
    | none => none
    | some expected => if byte ≠ expected then some .rejected else compareMagic rest bytes
  | _, _ => some .confirmed

/-- The printable bytes of pairs of hexadecimal digits. -/
def parseToken : Bytes → Option Bytes
  | high :: low :: rest =>
    match parseHexByte high low with
    | none => none
    | some byte =>
      if byte < 0x21 ∨ 0x7e < byte then none else (parseToken rest).map (byte :: ·)
  | _ => some []

/-- Bytes that no text has. -/
def isControl (byte : UInt8) : Bool :=
  byte == 0 || (byte < 0x20 && byte != 9 && byte != 13 && byte != 10 && byte != 0x0c)

/-- A token stands at a place of a text, and no word goes on around it. -/
def tokenAt (bytes token : Bytes) (start : Nat) : Bool :=
  ((bytes.drop start).take token.length).map toLower == token.map toLower &&
    !(start != 0 && isWordByte (bytes.getD (start - 1) 0) && token.head?.any isWordByte) &&
    !(start + token.length < bytes.length && isWordByte (bytes.getD (start + token.length) 0) &&
      token.getLast?.any isWordByte)

def containsTextToken (bytes token : Bytes) : Bool :=
  if bytes.length < token.length then false
  else (List.range (bytes.length - token.length + 1)).any (tokenAt bytes token)

/-- The offset of magic bytes and their pairs of hexadecimal digits. -/
def parseDescriptor (descriptor : Bytes) : Option (Nat × Bytes) :=
  match descriptor.dropWhile (· ≠ chr '.') with
  | [] => none
  | _ :: bytes_text =>
    match parseHexUnsigned (descriptor.takeWhile (· ≠ chr '.')) with
    | none => none
    | some offset =>
      if bytes_text.length < 2 ∨ 32 < bytes_text.length ∨ bytes_text.length % 2 ≠ 0 then none
      else if max_probe_bytes < offset ∨ max_probe_bytes - offset < bytes_text.length / 2 then
        none
      else some (offset, bytes_text)

def evaluateMagic (descriptor : Bytes) (input : Input) : Option ProbeState :=
  match parseDescriptor descriptor with
  | none => none
  | some (offset, bytes_text) =>
    let byte_count := bytes_text.length / 2
    if input.file_size < offset + byte_count then some .rejected
    else if input.probe_prefix_bytes.length < offset + byte_count then
      some (if input.probe_window_complete then .rejected else .indeterminate)
    else compareMagic bytes_text (input.probe_prefix_bytes.drop offset)

/-- The token of pairs of hexadecimal digits. -/
def parseTokenHex (token_hex : Bytes) : Option Bytes :=
  if token_hex.length < 2 ∨ 42 < token_hex.length ∨ token_hex.length % 2 ≠ 0 then none
  else parseToken token_hex

def evaluateToken (token_hex : Bytes) (input : Input) : Option ProbeState :=
  match parseTokenHex token_hex with
  | none => none
  | some token =>
    if input.probe_prefix_bytes.any isControl then some .rejected
    else if containsTextToken input.probe_prefix_bytes token then some .confirmed
    else some (if input.probe_window_complete then .rejected else .indeterminate)

def evaluateProbe (feature : Bytes) (input : Input) : Option ProbeState :=
  let magic_prefix := ascii "probe.magic-v1."
  let token_prefix := ascii "probe.text-token-v1."
  if startsWith feature magic_prefix then
    evaluateMagic (feature.drop magic_prefix.length) input
  else if startsWith feature token_prefix then
    evaluateToken (feature.drop token_prefix.length) input
  else none

/-- What the features of a format say about a file. -/
def probeVerdicts (entry : Entry) (format_id : Bytes) (input : Input) : List ProbeState :=
  entry.guest_features.filterMap fun mapping =>
    match splitMapping mapping with
    | none => none
    | some (key, value) => if key ≠ format_id then none else evaluateProbe value input

def probeState (entry : Entry) (format_id : Bytes) (input : Input) : ProbeState :=
  let verdicts := probeVerdicts entry format_id input
  if .confirmed ∈ verdicts then .confirmed
  else if verdicts = [] then .absent
  else if .indeterminate ∈ verdicts then .indeterminate else .rejected

def validInput (input : Input) : Bool :=
  if input.path = [] ∨ max_probe_bytes < input.probe_prefix_bytes.length ∨
      input.file_size < input.probe_prefix_bytes.length then false
  else if input.path.any (· < 0x20) then false
  else !(input.probe_window_complete &&
    input.probe_prefix_bytes.length != min input.file_size max_probe_bytes)

/-- The extension of the last component of a path, with its dot. -/
def pathExtension (path : Bytes) : Bytes :=
  let component := path.rtakeWhile fun byte => !isSeparator byte
  let extension := component.rtakeWhile (· ≠ chr '.')
  if chr '.' ∉ component ∨ extension = [] then [] else chr '.' :: extension

def validAssociationExtension (value : Bytes) : Bool :=
  2 ≤ value.length && value.length ≤ 16 && value.head? == some (chr '.') &&
    value[1]?.any isAlphanumeric && value.getLast?.any isAlphanumeric &&
    (value.drop 1).all fun byte =>
      isAlphanumeric byte || byte == chr '.' || byte == chr '_' || byte == chr '-'

def validAssociationId (value : Bytes) : Bool :=
  value.length ≠ 0 && value.length ≤ 63 && value.head?.any isAlphabetic &&
    value.getLast?.any isAlphanumeric &&
    value.all fun byte =>
      isAlphanumeric byte || byte == chr '.' || byte == chr '_' || byte == chr '-'

def validAssociation (value : Association) : Bool :=
  validAssociationExtension value.extension && validAssociationId value.subsystem_id &&
    validAssociationId value.format_id

def validateAssociations (values : List Association) : Except ResolveError Unit :=
  if values.length ≤ max_associations ∧ values.all validAssociation ∧
      values.Pairwise (fun prior value => eqlIgnoreCase value.extension prior.extension = false) then
    .ok ()
  else .error .invalid_association

def matchingAssociation (values : List Association) (extension : Bytes) :
    Except ResolveError (Option Association) :=
  if extension = [] then .ok none
  else match values.filter fun value => eqlIgnoreCase value.extension extension with
    | [] => .ok none
    | [found] => .ok (some found)
    | _ => .error .invalid_association

def makeCandidate (entry : Entry) (format_id : Bytes) (evidence : Evidence) : Candidate where
  subsystem_id := entry.subsystem_id
  format_id := format_id
  host_path := entry.host_path
  display_name := entry.display_name
  module_version := entry.module_version
  evidence := evidence

/-- The formats of a catalog with their entries, in order. -/
def Catalog.formats (catalog : Catalog) : List (Entry × Bytes) :=
  catalog.entries.flatMap fun entry => entry.guest_formats.map fun format_id => (entry, format_id)

/-- The format that an association names. -/
def associationCandidate (catalog : Catalog) (association : Association) (extension : Bytes)
    (require_extension : Bool) : Option Candidate :=
  match catalog.formats.find? fun pair =>
      eqlIgnoreCase pair.1.subsystem_id association.subsystem_id &&
        eqlIgnoreCase pair.2 association.format_id with
  | none => none
  | some (entry, format_id) =>
    if require_extension ∧ ¬ entry.mapsExtension format_id extension then none
    else some (makeCandidate entry format_id .extension)

def findEntry (catalog : Catalog) (subsystem_id : Bytes) : Option Entry :=
  catalog.entries.find? fun entry => eqlIgnoreCase entry.subsystem_id subsystem_id

def appendCandidate (candidates : List Candidate) (candidate : Candidate) :
    Except ResolveError (List Candidate) :=
  if candidates.any fun prior =>
      prior.subsystem_id == candidate.subsystem_id && prior.format_id == candidate.format_id then
    .ok candidates
  else if max_candidates ≤ candidates.length then .error .too_many_candidates
  else .ok (candidates ++ [candidate])

def lessCandidate (a b : Candidate) : Bool :=
  if a.subsystem_id ≠ b.subsystem_id then before a.subsystem_id b.subsystem_id
  else before a.format_id b.format_id

def finishResolution (candidates : List Candidate) : Resolution where
  state := if candidates.length = 0 then .unknown else if candidates.length = 1 then .selected
    else .ambiguous
  candidates := candidates.insertionSort fun a b => lessCandidate b a = false

def appendAll (formats : List (Entry × Bytes)) (evidence : Evidence) :
    Except ResolveError (List Candidate) :=
  formats.foldlM (fun candidates pair =>
    appendCandidate candidates (makeCandidate pair.1 pair.2 evidence)) []

/-- Resolve by what the first bytes of a file confirm. -/
def confirmedFormats (catalog : Catalog) (input : Input) : List (Entry × Bytes) :=
  catalog.formats.filter fun pair => probeState pair.1 pair.2 input = .confirmed

/-- The formats that map the extension of a path and are not rejected. -/
def extensionFormats (catalog : Catalog) (input : Input) : List (Entry × Bytes) :=
  catalog.formats.filter fun pair =>
    pair.1.mapsExtension pair.2 (pathExtension input.path) ∧
      probeState pair.1 pair.2 input ≠ .rejected

def extensionCandidates (catalog : Catalog) (input : Input) :
    Except ResolveError (List Candidate) :=
  if pathExtension input.path = [] then .ok []
  else appendAll (extensionFormats catalog input) .extension

def resolveExtension (catalog : Catalog) (input : Input) : Except ResolveError Resolution := do
  let candidates ← extensionCandidates catalog input
  return finishResolution candidates

/-- Resolve without an association of the user or a confirmed probe. -/
def resolveDefault (catalog : Catalog) (input : Input) (found : Option Association) :
    Except ResolveError Resolution :=
  match found with
  | none => resolveExtension catalog input
  | some association =>
    match associationCandidate catalog association (pathExtension input.path) true with
    | none => .error .stale_association
    | some candidate =>
      -- the entry of a candidate is in the catalog
      if (findEntry catalog candidate.subsystem_id).any fun entry =>
          probeState entry candidate.format_id input = .rejected then
        resolveExtension catalog input
      else .ok (finishResolution [{ candidate with evidence := .default_association }])

def resolveConfirmed (catalog : Catalog) (input : Input) (default_associations : List Association) :
    Except ResolveError Resolution := do
  let confirmed ← appendAll (confirmedFormats catalog input) .confirmed_probe
  if confirmed ≠ [] then .ok (finishResolution confirmed)
  else do
    let found ← matchingAssociation default_associations (pathExtension input.path)
    resolveDefault catalog input found

def resolveUser (catalog : Catalog) (input : Input) (policy : Policy) (found : Option Association) :
    Except ResolveError Resolution :=
  match found with
  | none => resolveConfirmed catalog input policy.default_associations
  | some association =>
    match associationCandidate catalog association (pathExtension input.path) false with
    | none => .error .stale_association
    | some candidate =>
      .ok (finishResolution [{ candidate with evidence := .user_association }])

def resolve (catalog : Catalog) (input : Input) (policy : Policy) :
    Except ResolveError Resolution :=
  if ¬ validInput input then .error .invalid_input
  else do
    validateAssociations policy.user_associations
    validateAssociations policy.default_associations
    let found ← matchingAssociation policy.user_associations (pathExtension input.path)
    resolveUser catalog input policy found

end R4OS.SubsystemCatalog
