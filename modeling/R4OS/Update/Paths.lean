import R4OS.Path.FilePath
import R4OS.Text.Keyed

/-!
# Paths of the system updater

Target classes shared by packer, updater and early recovery, the normal form of journal paths, and
the private 8.3 names of stage and backup files.
-/

namespace R4OS.Update

open Text
open Path (isSeparator isAsciiAlpha segments)

variable {capacity : Nat} {out after : Bytes} {byte : UInt8}

/-- Capacity of a path buffer, with its terminating zero. -/
def max_path : Nat := 1024

def foldPathByte (byte : UInt8) : UInt8 := if byte = chr '/' then chr '\\' else toUpper byte

/-- Compare two paths up to ASCII case and separators. -/
def pathEqualsIgnoreCase (a b : Bytes) : Bool := a.map foldPathByte == b.map foldPathByte

/-- Compare two texts up to ASCII case. -/
def equalsIgnoreCase (a b : Bytes) : Bool := pathEqualsIgnoreCase a b

/-- Whether a path starts with a text up to ASCII case. -/
def startsWithIgnoreCase (value marker : Bytes) : Bool :=
  marker.length ≤ value.length && pathEqualsIgnoreCase (value.take marker.length) marker

/-- Whether a path ends with a text up to ASCII case. -/
def endsWithIgnoreCase (value suffix : Bytes) : Bool :=
  suffix.length ≤ value.length &&
    pathEqualsIgnoreCase (value.drop (value.length - suffix.length)) suffix

/-- A versioned application in an ordinary chosen directory. -/
def applicationTarget (value : Bytes) : Bool :=
  if (segments value).any fun segment => segment == ascii "." || segment == ascii ".." then false
  else
    let native := if value.head? = some (chr '/') then ascii "C:" ++ value else value
    if value.head? = some (chr '/') ∧ 1024 < native.length then false
    else match Path.AbsoluteFilePath.parse native with
      | .ok path =>
        endsWithIgnoreCase path (ascii ".R4X") && !startsWithIgnoreCase path (ascii "C:\\BOOT\\")
      | .error _ => false

/-- What a payload without a component identity is. -/
inductive CompanionKind
  | license
  | source
  | preload

/-- The exact managed boot leaves. -/
def preloadTarget (path : Bytes) : Bool :=
  [ascii "/boot/preload.r4i", ascii "/boot/preload/hidreport.r4p", ascii "/boot/preload/usbhid.r4p",
    ascii "/boot/preload/usbbot.r4p", ascii "/boot/preload/usbscsi.r4p"].any
      fun target => pathEqualsIgnoreCase path target

def companionPart (part : Bytes) : Bool :=
  !(part == ascii "." || part == ascii ".." ||
    part.getLast? == some (chr '.') || part.getLast? == some (chr ' ')) &&
  part.all fun byte => 0x20 ≤ byte && byte < 0x7f && !(ascii "\"*:;<>?|").contains byte

def companionBelow (path scope : Bytes) : Bool :=
  (segments (path.drop scope.length)).all companionPart &&
    !(path.getLast?.any isSeparator)

def companionScope (path scope : Bytes) : Bool :=
  scope.length < path.length && pathEqualsIgnoreCase (path.take scope.length) scope

/-- Classify package companions. -/
def companionKind (path : Bytes) : Option CompanionKind :=
  if preloadTarget path then some .preload
  else if companionScope path (ascii "C:/R4OS/LICENSES/") then
    if companionBelow path (ascii "C:/R4OS/LICENSES/") then some .license else none
  else if companionScope path (ascii "C:/R4OS/SOURCES/") then
    if companionBelow path (ascii "C:/R4OS/SOURCES/") then some .source else none
  else none

/-- Whether recovery may touch a target at all. -/
def validTarget (path : Bytes) : Bool :=
  applicationTarget path || (companionKind path).isSome ||
  pathEqualsIgnoreCase path (ascii "\\boot\\r4os.elf") ||
  pathEqualsIgnoreCase path (ascii "C:\\CONFIG.R4S") ||
  startsWithIgnoreCase path (ascii "C:\\R4OS\\LIBS\\") && endsWithIgnoreCase path (ascii ".R4L") ||
  startsWithIgnoreCase path (ascii "C:\\R4OS\\DRIVERS\\") && endsWithIgnoreCase path (ascii ".R4D") ||
  startsWithIgnoreCase path (ascii "C:\\R4OS\\PROTOCOLS\\") &&
    endsWithIgnoreCase path (ascii ".R4P") ||
  startsWithIgnoreCase path (ascii "C:\\R4OS\\SERVICES\\") && endsWithIgnoreCase path (ascii ".R4X") ||
  startsWithIgnoreCase path (ascii "C:\\R4OS\\SOFTWARE\\") ||
  startsWithIgnoreCase path (ascii "C:\\R4OS\\SUBSYSTEMS\\") &&
    endsWithIgnoreCase path (ascii ".R4X") ||
  startsWithIgnoreCase path (ascii "C:\\R4OS\\FONTS\\") && endsWithIgnoreCase path (ascii ".R4F") ||
  startsWithIgnoreCase path (ascii "C:\\R4OS\\CONFIG\\") ||
  startsWithIgnoreCase path (ascii "C:\\R4OS\\SDK\\") ||
  startsWithIgnoreCase path (ascii "C:\\TEMP\\") ||
  match path with
  | drive :: colon :: separator :: _ :: _ =>
    isAsciiAlpha drive && toUpper drive != chr 'C' && colon == chr ':' && separator == chr '\\'
  | _ => false

/-- Append one byte, leaving room for the terminating zero. -/
def appendNormalizedPathByte (capacity : Nat) (out : Bytes) (byte : UInt8) : Option Bytes :=
  if capacity ≤ out.length + 1 then none else some (out ++ [byte])

/-- Bytes that no path component may hold. -/
def forbiddenPathByte (byte : UInt8) : Bool :=
  byte < chr ' ' || byte == 0x7F || (ascii "\"*:;<>?|").contains byte

/-- Append the separator that the next component needs. -/
def separateComponent (capacity : Nat) (out : Bytes) : Option Bytes :=
  if out ≠ [] ∧ out.getLast? ≠ some (chr '\\') then
    appendNormalizedPathByte capacity out (chr '\\')
  else some out

def appendNormalizedComponent (capacity : Nat) (out component : Bytes) : Option Bytes :=
  if equalsIgnoreCase component (ascii ".") then some out
  else if equalsIgnoreCase component (ascii "..") then none
  else if component = [] ∨ component.getLast? = some (chr ' ') ∨
      component.getLast? = some (chr '.') then none
  else if !utf8ValidateSlice component then none
  else if component.any forbiddenPathByte then none
  else (separateComponent capacity out).bind
    (component.foldlM (appendNormalizedPathByte capacity))

/-- The root of a path and where its components start. -/
def normalizedRoot : Bytes → Option (Bytes × Nat)
  | [] => none
  | first :: rest =>
    if isSeparator first && rest.head?.any isAsciiAlpha && (rest.drop 1).head?.any isSeparator then
      some ([toUpper rest.head!, chr ':', chr '\\'], 3)
    else if isAsciiAlpha first && rest.head? == some (chr ':') then
      if (rest.drop 1).head?.any fun byte => !isSeparator byte then none
      else some ([toUpper first, chr ':', chr '\\'], 2)
    else if isSeparator first then some ([chr '\\'], 1)
    else none

/-- The normal form of an absolute path in a buffer of the given capacity. -/
def normalizeAbsolutePath (capacity : Nat) (value : Bytes) : Option (Bounded capacity) := do
  if capacity < 2 then none
  let (root, start) ← normalizedRoot value
  let rooted ← root.foldlM (appendNormalizedPathByte capacity) []
  let out ← (segments (value.drop start)).foldlM (appendNormalizedComponent capacity) rooted
  if room : out ≠ [] ∧ out.length + 1 ≤ capacity then some ⟨out, by omega⟩ else none

/-- The upper-case hexadecimal digit of a nibble. -/
def hexDigit (value : Nat) : UInt8 :=
  if value < 10 then UInt8.ofNat (48 + value) else UInt8.ofNat (55 + value)

/-- The parent of a path with its final separator. -/
def parentPrefix (target : Bytes) : Bytes := target.rdropWhile fun byte => !isSeparator byte

/-- Generation and payload index folded to 32 bits. -/
def internalMix (transaction_generation : UInt64) (index : Nat) : Nat :=
  (transaction_generation * 0x9E3779B9 ^^^ UInt64.ofNat index * 0x85EBCA6B).toNat % 2 ^ 32

/-- The seven hexadecimal digits of a private name. -/
def internalDigits (transaction_generation : UInt64) (index : Nat) : Bytes :=
  (List.range 7).map fun digit =>
    hexDigit (internalMix transaction_generation index / 2 ^ ((6 - digit) * 4) % 16)

/-- The private 8.3 name of a stage or backup file beside its target. -/
def buildInternal83Name (capacity : Nat) (target : Bytes) (letter : UInt8)
    (transaction_generation : UInt64) (index : Nat) : Option Bytes :=
  if letter ≠ chr 'S' ∧ letter ≠ chr 'B' then none
  else if capacity < (parentPrefix target).length + 12 + 1 then none
  else some (parentPrefix target ++ letter ::
    internalDigits transaction_generation index ++ ascii ".R4U")

/-- The parent of a path without its final separator. -/
def parentPathText (path : Bytes) : Bytes :=
  if 2 ≤ (parentPrefix path).length then (parentPrefix path).dropLast else path.take 1

/-- The last component of a path. -/
def baseName (path : Bytes) : Bytes := path.rtakeWhile fun byte => !isSeparator byte

/-- Characters of a short name beside its dot. -/
def shortNameByte (byte : UInt8) : Bool :=
  isAsciiAlpha byte || isDigit byte || (ascii "$%'-_@~").contains byte

/-- Whether a text is a well-formed 8.3 name. -/
def validateShortName83Text (name : Bytes) : Bool :=
  let base := name.takeWhile fun byte => byte != chr '.'
  let extension := name.drop (base.length + 1)
  name != [] && name.length ≤ 12 && name.head? != some (chr '.') &&
    name.all (fun byte => byte == chr '.' || shortNameByte byte) && name.count (chr '.') ≤ 1 &&
    1 ≤ base.length && base.length ≤ 8 && extension.length ≤ 3 &&
    (base.length == name.length || 1 ≤ extension.length)

/-- Bytes that occur in a path in normal form. -/
def PlainByte (byte : UInt8) : Prop := chr ' ' ≤ byte ∧ byte ≠ semicolon

instance (byte : UInt8) : Decidable (PlainByte byte) := inferInstanceAs (Decidable (_ ∧ _))

theorem appendNormalizedPathByte_eq
    (appended : appendNormalizedPathByte capacity out byte = some after) :
    after = out ++ [byte] := by
  unfold appendNormalizedPathByte at appended
  split at appended
  · cases appended
  · exact (Option.some.inj appended).symm

theorem foldlM_appendNormalizedPathByte (bytes : Bytes)
    (appended : bytes.foldlM (appendNormalizedPathByte capacity) out = some after) :
    after = out ++ bytes := by
  induction bytes generalizing out with
  | nil => simpa using appended.symm
  | cons byte bytes induction =>
    rw [List.foldlM_cons, Option.bind_eq_bind, Option.bind_eq_some_iff] at appended
    obtain ⟨next, step, rest⟩ := appended
    rw [induction rest, appendNormalizedPathByte_eq step]
    simp

/-- A text without control bytes or field separators that does not end in a blank. -/
def PlainPath (path : Bytes) : Prop :=
  (∀ byte ∈ path, PlainByte byte) ∧ path.getLast? ≠ some (chr ' ')

theorem plainByte_of_not_forbidden (allowed : forbiddenPathByte byte = false) :
    PlainByte byte := by
  simp only [forbiddenPathByte, Bool.or_eq_false_iff, decide_eq_false_iff_not] at allowed
  refine ⟨UInt8.not_lt.mp allowed.1.1, ?_⟩
  rintro rfl
  exact absurd allowed.2 (by decide)

theorem appendNormalizedComponent_plain {component : Bytes} (plain : PlainPath out)
    (appended : appendNormalizedComponent capacity out component = some after) : PlainPath after := by
  unfold appendNormalizedComponent at appended
  split at appended
  · exact (Option.some.inj appended) ▸ plain
  split at appended
  · cases appended
  split at appended
  · cases appended
  rename_i edges
  split at appended
  · cases appended
  split at appended
  · cases appended
  rename_i allowed
  rw [Option.bind_eq_some_iff] at appended
  obtain ⟨separated, separated_eq, appended⟩ := appended
  have separated_plain : ∀ byte ∈ separated, PlainByte byte := by
    unfold separateComponent at separated_eq
    split at separated_eq
    · rw [appendNormalizedPathByte_eq separated_eq]
      intro byte member
      rcases List.mem_append.mp member with member | member
      · exact plain.1 byte member
      · rw [List.mem_singleton.mp member]
        exact ⟨by decide, by decide⟩
    · rw [← Option.some.inj separated_eq]
      exact plain.1
  have component_ne : component ≠ [] := fun empty => edges (.inl empty)
  rw [foldlM_appendNormalizedPathByte component appended]
  constructor
  · intro byte member
    rcases List.mem_append.mp member with member | member
    · exact separated_plain byte member
    · apply plainByte_of_not_forbidden
      simpa using List.any_eq_false.mp (Bool.eq_false_of_not_eq_true allowed) byte member
  · rw [List.getLast?_append_of_ne_nil _ component_ne]
    exact fun blank => edges (.inr (.inl blank))

theorem foldlM_appendNormalizedComponent_plain (components : List Bytes) (plain : PlainPath out)
    (appended : components.foldlM (appendNormalizedComponent capacity) out = some after) :
    PlainPath after := by
  induction components generalizing out with
  | nil => exact (Option.some.inj appended) ▸ plain
  | cons component components induction =>
    rw [List.foldlM_cons, Option.bind_eq_bind, Option.bind_eq_some_iff] at appended
    obtain ⟨next, step, rest⟩ := appended
    exact induction (appendNormalizedComponent_plain plain step) rest

theorem toUpper_plain (letter : isAsciiAlpha byte = true) :
    PlainByte (toUpper byte) := by
  simp only [isAsciiAlpha, Bool.and_eq_true, decide_eq_true_eq] at letter
  refine ⟨UInt8.le_trans (by decide) letter.1, ?_⟩
  intro equality
  rw [equality] at letter
  exact absurd letter.1 (by decide)

theorem driveRoot_plain (letter : isAsciiAlpha byte = true) :
    PlainPath [toUpper byte, chr ':', chr '\\'] := by
  refine ⟨?_, by simp [chr]⟩
  intro other member
  simp only [List.mem_cons, List.not_mem_nil, or_false] at member
  rcases member with rfl | rfl | rfl
  · exact toUpper_plain letter
  · exact ⟨by decide, by decide⟩
  · exact ⟨by decide, by decide⟩

theorem normalizedRoot_plain {value root : Bytes} {start : Nat}
    (found : normalizedRoot value = some (root, start)) : PlainPath root := by
  cases value with
  | nil => cases found
  | cons first rest =>
    simp only [normalizedRoot] at found
    split at found
    · rename_i slashed
      simp only [Option.some.injEq, Prod.mk.injEq] at found
      obtain ⟨rfl, -⟩ := found
      cases rest with
      | nil => simp at slashed
      | cons drive rest =>
        simp only [List.head?_cons, Option.any_some, Bool.and_eq_true] at slashed
        exact driveRoot_plain slashed.1.2
    split at found
    · rename_i drive
      split at found
      · cases found
      simp only [Option.some.injEq, Prod.mk.injEq] at found
      obtain ⟨rfl, -⟩ := found
      exact driveRoot_plain (Bool.and_eq_true _ _ ▸ drive).1
    split at found
    · simp only [Option.some.injEq, Prod.mk.injEq] at found
      obtain ⟨rfl, -⟩ := found
      exact ⟨List.forall_mem_singleton.mpr (by decide), by decide⟩
    · cases found

theorem normalizeAbsolutePath_plain {value : Bytes} {path : Bounded capacity}
    (normalized : normalizeAbsolutePath capacity value = some path) :
    PlainPath path.bytes ∧ path.bytes ≠ [] ∧ path.bytes.length < capacity := by
  unfold normalizeAbsolutePath at normalized
  split at normalized
  · simp at normalized
  simp only [Option.bind_eq_bind, Option.bind_eq_some_iff, Prod.exists] at normalized
  obtain ⟨root, start, root_eq, rooted, rooted_eq, out, out_eq, finished⟩ := normalized
  have rooted_root : rooted = root := by
    simpa using foldlM_appendNormalizedPathByte root rooted_eq
  have out_plain : PlainPath out :=
    foldlM_appendNormalizedComponent_plain _ (rooted_root ▸ normalizedRoot_plain root_eq) out_eq
  split at finished
  · rename_i room
    rw [← Option.some.inj finished]
    exact ⟨out_plain, room.1, by simpa using room.2⟩
  · cases finished

end R4OS.Update
