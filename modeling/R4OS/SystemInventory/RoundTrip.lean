import R4OS.SystemInventory.Entry
import R4OS.SystemInventory.Scanner
import R4OS.Update.BatchRoundTrip

/-!
# The inventory round trip

An inventory is written without escapes.  It is read back exactly when the names and targets of its
entries are strings that the scanner takes.
-/

namespace R4OS.SystemInventory

open Text Scanner
open Update.Batch (eqlIgnoreCase validSemanticVersion validToken)

variable {byte : UInt8} {value : Bytes} {entry : Entry} {inventory : Inventory}

/-- What stands between a value and the value of the next key. -/
def fieldLead (key : Bytes) : Bytes := ascii ",\n      " ++ stringText key ++ ascii ": "

def entryText (entry : Entry) : Bytes :=
  ascii "\x7b\n      \"name\": " ++ stringText entry.name ++
    fieldLead (ascii "kind") ++ stringText entry.kind.text ++
    fieldLead (ascii "version") ++ stringText entry.version ++
    fieldLead (ascii "target") ++ stringText entry.target ++
    fieldLead (ascii "module_role") ++ optionalText (entry.module_role.map ModuleRole.text) ++
    fieldLead (ascii "subsystem_id") ++ optionalText entry.subsystem_id ++
    fieldLead (ascii "subsystem_display_name") ++ optionalText entry.subsystem_display_name ++
    fieldLead (ascii "guest_formats") ++ arrayText entry.guest_formats ++
    fieldLead (ascii "guest_extensions") ++ arrayText entry.guest_extensions ++
    fieldLead (ascii "guest_features") ++ arrayText entry.guest_features ++
    ascii "\n    \x7d"

/-- The lines of the entries. -/
def entriesText : List Entry → Bytes
  | [] => []
  | entry :: [] => ascii "    " ++ entryText entry ++ ascii "\n"
  | entry :: next :: rest =>
    ascii "    " ++ entryText entry ++ ascii ",\n" ++ entriesText (next :: rest)

def inventoryText (inventory : Inventory) : Bytes :=
  ascii "\x7b\n  \"schema\": 4,\n  \"profile\": " ++ stringText inventory.profile.text ++
    ascii ",\n  \"count\": " ++ decimal inventory.entries.length ++
    ascii ",\n  \"entries\": [\n" ++ entriesText inventory.entries ++ ascii "  ]\n\x7d\n"

/-- Write a valid inventory into a buffer of the given capacity. -/
def Inventory.render (inventory : Inventory) (capacity : Nat) : Option Bytes :=
  if inventory.validate ∧ (inventoryText inventory).length ≤ capacity then
    some (inventoryText inventory)
  else none

def stripBom (bytes : Bytes) : Bytes :=
  if bytes.take 3 = [0xEF, 0xBB, 0xBF] then bytes.drop 3 else bytes

def parseRole : Option Bytes → Option (Option ModuleRole)
  | none => some none
  | some value => (ModuleRole.parse value).map some

def readDisplayName (schema : Nat) (name : Bytes) (module_role : Option ModuleRole) :
    Reader (Option Bytes) :=
  if 4 ≤ schema then do
    comma
    key (ascii "subsystem_display_name")
    optionalString
  else return if module_role = some .subsystem then some name else none

def readRoleMetadata (schema : Nat) (entry : Entry) : Reader Entry := do
  comma
  key (ascii "module_role")
  let module_role ← parseRole (← optionalString)
  comma
  key (ascii "subsystem_id")
  let subsystem_id ← optionalString
  let subsystem_display_name ← readDisplayName schema entry.name module_role
  comma
  key (ascii "guest_formats")
  let guest_formats ← stringArray max_guest_formats
  comma
  key (ascii "guest_extensions")
  let guest_extensions ← stringArray max_guest_extensions
  comma
  key (ascii "guest_features")
  let guest_features ← stringArray max_guest_features
  return { entry with
    module_role, subsystem_id, subsystem_display_name, guest_formats, guest_extensions,
    guest_features }

def readMetadata (schema : Nat) (entry : Entry) : Reader Entry :=
  if 3 ≤ schema then readRoleMetadata schema entry else return entry

def parseEntry (schema : Nat) : Reader Entry := do
  take (chr '{')
  key (ascii "name")
  let name ← string
  comma
  key (ascii "kind")
  let kind ← ComponentKind.parse (← string)
  comma
  key (ascii "version")
  let version ← string
  comma
  key (ascii "target")
  let target ← string
  let entry ← readMetadata schema { name, kind, version, target }
  take (chr '}')
  return entry

/-- Read an inventory up to the end of its text. -/
def readInventory : Reader Inventory := do
  take (chr '{')
  key (ascii "schema")
  let schema ← number
  guard (schema = 2 ∨ schema = 3 ∨ schema = 4)
  comma
  key (ascii "profile")
  let profile ← Profile.parse (← string)
  comma
  key (ascii "count")
  let declared_count ← number
  guard (declared_count ≤ max_entries)
  comma
  key (ascii "entries")
  take (chr '[')
  let entries ← items (parseEntry schema) max_entries
  take (chr ']')
  take (chr '}')
  done
  guard (declared_count = entries.length)
  return { profile, entries }

def Inventory.parse (bytes : Bytes) : Option Inventory := do
  let (inventory, _) ← readInventory.run (stripBom bytes)
  guard inventory.validate
  return inventory

/-- Every text of the entry is a string that the scanner takes, and its arrays fit. -/
structure EntryScannable (entry : Entry) : Prop where
  name : Scannable entry.name
  version : Scannable entry.version
  target : Scannable entry.target
  subsystem_id : ∀ text ∈ entry.subsystem_id, Scannable text
  display_name : ∀ text ∈ entry.subsystem_display_name, Scannable text
  formats : ∀ text ∈ entry.guest_formats, Scannable text
  extensions : ∀ text ∈ entry.guest_extensions, Scannable text
  features : ∀ text ∈ entry.guest_features, Scannable text
  formats_fit : entry.guest_formats.length ≤ max_guest_formats
  extensions_fit : entry.guest_extensions.length ≤ max_guest_extensions
  features_fit : entry.guest_features.length ≤ max_guest_features

/-- A byte that every string may have. -/
def SafeByte (byte : UInt8) : Prop :=
  0x20 ≤ byte ∧ byte < 0x80 ∧ byte ≠ quote ∧ byte ≠ chr '\\'

instance (byte : UInt8) : Decidable (SafeByte byte) := inferInstanceAs (Decidable (_ ∧ _))

theorem SafeByte.not_refused (safe : SafeByte byte) : isRefused byte = false := by
  simp only [isRefused, Bool.or_eq_false_iff, beq_eq_false_iff_ne, decide_eq_false_iff_not]
  exact ⟨safe.2.2.2, UInt8.not_lt.mpr safe.1⟩

theorem utf8ValidateSlice_ascii (plain : ∀ byte ∈ value, byte < 0x80) :
    utf8ValidateSlice value = true := by
  induction value with
  | nil => rfl
  | cons byte rest induction =>
    unfold utf8ValidateSlice
    rw [if_pos (plain byte (by simp))]
    exact induction fun other member => plain other (.tail _ member)

theorem scannable_of_safe (safe : ∀ byte ∈ value, SafeByte byte) :
    Scannable value where
  closed member := (safe quote member).2.2.1 rfl
  plain := by
    rw [List.any_eq_false]
    intro byte member
    simp [(safe byte member).not_refused]
  utf8 := utf8ValidateSlice_ascii fun byte member => (safe byte member).2.1

/-- A literal without quotes and escapes. -/
theorem scannable_of_decide
    (holds : (value.all fun byte => decide (SafeByte byte)) = true) : Scannable value := by
  rw [List.all_eq_true] at holds
  exact scannable_of_safe fun byte member => of_decide_eq_true (holds byte member)

theorem kindText_scannable (kind : ComponentKind) : Scannable kind.text := by
  cases kind <;> exact scannable_of_decide (by decide)

@[simp] theorem ComponentKind.parse_text (kind : ComponentKind) :
    ComponentKind.parse kind.text = some kind := by
  cases kind <;> decide

theorem comma_reads : Reads comma [chr ','] () := take_reads blank_nil (by decide)

theorem field_reads {First Second : Type} {reader : Reader First} {next : First → Reader Second}
    {name text back : Bytes} {first : First} {second : Second} (scannable : Scannable name)
    (value : Reads reader (ascii " " ++ text) first) (tail : Reads (next first) back second) :
    Reads (do comma; key name; let value ← reader; next value)
      (fieldLead name ++ (text ++ back)) second := by
  have lead : fieldLead name ++ (text ++ back) = [chr ','] ++
      ((ascii "\n      " ++ stringText name ++ [chr ':']) ++ ((ascii " " ++ text) ++ back)) := by
    have first_literal : ascii ",\n      " = [chr ','] ++ ascii "\n      " := by decide
    have last_literal : ascii ": " = [chr ':'] ++ ascii " " := by decide
    rw [fieldLead, first_literal, last_literal]
    simp
  rw [lead]
  exact comma_reads.bind ((key_reads (by decide) scannable).bind (value.bind tail))

theorem role_reads (role : Option ModuleRole) :
    Reads optionalString (ascii " " ++ optionalText (role.map ModuleRole.text))
      (role.map ModuleRole.text) := by
  refine optionalString_reads (by decide) fun text member => ?_
  cases role with
  | none => cases member
  | some role =>
    cases member
    cases role
    exact scannable_of_decide (by decide)

theorem parseRole_text (role : Option ModuleRole) :
    parseRole (role.map ModuleRole.text) = some role := by
  cases role with
  | none => rfl
  | some role => cases role; decide

/-- The fields of an entry behind its target. -/
def roleText (entry : Entry) : Bytes :=
  fieldLead (ascii "module_role") ++ (optionalText (entry.module_role.map ModuleRole.text) ++
    (fieldLead (ascii "subsystem_id") ++ (optionalText entry.subsystem_id ++
    ((fieldLead (ascii "subsystem_display_name") ++
      optionalText entry.subsystem_display_name) ++
    (fieldLead (ascii "guest_formats") ++ (arrayText entry.guest_formats ++
    (fieldLead (ascii "guest_extensions") ++ (arrayText entry.guest_extensions ++
    (fieldLead (ascii "guest_features") ++ (arrayText entry.guest_features ++ []))))))))))

theorem readDisplayName_reads (name : Bytes) (module_role : Option ModuleRole)
    {display : Option Bytes} (scannable : ∀ text ∈ display, Scannable text) :
    Reads (readDisplayName 4 name module_role)
      (fieldLead (ascii "subsystem_display_name") ++ optionalText display) display := by
  have name_scannable : Scannable (ascii "subsystem_display_name") :=
    scannable_of_decide (by decide)
  have answered := field_reads name_scannable (optionalString_reads (by decide) scannable)
    (.pure display)
  rw [List.append_nil] at answered
  simp only [bind_pure] at answered
  rw [readDisplayName, if_pos (by decide)]
  exact answered

theorem readMetadata_reads (scannable : EntryScannable entry) :
    Reads (readMetadata 4
      { name := entry.name, kind := entry.kind, version := entry.version, target := entry.target })
      (roleText entry) entry := by
  rw [readMetadata, if_pos (by decide)]
  apply field_reads (scannable_of_decide (by decide)) (role_reads entry.module_role)
  apply (Reads.lift (parseRole_text entry.module_role)).silent
  apply field_reads (scannable_of_decide (by decide))
    (optionalString_reads (by decide) scannable.subsystem_id)
  apply (readDisplayName_reads entry.name entry.module_role scannable.display_name).bind
  apply field_reads (scannable_of_decide (by decide))
    (stringArray_reads (by decide) scannable.formats scannable.formats_fit)
  apply field_reads (scannable_of_decide (by decide))
    (stringArray_reads (by decide) scannable.extensions scannable.extensions_fit)
  apply field_reads (scannable_of_decide (by decide))
    (stringArray_reads (by decide) scannable.features scannable.features_fit)
  exact .pure entry

theorem entryText_eq (entry : Entry) : entryText entry = [chr '{'] ++
    ((ascii "\n      " ++ stringText (ascii "name") ++ [chr ':']) ++
    ((ascii " " ++ stringText entry.name) ++
    (fieldLead (ascii "kind") ++ (stringText entry.kind.text ++
    (fieldLead (ascii "version") ++ (stringText entry.version ++
    (fieldLead (ascii "target") ++ (stringText entry.target ++
    (roleText entry ++ (ascii "\n    " ++ [chr '}'])))))))))) := by
  have opening : ascii "\x7b\n      \"name\": " = [chr '{'] ++ ((ascii "\n      " ++
      stringText (ascii "name") ++ [chr ':']) ++ ascii " ") := by decide
  have closing : ascii "\n    \x7d" = ascii "\n    " ++ [chr '}'] := by decide
  unfold entryText roleText
  simp [opening, closing]

theorem parseEntry_reads (scannable : EntryScannable entry) {blank : Bytes}
    (is_blank : Blank blank) : Reads (parseEntry 4) (blank ++ entryText entry) entry := by
  have closing : Reads (do take (chr '}'); return entry) (ascii "\n    " ++ [chr '}']) entry := by
    rw [← List.append_nil (ascii "\n    " ++ _)]
    exact (take_reads (by decide) (by decide)).bind (.pure entry)
  rw [entryText_eq, ← List.append_assoc]
  apply (take_reads is_blank (by decide)).bind
  apply (key_reads (by decide) (scannable_of_decide (by decide))).bind
  apply (string_reads (by decide) scannable.name).bind
  apply field_reads (scannable_of_decide (by decide))
    (string_reads (by decide) (kindText_scannable entry.kind))
  apply (Reads.lift entry.kind.parse_text).silent
  apply field_reads (scannable_of_decide (by decide))
    (string_reads (by decide) scannable.version)
  apply field_reads (scannable_of_decide (by decide))
    (string_reads (by decide) scannable.target)
  exact (readMetadata_reads scannable).bind closing

theorem parseEntry_readsItem (scannable : EntryScannable entry) :
    ReadsItem (parseEntry 4) entryText entry where
  reads _ is_blank := parseEntry_reads scannable is_blank
  starts := ⟨chr '{', _, entryText_eq entry, by decide, by decide⟩

theorem entriesText_eq {entries : List Entry} (nonempty : entries ≠ []) :
    entriesText entries ++ ascii "  " =
      ascii "    " ++ itemsText entryText (ascii "\n    ") (ascii "\n  ") entries := by
  have separator : ascii ",\n" ++ ascii "    " = [chr ','] ++ ascii "\n    " := by decide
  have close : ascii "\n" ++ ascii "  " = ascii "\n  " := by decide
  induction entries with
  | nil => exact absurd rfl nonempty
  | cons entry entries induction =>
    cases entries with
    | nil => simp [entriesText, itemsText, close]
    | cons next rest =>
      have tail := induction (List.cons_ne_nil _ _)
      rw [entriesText, itemsText, List.append_assoc, tail]
      simp only [List.append_assoc]
      rw [← List.append_assoc (ascii ",\n"), separator, List.append_assoc]

theorem inventoryText_eq (nonempty : inventory.entries ≠ []) :
    inventoryText inventory = [chr '{'] ++
    ((ascii "\n  " ++ stringText (ascii "schema") ++ [chr ':']) ++
    ((ascii " " ++ decimal 4) ++ ([chr ','] ++
    ((ascii "\n  " ++ stringText (ascii "profile") ++ [chr ':']) ++
    ((ascii " " ++ stringText inventory.profile.text) ++ ([chr ','] ++
    ((ascii "\n  " ++ stringText (ascii "count") ++ [chr ':']) ++
    ((ascii " " ++ decimal inventory.entries.length) ++ ([chr ','] ++
    ((ascii "\n  " ++ stringText (ascii "entries") ++ [chr ':']) ++
    ((ascii " " ++ [chr '[']) ++
    ((ascii "\n    " ++ itemsText entryText (ascii "\n    ") (ascii "\n  ") inventory.entries) ++
    ([chr ']'] ++ ((ascii "\n" ++ [chr '}']) ++ ascii "\n")))))))))))))) := by
  have schema : ascii "\x7b\n  \"schema\": 4,\n  \"profile\": " = [chr '{'] ++
      ((ascii "\n  " ++ stringText (ascii "schema") ++ [chr ':']) ++
      ((ascii " " ++ decimal 4) ++ ([chr ','] ++
      ((ascii "\n  " ++ stringText (ascii "profile") ++ [chr ':']) ++ ascii " ")))) := by
    decide
  have count : ascii ",\n  \"count\": " = [chr ','] ++
      ((ascii "\n  " ++ stringText (ascii "count") ++ [chr ':']) ++ ascii " ") := by
    decide
  have entries : ascii ",\n  \"entries\": [\n" = [chr ','] ++
      ((ascii "\n  " ++ stringText (ascii "entries") ++ [chr ':']) ++
      ((ascii " " ++ [chr '[']) ++ ascii "\n")) := by
    decide
  have closing : ascii "  ]\n\x7d\n" = ascii "  " ++ ([chr ']'] ++ ((ascii "\n" ++ [chr '}']) ++
      ascii "\n")) := by decide
  have first : ascii "\n" ++ ascii "    " = ascii "\n    " := by decide
  have lines : ∀ back, ascii "\n" ++ (entriesText inventory.entries ++ (ascii "  " ++ back)) =
      ascii "\n    " ++ (itemsText entryText (ascii "\n    ") (ascii "\n  ") inventory.entries ++
        back) := by
    intro back
    rw [← List.append_assoc (entriesText _), entriesText_eq nonempty, ← first]
    simp
  unfold inventoryText
  simp [schema, count, entries, closing, lines]

theorem profileText_scannable (profile : Profile) : Scannable profile.text := by
  cases profile <;> exact scannable_of_decide (by decide)

@[simp] theorem Profile.parse_text (profile : Profile) :
    Profile.parse profile.text = some profile := by
  cases profile <;> decide

theorem readInventory_reads (nonempty : inventory.entries ≠ [])
    (fits : inventory.entries.length ≤ max_entries)
    (scannable : ∀ entry ∈ inventory.entries, EntryScannable entry) :
    ReadsWhole readInventory (inventoryText inventory) inventory := by
  have small : inventory.entries.length < 2 ^ 64 := Nat.lt_of_le_of_lt fits (by decide)
  have entries_read : ∀ follow, ReadsBefore (items (parseEntry 4) max_entries)
      (ascii "\n    " ++ itemsText entryText (ascii "\n    ") (ascii "\n  ") inventory.entries)
      (chr ']' :: follow) inventory.entries :=
    items_reads (fun entry member => parseEntry_readsItem (scannable entry member)) (by decide)
      (by decide) fits (by decide)
  rw [inventoryText_eq nonempty]
  apply (take_reads blank_nil (by decide)).whole
  apply (key_reads (by decide) (scannable_of_decide (by decide))).whole
  apply (number_reads (by decide) (by norm_num) _ (by decide : isDigit (chr ',') = false)).whole
  apply (Reads.guard (by decide)).silentWhole
  apply comma_reads.whole
  apply (key_reads (by decide) (scannable_of_decide (by decide))).whole
  apply (string_reads (by decide) (profileText_scannable inventory.profile)).whole
  apply (Reads.lift inventory.profile.parse_text).silentWhole
  apply comma_reads.whole
  apply (key_reads (by decide) (scannable_of_decide (by decide))).whole
  apply (number_reads (by decide) small _ (by decide : isDigit (chr ',') = false)).whole
  apply (Reads.guard fits).silentWhole
  apply comma_reads.whole
  apply (key_reads (by decide) (scannable_of_decide (by decide))).whole
  apply (take_reads (by decide) (by decide)).whole
  apply (entries_read _).whole
  apply (take_reads blank_nil (by decide)).whole
  apply (take_reads (by decide) (by decide)).whole
  exact (done_reads (by decide)).bind ((Reads.guard rfl).silent (Reads.pure inventory))

/-- A range of bytes without quotes and backslashes. -/
theorem safeByte_of_range {low high : UInt8} (above : low ≤ byte) (below : byte ≤ high)
    (range : 0x20 ≤ low ∧ high < 0x80 ∧ (high < quote ∨ quote < low) ∧
      (high < chr '\\' ∨ chr '\\' < low)) : SafeByte byte := by
  obtain ⟨first, last, quotes, backslashes⟩ := range
  have apart : ∀ other : UInt8, high < other ∨ other < low → byte ≠ other := by
    rintro other (behind | before) rfl
    · exact absurd below (UInt8.not_le.mpr behind)
    · exact absurd above (UInt8.not_le.mpr before)
  exact ⟨UInt8.le_trans first above, UInt8.lt_of_le_of_lt below last, apart _ quotes,
    apart _ backslashes⟩

theorem isDigit_safe (digit : isDigit byte = true) : SafeByte byte := by
  simp only [isDigit, Bool.and_eq_true, decide_eq_true_eq] at digit
  exact safeByte_of_range digit.1 digit.2 (by decide)

theorem isAlphanumeric_safe (letter : isAlphanumeric byte = true) :
    SafeByte byte := by
  simp only [isAlphanumeric, isAlphabetic, Bool.or_eq_true, Bool.and_eq_true,
    decide_eq_true_eq] at letter
  rcases letter with (lower | upper) | digit
  · exact safeByte_of_range lower.1 lower.2 (by decide)
  · exact safeByte_of_range upper.1 upper.2 (by decide)
  · exact isDigit_safe digit

theorem isIdByte_safe (id_byte : isIdByte byte = true) : SafeByte byte := by
  simp only [isIdByte, Bool.and_eq_true, Bool.or_eq_true, beq_iff_eq] at id_byte
  rcases id_byte.2 with ((letter | rfl) | rfl) | rfl
  · exact isAlphanumeric_safe letter
  · decide
  · decide
  · decide

theorem semanticVersion_scannable (valid : validSemanticVersion value = true) :
    Scannable value := by
  apply scannable_of_safe
  intro byte member
  rcases Update.Batch.semanticVersion_byte valid byte member with digit | rfl
  · exact isDigit_safe digit
  · decide

theorem canonicalId_safe {max_len : Nat}
    (valid : validCanonicalId value max_len = true) : ∀ byte ∈ value, SafeByte byte := by
  simp only [validCanonicalId, Bool.and_eq_true, List.all_eq_true] at valid
  exact fun byte member => isIdByte_safe (valid.2 byte member)

theorem displayName_scannable (valid : validDisplayName value = true) :
    Scannable value := by
  simp only [validDisplayName, Bool.and_eq_true, List.all_eq_true, decide_eq_true_eq] at valid
  refine ⟨fun member => (valid.2 quote member).1.2 rfl, ?_, valid.1.1.2⟩
  rw [List.any_eq_false]
  intro byte member
  have plain := valid.2 byte member
  simp only [isRefused, Bool.or_eq_true, beq_iff_eq, decide_eq_true_eq, not_or]
  exact ⟨plain.2, UInt8.not_lt.mpr plain.1.1.1⟩

theorem guestExtension_safe (valid : validGuestExtension value = true) :
    ∀ byte ∈ value, SafeByte byte := by
  simp only [validGuestExtension, Bool.and_eq_true, List.all_eq_true, beq_iff_eq] at valid
  cases value with
  | nil => exact fun byte member => absurd member List.not_mem_nil
  | cons head tail =>
    intro byte member
    rcases List.mem_cons.mp member with rfl | member
    · obtain rfl : byte = chr '.' := by simpa using valid.1.1.1.2
      decide
    · exact isIdByte_safe (valid.2 byte (by simpa using member))

theorem guestMapping_scannable {formats : List Bytes} {mapping : Bytes} {extension : Bool}
    (valid : validGuestMapping formats mapping extension = true)
    (ids : ∀ format ∈ formats, validCanonicalId format 63 = true) : Scannable mapping := by
  unfold validGuestMapping at valid
  simp only at valid
  split at valid
  · cases valid
  rename_i separator value dropped
  simp only [Bool.and_eq_true, List.contains_iff_mem] at valid
  obtain ⟨⟨-, declared⟩, kind⟩ := valid
  have value_safe : ∀ byte ∈ value, SafeByte byte := by
    cases extension with
    | true => exact guestExtension_safe kind
    | false =>
      simp only [Bool.false_eq_true, if_false, Bool.and_eq_true] at kind
      exact canonicalId_safe kind.1
  have colon : separator = chr ':' := by
    have stopped := List.head?_dropWhile_not (· != chr ':') mapping
    rw [dropped] at stopped
    simpa using stopped
  rw [← List.takeWhile_append_dropWhile (p := (· != chr ':')) (l := mapping), dropped, colon]
  apply scannable_of_safe
  intro byte member
  rcases List.mem_append.mp member with member | member
  · exact canonicalId_safe (ids _ declared) byte member
  · rcases List.mem_cons.mp member with rfl | member
    · decide
    · exact value_safe byte member

theorem Inventory.validate_entry (valid : inventory.validate = true) :
    ∀ entry ∈ inventory.entries, validEntry entry = true := by
  simp only [Inventory.validate, Bool.and_eq_true, List.all_eq_true] at valid
  exact valid.1.2

theorem validSubsystem_scannable (valid : validSubsystem entry = true)
    (name : Scannable entry.name) (version : Scannable entry.version)
    (target : Scannable entry.target) : EntryScannable entry := by
  unfold validSubsystem at valid
  split at valid
  · rename_i subsystem_id display_name id_eq display_eq
    simp only [Bool.and_eq_true, decide_eq_true_eq, List.all_eq_true] at valid
    obtain ⟨⟨⟨⟨⟨⟨⟨⟨⟨⟨⟨⟨⟨⟨-, -⟩, formats_fit⟩, extensions_fit⟩, features_fit⟩, id⟩, display⟩, -⟩, -⟩,
      formats⟩, -⟩, extensions⟩, -⟩, features⟩, -⟩ := valid
    refine ⟨name, version, target, ?_, ?_, ?_, ?_, ?_, formats_fit, extensions_fit, features_fit⟩
    · intro text member
      rw [id_eq] at member
      cases member
      exact scannable_of_safe (canonicalId_safe id)
    · intro text member
      rw [display_eq] at member
      cases member
      exact displayName_scannable display
    · exact fun format member => scannable_of_safe (canonicalId_safe (formats format member))
    · exact fun mapping member => guestMapping_scannable (extensions mapping member) formats
    · exact fun mapping member => guestMapping_scannable (features mapping member) formats
  · cases valid

/-- The texts of a valid entry, but for its name and its target, are strings that the scanner
takes. -/
theorem validEntry_scannable (valid : validEntry entry = true)
    (name : Scannable entry.name) (target : Scannable entry.target) : EntryScannable entry := by
  simp only [validEntry, Bool.and_eq_true] at valid
  obtain ⟨⟨⟨⟨-, version⟩, -⟩, -⟩, role⟩ := valid
  have version := semanticVersion_scannable version
  split at role
  · simp only [Bool.and_eq_true, beq_iff_eq] at role
    obtain ⟨⟨⟨⟨id, display⟩, formats⟩, extensions⟩, features⟩ := role
    constructor <;> simp_all
  · exact validSubsystem_scannable role name version target

theorem Inventory.validate_count (valid : inventory.validate = true) :
    inventory.entries ≠ [] ∧ inventory.entries.length ≤ max_entries := by
  simp only [Inventory.validate, Bool.and_eq_true, decide_eq_true_eq] at valid
  exact ⟨fun empty => valid.1.1.1 (by rw [empty]; rfl), valid.1.1.2⟩

theorem stripBom_inventoryText (nonempty : inventory.entries ≠ []) :
    stripBom (inventoryText inventory) = inventoryText inventory := by
  rw [inventoryText_eq nonempty, List.singleton_append, stripBom, if_neg]
  rw [List.take_succ_cons]
  intro bom
  injection bom with brace
  revert brace
  decide

theorem readMetadata_yields (schema : Nat) (entry : Entry) :
    Yields (readMetadata schema entry) fun read =>
      read.name = entry.name ∧ read.target = entry.target := by
  unfold readMetadata
  split
  · unfold readRoleMetadata
    repeat refine .after fun _ => ?_
    exact .pure ⟨rfl, rfl⟩
  · exact .pure ⟨rfl, rfl⟩

/-- The name and the target of an entry are strings that the scanner takes. -/
def ScannableNames (entry : Entry) : Prop := Scannable entry.name ∧ Scannable entry.target

theorem parseEntry_yields (schema : Nat) : Yields (parseEntry schema) ScannableNames := by
  refine .after fun _ => .after fun _ => string_yields.bind fun name name_scannable => ?_
  refine .after fun _ => .after fun _ => .after fun _ => .after fun kind => ?_
  refine .after fun _ => .after fun _ => .after fun version => ?_
  refine .after fun _ => .after fun _ =>
    string_yields.bind fun target target_scannable => ?_
  refine (readMetadata_yields schema _).bind fun entry same => .after fun _ => ?_
  exact .pure ⟨same.1 ▸ name_scannable, same.2 ▸ target_scannable⟩

/-- The names and targets of an inventory are strings that the scanner takes. -/
def ScannableInventory (inventory : Inventory) : Prop :=
  ∀ entry ∈ inventory.entries, ScannableNames entry

theorem readInventory_yields : Yields readInventory ScannableInventory := by
  refine .after fun _ => .after fun _ => .after fun schema => .after fun _ => ?_
  refine .after fun _ => .after fun _ => .after fun _ => .after fun profile => ?_
  refine .after fun _ => .after fun _ => .after fun count => .after fun _ => ?_
  refine .after fun _ => .after fun _ => .after fun _ => ?_
  refine (items_yields (parseEntry_yields schema) max_entries).bind fun entries scannable => ?_
  repeat refine .after fun _ => ?_
  exact .pure scannable

/-- A rendered inventory is read back exactly when the scanner takes its names and targets. -/
theorem parse_render_iff {capacity : Nat} {text : Bytes}
    (rendered : inventory.render capacity = some text) :
    Inventory.parse text = some inventory ↔ ScannableInventory inventory := by
  unfold Inventory.render at rendered
  split at rendered
  · rename_i accepted
    cases rendered
    obtain ⟨nonempty, fits⟩ := Inventory.validate_count accepted.1
    constructor
    · intro parsed
      simp only [Inventory.parse, Option.bind_eq_bind, Option.bind_eq_some_iff, Prod.exists,
        Option.guard_eq_some', exists_const, Option.pure_def, Option.some.injEq] at parsed
      obtain ⟨read, rest, read_eq, -, rfl⟩ := parsed
      exact readInventory_yields _ _ _ read_eq
    · intro scannable
      have entries : ∀ entry ∈ inventory.entries, EntryScannable entry := fun entry member =>
        validEntry_scannable (Inventory.validate_entry accepted.1 entry member)
          (scannable entry member).1 (scannable entry member).2
      have read := readInventory_reads nonempty fits entries
      rw [ReadsWhole] at read
      simp [Inventory.parse, stripBom_inventoryText nonempty, read, accepted.1, guard_true]
  · cases rendered

/-- An inventory with the kernel and an application. -/
def sampleInventory (target : Bytes) : Inventory where
  profile := .slim
  entries :=
    [ { name := ascii "KERNEL", kind := .kernel, version := ascii "0.1.0",
        target := ascii "/boot/r4os.elf" },
      { name := ascii "TERMINAL", kind := .r4x, version := ascii "0.1.3", target } ]

theorem parse_render_iff_sample :
    Inventory.parse (inventoryText (sampleInventory (ascii "/R4OS/TERMINAL.R4X"))) =
      some (sampleInventory (ascii "/R4OS/TERMINAL.R4X")) := by
  have rendered : (sampleInventory (ascii "/R4OS/TERMINAL.R4X")).render 65536 =
      some (inventoryText (sampleInventory (ascii "/R4OS/TERMINAL.R4X"))) := by decide +kernel
  refine (parse_render_iff rendered).mpr ?_
  intro entry member
  simp only [sampleInventory, List.mem_cons, List.not_mem_nil, or_false] at member
  rcases member with rfl | rfl
  · exact ⟨scannable_of_decide (by decide), scannable_of_decide (by decide)⟩
  · exact ⟨scannable_of_decide (by decide), scannable_of_decide (by decide)⟩

/-- A target with backslashes is written and not read back. -/
theorem backslashes_lost :
    (sampleInventory (ascii "\\R4OS\\TERMINAL.R4X")).render 65536 =
        some (inventoryText (sampleInventory (ascii "\\R4OS\\TERMINAL.R4X"))) ∧
      Inventory.parse (inventoryText (sampleInventory (ascii "\\R4OS\\TERMINAL.R4X"))) = none := by
  decide +kernel

end R4OS.SystemInventory
