import R4OS.Text.Bytes

/-!
# Lines and keyed fields

A text record is a list of parts, lines of a file or the fields of one line, each of which starts
with a key.  A lookup succeeds only when exactly one part carries the key.  The main results read
every field of a rendered record back, and show that a lookup in any larger text either fails or
returns the rendered value.
-/

namespace R4OS.Text

variable {value key : Bytes} {fields : List (Bytes × Bytes)} {field : Bytes × Bytes}
  {parts : List Bytes}

/-- Blanks removed around lines and numerals. -/
def isBlank (byte : UInt8) : Bool :=
  byte == chr ' ' || byte == chr '\t' || byte == chr '\r' || byte == chr '\n'

/-- Remove blanks at both ends. -/
def trim (value : Bytes) : Bytes := (value.dropWhile isBlank).rdropWhile isBlank

/-- A text without a blank at either end. -/
def Trimmed (value : Bytes) : Prop :=
  (∀ byte ∈ value.head?, isBlank byte = false) ∧ ∀ byte ∈ value.getLast?, isBlank byte = false

theorem Trimmed.trim_eq (trimmed : Trimmed value) : trim value = value := by
  cases value with
  | nil => rfl
  | cons head tail =>
    have front : (head :: tail).dropWhile isBlank = head :: tail := by
      rw [List.dropWhile_eq_self_iff]
      simpa using trimmed.1 head (by simp)
    rw [trim, front, List.rdropWhile_eq_self_iff]
    intro nonempty
    simpa using trimmed.2 _ (List.getLast?_eq_some_getLast nonempty)

theorem isDigit_not_blank {byte : UInt8} (digit : isDigit byte = true) : isBlank byte = false := by
  rw [Bool.eq_false_iff]
  intro blank
  simp only [isBlank, Bool.or_eq_true, beq_iff_eq] at blank
  rcases blank with ((rfl | rfl) | rfl) | rfl <;> revert digit <;> decide

theorem trimmed_of_forall (solid : ∀ byte ∈ value, isBlank byte = false) :
    Trimmed value :=
  ⟨fun byte member => solid byte (List.mem_of_mem_head? member),
    fun byte member => solid byte (List.mem_of_getLast? member)⟩

theorem decimal_trimmed (value : Nat) : Trimmed (decimal value) :=
  trimmed_of_forall fun _ member => isDigit_not_blank (decimal_isDigit member)

/-- The lines of a text.  A final line separator does not start another line. -/
def lines (data : Bytes) : List Bytes :=
  let pieces := data.splitOn newline
  if pieces.getLast? = some [] then pieces.dropLast else pieces

@[simp] theorem lines_nil : lines [] = [] := rfl

theorem lines_cons {line rest : Bytes} (unbroken : newline ∉ line) :
    lines (line ++ newline :: rest) = line :: lines rest := by
  have nonempty : rest.splitOn newline ≠ [] := List.splitOn_ne_nil newline rest
  unfold lines
  rw [List.splitOn_append_cons_self_of_not_mem unbroken]
  simp only [List.getLast?_cons_of_ne_nil nonempty, List.dropLast_cons_of_ne_nil nonempty]
  split <;> rfl

/-- Terminate every line with a separator. -/
def unlines (texts : List Bytes) : Bytes := texts.flatMap fun line => line ++ [newline]

@[simp] theorem unlines_nil : unlines [] = [] := rfl

@[simp] theorem unlines_cons (line : Bytes) (texts : List Bytes) :
    unlines (line :: texts) = line ++ newline :: unlines texts := by
  simp [unlines]

@[simp] theorem unlines_append (front back : List Bytes) :
    unlines (front ++ back) = unlines front ++ unlines back := by
  simp [unlines]

theorem lines_unlines_append {texts : List Bytes} (unbroken : ∀ line ∈ texts, newline ∉ line)
    (rest : Bytes) : lines (unlines texts ++ rest) = texts ++ lines rest := by
  induction texts with
  | nil => rfl
  | cons line texts induction =>
    have tail_unbroken : ∀ other ∈ texts, newline ∉ other := fun other member =>
      unbroken other (.tail _ member)
    rw [unlines_cons, List.append_assoc, List.cons_append, lines_cons (unbroken line (by simp)),
      induction tail_unbroken, List.cons_append]

theorem lines_unlines {texts : List Bytes} (unbroken : ∀ line ∈ texts, newline ∉ line) :
    lines (unlines texts) = texts := by
  simpa using lines_unlines_append unbroken []

def lastIndexOf (marker : Bytes) : Bytes → Option Nat
  | [] => if marker = [] then some 0 else none
  | byte :: rest =>
    match lastIndexOf marker rest with
    | some index => some (index + 1)
    | none => if startsWith (byte :: rest) marker then some 0 else none

theorem lastIndexOf_append {marker : Bytes} (front : Bytes) {back : Bytes} {index : Nat}
    (found : lastIndexOf marker back = some index) :
    lastIndexOf marker (front ++ back) = some (front.length + index) := by
  induction front with
  | nil => simpa using found
  | cons byte front induction =>
    rw [List.cons_append, lastIndexOf, induction]
    simp only [List.length_cons, Option.some.injEq]
    omega

theorem lastIndexOf_eq_none {first : UInt8} (rest : Bytes)
    (absent : first ∉ value) : lastIndexOf (first :: rest) value = none := by
  induction value with
  | nil => simp [lastIndexOf]
  | cons byte value induction =>
    have byte_ne : first ≠ byte := fun equality => absent (by simp [equality])
    have tail_absent : first ∉ value := fun member => absent (.tail _ member)
    rw [lastIndexOf, induction tail_absent]
    simp [startsWith, List.isPrefixOf, byte_ne]

/-- How many parts start with the key. -/
def fieldOccurrences (parts : List Bytes) (key : Bytes) : Nat :=
  parts.countP fun part => startsWith part key

/-- What follows the key in the only part that starts with it. -/
def fieldValue (parts : List Bytes) (key : Bytes) : Option Bytes :=
  match parts.filter fun part => startsWith part key with
  | [part] => some (part.drop key.length)
  | _ => none

/-- Neither key is a prefix of the other one. -/
def Incomparable (left right : Bytes) : Prop := ¬ left <+: right ∧ ¬ right <+: left

instance (left right : Bytes) : Decidable (Incomparable left right) :=
  inferInstanceAs (Decidable (_ ∧ _))

theorem Incomparable.symm {left right : Bytes} (incomparable : Incomparable left right) :
    Incomparable right left := ⟨incomparable.2, incomparable.1⟩

theorem Incomparable.not_startsWith {other : Bytes} (incomparable : Incomparable key other)
    (value : Bytes) : startsWith (other ++ value) key = false := by
  rw [Bool.eq_false_iff]
  intro starts
  have key_prefix : key <+: other ++ value := startsWith_iff.mp starts
  have other_prefix : other <+: other ++ value := List.prefix_append _ _
  rcases List.prefix_or_prefix_of_prefix key_prefix other_prefix with comparable | comparable
  · exact incomparable.1 comparable
  · exact incomparable.2 comparable

/-- A key followed by its value. -/
def keyed (field : Bytes × Bytes) : Bytes := field.1 ++ field.2

/-- The keys of a record are pairwise incomparable. -/
def KeysDistinct (fields : List (Bytes × Bytes)) : Prop :=
  (fields.map Prod.fst).Pairwise Incomparable

theorem filter_keyed_eq_nil (foreign : ∀ field ∈ fields, Incomparable key field.1) :
    (fields.map keyed).filter (fun part => startsWith part key) = [] := by
  rw [List.filter_eq_nil_iff]
  intro part member
  obtain ⟨field, field_mem, rfl⟩ := List.mem_map.mp member
  simp [keyed, (foreign field field_mem).not_startsWith]

theorem filter_keyed (distinct : KeysDistinct fields) (member : field ∈ fields) :
    (fields.map keyed).filter (fun part => startsWith part field.1) = [keyed field] := by
  induction fields with
  | nil => simp at member
  | cons head fields induction =>
    obtain ⟨head_distinct, tail_distinct⟩ := List.pairwise_cons.mp distinct
    rcases List.mem_cons.mp member with rfl | tail_member
    · have foreign : ∀ other ∈ fields, Incomparable field.1 other.1 := fun other other_mem =>
        head_distinct other.1 (List.mem_map_of_mem other_mem)
      simp [keyed, ← filter_keyed_eq_nil foreign]
    · have foreign : Incomparable field.1 head.1 :=
        (head_distinct field.1 (List.mem_map_of_mem tail_member)).symm
      rw [List.map_cons, List.filter_cons, keyed, foreign.not_startsWith]
      simpa using induction tail_distinct tail_member

/-- Every field of a rendered record is read back. -/
theorem fieldValue_keyed (distinct : KeysDistinct fields) (member : field ∈ fields) :
    fieldValue (fields.map keyed) field.1 = some field.2 := by
  simp [fieldValue, filter_keyed distinct member, keyed]

theorem fieldOccurrences_keyed (distinct : KeysDistinct fields) (member : field ∈ fields) :
    fieldOccurrences (fields.map keyed) field.1 = 1 := by
  rw [fieldOccurrences, List.countP_eq_length_filter, filter_keyed distinct member]
  rfl

theorem fieldValue_append_foreign {foreign : List Bytes}
    (absent : ∀ part ∈ foreign, startsWith part key = false) :
    fieldValue (parts ++ foreign) key = fieldValue parts key := by
  have nothing : foreign.filter (fun part => startsWith part key) = [] := by
    rw [List.filter_eq_nil_iff]
    intro part member
    simp [absent part member]
  simp [fieldValue, nothing]

theorem fieldValue_cons_foreign {part : Bytes} (absent : startsWith part key = false) :
    fieldValue (part :: parts) key = fieldValue parts key := by
  simp [fieldValue, absent]

/-- A successful lookup returns what follows the key in any part that carries it. -/
theorem fieldValue_unique {found : Bytes}
    (member : key ++ value ∈ parts) (lookup : fieldValue parts key = some found) :
    found = value := by
  have kept : key ++ value ∈ parts.filter fun part => startsWith part key :=
    List.mem_filter.mpr ⟨member, startsWith_append key value⟩
  unfold fieldValue at lookup
  split at lookup
  · rename_i part only
    rw [only, List.mem_singleton] at kept
    rw [← kept, List.drop_left] at lookup
    exact (Option.some.inj lookup).symm
  · cases lookup

/-- Render a tagged line of fields. -/
def fieldLine (tag : Bytes) (fields : List (Bytes × Bytes)) : Bytes :=
  [semicolon].intercalate (tag :: fields.map keyed)

theorem fieldLine_eq (tag : Bytes) (fields : List (Bytes × Bytes)) :
    fieldLine tag fields = tag ++ fields.flatMap fun field => semicolon :: keyed field := by
  induction fields generalizing tag with
  | nil => simp [fieldLine]
  | cons field fields induction =>
    have tail := induction (keyed field)
    unfold fieldLine at tail ⊢
    rw [List.map_cons, List.intercalate_cons_cons, tail]
    simp

theorem fieldLine_concat (tag : Bytes) (fields : List (Bytes × Bytes)) (last : Bytes × Bytes) :
    fieldLine tag (fields ++ [last]) = fieldLine tag fields ++ semicolon :: keyed last := by
  simp [fieldLine_eq]

def fieldParts (line : Bytes) : List Bytes := line.splitOn semicolon

theorem fieldParts_fieldLine {tag : Bytes} (tag_plain : semicolon ∉ tag)
    (fields_plain : ∀ field ∈ fields, semicolon ∉ field.1 ∧ semicolon ∉ field.2) :
    fieldParts (fieldLine tag fields) = tag :: fields.map keyed := by
  apply List.splitOn_intercalate
  · intro part member
    rcases List.mem_cons.mp member with rfl | field_member
    · exact tag_plain
    · obtain ⟨field, field_mem, rfl⟩ := List.mem_map.mp field_member
      rw [keyed, List.mem_append]
      have plain := fields_plain field field_mem
      tauto
  · exact List.cons_ne_nil _ _

end R4OS.Text
