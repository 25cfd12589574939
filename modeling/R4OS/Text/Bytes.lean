import Mathlib.Data.List.DropRight
import Mathlib.Data.List.Infix
import Mathlib.Data.Nat.Digits.Lemmas

/-!
# Byte strings

Byte strings with the scanning functions that text formats are written in: bounded buffers, decimal
numerals, trimming, lines, and the last occurrence of a marker.
-/

namespace R4OS.Text

/-- An unbounded byte string. -/
abbrev Bytes := List UInt8

/-- The byte of one ASCII character. -/
def chr (character : Char) : UInt8 := UInt8.ofNat character.toNat

def ascii (literal : String) : Bytes := literal.toList.map chr

theorem forall_byte {holds : UInt8 → Prop} (every : ∀ number : Fin 256, holds (UInt8.ofFin number))
    (byte : UInt8) : holds byte := by
  rw [← UInt8.ofFin_toFin byte]
  exact every byte.toFin

/-- Text held by a buffer of fixed capacity. -/
@[ext]
structure Bounded (capacity : Nat) where
  /-- The bytes in use. -/
  bytes : Bytes
  /-- They lie inside the buffer. -/
  fits : bytes.length ≤ capacity
  deriving DecidableEq

def Bounded.empty (capacity : Nat) : Bounded capacity := ⟨[], Nat.zero_le _⟩

instance (capacity : Nat) : Inhabited (Bounded capacity) := ⟨.empty capacity⟩

/-- Copy a text and its terminating zero into a buffer, or refuse a text that is too long. -/
def copyTextZ (capacity : Nat) (value : Bytes) : Option (Bounded capacity) :=
  if room : value.length + 1 ≤ capacity then some ⟨value, by omega⟩ else none

theorem copyTextZ_bytes {capacity : Nat} (text : Bounded capacity)
    (room : text.bytes.length < capacity) : copyTextZ capacity text.bytes = some text := by
  simp [copyTextZ, room]

/-- ASCII upper case of one byte. -/
def toUpper (byte : UInt8) : UInt8 :=
  if chr 'a' ≤ byte ∧ byte ≤ chr 'z' then byte - 32 else byte

/-- Decimal digits. -/
def isDigit (byte : UInt8) : Bool := chr '0' ≤ byte && byte ≤ chr '9'

/-- The line separator. -/
def newline : UInt8 := chr '\n'

/-- The field separator. -/
def semicolon : UInt8 := chr ';'

/-- Whether a byte string starts with a marker. -/
def startsWith (value marker : Bytes) : Bool := marker.isPrefixOf value

theorem startsWith_iff {value marker : Bytes} : startsWith value marker = true ↔ marker <+: value :=
  List.isPrefixOf_iff_prefix

@[simp] theorem startsWith_append (marker rest : Bytes) :
    startsWith (marker ++ rest) marker = true := by
  simp [startsWith_iff]

/-- Well-formed UTF-8 without overlong forms, surrogates or code points past the last plane. -/
def utf8ValidateSlice : Bytes → Bool
  | [] => true
  | a :: rest =>
    if a < 0x80 then utf8ValidateSlice rest
    else if a &&& 0xE0 = 0xC0 then
      match rest with
      | b :: rest => 0xC2 ≤ a && b &&& 0xC0 == 0x80 && utf8ValidateSlice rest
      | [] => false
    else if a &&& 0xF0 = 0xE0 then
      match rest with
      | b :: c :: rest =>
        b &&& 0xC0 == 0x80 && c &&& 0xC0 == 0x80 && !(a == 0xE0 && b < 0xA0) &&
          !(a == 0xED && 0xA0 ≤ b) && utf8ValidateSlice rest
      | _ => false
    else if a &&& 0xF8 = 0xF0 then
      match rest with
      | b :: c :: d :: rest =>
        b &&& 0xC0 == 0x80 && c &&& 0xC0 == 0x80 && d &&& 0xC0 == 0x80 &&
          !(a == 0xF0 && b < 0x90) && !(a == 0xF4 && 0x90 ≤ b) && a ≤ 0xF4 &&
          utf8ValidateSlice rest
      | _ => false
    else false

def digitByte (digit : Nat) : UInt8 := UInt8.ofNat (48 + digit)

def digitValue (byte : UInt8) : Nat := byte.toNat - 48

/-- The decimal numeral of a natural number. -/
def decimal (value : Nat) : Bytes :=
  if value = 0 then ascii "0" else (Nat.digits 10 value).reverse.map digitByte

/-- Read one more digit, refusing values past `limit`. -/
def appendDigit (limit value : Nat) (byte : UInt8) : Option Nat :=
  if isDigit byte then
    if value * 10 ≤ limit then
      if value * 10 + digitValue byte ≤ limit then some (value * 10 + digitValue byte) else none
    else none
  else none

/-- Read a decimal numeral whose value and partial values do not exceed `limit`. -/
def parseDecimal (limit : Nat) (value : Bytes) : Option Nat :=
  if value = [] then none else value.foldlM (appendDigit limit) 0

theorem digitByte_isDigit {digit : Nat} (small : digit < 10) : isDigit (digitByte digit) = true := by
  interval_cases digit <;> decide

theorem digitValue_digitByte {digit : Nat} (small : digit < 10) :
    digitValue (digitByte digit) = digit := by
  interval_cases digit <;> decide

theorem decimal_ne_nil (value : Nat) : decimal value ≠ [] := by
  unfold decimal
  split
  · decide
  · rename_i nonzero
    simp [Nat.digits_ne_nil_iff_ne_zero, nonzero]

theorem decimal_isDigit {value : Nat} {byte : UInt8} (member : byte ∈ decimal value) :
    isDigit byte = true := by
  unfold decimal at member
  split at member
  · have zero : ascii "0" = [48] := by decide
    rw [zero, List.mem_singleton] at member
    rw [member]
    decide
  · obtain ⟨digit, digit_mem, rfl⟩ := List.mem_map.mp member
    exact digitByte_isDigit (Nat.digits_lt_base (by norm_num) (List.mem_reverse.mp digit_mem))

theorem foldlM_appendDigit (limit : Nat) (digits : List Nat) (small : ∀ digit ∈ digits, digit < 10)
    (bounded : Nat.ofDigits 10 digits ≤ limit) :
    (digits.reverse.map digitByte).foldlM (appendDigit limit) 0 =
      some (Nat.ofDigits 10 digits) := by
  induction digits with
  | nil => rfl
  | cons digit digits induction =>
    have digit_small : digit < 10 := small digit (by simp)
    have tail_small : ∀ other ∈ digits, other < 10 := fun other member =>
      small other (.tail _ member)
    rw [Nat.ofDigits_cons] at bounded ⊢
    have tail_bounded : Nat.ofDigits 10 digits ≤ limit := by omega
    rw [List.reverse_cons, List.map_append, List.foldlM_append, induction tail_small tail_bounded]
    have product_bounded : Nat.ofDigits 10 digits * 10 ≤ limit := by omega
    have sum_bounded : Nat.ofDigits 10 digits * 10 + digit ≤ limit := by omega
    simp [appendDigit, digitByte_isDigit digit_small, digitValue_digitByte digit_small,
      product_bounded, sum_bounded]
    omega

theorem parseDecimal_decimal {limit value : Nat} (bounded : value ≤ limit) :
    parseDecimal limit (decimal value) = some value := by
  rw [parseDecimal, if_neg (decimal_ne_nil value)]
  by_cases zero : value = 0
  · subst zero
    have head : decimal 0 = [48] := by decide
    rw [head]
    simp [appendDigit, isDigit, digitValue, chr]
  · rw [decimal, if_neg zero]
    have small : ∀ digit ∈ Nat.digits 10 value, digit < 10 := fun digit member =>
      Nat.digits_lt_base (by norm_num) member
    have recomposed : Nat.ofDigits 10 (Nat.digits 10 value) = value := Nat.ofDigits_digits 10 value
    simpa [recomposed] using
      foldlM_appendDigit limit (Nat.digits 10 value) small (by rw [recomposed]; exact bounded)

theorem decimal_length_le {value digits : Nat} (bounded : value < 10 ^ digits) (pos : 0 < digits) :
    (decimal value).length ≤ digits := by
  unfold decimal
  split
  · exact pos
  · simpa using (Nat.digits_length_le_iff (by norm_num) value).mpr bounded

end R4OS.Text
