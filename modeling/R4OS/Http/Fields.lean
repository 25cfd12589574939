import R4OS.Update.Batch
import R4OS.Text.Lines

/-!
# Bytes of a message head

The limits on message heads and the tests on names and values that requests and responses share.
-/

namespace R4OS.Http

open Text
open Update.Batch (eqlIgnoreCase)

def max_header_bytes : Nat := 16 * 1024

/-- Fields of a message head. -/
def max_header_count : Nat := 64

/-- Cookies kept from a response. -/
def max_set_cookie_headers : Nat := 16

/-- The largest machine word. -/
def maxWord : Nat := 2 ^ 64 - 1

/-- The byte between the name and the value of a field. -/
def colonByte : UInt8 := chr ':'

/-- ASCII letters. -/
def isLetter (byte : UInt8) : Bool :=
  (chr 'a' ≤ byte && byte ≤ chr 'z') || (chr 'A' ≤ byte && byte ≤ chr 'Z')

/-- ASCII letters and digits. -/
def isAlphanumeric (byte : UInt8) : Bool := isLetter byte || isDigit byte

/-- The value of a hexadecimal digit. -/
def hexDigit (byte : UInt8) : Option Nat :=
  if isDigit byte then some (byte - chr '0').toNat
  else if chr 'a' ≤ byte ∧ byte ≤ chr 'f' then some ((byte - chr 'a').toNat + 10)
  else if chr 'A' ≤ byte ∧ byte ≤ chr 'F' then some ((byte - chr 'A').toNat + 10)
  else none

/-- Hexadecimal digits. -/
def isHex (byte : UInt8) : Bool := (hexDigit byte).isSome

/-- Bytes of a field name. -/
def isTokenByte (byte : UInt8) : Bool :=
  isLetter byte || isDigit byte || (ascii "!#$%&'*+-.^_`|~").contains byte

/-- Bytes of a host name. -/
def isHostByte (byte : UInt8) : Bool :=
  isLetter byte || isDigit byte || byte == chr '.' || byte == chr '-'

/-- Spaces and line breaks. -/
def isSpace (byte : UInt8) : Bool := (ascii " \t\r\n").contains byte

/-- Bytes that end a field value. -/
def isForbidden (byte : UInt8) : Bool := byte == 13 || byte == 10 || byte == 0

/-- Whether a field value would be ended early. -/
def hasForbiddenHeaderByte (value : Bytes) : Bool := value.any isForbidden

/-- Field names. -/
def isHeaderName (value : Bytes) : Bool := value.all isTokenByte && value ≠ []

/-- Compare two texts up to ASCII case. -/
def equalsIgnoreCase (a b : Bytes) : Bool := eqlIgnoreCase a b

/-- Drop spaces and line breaks at both ends. -/
def trimAscii (value : Bytes) : Bytes := (value.dropWhile isSpace).rdropWhile isSpace

/-- Read one more hexadecimal digit, refusing values past a machine word. -/
def appendHexDigit (result : Nat) (byte : UInt8) : Option Nat := do
  let digit ← hexDigit byte
  if result * 16 ≤ maxWord ∧ result * 16 + digit ≤ maxWord then some (result * 16 + digit) else none

/-- Read a hexadecimal numeral. -/
def parseHex (value : Bytes) : Option Nat :=
  if value = [] then none else value.foldlM appendHexDigit 0

theorem isTokenByte_ne {byte : UInt8} (token : isTokenByte byte = true) :
    byte ≠ 13 ∧ byte ≠ 10 ∧ byte ≠ colonByte := by
  refine ⟨?_, ?_, ?_⟩ <;> rintro rfl <;> revert token <;> decide

theorem isHostByte_ne {byte : UInt8} (host : isHostByte byte = true) : byte ≠ 13 ∧ byte ≠ 10 := by
  refine ⟨?_, ?_⟩ <;> rintro rfl <;> revert host <;> decide

theorem isForbidden_eq_false {byte : UInt8} :
    isForbidden byte = false ↔ byte ≠ 13 ∧ byte ≠ 10 ∧ byte ≠ 0 := by
  simp [isForbidden, and_assoc]

end R4OS.Http
