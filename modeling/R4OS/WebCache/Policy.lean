import R4OS.Update.Batch

/-!
# Caching rules of a response

Whether a response may be stored, how old it is when it is stored, how long it stays fresh and whether
it has to be validated, as its header lines say.
-/

namespace R4OS.WebCache

open Text
open Update.Batch (eqlIgnoreCase)

/-- The largest counter. -/
def maxCounter : Nat := 2 ^ 64 - 1

/-- Saturating addition. -/
def addSaturating (a b : Nat) : Nat := min (a + b) maxCounter

/-- Saturating multiplication. -/
def mulSaturating (a b : Nat) : Nat := min (a * b) maxCounter

/-- Digits that may be grouped by underscores. -/
def parseDigits (limit : Nat) (digits : Bytes) : Option Nat :=
  if digits = [] ∨ digits.head? = some (chr '_') ∨ digits.getLast? = some (chr '_') then none
  else (digits.filter (· ≠ chr '_')).foldlM (appendDigit limit) 0

/-- Read a decimal integer of a machine type as the standard library does: a sign may stand before
the digits, and a negative number fits only when it is zero. -/
def parseInt (limit : Nat) (value : Bytes) : Option Nat :=
  match value with
  | [] => none
  | first :: rest =>
    if first = chr '+' then parseDigits limit rest
    else if first = chr '-' then parseDigits 0 rest
    else parseDigits limit value

/-- Drop bytes of a set at both ends. -/
def trimBytes (set : Bytes) (value : Bytes) : Bytes :=
  (value.dropWhile (set.contains ·)).rdropWhile (set.contains ·)

/-- One header line. -/
structure Header where
  name : Bytes
  value : Bytes

/-- Spaces around names and values. -/
def lineSpace : Bytes := ascii " \t\r"

/-- Spaces around list items. -/
def itemSpace : Bytes := ascii " \t"

/-- The name and the value of a line with a colon. -/
def headerOf (line : Bytes) : Option Header :=
  match line.idxOf? (chr ':') with
  | none => none
  | some colon =>
    some ⟨trimBytes lineSpace (line.take colon), trimBytes lineSpace (line.drop (colon + 1))⟩

/-- The lines of a header block that have a colon. -/
def headerLines (headers : Bytes) : List Header := (headers.splitOn newline).filterMap headerOf

/-- The value of the first line of a name. -/
def header (headers : Bytes) (name : Bytes) : Option Bytes :=
  ((headerLines headers).find? fun item => eqlIgnoreCase item.name name).map Header.value

/-- What the cache control lines say. -/
structure Directives where
  no_store : Bool := false
  no_cache : Bool := false
  max_age : Option Nat := none
  invalid_age : Bool := false

/-- The name of a directive and, where there is an equals sign, its argument. -/
def splitDirective (raw : Bytes) : Bytes × Option Bytes :=
  let value := trimBytes itemSpace raw
  match value.idxOf? (chr '=') with
  | none => (value, none)
  | some equal => (trimBytes itemSpace (value.take equal), some (value.drop (equal + 1)))

/-- Take one directive into account. -/
def Directives.add (result : Directives) (raw : Bytes) : Directives :=
  let name := (splitDirective raw).1
  let result := if eqlIgnoreCase name (ascii "no-store") then { result with no_store := true } else result
  let result := if eqlIgnoreCase name (ascii "no-cache") then { result with no_cache := true } else result
  if eqlIgnoreCase name (ascii "max-age") then
    let number := (splitDirective raw).2.bind fun text => parseInt maxCounter (trimBytes (ascii " \t\"") text)
    { result with
      invalid_age := result.invalid_age || result.max_age.isSome || number.isNone
      max_age := number }
  else result

/-- All directives of a header block. -/
def directives (headers : Bytes) : Directives :=
  (headerLines headers).foldl (fun result item =>
    if eqlIgnoreCase item.name (ascii "Cache-Control") then
      (item.value.splitOn (chr ',')).foldl Directives.add result
    else result) {}

/-- The names of the months. -/
def months : List Bytes :=
  [ascii "Jan", ascii "Feb", ascii "Mar", ascii "Apr", ascii "May", ascii "Jun", ascii "Jul",
    ascii "Aug", ascii "Sep", ascii "Oct", ascii "Nov", ascii "Dec"]

def part (text : Bytes) (start stop : Nat) : Bytes := (text.take stop).drop start

def dateShaped (text : Bytes) : Bool :=
  text.length = 29 && text[3]? = some (chr ',') && text[4]? = some (chr ' ') &&
    text[7]? = some (chr ' ') && text[11]? = some (chr ' ') && text[16]? = some (chr ' ') &&
    text[19]? = some (chr ':') && text[22]? = some (chr ':') && text.drop 25 == ascii " GMT"

def daysInMonth (year : Nat) : List Nat :=
  let leap := year % 4 = 0 ∧ (year % 100 ≠ 0 ∨ year % 400 = 0)
  [31, if leap then 29 else 28, 31, 30, 31, 30, 31, 31, 30, 31, 30, 31]

/-- The seconds since 1970 of a date. -/
def parseDate (text : Bytes) : Option Nat := do
  guard (dateShaped text)
  let day ← parseInt 255 (part text 5 7)
  let year ← parseInt 65535 (part text 12 16)
  let hour ← parseInt 255 (part text 17 19)
  let minute ← parseInt 255 (part text 20 22)
  let second ← parseInt 255 (part text 23 25)
  let month ← months.idxOf? (part text 8 11)
  guard (1970 ≤ year ∧ year ≤ 9999 ∧ hour ≤ 23 ∧ minute ≤ 59 ∧ second ≤ 59)
  guard (day ≠ 0 ∧ day ≤ (daysInMonth year).getD month 0)
  let y := year - 1
  let years := (year - 1970) * 365 + (y / 4 - 1969 / 4) - (y / 100 - 1969 / 100) +
    (y / 400 - 1969 / 400)
  let days := years + ((daysInMonth year).take month).sum + (day - 1)
  return days * 86400 + hour * 3600 + minute * 60 + second

/-- The clocks at one moment. -/
structure Clock where
  monotonic_ms : Nat
  unix_seconds : Option Nat := none
  deriving DecidableEq

/-- How a response may be cached. -/
structure Policy where
  allowed : Bool := true
  age_ms : Nat := 0
  lifetime_ms : Nat := 0
  validate : Bool := false

/-- Take a line about variants or about age into account. -/
def Policy.addLine (policy : Policy) (item : Header) : Policy :=
  let policy :=
    if eqlIgnoreCase item.name (ascii "Vary") &&
        (item.value.splitOn (chr ',')).any fun name => trimBytes itemSpace name == ascii "*" then
      { policy with allowed := false }
    else policy
  if eqlIgnoreCase item.name (ascii "Age") then
    match parseInt maxCounter item.value with
    | none => { policy with validate := true }
    | some age => { policy with age_ms := max policy.age_ms (mulSaturating age 1000) }
  else policy

/-- Take the date of the response into account. -/
def Policy.addDate (policy : Policy) (date_header : Option Bytes) (date : Option Nat) (now : Clock) :
    Policy :=
  match date with
  | some date_seconds =>
    match now.unix_seconds with
    | some seconds =>
      { policy with age_ms := max policy.age_ms (mulSaturating (seconds - date_seconds) 1000) }
    | none => { policy with validate := true }
  | none => if date_header.isSome then { policy with validate := true } else policy

/-- How long a response stays fresh. -/
def lifetime (control : Directives) (expires : Option Bytes) (date : Option Nat) : Nat :=
  match control.max_age with
  | some seconds => mulSaturating seconds 1000
  | none =>
    match expires.bind parseDate, date with
    | some stop, some origin => mulSaturating (stop - origin) 1000
    | _, _ => 0

def responsePolicy (headers : Bytes) (now : Clock) (request_started_ms : Nat) : Policy :=
  let control := directives headers
  let start : Policy :=
    { allowed := !control.no_store, validate := control.no_cache || control.invalid_age }
  let lines := (headerLines headers).foldl Policy.addLine start
  let date_header := header headers (ascii "Date")
  let date := match date_header with
    | some text => parseDate text
    | none => now.unix_seconds
  let dated := lines.addDate date_header date now
  { dated with
    age_ms := addSaturating dated.age_ms (now.monotonic_ms - request_started_ms)
    lifetime_ms := lifetime control (header headers (ascii "Expires")) date }

example : parseDate (ascii "Tue, 08 Sep 2026 12:00:00 GMT") = some 1788868800 := by decide

end R4OS.WebCache
