import R4OS.Http.Request

/-!
# The head of a response

A response head is read once it is complete: the status line and the fields up to the first blank line.
What it says does not depend on the bytes behind that line.
-/

namespace R4OS.Http

open Text

/-- How a body is framed. -/
inductive Transfer
  | none
  | content_length
  | chunked
  | close_delimited
  deriving DecidableEq

/-- A part of a resource. -/
structure ContentRange where
  satisfied : Bool
  start : Nat
  stop : Nat
  total : Nat
  deriving DecidableEq

/-- Why a response is refused. -/
inductive ResponseError
  | malformed_status
  | unsupported_version
  | header_too_large
  | too_many_headers
  | malformed_header
  | invalid_content_length
  | conflicting_length
  | unsupported_transfer_encoding
  | malformed_chunk
  | body_too_large
  | redirect_without_location
  | redirect_loop
  | transport_closed_early
  | content_length_required
  | unexpected_body
  deriving DecidableEq

structure ParsedHead where
  status : Nat
  body_start : Nat
  transfer : Transfer
  content_length : Nat
  headers : Bytes
  location : Option Bytes
  content_type : Option Bytes
  content_security_policy : Option Bytes
  access_control_allow_origin : Option Bytes
  access_control_allow_credentials : Bool
  set_cookie : Option Bytes
  set_cookies : List Bytes
  content_range : Option ContentRange
  deriving DecidableEq

/-- What reading a head answers. -/
inductive HeadResult
  | value (head : ParsedHead)
  | need_more
  | failure (error : ResponseError)
  deriving DecidableEq

/-- Spaces inside a line. -/
def isBlank (byte : UInt8) : Bool := byte == chr ' ' || byte == chr '\t'

/-- Drop spaces at both ends. -/
def trimBlank (value : Bytes) : Bytes := (value.dropWhile isBlank).rdropWhile isBlank

def parseInterval (interval : Bytes) (total : Nat) : Option ContentRange := do
  if interval = [chr '*'] then return ⟨false, 0, 0, total⟩
  let dash ← interval.idxOf? (chr '-')
  if dash = 0 ∨ interval.length ≤ dash + 1 then none
  let start ← parseDecimal maxWord (interval.take dash)
  let stop ← parseDecimal maxWord (interval.drop (dash + 1))
  if stop < start ∨ total ≤ stop then none
  return ⟨true, start, stop, total⟩

def parseContentRange (value : Bytes) : Option ContentRange := do
  if value.length < 9 ∨ equalsIgnoreCase (value.take 5) (ascii "bytes") = false ∨
      value[5]? ≠ some (chr ' ') then none
  let range := value.drop 6
  let slash ← range.idxOf? (chr '/')
  if slash = 0 ∨ range.length ≤ slash + 1 then none
  let total ← parseDecimal maxWord (range.drop (slash + 1))
  if total = 0 then none
  parseInterval (range.take slash) total

/-- What the fields read so far say. -/
structure HeadFields where
  count : Nat := 0
  content_length : Option Nat := none
  chunked : Bool := false
  location : Option Bytes := none
  content_type : Option Bytes := none
  content_security_policy : Option Bytes := none
  access_control_allow_origin : Option Bytes := none
  access_control_allow_credentials : Bool := false
  set_cookie : Option Bytes := none
  set_cookies : List Bytes := []
  content_range : Option ContentRange := none

namespace HeadFields

/-- Take the length of the body. -/
def addLength (fields : HeadFields) (value : Bytes) : Except ResponseError HeadFields :=
  match parseDecimal maxWord value with
  | none => .error .invalid_content_length
  | some parsed =>
    if fields.content_length ≠ none ∧ fields.content_length ≠ some parsed then
      .error .conflicting_length
    else .ok { fields with content_length := some parsed }

/-- Take the encoding of the body. -/
def addEncoding (fields : HeadFields) (value : Bytes) : Except ResponseError HeadFields :=
  if fields.chunked || !equalsIgnoreCase value (ascii "chunked") then
    .error .unsupported_transfer_encoding
  else .ok { fields with chunked := true }

/-- Take a cookie. -/
def addCookie (fields : HeadFields) (value : Bytes) : HeadFields :=
  { fields with
    set_cookie := some (fields.set_cookie.getD value)
    set_cookies := if fields.set_cookies.length < max_set_cookie_headers then
      fields.set_cookies ++ [value] else fields.set_cookies }

/-- Take the range of the body. -/
def addRange (fields : HeadFields) (value : Bytes) : Except ResponseError HeadFields :=
  if fields.content_range ≠ none then .error .malformed_header
  else
    match parseContentRange value with
    | none => .error .malformed_header
    | some range => .ok { fields with content_range := some range }

/-- Take a field. -/
def addField (fields : HeadFields) (name value : Bytes) : Except ResponseError HeadFields :=
  if equalsIgnoreCase name (ascii "Content-Length") then fields.addLength value
  else if equalsIgnoreCase name (ascii "Transfer-Encoding") then fields.addEncoding value
  else if equalsIgnoreCase name (ascii "Location") then .ok { fields with location := some value }
  else if equalsIgnoreCase name (ascii "Content-Type") then
    .ok { fields with content_type := some value }
  else if equalsIgnoreCase name (ascii "Content-Security-Policy") then
    .ok { fields with content_security_policy := some value }
  else if equalsIgnoreCase name (ascii "Access-Control-Allow-Origin") then
    .ok { fields with access_control_allow_origin := some value }
  else if equalsIgnoreCase name (ascii "Access-Control-Allow-Credentials") then
    .ok { fields with access_control_allow_credentials := equalsIgnoreCase value (ascii "true") }
  else if equalsIgnoreCase name (ascii "Set-Cookie") then .ok (fields.addCookie value)
  else if equalsIgnoreCase name (ascii "Content-Range") then fields.addRange value
  else .ok fields

/-- Take a line. -/
def addLine (fields : HeadFields) (line : Bytes) : Except ResponseError HeadFields :=
  match line.idxOf? colonByte with
  | none => .error .malformed_header
  | some colon =>
    let name := line.take colon
    let value := trimBlank (line.drop (colon + 1))
    if name = [] ∨ isHeaderName name = false ∨ hasForbiddenHeaderByte value then
      .error .malformed_header
    else fields.addField name value

end HeadFields

/-- Read the fields of a head from a place on. -/
def parseFields (block : Bytes) (stop cursor : Nat) (fields : HeadFields) :
    Except ResponseError HeadFields :=
  if cursor < stop then
    let counted := { fields with count := fields.count + 1 }
    if max_header_count < counted.count then .error .too_many_headers
    else
      match indexOf (block.drop cursor) crlf with
      | none => .error .malformed_header
      | some relative_end =>
        match counted.addLine ((block.drop cursor).take relative_end) with
        | .error error => .error error
        | .ok added => parseFields block stop (cursor + relative_end + 2) added
  else .ok fields
termination_by stop - cursor

def parseStatus (status_line : Bytes) : Except ResponseError Nat :=
  if !startsWith status_line (ascii "HTTP/") then .error .malformed_status
  else if !startsWith status_line (ascii "HTTP/1.1 ") && !startsWith status_line (ascii "HTTP/1.0 ") then
    .error .unsupported_version
  else
    let digits := (status_line.drop 9).take 3
    if status_line.length < 13 ∨ digits.all isDigit = false ∨ status_line[12]? ≠ some (chr ' ') ∨
        hasForbiddenHeaderByte (status_line.drop 13) then .error .malformed_status
    else
      let status := digits.foldl (fun status digit => status * 10 + digitValue digit) 0
      if status < 100 ∨ 599 < status then .error .malformed_status else .ok status

/-- Read the part of a response up to its blank line. -/
def parseBlock (block : Bytes) (stop : Nat) : Except ResponseError ParsedHead :=
  match indexOf block crlf with
  | none => .error .malformed_status
  | some status_end => do
      let status ← parseStatus (block.take status_end)
      let fields ← parseFields block stop (status_end + 2) {}
      if fields.chunked ∧ fields.content_length ≠ none then .error .conflicting_length
      else .ok {
        status := status
        body_start := stop + 4
        transfer := if fields.chunked then .chunked
          else if fields.content_length ≠ none then .content_length else .close_delimited
        content_length := fields.content_length.getD 0
        headers := (block.take stop).drop (min (status_end + 2) stop)
        location := fields.location
        content_type := fields.content_type
        content_security_policy := fields.content_security_policy
        access_control_allow_origin := fields.access_control_allow_origin
        access_control_allow_credentials := fields.access_control_allow_credentials
        set_cookie := fields.set_cookie
        set_cookies := fields.set_cookies
        content_range := fields.content_range }

/-- Read the head of a response. -/
def parseHead (input : Bytes) : HeadResult :=
  match indexOf input blankLine with
  | none => .need_more
  | some stop =>
    if max_header_bytes < stop + 4 then .failure .header_too_large
    else
      match parseBlock (input.take (stop + 4)) stop with
      | .error error => .failure error
      | .ok head => .value head

section Growth

variable {input longer : Bytes} {stop : Nat} {head : ParsedHead}

theorem blankLine_fits (found : indexOf input blankLine = some stop) : stop + 4 ≤ input.length :=
  (indexOf_occurs found).length (by decide)

/-- A complete head is read the same way when more bytes are behind it. -/
theorem parseHead_grown (found : indexOf input blankLine = some stop) (grown : input <+: longer) :
    parseHead longer = parseHead input := by
  have fits := blankLine_fits found
  obtain ⟨rest, rfl⟩ := grown
  rw [parseHead, parseHead, indexOf_append found (by decide), found]
  dsimp only
  rw [List.take_append_of_le_length fits]

theorem parseBlock_start {block : Bytes} (parsed : parseBlock block stop = .ok head) :
    head.body_start = stop + 4 ∧ head.transfer ≠ .none := by
  unfold parseBlock at parsed
  split at parsed
  · cases parsed
  next status_end status_found =>
  cases status : parseStatus (block.take status_end) with
  | error error =>
    rw [status] at parsed
    cases parsed
  | ok status_value =>
    cases read : parseFields block stop (status_end + 2) {} with
    | error error =>
      rw [status, read] at parsed
      cases parsed
    | ok fields =>
      rw [status, read] at parsed
      simp only [bind, Except.bind] at parsed
      split at parsed
      · cases parsed
      · cases parsed
        refine ⟨rfl, ?_⟩
        dsimp only
        split
        · decide
        · split <;> decide

theorem parseHead_value (parsed : parseHead input = .value head) :
    ∃ stop, indexOf input blankLine = some stop ∧ head.body_start = stop + 4 ∧
      head.body_start ≤ max_header_bytes ∧ head.body_start ≤ input.length ∧ head.transfer ≠ .none := by
  unfold parseHead at parsed
  split at parsed
  · cases parsed
  next stop found =>
  split at parsed
  · cases parsed
  next small =>
  split at parsed
  · cases parsed
  next read =>
  cases parsed
  obtain ⟨start, framed⟩ := parseBlock_start read
  have fits := blankLine_fits found
  exact ⟨stop, found, start, by omega, by omega, framed⟩

theorem parseHead_need_more : parseHead input = .need_more ↔ indexOf input blankLine = none := by
  unfold parseHead
  split
  · next missing => simp [missing]
  · next stop found =>
      rw [found]
      split
      · simp
      · split <;> simp

end Growth

end R4OS.Http
