import R4OS.Http.Response

/-!
# Streamed payloads

The decoder of streamed payloads hands out a body of any framing as it arrives.  It takes the head, the
lines of chunk sizes and the trailers byte by byte, and borrows the bytes of the body from its input.
-/

namespace R4OS.Http

open Text

structure PayloadStreamLimits where
  body_bytes : Nat := 64 * 1024 * 1024
  header_bytes : Nat := max_header_bytes
  line_bytes : Nat := 1024
  trailer_bytes : Nat := max_header_bytes
  trailer_count : Nat := max_header_count
  informational_count : Nat := 8
  allow_close_delimited : Bool := false

/-- What a push ends with. -/
inductive PayloadStreamState
  | need_more
  | head
  | chunk
  | complete
  | aborted
  | failure

/-- What one push answers. -/
structure PayloadStreamStep where
  state : PayloadStreamState
  consumed : Nat := 0
  bytes : Bytes := []
  failure : Option ResponseError := none

/-- Where a payload stream stands. -/
inductive PayloadPhase
  | header
  | length
  | size
  | data
  | data_crlf
  | trailers
  | close_body
  | done
  | aborted
  | failed
  deriving DecidableEq

/-- A decoder of payload streams, with what its buffers hold of the head and of a line. -/
structure PayloadStreamDecoder where
  header_capacity : Nat
  method : Method
  limits : PayloadStreamLimits
  head : Option ParsedHead := none
  header : Bytes := []
  received : Nat := 0
  remaining : Nat := 0
  line : Bytes := []
  trailer_bytes : Nat := 0
  trailer_count : Nat := 0
  informational_count : Nat := 0
  crlf : Nat := 0
  phase : PayloadPhase := .header
  failure : ResponseError := .malformed_chunk

/-- Bytes of the buffer for one line. -/
def line_capacity : Nat := 1024

/-- Skip the text of a quoted string up to its closing quote. -/
def quotedEnd : Bytes → Option Bytes
  | [] => none
  | byte :: rest =>
    if byte = chr '"' then some rest
    else if byte = chr '\\' then
      match rest with
      | [] => none
      | escaped :: rest =>
        if (escaped < 0x20 ∧ escaped ≠ chr '\t') ∨ escaped = 0x7f then none else quotedEnd rest
    else if (byte < 0x20 ∧ byte ≠ chr '\t') ∨ byte = 0x7f then none
    else quotedEnd rest

def extensionValue (input : Bytes) : Option Bytes :=
  match input.dropWhile isBlank with
  | [] => none
  | byte :: rest =>
    if byte = chr '"' then quotedEnd rest
    else if isTokenByte byte then some (rest.dropWhile isTokenByte)
    else none

/-- Skip one extension with the semicolon before it. -/
def chunkExtension (input : Bytes) : Option Bytes :=
  match input.dropWhile isBlank with
  | [] => none
  | byte :: rest =>
    if byte ≠ semicolon then none
    else
      match rest.dropWhile isBlank with
      | [] => none
      | byte :: rest =>
        if isTokenByte byte = false then none
        else
          match (rest.dropWhile isTokenByte).dropWhile isBlank with
          | [] => some []
          | byte :: rest =>
            if byte = semicolon then some (byte :: rest)
            else if byte ≠ chr '=' then none
            else extensionValue rest

/-- Skip extensions, at most as many as there is fuel for. -/
def chunkExtensions : Nat → Bytes → Bool
  | _, [] => true
  | 0, _ :: _ => false
  | fuel + 1, byte :: rest =>
    match chunkExtension (byte :: rest) with
    | none => false
    | some rest => chunkExtensions fuel rest

/-- Whether a text is a list of chunk extensions; each one takes at least its semicolon. -/
def validChunkExtensions (input : Bytes) : Bool := chunkExtensions input.length input

/-- What taking a byte does. -/
inductive ByteTurn
  | next (state : PayloadStreamDecoder)
  | head (state : PayloadStreamDecoder)
  | refuse (state : PayloadStreamDecoder) (consumed : Nat) (error : ResponseError)

namespace PayloadStreamDecoder

/-- A fresh decoder over a buffer. -/
def init (header_capacity : Nat) (method : Method) (limits : PayloadStreamLimits) :
    PayloadStreamDecoder :=
  { header_capacity, method, limits }

def takeHead (state : PayloadStreamDecoder) (head : ParsedHead) : ByteTurn :=
  if head.status = 101 then .refuse state 1 .unsupported_version
  else if head.status < 200 then
    if head.transfer ≠ .close_delimited then .refuse state 1 .malformed_header
    else if state.limits.informational_count ≤ state.informational_count then
      .refuse state 1 .too_many_headers
    else .next { state with informational_count := state.informational_count + 1, header := [] }
  else if head.status = 204 ∧ head.transfer ≠ .close_delimited then
    .refuse state 1 .malformed_header
  else
    let bodiless := state.method = .head ∨ head.status = 204 ∨ head.status = 304
    let head := if bodiless then { head with transfer := .none } else head
    let state := { state with head := some head, remaining := head.content_length }
    match head.transfer with
    | .none => .head { state with phase := .done }
    | .content_length =>
      let state := { state with phase := if state.remaining = 0 then .done else .length }
      if state.limits.body_bytes < state.remaining then .refuse state 1 .body_too_large
      else .head state
    | .chunked => .head { state with phase := .size }
    | .close_delimited =>
      if state.limits.allow_close_delimited then .head { state with phase := .close_body }
      else .refuse state 1 .content_length_required

def takeHeaderByte (state : PayloadStreamDecoder) (byte : UInt8) : ByteTurn :=
  if min state.header_capacity (min max_header_bytes state.limits.header_bytes) ≤
      state.header.length then .refuse state 0 .header_too_large
  else
    let state := { state with header := state.header ++ [byte] }
    if blankLine <:+ state.header then
      match parseHead state.header with
      | .value head => state.takeHead head
      | .failure error => .refuse state 1 error
      -- Not reached: the head ends with its blank line.
      | .need_more => .refuse state 1 .malformed_header
    else .next state

def takeLineEndByte (state : PayloadStreamDecoder) (byte : UInt8) : ByteTurn :=
  if Text.crlf[state.crlf]? ≠ some byte then .refuse state 0 .malformed_chunk
  else if state.crlf + 1 = 2 then .next { state with crlf := 0, phase := .size }
  else .next { state with crlf := state.crlf + 1 }

def takeSize (state : PayloadStreamDecoder) (line : Bytes) : ByteTurn :=
  let digits := line.takeWhile isHex
  let extensions := line.dropWhile isHex
  if digits = [] ∨ (extensions ≠ [] ∧ validChunkExtensions extensions = false) then
    .refuse state 1 .malformed_chunk
  else
    match parseHex digits with
    | none => .refuse state 1 .malformed_chunk
    | some remaining =>
      let state := { state with remaining }
      if state.limits.body_bytes - state.received < remaining then .refuse state 1 .body_too_large
      else .next { state with phase := if remaining = 0 then .trailers else .data, line := [] }

/-- Field names that a trailer may not have. -/
def isFramingName (name : Bytes) : Bool :=
  equalsIgnoreCase name (ascii "content-length") ||
    equalsIgnoreCase name (ascii "transfer-encoding") || equalsIgnoreCase name (ascii "host") ||
    equalsIgnoreCase name (ascii "connection") || equalsIgnoreCase name (ascii "trailer")

/-- Take a line behind the last chunk. -/
def takeTrailer (state : PayloadStreamDecoder) (line : Bytes) : ByteTurn :=
  if line = [] then .next { state with phase := .done, line := [] }
  else if state.limits.trailer_count ≤ state.trailer_count then .refuse state 1 .too_many_headers
  else
    let state := { state with trailer_count := state.trailer_count + 1 }
    match line.idxOf? colonByte with
    | none => .refuse state 1 .malformed_header
    | some colon =>
      let name := line.take colon
      if isHeaderName name = false ∨ hasForbiddenHeaderByte (line.drop (colon + 1)) ∨
          isFramingName name then .refuse state 1 .malformed_header
      else .next { state with line := [] }

def takeLineByte (state : PayloadStreamDecoder) (byte : UInt8) : ByteTurn :=
  if state.limits.line_bytes ≤ state.line.length then .refuse state 0 .malformed_chunk
  else if state.phase = .trailers ∧ state.limits.trailer_bytes ≤ state.trailer_bytes then
    .refuse state 0 .header_too_large
  else
    let state := { state with
      trailer_bytes := if state.phase = .trailers then state.trailer_bytes + 1 else state.trailer_bytes
      line := state.line ++ [byte] }
    if Text.crlf <:+ state.line then
      let line := state.line.take (state.line.length - 2)
      if state.phase = .size then state.takeSize line else state.takeTrailer line
    else .next state

def takeByte (state : PayloadStreamDecoder) (byte : UInt8) : ByteTurn :=
  match state.phase with
  | .header => state.takeHeaderByte byte
  | .data_crlf => state.takeLineEndByte byte
  | .size | .trailers => state.takeLineByte byte
  | .done => .refuse state 0 .unexpected_body
  | .length | .data | .close_body | .aborted | .failed => .refuse state 0 state.failure

/-- Fail for good. -/
def failed (state : PayloadStreamDecoder) (consumed : Nat) (error : ResponseError) :
    PayloadStreamStep × PayloadStreamDecoder :=
  ({ state := .failure, consumed, failure := some error },
    { state with phase := .failed, failure := error })

/-- Answer a push whose input is used up. -/
def exhausted (state : PayloadStreamDecoder) (eof : Bool) (pos : Nat) :
    PayloadStreamStep × PayloadStreamDecoder :=
  if state.phase = .done then ({ state := .complete, consumed := pos }, state)
  else if eof then
    if state.phase = .close_body then
      ({ state := .complete, consumed := pos }, { state with phase := .done })
    else state.failed pos .transport_closed_early
  else ({ state := .need_more, consumed := pos }, state)

/-- Where a stream stands once a part of its body has arrived. -/
def afterBody (state : PayloadStreamDecoder) (count : Nat) : PayloadStreamDecoder :=
  if state.phase = .close_body then { state with received := state.received + count }
  else
    { state with
      received := state.received + count
      remaining := state.remaining - count
      phase :=
        if state.remaining - count = 0 then if state.phase = .length then .done else .data_crlf
        else state.phase }

/-- Hand out what has arrived of the body. -/
def takeBody (state : PayloadStreamDecoder) (eof : Bool) (pos : Nat) (input : Bytes) :
    PayloadStreamStep × PayloadStreamDecoder :=
  if state.phase = .length ∧ state.remaining < input.length then
    state.failed pos .conflicting_length
  else
    let count := if state.phase = .close_body then input.length else min input.length state.remaining
    if count = 0 then state.exhausted eof pos
    else if state.limits.body_bytes - state.received < count then state.failed pos .body_too_large
    else
      ({ state := .chunk, consumed := pos + count, bytes := input.take count }, state.afterBody count)

/-- Whether a stream stands inside its body. -/
def inBody (state : PayloadStreamDecoder) : Bool :=
  state.phase = .length || state.phase = .data || state.phase = .close_body

/-- Take the input from a position on. -/
def loop (eof : Bool) (state : PayloadStreamDecoder) (pos : Nat) :
    Bytes → PayloadStreamStep × PayloadStreamDecoder
  | [] => state.exhausted eof pos
  | byte :: rest =>
    if state.inBody then state.takeBody eof pos (byte :: rest)
    else
      match state.takeByte byte with
      | .next state => loop eof state (pos + 1) rest
      | .head state => ({ state := .head, consumed := pos + 1 }, state)
      | .refuse state consumed error => state.failed (pos + consumed) error

def push (state : PayloadStreamDecoder) (input : Bytes) (eof stop_requested : Bool) :
    PayloadStreamStep × PayloadStreamDecoder :=
  if state.phase = .failed then state.failed 0 state.failure
  else if state.phase = .done then
    if input = [] then ({ state := .complete }, state) else state.failed 0 .unexpected_body
  else if stop_requested ∨ state.phase = .aborted then
    ({ state := .aborted }, { state with phase := .aborted })
  else if state.limits.line_bytes = 0 ∨ line_capacity < state.limits.line_bytes then
    state.failed 0 .malformed_chunk
  else state.loop eof 0 input

end PayloadStreamDecoder

end R4OS.Http
