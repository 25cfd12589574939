import R4OS.Http.Head
import R4OS.Incremental.Machine

/-!
# Buffered responses

The decoder reads a response from an input that grows from the same base and copies its body into a
buffer of the caller.  It remembers how far it has searched, so that no byte is searched twice.
-/

namespace R4OS.Http

open Text
open Incremental (Machine Turn)

/-- A decoded response. -/
structure Response where
  status : Nat
  transfer : Transfer
  body : Bytes
  headers : Bytes
  location : Option Bytes
  content_type : Option Bytes
  content_security_policy : Option Bytes
  access_control_allow_origin : Option Bytes
  access_control_allow_credentials : Bool
  set_cookie : Option Bytes
  set_cookies : List Bytes
  content_range : Option ContentRange
  consumed : Nat

/-- What one call of a decoder answers. -/
inductive DecodeResult
  | complete (response : Response)
  | need_more
  | aborted
  | failure (error : ResponseError)

/-- Where a decoder stands inside a chunked body. -/
inductive ChunkPhase
  | size
  | data
  | data_crlf
  | trailers
  deriving DecidableEq

structure ResponseDecoder where
  method : Method := .get
  head : Option ParsedHead := none
  cursor : Nat := 0
  written : Nat := 0
  copied_bytes : Nat := 0
  seen_input : Nat := 0
  header_scan : Nat := 0
  line_scan : Nat := 0
  remaining : Nat := 0
  trailer_start : Nat := 0
  trailer_count : Nat := 0
  phase : ChunkPhase := .size
  done : Bool := false
  cancelled : Bool := false
  failure : Option ResponseError := none

/-- A decoder and the buffer of its caller. -/
structure Decoding extends ResponseDecoder where
  out : Bytes

/-- Whether a response to a method has no body, whatever its head announces. -/
def noBody (method : Method) (head : ParsedHead) : Bool :=
  method == .head || head.status == 204 || head.status == 304 ||
    (100 ≤ head.status && head.status < 200)

namespace Decoding

/-- A fresh decoder with a buffer. -/
def init (method : Method) (out : Bytes) : Decoding := { method, out }

/-- The response of a decoder that is done. -/
def result (state : Decoding) (head : ParsedHead) : DecodeResult :=
  .complete {
    status := head.status
    transfer := if noBody state.method head then .none else head.transfer
    body := state.out.take state.written
    headers := head.headers
    location := head.location
    content_type := head.content_type
    content_security_policy := head.content_security_policy
    access_control_allow_origin := head.access_control_allow_origin
    access_control_allow_credentials := head.access_control_allow_credentials
    set_cookie := head.set_cookie
    set_cookies := head.set_cookies
    content_range := head.content_range
    consumed := state.cursor }

/-- Fail for good. -/
def fail (state : Decoding) (error : ResponseError) : Turn Decoding DecodeResult :=
  .stop { state with failure := some error } (.failure error)

/-- Complete the response. -/
def finish (state : Decoding) (head : ParsedHead) : Turn Decoding DecodeResult :=
  .stop { state with done := true } (state.result head)

def copy (state : Decoding) (input : Bytes) (take : Nat) : Decoding :=
  { state with
    out := state.out.take state.written ++ (input.drop state.cursor).take take ++
      state.out.drop (state.written + take)
    cursor := state.cursor + take
    written := state.written + take
    copied_bytes := min (state.copied_bytes + take) maxWord }

/-- Search the end of a line from where the last search stopped. -/
def lineEnd (state : Decoding) (input : Bytes) : Option Nat × Decoding :=
  let start := max state.cursor state.line_scan
  let limit := min input.length (state.cursor + max_header_bytes)
  match indexWithin input crlf start limit with
  | some stop => (some stop, state)
  | none => (none, { state with line_scan := max state.cursor (limit - 1) })

/-- Read the line with the size of a chunk. -/
def readSize (state : Decoding) (input : Bytes) : Turn Decoding DecodeResult :=
  match state.lineEnd input with
  | (none, state) =>
    if max_header_bytes ≤ input.length - state.cursor then state.fail .malformed_chunk
    else .wait state
  | (some stop, state) =>
    if max_header_bytes < stop - state.cursor then state.fail .malformed_chunk
    else
      let line := (input.take stop).drop state.cursor
      let size_text := match line.idxOf? semicolon with
        | some semi => line.take semi
        | none => line
      match parseHex (trimAscii size_text) with
      | none => state.fail .malformed_chunk
      | some remaining =>
        let state := { state with remaining }
        if state.out.length - state.written < remaining then state.fail .body_too_large
        else .next { state with
          cursor := stop + 2
          line_scan := 0
          phase := if remaining = 0 then .trailers else .data
          trailer_start := if remaining = 0 then stop + 2 else state.trailer_start }

def copyData (state : Decoding) (input : Bytes) (take : Nat) : Decoding :=
  { state.copy input take with remaining := state.remaining - take }

/-- Copy what has arrived of a chunk. -/
def readData (state : Decoding) (input : Bytes) : Turn Decoding DecodeResult :=
  let state := state.copyData input (min (input.length - state.cursor) state.remaining)
  if state.remaining ≠ 0 then .wait state else .next { state with phase := .data_crlf }

/-- Read the line end behind a chunk. -/
def readDataEnd (state : Decoding) (input : Bytes) : Turn Decoding DecodeResult :=
  if input.length - state.cursor < 2 then .wait state
  else if (input.drop state.cursor).take 2 ≠ crlf then state.fail .malformed_chunk
  else .next { state with cursor := state.cursor + 2, phase := .size }

def readTrailerField (state : Decoding) (line : Bytes) : Turn Decoding DecodeResult :=
  let state := { state with trailer_count := state.trailer_count + 1 }
  if max_header_count < state.trailer_count then state.fail .too_many_headers
  else
    match line.idxOf? colonByte with
    | none => state.fail .malformed_header
    | some colon =>
      if isHeaderName (line.take colon) = false ∨ hasForbiddenHeaderByte (line.drop (colon + 1)) then
        state.fail .malformed_header
      else .next state

/-- Read one line behind the last chunk. -/
def readTrailer (state : Decoding) (head : ParsedHead) (input : Bytes) : Turn Decoding DecodeResult :=
  match state.lineEnd input with
  | (none, state) =>
    if max_header_bytes ≤ input.length - state.trailer_start then state.fail .header_too_large
    else .wait state
  | (some stop, state) =>
    if max_header_bytes < stop + 2 - state.trailer_start then state.fail .header_too_large
    else
      let line := (input.take stop).drop state.cursor
      let state := { state with cursor := stop + 2, line_scan := 0 }
      if line = [] then state.finish head else state.readTrailerField line

/-- Take one turn inside a chunked body. -/
def readChunked (state : Decoding) (head : ParsedHead) (input : Bytes) : Turn Decoding DecodeResult :=
  match state.phase with
  | .size => state.readSize input
  | .data => state.readData input
  | .data_crlf => state.readDataEnd input
  | .trailers => state.readTrailer head input

/-- Copy what has arrived of a body of known length. -/
def readLength (state : Decoding) (head : ParsedHead) (input : Bytes) : Turn Decoding DecodeResult :=
  if state.out.length < head.content_length then state.fail .body_too_large
  else
    let state := state.copy input
      (min (input.length - state.cursor) (head.content_length - state.written))
    if state.written ≠ head.content_length then .wait state else state.finish head

/-- Copy what has arrived of a body that ends with its connection. -/
def readToClose (state : Decoding) (input : Bytes) : Turn Decoding DecodeResult :=
  let take := input.length - state.cursor
  if state.out.length - state.written < take then state.fail .body_too_large
  else .wait (state.copy input take)

/-- Take one turn inside the body. -/
def readBody (state : Decoding) (head : ParsedHead) (input : Bytes) : Turn Decoding DecodeResult :=
  if noBody state.method head then state.finish head
  else
    match head.transfer with
    | .none => state.finish head
    | .content_length => state.readLength head input
    | .close_delimited => state.readToClose input
    | .chunked => state.readChunked head input

/-- Read the head, or remember how far it was searched. -/
def readHead (state : Decoding) (input : Bytes) : Turn Decoding DecodeResult :=
  let limit := min input.length max_header_bytes
  if limit < state.header_scan then state.fail .malformed_header
  else
    match indexWithin input blankLine state.header_scan limit with
    | none =>
      let state := { state with header_scan := limit - 3 }
      if max_header_bytes ≤ input.length then state.fail .header_too_large else .wait state
    | some _ =>
      match parseHead input with
      | .need_more => .wait state
      | .failure error => state.fail error
      | .value head => .next { state with head := some head, cursor := head.body_start }

/-- Take one turn. -/
def turn (input : Bytes) (state : Decoding) : Turn Decoding DecodeResult :=
  match state.head with
  | none => state.readHead input
  | some head => state.readBody head input

/-- What is left to do over an input. -/
def work (input : Bytes) (state : Decoding) : Nat :=
  match state.head with
  | none => 2 * input.length + 2
  | some _ => 2 * (input.length - state.cursor) + if state.phase = .data then 1 else 0

section Progress

variable {input line : Bytes} {state after : Decoding} {head : ParsedHead} {stop : Nat}

theorem lineEnd_some (found : state.lineEnd input = (some stop, after)) :
    after = state ∧ state.cursor ≤ stop ∧ stop + 2 ≤ input.length := by
  unfold lineEnd at found
  dsimp only at found
  split at found
  · next place place_found =>
      cases found
      obtain ⟨low, -, fits, -⟩ := (indexWithin_eq_some (by decide)).mp place_found
      have two : crlf.length = 2 := rfl
      exact ⟨rfl, by omega, by omega⟩
  · cases found

theorem lineEnd_none (missing : state.lineEnd input = (none, after)) :
    after = { state with
      line_scan := max state.cursor (min input.length (state.cursor + max_header_bytes) - 1) } := by
  unfold lineEnd at missing
  dsimp only at missing
  split at missing
  · cases missing
  · cases missing
    rfl

theorem readSize_next (taken : state.readSize input = .next after) :
    after.head = state.head ∧ after.failure = state.failure ∧ ∃ stop, state.cursor ≤ stop ∧ stop + 2 ≤ input.length ∧
      after.cursor = stop + 2 := by
  unfold readSize at taken
  split at taken
  · split at taken <;> cases taken
  next stop found line_found =>
  obtain ⟨rfl, low, high⟩ := lineEnd_some line_found
  split at taken
  · cases taken
  dsimp only at taken
  split at taken
  · cases taken
  split at taken
  · cases taken
  · cases taken
    exact ⟨rfl, rfl, stop, low, high, rfl⟩

theorem readData_next (taken : state.readData input = .next after) :
    after.head = state.head ∧ after.failure = state.failure ∧ state.cursor ≤ after.cursor ∧ after.phase = .data_crlf := by
  unfold readData at taken
  dsimp only at taken
  split at taken
  · cases taken
  · cases taken
    exact ⟨rfl, rfl, Nat.le_add_right _ _, rfl⟩

theorem readDataEnd_next (taken : state.readDataEnd input = .next after) :
    after.head = state.head ∧ after.failure = state.failure ∧ after.cursor = state.cursor + 2 ∧ 2 ≤ input.length - state.cursor ∧
      after.phase = .size := by
  unfold readDataEnd at taken
  split at taken
  · cases taken
  next enough =>
  split at taken
  · cases taken
  · cases taken
    exact ⟨rfl, rfl, rfl, by omega, rfl⟩

theorem readTrailerField_next (taken : state.readTrailerField line = .next after) :
    after = { state with trailer_count := state.trailer_count + 1 } := by
  unfold readTrailerField at taken
  dsimp only at taken
  split at taken
  · cases taken
  split at taken
  · cases taken
  split at taken
  · cases taken
  · cases taken
    rfl

theorem readTrailer_next (taken : state.readTrailer head input = .next after) :
    after.head = state.head ∧ after.failure = state.failure ∧ after.phase = state.phase ∧ ∃ stop, state.cursor ≤ stop ∧
      stop + 2 ≤ input.length ∧ after.cursor = stop + 2 := by
  unfold readTrailer at taken
  split at taken
  · split at taken <;> cases taken
  next stop found line_found =>
  obtain ⟨rfl, low, high⟩ := lineEnd_some line_found
  split at taken
  · cases taken
  dsimp only at taken
  split at taken
  · cases taken
  · rw [readTrailerField_next taken]
    exact ⟨rfl, rfl, rfl, stop, low, high, rfl⟩

theorem readLength_ne_next : state.readLength head input ≠ .next after := by
  unfold readLength
  split
  · nofun
  · dsimp only
    split <;> nofun

theorem readToClose_ne_next : state.readToClose input ≠ .next after := by
  unfold readToClose
  dsimp only
  split <;> nofun

/-- A turn that goes on inside the body is a turn of a chunked body. -/
theorem readBody_next (taken : state.readBody head input = .next after) :
    state.readChunked head input = .next after := by
  unfold readBody at taken
  split at taken
  · cases taken
  split at taken
  · cases taken
  · exact absurd taken readLength_ne_next
  · exact absurd taken readToClose_ne_next
  · exact taken

theorem readHead_next (taken : state.readHead input = .next after) :
    ∃ head, parseHead input = .value head ∧
      after = { state with head := some head, cursor := head.body_start } := by
  unfold readHead at taken
  dsimp only at taken
  split at taken
  · cases taken
  split at taken
  · split at taken <;> cases taken
  split at taken
  · cases taken
  · cases taken
  · next head parsed =>
      cases taken
      exact ⟨head, parsed, rfl⟩

/-- Every turn that goes on leaves less to do. -/
theorem turn_advances (taken : turn input state = .next after) : work input after < work input state := by
  unfold turn at taken
  unfold work
  split at taken
  · next unread =>
      obtain ⟨head, -, rfl⟩ := readHead_next taken
      dsimp only
      split <;> omega
  · next head read =>
      have chunked := readBody_next taken
      unfold readChunked at chunked
      split at chunked
      · next phase =>
          obtain ⟨same, -, stop, low, high, cursor⟩ := readSize_next chunked
          rw [same, read, phase, cursor]
          dsimp only
          split <;> omega
      · next phase =>
          obtain ⟨same, -, low, crlf_phase⟩ := readData_next chunked
          rw [same, read, phase, crlf_phase]
          dsimp only
          rw [if_neg (by decide), if_pos rfl]
          omega
      · next phase =>
          obtain ⟨same, -, cursor, enough, size_phase⟩ := readDataEnd_next chunked
          rw [same, read, phase, cursor, size_phase]
          dsimp only
          rw [if_neg (by decide)]
          omega
      · next phase =>
          obtain ⟨same, -, same_phase, stop, low, high, cursor⟩ := readTrailer_next chunked
          rw [same, read, same_phase, phase, cursor]
          dsimp only
          rw [if_neg (by decide)]
          omega

theorem turn_next_failure (taken : turn input state = .next after) : after.failure = state.failure := by
  unfold turn at taken
  split at taken
  · obtain ⟨head, -, rfl⟩ := readHead_next taken
    rfl
  · have chunked := readBody_next taken
    unfold readChunked at chunked
    split at chunked
    · exact (readSize_next chunked).2.1
    · exact (readData_next chunked).2.1
    · exact (readDataEnd_next chunked).2.1
    · exact (readTrailer_next chunked).2.1

end Progress

/-- The turns of the decoder. -/
def machine : Machine Bytes Decoding DecodeResult := ⟨turn, work, turn_advances⟩

/-- Answer a call whose input is used up. -/
def settle (state : Decoding) (eof : Bool) : DecodeResult × Decoding :=
  if !eof then (.need_more, state)
  else
    match state.head with
    | some head =>
      if head.transfer = .close_delimited then (state.result head, { state with done := true })
      else (.failure .transport_closed_early, { state with failure := some .transport_closed_early })
    | none =>
      (.failure .transport_closed_early, { state with failure := some .transport_closed_early })

/-- Decode a decoder that neither failed nor was cancelled. -/
def advance (state : Decoding) (input : Bytes) (eof : Bool) : DecodeResult × Decoding :=
  match state.head, state.done with
  | some head, true => (state.result head, state)
  | _, _ =>
    match machine.run input state with
    | (some answer, state) => (answer, state)
    | (none, state) => state.settle eof

/-- One call of the decoder. -/
def decode (state : Decoding) (input : Bytes) (eof stop_requested : Bool) : DecodeResult × Decoding :=
  let state := { state with cancelled := state.cancelled || stop_requested }
  if state.cancelled then (.aborted, state)
  else
    match state.failure with
    | some error => (.failure error, state)
    | none =>
      if input.length < state.seen_input ∨ input.length < state.cursor ∨
          state.out.length < state.written then
        (.failure .unexpected_body, { state with failure := some .unexpected_body })
      else advance { state with seen_input := input.length } input eof

end Decoding

/-- Decode a whole response in one call. -/
def decodeResponse (input body_out : Bytes) (eof stop_requested : Bool) : DecodeResult :=
  ((Decoding.init .get body_out).decode input eof stop_requested).1

end R4OS.Http
