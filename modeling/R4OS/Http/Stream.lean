import R4OS.Http.Response

/-!
# Streamed bodies of known length

The decoder of downloads keeps the head in a buffer of its caller and hands the body out as it arrives.
-/

namespace R4OS.Http

open Text

/-- What one push of a stream decoder answers. -/
inductive StreamDecodeResult
  | chunk (bytes : Bytes) (complete : Bool)
  | complete
  | need_more
  | aborted
  | failure (error : ResponseError)
  deriving DecidableEq

/-- A decoder of bodies of known length; the buffer of its caller holds what has arrived of the head. -/
structure StreamDecoder where
  header_capacity : Nat
  method : Method
  header : Bytes := []
  head : Option ParsedHead := none
  received : Nat := 0
  done : Bool := false
  failure : Option ResponseError := none

/-- What is left of a push once the head was read from it. -/
inductive HeadScan
  | answered (answer : StreamDecodeResult) (state : StreamDecoder)
  | read (head : ParsedHead) (state : StreamDecoder) (body : Bytes)

namespace StreamDecoder

/-- A fresh decoder over a buffer. -/
def init (header_capacity : Nat) (method : Method) : StreamDecoder := { header_capacity, method }

/-- Read the head byte by byte. -/
def scanHead (state : StreamDecoder) (eof : Bool) : Bytes → HeadScan
  | [] => .answered (if eof then .failure .transport_closed_early else .need_more) state
  | byte :: rest =>
    if state.header_capacity ≤ state.header.length ∨ max_header_bytes ≤ state.header.length then
      .answered (.failure .header_too_large) state
    else
      let state := { state with header := state.header ++ [byte] }
      if blankLine <:+ state.header then
        match parseHead state.header with
        | .value head => .read head { state with head := some head } rest
        | .need_more =>
          .answered (if eof then .failure .transport_closed_early else .need_more) state
        | .failure error => .answered (.failure error) { state with failure := some error }
      else scanHead state eof rest

/-- Hand out what has arrived of the body. -/
def pushBody (state : StreamDecoder) (head : ParsedHead) (body : Bytes) (eof : Bool) :
    StreamDecodeResult × StreamDecoder :=
  if noBody state.method head then
    if body ≠ [] then (.failure .unexpected_body, state)
    else (.complete, { state with done := true })
  else if head.transfer ≠ .content_length then (.failure .content_length_required, state)
  else
    let expected := head.content_length
    if expected < state.received ∨ expected - state.received < body.length then
      (.failure .conflicting_length, state)
    else
      let state := { state with received := state.received + body.length }
      let complete := state.received = expected
      let state := { state with done := state.done || decide complete }
      if body ≠ [] then (.chunk body (decide complete), state)
      else if complete then (.complete, state)
      else if eof then (.failure .transport_closed_early, state)
      else (.need_more, state)

def push (state : StreamDecoder) (input : Bytes) (eof stop_requested : Bool) :
    StreamDecodeResult × StreamDecoder :=
  if stop_requested then (.aborted, state)
  else
    match state.failure with
    | some error => (.failure error, state)
    | none =>
      if state.done then
        if input = [] then (.complete, state) else (.failure .unexpected_body, state)
      else
        match state.head with
        | some head => state.pushBody head input eof
        | none =>
          match state.scanHead eof input with
          | .answered answer state => (answer, state)
          | .read head state body => state.pushBody head body eof

end StreamDecoder

end R4OS.Http
