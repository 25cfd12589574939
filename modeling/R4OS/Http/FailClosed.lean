import R4OS.Incremental.Calls
import R4OS.Http.ResponseRuns
import R4OS.Http.Stream
import R4OS.Http.PayloadStream

/-!
# Failures that decoders keep

The decoders of buffered responses and of payload streams deliver nothing behind a failure or an abort.
The decoder of downloads does so in runs whose pushes meet none of the failures that it forgets.
-/

namespace R4OS.Http

open Text
open Incremental (Allowed FailsClosed Latched Latches Machine Turn answers)

/-- One call of a decoder of buffered responses, with the buffer that the caller passes. -/
structure ResponseCall where
  input : Bytes
  out : Bytes
  eof : Bool
  stop_requested : Bool

/-- A refused or cancelled response. -/
def DecodeResult.Failed : DecodeResult → Prop
  | .aborted => True
  | .failure _ => True
  | _ => False

/-- A delivered response. -/
def DecodeResult.Delivers : DecodeResult → Prop
  | .complete _ => True
  | _ => False

namespace Decoding

/-- One call over the buffer that the caller passes. -/
def call (state : Decoding) (call : ResponseCall) : DecodeResult × Decoding :=
  ({ state with out := call.out } : Decoding).decode call.input call.eof call.stop_requested

/-- A decoder that was cancelled or that failed. -/
def Dead (state : Decoding) : Prop := state.cancelled = true ∨ state.failure ≠ none

section

variable {input : Bytes} {state after : Decoding} {head : ParsedHead}

theorem lineEnd_failure {place : Option Nat} (searched : state.lineEnd input = (place, after)) :
    after.failure = state.failure := by
  cases place with
  | none =>
    rw [lineEnd_none searched]
  | some stop =>
    rw [(lineEnd_some searched).1]

section

variable (working : state.failure = none)

include working

theorem readHead_working :
    (state.readHead input).Going fun after => after.failure = none := by
  unfold readHead
  dsimp only
  split
  · trivial
  split
  · split
    · trivial
    · exact working
  split
  · exact working
  · trivial
  · exact working

theorem readSize_working :
    (state.readSize input).Going fun after => after.failure = none := by
  unfold readSize
  split
  · next searched missing =>
      split
      · trivial
      · exact (lineEnd_failure missing).trans working
  · next stop searched found =>
      split
      · trivial
      dsimp only
      split
      · trivial
      split
      · trivial
      · exact (lineEnd_failure found).trans working

theorem readTrailer_working :
    (state.readTrailer head input).Going fun after => after.failure = none := by
  unfold readTrailer
  split
  · next searched missing =>
      split
      · trivial
      · exact (lineEnd_failure missing).trans working
  · next stop searched found =>
      split
      · trivial
      dsimp only
      split
      · trivial
      unfold readTrailerField
      dsimp only
      split
      · trivial
      split
      · trivial
      split
      · trivial
      · exact (lineEnd_failure found).trans working

theorem turn_working :
    (turn input state).Going fun after => after.failure = none := by
  unfold turn
  split
  · exact readHead_working working
  unfold readBody
  split
  · trivial
  split
  · trivial
  · unfold readLength
    split
    · trivial
    dsimp only
    split
    · exact working
    · trivial
  · unfold readToClose
    dsimp only
    split
    · trivial
    · exact working
  · unfold readChunked
    split
    · exact readSize_working working
    · unfold readData
      dsimp only
      split
      · exact working
      · exact working
    · unfold readDataEnd
      split
      · exact working
      split
      · trivial
      · exact working
    · exact readTrailer_working working

end

/-- A call that failed left a dead decoder. -/
abbrev CallLatched (result : DecodeResult × Decoding) : Prop := Latched DecodeResult.Failed Dead result

theorem result_not_failed : ¬ (state.result head).Failed := id

theorem run_latched {answer : DecodeResult} (working : state.failure = none)
    (stopped : (machine.run input state).1 = some answer) :
    CallLatched (answer, (machine.run input state).2) := by
  intro failed
  have kept (between : Decoding) (good : between.failure = none) :
      (machine.turn input between).Going fun after => after.failure = none := turn_working good
  obtain ⟨before, good, taken⟩ := Machine.run_last kept working stopped
  rcases turn_stops good _ _ taken with ⟨error, -, failure⟩ | ⟨head, answered, -⟩
  · exact .inr (by rw [failure]; nofun)
  · dsimp only at failed
    rw [answered] at failed
    exact absurd failed result_not_failed

theorem settle_latched (eof : Bool) : CallLatched (state.settle eof) := by
  unfold settle
  split
  · exact fun failed => absurd failed id
  split
  · split
    · exact fun failed => absurd failed result_not_failed
    · exact fun _ => .inr nofun
  · exact fun _ => .inr nofun

theorem advance_latched (working : state.failure = none) (eof : Bool) :
    CallLatched (state.advance input eof) := by
  have latched (answer : DecodeResult) (stopped : (machine.run input state).1 = some answer) :=
    run_latched working stopped
  unfold advance
  split
  · exact fun failed => absurd failed result_not_failed
  · generalize machine.run input state = result at latched ⊢
    obtain ⟨_ | answer, after⟩ := result
    · exact settle_latched eof
    · exact latched answer rfl

theorem decode_dead {out : Bytes} {eof stop_requested : Bool} (dead : state.Dead) :
    (({ state with out } : Decoding).decode input eof stop_requested).2.Dead ∧
      ¬ (({ state with out } : Decoding).decode input eof stop_requested).1.Delivers := by
  unfold decode
  dsimp only
  split
  · next cancelled => exact ⟨.inl cancelled, id⟩
  · next uncancelled =>
      rcases dead with cancelled | failed
      · exact absurd (by rw [cancelled]; rfl) uncancelled
      · obtain ⟨error, failure⟩ := Option.ne_none_iff_exists'.mp failed
        rw [failure]
        exact ⟨.inr nofun, id⟩

theorem decode_latched (eof stop_requested : Bool) :
    CallLatched (state.decode input eof stop_requested) := by
  unfold decode
  dsimp only
  split
  · next cancelled => exact fun _ => .inl cancelled
  split
  · next error failure => exact fun _ => .inr (ne_of_eq_of_ne failure nofun)
  · next working =>
      split
      · exact fun _ => .inr nofun
      · refine advance_latched ?_ eof
        exact working

theorem call_latches :
    Latches call (fun _ _ => True) DecodeResult.Failed DecodeResult.Delivers (fun _ => True) Dead where
  kept _ _ := trivial
  latched _ _ := decode_latched _ _
  stays _ dead := (decode_dead dead).1
  silent _ dead := (decode_dead dead).2

end

end Decoding

/-- One push on a payload stream or a download. -/
structure PushCall where
  input : Bytes
  eof : Bool
  stop_requested : Bool

/-- A push that was refused or cancelled. -/
def PayloadStreamStep.Failed (step : PayloadStreamStep) : Prop :=
  match step.state with
  | .failure => True
  | .aborted => True
  | _ => False

/-- A push that hands out a part of the body or completes it. -/
def PayloadStreamStep.Delivers (step : PayloadStreamStep) : Prop :=
  match step.state with
  | .chunk => True
  | .complete => True
  | _ => False

namespace PayloadStreamDecoder

def call (state : PayloadStreamDecoder) (call : PushCall) : PayloadStreamStep × PayloadStreamDecoder :=
  state.push call.input call.eof call.stop_requested

/-- A decoder that was cancelled or that failed. -/
def Dead (state : PayloadStreamDecoder) : Prop := state.phase = .aborted ∨ state.phase = .failed

section

variable {eof : Bool} {input : Bytes} {pos : Nat} {state : PayloadStreamDecoder}

/-- A push that failed left a dead decoder. -/
abbrev PushLatched (result : PayloadStreamStep × PayloadStreamDecoder) : Prop :=
  Latched PayloadStreamStep.Failed Dead result

theorem failed_latched (error : ResponseError) : PushLatched (state.failed pos error) :=
  fun _ => .inr rfl

theorem exhausted_latched : PushLatched (state.exhausted eof pos) := by
  unfold exhausted
  split
  · exact fun failed => absurd failed id
  split
  · split
    · exact fun failed => absurd failed id
    · exact failed_latched _
  · exact fun failed => absurd failed id

theorem takeBody_latched : PushLatched (state.takeBody eof pos input) := by
  unfold takeBody
  dsimp only
  generalize (if state.phase = .close_body then input.length else min input.length state.remaining)
    = count
  split
  · exact failed_latched _
  split
  · exact exhausted_latched
  split
  · exact failed_latched _
  · exact fun failed => absurd failed id

theorem loop_latched : PushLatched (state.loop eof pos input) := by
  induction input generalizing state pos with
  | nil => exact exhausted_latched
  | cons byte rest induction =>
    unfold loop
    split
    · exact takeBody_latched
    · cases state.takeByte byte with
      | next after => exact induction
      | head after => exact fun failed => absurd failed id
      | refuse after consumed error => exact failed_latched error

theorem push_latched (stop_requested : Bool) : PushLatched (state.push input eof stop_requested) := by
  unfold push
  split
  · exact failed_latched _
  split
  · split
    · exact fun failed => absurd failed id
    · exact failed_latched _
  split
  · exact fun _ => .inl rfl
  split
  · exact failed_latched _
  · exact loop_latched

theorem push_dead {stop_requested : Bool} (dead : state.Dead) :
    (state.push input eof stop_requested).2.Dead ∧
      ¬ (state.push input eof stop_requested).1.Delivers := by
  unfold push
  rcases dead with aborted | failure
  · rw [if_neg (by rw [aborted]; nofun), if_neg (by rw [aborted]; nofun), if_pos (.inr aborted)]
    exact ⟨.inl rfl, id⟩
  · rw [if_pos failure]
    exact ⟨.inr rfl, id⟩

theorem call_latches :
    Latches call (fun _ _ => True) PayloadStreamStep.Failed PayloadStreamStep.Delivers
      (fun _ => True) Dead where
  kept _ _ := trivial
  latched _ _ := push_latched _
  stays _ dead := (push_dead dead).1
  silent _ dead := (push_dead dead).2

end

end PayloadStreamDecoder

/-- A push that was refused or cancelled. -/
def StreamDecodeResult.Failed : StreamDecodeResult → Prop
  | .aborted => True
  | .failure _ => True
  | _ => False

/-- A push that hands out a part of the body or completes it. -/
def StreamDecodeResult.Delivers : StreamDecodeResult → Prop
  | .chunk _ _ => True
  | .complete => True
  | _ => False

namespace StreamDecoder

def call (state : StreamDecoder) (call : PushCall) : StreamDecodeResult × StreamDecoder :=
  state.push call.input call.eof call.stop_requested

/-- How many bytes of a head fit. -/
def room (state : StreamDecoder) : Nat := min state.header_capacity max_header_bytes

/-- A decoder that keeps an error, whose buffer is full, or whose response has a framing that it does
not read. -/
def Refused (state : StreamDecoder) : Prop :=
  state.failure ≠ none ∨
    state.done = false ∧
      match state.head with
      | none => state.room ≤ state.header.length
      | some head => noBody state.method head = false ∧ head.transfer ≠ .content_length

/-- A part of the body that is owed, at the end of the body if it is empty and the last one. -/
def Owed (state : StreamDecoder) (head : ParsedHead) (body : Bytes) (eof : Bool) : Prop :=
  if noBody state.method head then body = []
  else head.transfer = .content_length →
    state.received + body.length ≤ head.content_length ∧
      (eof = true → body = [] → state.received = head.content_length)

/-- A push that meets none of the failures that the decoder forgets. -/
def Keeps (state : StreamDecoder) (call : PushCall) : Prop :=
  state.Refused ∨
    call.stop_requested = false ∧
      if state.done then call.input = []
      else
        match state.head with
        | some head => state.Owed head call.input call.eof
        | none =>
          let arrived := state.header ++ call.input
          match parseHead (arrived.take state.room) with
          | .value head => state.Owed head (arrived.drop head.body_start) call.eof
          | .need_more => call.eof = true → state.room < arrived.length
          | .failure _ => True

/-- A head that has not been read is not complete. -/
def Partial (state : StreamDecoder) : Prop :=
  state.head = none → state.failure = none → indexOf state.header blankLine = none

section

variable {eof : Bool} {input body : Bytes} {state : StreamDecoder} {head : ParsedHead}

theorem refused_full (unfinished : state.done = false) (missing : state.head = none)
    (fills : state.room ≤ state.header.length) : state.Refused := by
  refine .inr ⟨unfinished, ?_⟩
  rw [missing]
  exact fills

/-- A push that failed left a refused decoder. -/
abbrev PushLatched (result : StreamDecodeResult × StreamDecoder) : Prop :=
  Latched StreamDecodeResult.Failed Refused result

/-- What reading a head byte by byte leaves. -/
inductive Scanned (state : StreamDecoder) (input : Bytes) (eof : Bool) : HeadScan → Prop
  /-- The head does not fit. -/
  | full (answer : StreamDecodeResult) (header : Bytes) (fills : state.room ≤ header.length)
      (unfinished : indexOf header blankLine = none) (silent : ¬ answer.Delivers) :
      Scanned state input eof (.answered answer { state with header })
  /-- The head is refused. -/
  | refused (answer : StreamDecodeResult) (header : Bytes) (error : ResponseError)
      (silent : ¬ answer.Delivers) :
      Scanned state input eof (.answered answer { state with header, failure := some error })
  /-- The head goes on. -/
  | unfinished (header : Bytes) (arrived : header = state.header ++ input)
      (missing : indexOf header blankLine = none) :
      Scanned state input eof
        (.answered (if eof then .failure .transport_closed_early else .need_more)
          { state with header })
  /-- The head was read. -/
  | read (head : ParsedHead) (header body : Bytes)
      (parsed : parseHead ((state.header ++ input).take state.room) = .value head)
      (rest : body = (state.header ++ input).drop head.body_start) :
      Scanned state input eof (.read head { state with header, head := some head } body)

theorem Scanned.taken {byte : UInt8} {scan : HeadScan}
    (scanned : Scanned { state with header := state.header ++ [byte] } input eof scan) :
    Scanned state (byte :: input) eof scan := by
  have joined : state.header ++ [byte] ++ input = state.header ++ byte :: input := by simp
  cases scanned with
  | full answer header fills unfinished silent => exact .full answer header fills unfinished silent
  | refused answer header error silent => exact .refused answer header error silent
  | unfinished header arrived missing => exact .unfinished header (arrived.trans joined) missing
  | read head header body parsed rest =>
    dsimp only at parsed rest
    rw [joined] at parsed rest
    exact .read head header body parsed rest

theorem scanHead_scanned (eof : Bool) (input : Bytes) (missing : indexOf state.header blankLine = none) :
    Scanned state input eof (state.scanHead eof input) := by
  induction input generalizing state with
  | nil => exact .unfinished _ (List.append_nil _).symm missing
  | cons byte rest induction =>
    unfold scanHead
    split
    · next fills =>
        refine .full _ state.header ?_ missing id
        unfold room
        omega
    next fits =>
    have solid : blankLine ≠ [] := by decide
    have grown : state.header ++ [byte] <+: (state.header ++ byte :: rest).take state.room := by
      rw [List.prefix_take_iff]
      refine ⟨⟨rest, by simp⟩, ?_⟩
      unfold room
      rw [List.length_append, List.length_singleton]
      omega
    dsimp only
    split
    · next ends =>
        have found := indexOf_snoc_end missing solid ends
        split
        · next head parsed =>
            refine .read head _ rest ((parseHead_grown found grown).trans parsed) ?_
            obtain ⟨stop, stop_found, start, -⟩ := parseHead_value parsed
            have stop_eq := Option.some.inj (stop_found.symm.trans found)
            have four : blankLine.length = 4 := rfl
            have fits := ends.length_le
            rw [List.length_append, List.length_singleton] at fits
            rw [show head.body_start = state.header.length + 1 by omega, List.drop_append]
            simp
        · next waits => exact absurd (found.symm.trans (parseHead_need_more.mp waits)) nofun
        · exact .refused _ _ _ id
    · next unfinished => exact (induction (indexOf_snoc_open missing solid unfinished)).taken

theorem pushBody_latched (unfinished : state.done = false) (read : state.head = some head)
    (owed : state.Owed head body eof) : PushLatched (state.pushBody head body eof) := by
  unfold pushBody Owed at *
  split
  · next bodiless =>
      rw [if_pos bodiless] at owed
      rw [if_neg (not_not.mpr owed)]
      exact fun failed => absurd failed id
  next bodied =>
  rw [if_neg bodied] at owed
  split
  · next framed =>
      refine fun _ => .inr ⟨unfinished, ?_⟩
      rw [read]
      exact ⟨Bool.eq_false_iff.mpr bodied, framed⟩
  next framed =>
  obtain ⟨room, ended⟩ := owed (not_not.mp framed)
  dsimp only
  rw [if_neg (by omega)]
  split
  · exact fun failed => absurd failed id
  next nothing =>
  split
  · exact fun failed => absurd failed id
  next incomplete =>
  split
  · next last =>
      have empty : body = [] := not_not.mp nothing
      have all := ended last empty
      rw [empty, List.length_nil] at incomplete
      exact absurd all incomplete
  · exact fun failed => absurd failed id

theorem pushBody_head (head : ParsedHead) (body : Bytes) (eof : Bool) :
    (state.pushBody head body eof).2.head = state.head := by
  unfold pushBody
  split
  · split <;> rfl
  split
  · rfl
  dsimp only
  split
  · rfl
  split
  · rfl
  split
  · rfl
  split <;> rfl

theorem push_partial (unread : state.Partial) (stop_requested : Bool) :
    (state.push input eof stop_requested).2.Partial := by
  unfold push
  split
  · exact unread
  split
  · exact unread
  next working =>
  split
  · split <;> exact unread
  split
  · next head read =>
      intro missing
      rw [pushBody_head, read] at missing
      cases missing
  · next missing =>
      have scanned := scanHead_scanned eof input (unread missing working)
      split
      · next answer after answered =>
          rw [answered] at scanned
          cases scanned with
          | full _ header fills unfinished silent => exact fun _ _ => unfinished
          | refused _ header error silent => exact fun _ failed => nomatch failed
          | unfinished header arrived unfinished => exact fun _ _ => unfinished
      · next head after body answered =>
          rw [answered] at scanned
          cases scanned with
          | read _ header _ parsed rest =>
            intro lost
            rw [pushBody_head] at lost
            cases lost

theorem push_refused {stop_requested : Bool} (refused : state.Refused) :
    (state.push input eof stop_requested).2.Refused ∧
      ¬ (state.push input eof stop_requested).1.Delivers := by
  unfold push
  split
  · exact ⟨refused, id⟩
  split
  · exact ⟨refused, id⟩
  next working =>
  obtain ⟨unfinished, stuck⟩ := refused.resolve_left (not_not.mpr working)
  rw [unfinished, if_neg nofun]
  split
  · next head read =>
      rw [read] at stuck
      unfold pushBody
      rw [stuck.1, if_neg nofun, if_pos stuck.2]
      exact ⟨refused, id⟩
  · next missing =>
      rw [missing] at stuck
      cases input with
      | nil =>
        refine ⟨refused, ?_⟩
        change ¬ (if eof then StreamDecodeResult.failure .transport_closed_early
          else .need_more).Delivers
        split <;> exact id
      | cons byte rest =>
        unfold scanHead
        rw [if_pos]
        · exact ⟨refused, id⟩
        · have full : state.room ≤ state.header.length := stuck
          unfold room at full
          omega

theorem keeps_refused_head {call : PushCall} {error : ResponseError} (going : call.stop_requested = false)
    (unfinished : state.done = false) (missing : state.head = none)
    (parsed : parseHead ((state.header ++ call.input).take state.room) = .failure error) :
    state.Keeps call := by
  refine .inr ⟨going, ?_⟩
  rw [unfinished, if_neg nofun, missing]
  dsimp only
  rw [parsed]
  trivial

theorem push_latched {call : PushCall} (unread : state.Partial) (keeps : state.Keeps call) :
    PushLatched (state.call call) := by
  rcases keeps with refused | ⟨going, keeps⟩
  · exact fun _ => (push_refused refused).1
  change PushLatched (state.push call.input call.eof call.stop_requested)
  unfold push
  rw [going, if_neg nofun]
  split
  · next error failure => exact fun _ => .inl (ne_of_eq_of_ne failure nofun)
  next working =>
  split
  · next done =>
      rw [if_pos done] at keeps
      rw [if_pos keeps]
      exact fun failed => absurd failed id
  next open_state =>
  have unfinished := Bool.eq_false_iff.mpr open_state
  rw [if_neg open_state] at keeps
  split
  · next head read =>
      rw [read] at keeps
      exact pushBody_latched unfinished read keeps
  next missing =>
  rw [missing] at keeps
  have scanned := scanHead_scanned call.eof call.input (unread missing working)
  dsimp only at keeps
  split
  · next answer after answered =>
      rw [answered] at scanned
      cases scanned with
      | full _ header fills complete silent => exact fun _ => refused_full unfinished missing fills
      | refused _ header error silent => exact fun _ => .inl nofun
      | unfinished header arrived complete =>
        have waits : parseHead ((state.header ++ call.input).take state.room) = .need_more := by
          rw [parseHead_need_more, ← arrived]
          cases found : indexOf (header.take state.room) blankLine with
          | none => rfl
          | some place =>
            have later := indexOf_prefix (List.take_prefix state.room header) found (by decide)
            exact absurd (complete.symm.trans later) nofun
        rw [waits] at keeps
        dsimp only at keeps
        cases last : call.eof with
        | false => exact fun failed => absurd failed id
        | true =>
          have long := keeps last
          rw [← arrived] at long
          exact fun _ => refused_full unfinished missing long.le
  · next head after body answered =>
      rw [answered] at scanned
      cases scanned with
      | read _ header _ parsed rest =>
        rw [parsed] at keeps
        dsimp only at keeps
        rw [← rest] at keeps
        exact pushBody_latched unfinished rfl keeps

theorem call_latches :
    Latches call Keeps StreamDecodeResult.Failed StreamDecodeResult.Delivers Partial Refused where
  kept _ unread := push_partial unread _
  latched unread keeps := push_latched unread keeps
  stays _ refused := (push_refused refused).1
  silent _ refused := (push_refused refused).2

theorem init_partial (header_capacity : Nat) (method : Method) :
    (init header_capacity method).Partial :=
  fun _ _ => (by decide : indexOf ([] : Bytes) blankLine = none)

end

end StreamDecoder

/-- Every run of a decoder of buffered responses and of payload streams fails closed, and so does every
run of the decoder of downloads whose pushes meet none of the failures that it forgets. -/
theorem decoders_fail_closed (header_capacity : Nat) (method : Method)
    (limits : PayloadStreamLimits) (out : Bytes) (calls : List ResponseCall)
    (pushes : List PushCall) :
    FailsClosed DecodeResult.Failed DecodeResult.Delivers
        (answers Decoding.call (.init method out) calls) ∧
      FailsClosed PayloadStreamStep.Failed PayloadStreamStep.Delivers
        (answers PayloadStreamDecoder.call (.init header_capacity method limits) pushes) ∧
      (Allowed StreamDecoder.call StreamDecoder.Keeps (.init header_capacity method) pushes →
        FailsClosed StreamDecodeResult.Failed StreamDecodeResult.Delivers
          (answers StreamDecoder.call (.init header_capacity method) pushes)) := by
  refine ⟨?_, ?_, fun allowed => ?_⟩
  · exact Decoding.call_latches.failsClosed calls trivial
      (Incremental.allowed_of_forall (fun _ _ => trivial) calls)
  · exact PayloadStreamDecoder.call_latches.failsClosed pushes trivial
      (Incremental.allowed_of_forall (fun _ _ => trivial) pushes)
  · exact StreamDecoder.call_latches.failsClosed pushes
      (StreamDecoder.init_partial header_capacity method) allowed

theorem decoders_fail_closed_sample :
    FailsClosed StreamDecodeResult.Failed StreamDecodeResult.Delivers
      (answers StreamDecoder.call (.init 64 .get)
        [⟨blankLine, true, false⟩, ⟨ascii "more", false, true⟩, ⟨[], true, false⟩]) := by
  have refused : parseHead (blankLine.take 64) = .failure .malformed_status := by decide
  refine (decoders_fail_closed 64 .get {} [] [] _).2.2
    ⟨StreamDecoder.keeps_refused_head rfl rfl rfl refused, .inl ?_, .inl ?_, trivial⟩
  · exact .inl (by decide)
  · exact .inl (by decide)

/-- The decoder of downloads forgets that a body was too long. -/
theorem download_forgets_failure :
    ¬ ∀ header_capacity method calls,
      FailsClosed StreamDecodeResult.Failed StreamDecodeResult.Delivers
        (answers StreamDecoder.call (.init header_capacity method) calls) := by
  intro closed
  have run := closed 64 .get
    [⟨ascii "HTTP/1.1 200 OK\r\nContent-Length: 2\r\n\r\n", false, false⟩,
      ⟨ascii "abc", false, false⟩, ⟨ascii "ab", false, false⟩]
  have replies : answers StreamDecoder.call (.init 64 .get)
      [⟨ascii "HTTP/1.1 200 OK\r\nContent-Length: 2\r\n\r\n", false, false⟩,
        ⟨ascii "abc", false, false⟩, ⟨ascii "ab", false, false⟩] =
      [.need_more, .failure .conflicting_length, .chunk (ascii "ab") true] := by decide +kernel
  rw [replies] at run
  cases run with
  | cons _ later =>
    cases later with
    | cons silent _ => exact silent _ (.head _) trivial trivial

end R4OS.Http
