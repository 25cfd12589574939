import R4OS.Http.ResponseArrival

/-!
# Calls on a response that arrives in parts

After any calls with growing inputs the decoder waits where a fresh decoder would, or has the answer
that a fresh decoder gives for every longer input.
-/

namespace R4OS.Http

open Text
open Incremental (Machine Turn)

namespace Decoding

section Runs

variable {early late input line : Bytes} {state after fresh : Decoding} {head : ParsedHead}
  {answer : DecodeResult}

/-- A turn neither cancels the decoder nor counts its input, and stays inside the input. -/
structure Frame (input : Bytes) (state after : Decoding) : Prop where
  cancelled : after.cancelled = state.cancelled
  seen : after.seen_input = state.seen_input
  inside : state.cursor ≤ input.length → after.cursor ≤ input.length

theorem Frame.trans {between : Decoding} (first : Frame input state between)
    (second : Frame input between after) : Frame input state after :=
  ⟨second.cancelled.trans first.cancelled, second.seen.trans first.seen,
    fun inside => second.inside (first.inside inside)⟩

theorem Frame.refl (input : Bytes) (state : Decoding) : Frame input state state := ⟨rfl, rfl, id⟩

theorem readHead_frame : Frame input state (state.readHead input).state := by
  unfold readHead
  dsimp only
  split
  · exact ⟨rfl, rfl, id⟩
  split
  · split <;> exact ⟨rfl, rfl, id⟩
  split
  · exact ⟨rfl, rfl, id⟩
  · exact ⟨rfl, rfl, id⟩
  · next parsed =>
      obtain ⟨-, -, -, -, inside, -⟩ := parseHead_value parsed
      exact ⟨rfl, rfl, fun _ => inside⟩

theorem readSize_frame : Frame input state (state.readSize input).state := by
  unfold readSize
  split
  · next searched missing =>
      rw [lineEnd_none missing]
      split <;> exact ⟨rfl, rfl, id⟩
  · next stop searched found =>
      obtain ⟨rfl, -, high⟩ := lineEnd_some found
      split
      · exact ⟨rfl, rfl, id⟩
      dsimp only
      split
      · exact ⟨rfl, rfl, id⟩
      split
      · exact ⟨rfl, rfl, id⟩
      · exact ⟨rfl, rfl, fun _ => high⟩

theorem copy_frame {count : Nat} (available : count ≤ input.length - state.cursor) :
    Frame input state (state.copy input count) := by
  refine ⟨rfl, rfl, fun inside => ?_⟩
  change state.cursor + count ≤ input.length
  omega

theorem readTrailerField_frame : Frame input state (state.readTrailerField line).state := by
  unfold readTrailerField
  dsimp only
  split
  · exact ⟨rfl, rfl, id⟩
  split
  · exact ⟨rfl, rfl, id⟩
  split <;> exact ⟨rfl, rfl, id⟩

theorem readTrailer_frame : Frame input state (state.readTrailer head input).state := by
  unfold readTrailer
  split
  · next searched missing =>
      rw [lineEnd_none missing]
      split <;> exact ⟨rfl, rfl, id⟩
  · next stop searched found =>
      obtain ⟨rfl, -, high⟩ := lineEnd_some found
      split
      · exact ⟨rfl, rfl, id⟩
      dsimp only
      split
      · exact ⟨rfl, rfl, fun _ => high⟩
      · refine Frame.trans ?_ readTrailerField_frame
        exact ⟨rfl, rfl, fun _ => high⟩

theorem readChunked_frame : Frame input state (state.readChunked head input).state := by
  unfold readChunked
  split
  · exact readSize_frame
  · have copied : Frame input state (state.copy input
        (min (input.length - state.cursor) state.remaining)) := copy_frame (min_le_left _ _)
    unfold readData
    dsimp only
    split <;> exact ⟨copied.cancelled, copied.seen, copied.inside⟩
  · unfold readDataEnd
    split
    · exact ⟨rfl, rfl, id⟩
    split
    · exact ⟨rfl, rfl, id⟩
    · refine ⟨rfl, rfl, fun inside => ?_⟩
      dsimp [Turn.state]
      omega
  · exact readTrailer_frame

theorem turn_frame (input : Bytes) (state : Decoding) : Frame input state (turn input state).state := by
  unfold turn
  split
  · exact readHead_frame
  next head read =>
  unfold readBody
  split
  · exact ⟨rfl, rfl, id⟩
  split
  · exact ⟨rfl, rfl, id⟩
  · unfold readLength
    split
    · exact ⟨rfl, rfl, id⟩
    have copied : Frame input state (state.copy input (min (input.length - state.cursor)
      (head.content_length - state.written))) := copy_frame (min_le_left _ _)
    dsimp only
    split
    · exact copied
    · exact ⟨copied.cancelled, copied.seen, copied.inside⟩
  · unfold readToClose
    dsimp only
    split
    · exact ⟨rfl, rfl, id⟩
    · exact copy_frame le_rfl
  · exact readChunked_frame

/-- A decoder stops with a failure that it keeps or with the response that it holds. -/
def Stopped (state : Decoding) (answer : DecodeResult) : Prop :=
  (∃ error, answer = .failure error ∧ state.failure = some error) ∨
    ∃ head, answer = state.result head ∧ state.done = true ∧ state.head = some head ∧
      state.failure = none

def Stops (turn : Turn Decoding DecodeResult) : Prop :=
  ∀ after answer, turn = .stop after answer → after.Stopped answer

theorem stops_fail {error : ResponseError} : Stops (state.fail error) := by
  intro after answer taken
  cases taken
  exact .inl ⟨error, rfl, rfl⟩

theorem stops_finish (read : state.head = some head) (working : state.failure = none) :
    Stops (state.finish head) := by
  intro after answer taken
  cases taken
  exact .inr ⟨head, rfl, rfl, read, working⟩

theorem stops_next : Stops (.next state) := fun _ _ taken => absurd taken Turn.next_ne_stop

theorem stops_wait : Stops (.wait state) := fun _ _ taken => absurd taken Turn.wait_ne_stop

theorem readHead_stops : Stops (state.readHead input) := by
  unfold readHead
  dsimp only
  split
  · exact stops_fail
  split
  · split
    · exact stops_fail
    · exact stops_wait
  split
  · exact stops_wait
  · exact stops_fail
  · exact stops_next

theorem readSize_stops : Stops (state.readSize input) := by
  unfold readSize
  split
  · split
    · exact stops_fail
    · exact stops_wait
  split
  · exact stops_fail
  dsimp only
  split
  · exact stops_fail
  split
  · exact stops_fail
  · exact stops_next

theorem readTrailerField_stops : Stops (state.readTrailerField line) := by
  unfold readTrailerField
  dsimp only
  split
  · exact stops_fail
  split
  · exact stops_fail
  split
  · exact stops_fail
  · exact stops_next

theorem readTrailer_stops (read : state.head = some head) (working : state.failure = none) :
    Stops (state.readTrailer head input) := by
  unfold readTrailer
  split
  · split
    · exact stops_fail
    · exact stops_wait
  next stop searched found =>
  obtain ⟨rfl, -, -⟩ := lineEnd_some found
  split
  · exact stops_fail
  dsimp only
  split
  · exact stops_finish read working
  · exact readTrailerField_stops

theorem readChunked_stops (read : state.head = some head) (working : state.failure = none) :
    Stops (state.readChunked head input) := by
  unfold readChunked
  split
  · exact readSize_stops
  · unfold readData
    dsimp only
    split
    · exact stops_wait
    · exact stops_next
  · unfold readDataEnd
    split
    · exact stops_wait
    split
    · exact stops_fail
    · exact stops_next
  · exact readTrailer_stops read working

theorem turn_stops (working : state.failure = none) : Stops (turn input state) := by
  unfold turn
  split
  · exact readHead_stops
  next head read =>
  unfold readBody
  split
  · exact stops_finish read working
  split
  · exact stops_finish read working
  · unfold readLength
    split
    · exact stops_fail
    dsimp only
    split
    · exact stops_wait
    · exact stops_finish read working
  · unfold readToClose
    dsimp only
    split
    · exact stops_fail
    · exact stops_wait
  · exact readChunked_stops read working

/-- What a run of a working decoder leaves. -/
structure Ran (input : Bytes) (state : Decoding) (answer : Option DecodeResult) (after : Decoding) :
    Prop where
  frame : Frame input state after
  fitting : after.Fitting
  plain : plainMachine.run input state.erase = (answer, after.erase)
  waits : answer = none → after.Marked input
  stopped : ∀ reply, answer = some reply → after.Stopped reply

theorem run_ran (marked : state.Marked input) (fitting : state.Fitting) :
    Ran input state (machine.run input state).1 (machine.run input state).2 := by
  obtain ⟨plain, waits⟩ := plain_simulates.run marked
  refine ⟨?_, ?_, plain, waits, fun reply stopped => ?_⟩
  · have framed (between : Decoding) (frame : Frame input state between) :
        Frame input state (machine.turn input between).state :=
      frame.trans (turn_frame input between)
    exact Machine.run_kept framed (Frame.refl input state)
  · have fits (between : Decoding) (good : between.Fitting) :
        (machine.turn input between).state.Fitting := turn_fitting good
    exact Machine.run_kept fits fitting
  · have kept (between : Decoding) (good : between.Marked input) :
        (machine.turn input between).Going (Marked input) := turn_marked good
    obtain ⟨before, good, taken⟩ := Machine.run_last kept marked stopped
    exact turn_stops good.working _ _ taken

/-- The answer of a call whose run ended so. -/
def reply (result : Option DecodeResult × Decoding) (eof : Bool) : DecodeResult :=
  match result with
  | (some answer, _) => answer
  | (none, state) => (state.settle eof).1

theorem settle_erase (working : state.failure = none) (eof : Bool) :
    (state.erase.settle eof).1 = (state.settle eof).1 := by
  rw [erase_working working]
  unfold settle
  have head_eq : state.unmark.head = state.head := rfl
  rw [head_eq]
  split
  · rfl
  split
  · split <;> rfl
  · rfl

/-- The conditions under which a call reads its input. -/
structure Ready (input : Bytes) (state : Decoding) : Prop where
  uncancelled : state.cancelled = false
  working : state.failure = none
  seen : state.seen_input ≤ input.length
  inside : state.cursor ≤ input.length
  fitting : state.Fitting

theorem decode_ready (ready : state.Ready input) (eof : Bool) :
    state.decode input eof false = advance { state with seen_input := input.length } input eof := by
  have same : ({ state with cancelled := state.cancelled || false } : Decoding) = state := by
    rw [Bool.or_false]
  unfold decode
  dsimp only
  rw [Bool.or_false, if_neg (by rw [ready.uncancelled]; nofun), ready.working]
  dsimp only
  rw [if_neg]
  have seen := ready.seen
  have inside := ready.inside
  have fits := ready.fitting.fits
  omega

theorem decode_failed {error : ResponseError} (uncancelled : state.cancelled = false)
    (failed : state.failure = some error) (eof : Bool) :
    state.decode input eof false = (.failure error, state) := by
  unfold decode
  dsimp only
  rw [Bool.or_false, if_neg (by rw [uncancelled]; nofun), failed]
  dsimp only
  rw [← failed]

theorem advance_done (done : state.done = true) (read : state.head = some head) (eof : Bool) :
    state.advance input eof = (state.result head, state) := by
  unfold advance
  rw [done, read]

theorem advance_open (unfinished : state.done = false) (eof : Bool) :
    (state.advance input eof).1 = reply (machine.run input state) eof := by
  unfold advance
  rw [unfinished]
  split
  · next other same done => cases done
  · generalize machine.run input state = result
    obtain ⟨_ | answer, after⟩ := result
    · rfl
    · rfl

theorem advance_open_state (unfinished : state.done = false) :
    (state.advance input false).2 = (machine.run input state).2 := by
  unfold advance
  rw [unfinished]
  split
  · next other same done => cases done
  · generalize machine.run input state = result
    obtain ⟨_ | answer, after⟩ := result
    · rfl
    · rfl

/-- What a decoder is after calls with growing inputs of which this is the last one. -/
inductive Arrived (fresh : Decoding) (input : Bytes) (state : Decoding) : Prop
  /-- It waits where a fresh decoder would. -/
  | waiting (ready : state.Ready input) (marked : Marked input state)
      (resumes : ∀ late, input <+: late →
        plainMachine.run late state.erase = plainMachine.run late fresh.erase)
  /-- It holds the response that a fresh decoder reads. -/
  | completed (head : ParsedHead) (ready : state.Ready input) (done : state.done = true)
      (read : state.head = some head)
      (same : ∀ late, input <+: late →
        (plainMachine.run late fresh.erase).1 = some (state.result head))
  /-- It failed as a fresh decoder fails. -/
  | failed (error : ResponseError) (uncancelled : state.cancelled = false)
      (failure : state.failure = some error)
      (same : ∀ late, input <+: late → (plainMachine.run late fresh.erase).1 = some (.failure error))

theorem Marked.counted (marked : Marked input state) (count : Nat) :
    Marked input { state with seen_input := count } :=
  ⟨marked.working, marked.unfinished, marked.header, marked.unread, marked.line⟩

theorem Fitting.counted (fitting : state.Fitting) (count : Nat) :
    ({ state with seen_input := count } : Decoding).Fitting :=
  ⟨fitting.fits, fitting.copied, fitting.unread, fitting.length, fitting.data⟩

/-- A call answers as a fresh decoder over its input. -/
theorem Arrived.replies (arrived : Arrived fresh early state) (grown : early <+: late) (eof : Bool) :
    (state.decode late eof false).1 = reply (plainMachine.run late fresh.erase) eof := by
  have longer := grown.length_le
  cases arrived with
  | failed error uncancelled failure same =>
    rw [decode_failed uncancelled failure]
    unfold reply
    have answer := same late grown
    generalize plainMachine.run late fresh.erase = result at answer
    obtain ⟨other, after⟩ := result
    cases answer
    rfl
  | completed head ready done read same =>
    have counted_done : ({ state with seen_input := late.length } : Decoding).done = true := done
    rw [decode_ready ⟨ready.uncancelled, ready.working, ready.seen.trans longer,
      ready.inside.trans longer, ready.fitting⟩, advance_done counted_done read]
    unfold reply
    have answer := same late grown
    generalize plainMachine.run late fresh.erase = result at answer
    obtain ⟨other, after⟩ := result
    cases answer
    rfl
  | waiting ready marked resumes =>
    have counted := (marked.grown grown).counted late.length
    rw [decode_ready ⟨ready.uncancelled, ready.working, ready.seen.trans longer,
      ready.inside.trans longer, ready.fitting⟩, advance_open counted.unfinished]
    have ran := run_ran counted (ready.fitting.counted late.length)
    have plain := ran.plain
    rw [show ({ state with seen_input := late.length } : Decoding).erase = state.erase from rfl,
      resumes late grown] at plain
    rw [plain]
    generalize machine.run late { state with seen_input := late.length } = result at ran
    obtain ⟨_ | answer, after⟩ := result
    · exact (settle_erase (ran.waits rfl).working eof).symm
    · rfl

/-- A call whose input may still grow leaves the decoder so. -/
theorem Arrived.decode (arrived : Arrived fresh early state) (grown : early <+: late)
    (fresh_plain : fresh.erase.Plain) : Arrived fresh late (state.decode late false false).2 := by
  have longer := grown.length_le
  cases arrived with
  | failed error uncancelled failure same =>
    rw [decode_failed uncancelled failure]
    exact .failed error uncancelled failure fun later after => same later (grown.trans after)
  | completed head ready done read same =>
    have counted_done : ({ state with seen_input := late.length } : Decoding).done = true := done
    rw [decode_ready ⟨ready.uncancelled, ready.working, ready.seen.trans longer,
      ready.inside.trans longer, ready.fitting⟩, advance_done counted_done read]
    exact .completed head ⟨ready.uncancelled, ready.working, le_rfl, ready.inside.trans longer,
      ready.fitting.counted _⟩ done read fun later after => same later (grown.trans after)
  | waiting ready marked resumes =>
    have counted := (marked.grown grown).counted late.length
    have ran := run_ran counted (ready.fitting.counted late.length)
    rw [decode_ready ⟨ready.uncancelled, ready.working, ready.seen.trans longer,
      ready.inside.trans longer, ready.fitting⟩]
    have plain := ran.plain
    rw [show ({ state with seen_input := late.length } : Decoding).erase = state.erase from rfl,
      resumes late grown] at plain
    have stable (later : Bytes) (after : late <+: later) :=
      plain_stable.run_grown after fresh_plain
    rw [plain] at stable
    rw [advance_open_state counted.unfinished]
    generalize machine.run late { state with seen_input := late.length } = result at ran stable plain
    obtain ⟨answer, after⟩ := result
    have uncancelled := ran.frame.cancelled.trans ready.uncancelled
    have seen : after.seen_input ≤ late.length := ran.frame.seen.le
    have inside : after.cursor ≤ late.length := ran.frame.inside (ready.inside.trans longer)
    cases answer with
    | none =>
      have still := ran.waits rfl
      exact .waiting ⟨uncancelled, still.working, seen, inside, ran.fitting⟩ still
        fun later grows => (stable later grows).1 rfl
    | some reply =>
      have same (later : Bytes) (grows : late <+: later) :
          (plainMachine.run later fresh.erase).1 = some reply := by
        rw [(stable later grows).2 nofun]
      rcases ran.stopped reply rfl with ⟨error, answered, failed⟩ | ⟨head, answered, done, read, working⟩
      · rw [answered] at same
        exact .failed error uncancelled failed same
      · rw [answered] at same
        exact .completed head ⟨uncancelled, working, seen, inside, ran.fitting⟩ done read same

theorem Fitting.body_length (fitting : state.Fitting) :
    state.copied_bytes = min (state.out.take state.written).length maxWord := by
  rw [List.length_take, min_eq_left fitting.fits]
  exact fitting.copied

/-- A decoder that answers a response has counted each byte of its body once. -/
def Counts (answer : DecodeResult) (state : Decoding) : Prop :=
  ∀ response, answer = .complete response →
    state.copied_bytes = min response.body.length maxWord

theorem Fitting.counts_result (fitting : state.Fitting) (head : ParsedHead) :
    Counts (state.result head) state := by
  intro response answered
  cases answered
  exact fitting.body_length

theorem Stopped.counts (stopped : state.Stopped answer) (fitting : state.Fitting) :
    Counts answer state := by
  rcases stopped with ⟨error, answered, -⟩ | ⟨head, answered, -⟩
  · rw [answered]
    exact fun response same => nomatch same
  · rw [answered]
    exact fitting.counts_result head

theorem settle_counts (fitting : state.Fitting) (eof : Bool) :
    Counts (state.settle eof).1 (state.settle eof).2 := by
  unfold settle
  split
  · exact fun response same => nomatch same
  split
  · split
    · next head _ _ => exact fitting.counts_result head
    · exact fun response same => nomatch same
  · exact fun response same => nomatch same

theorem advance_counts (fitting : state.Fitting) (marked : state.Marked input) (eof : Bool) :
    Counts (state.advance input eof).1 (state.advance input eof).2 := by
  have ran := run_ran marked fitting
  unfold advance
  rw [marked.unfinished]
  split
  · next done => cases done
  · generalize machine.run input state = result at ran
    obtain ⟨_ | reply, after⟩ := result
    · exact settle_counts ran.fitting eof
    · exact (ran.stopped reply rfl).counts ran.fitting

theorem Arrived.counts (arrived : Arrived fresh early state) (grown : early <+: late) (eof : Bool) :
    Counts (state.decode late eof false).1 (state.decode late eof false).2 := by
  have longer := grown.length_le
  cases arrived with
  | failed error uncancelled failure same =>
    rw [decode_failed uncancelled failure]
    exact fun response answered => nomatch answered
  | completed head ready done read same =>
    have counted_done : ({ state with seen_input := late.length } : Decoding).done = true := done
    rw [decode_ready ⟨ready.uncancelled, ready.working, ready.seen.trans longer,
      ready.inside.trans longer, ready.fitting⟩, advance_done counted_done read]
    exact (ready.fitting.counted _).counts_result head
  | waiting ready marked resumes =>
    rw [decode_ready ⟨ready.uncancelled, ready.working, ready.seen.trans longer,
      ready.inside.trans longer, ready.fitting⟩]
    exact advance_counts (ready.fitting.counted _) ((marked.grown grown).counted _) eof

theorem init_fitting (method : Method) (out : Bytes) : (init method out).Fitting := by
  refine ⟨Nat.zero_le _, rfl, fun _ => rfl, fun head found => ?_, fun reading => ?_⟩
  · cases found
  · cases reading

theorem init_arrived (method : Method) (out : Bytes) : Arrived (init method out) [] (init method out) := by
  refine .waiting ⟨rfl, rfl, le_rfl, le_rfl, init_fitting method out⟩ ?_ fun _ _ => rfl
  exact ⟨rfl, rfl, ⟨Nat.zero_le _, nofun⟩, fun _ => rfl, ⟨Nat.zero_le _, nofun⟩⟩

/-- Calls with inputs that may still grow. -/
def receive (state : Decoding) (inputs : List Bytes) : Decoding :=
  inputs.foldl (fun state input => (state.decode input false false).2) state

/-- Calls with growing inputs lead to a decoder that has seen the last one of them. -/
theorem Arrived.receive (inputs : List Bytes) (arrived : Arrived fresh early state)
    (fresh_plain : fresh.erase.Plain) (growing : (early :: (inputs ++ [late])).IsChain (· <+: ·)) :
    ∃ last, last <+: late ∧ Arrived fresh last (state.receive inputs) := by
  induction inputs generalizing early state with
  | nil =>
    rw [List.nil_append, List.isChain_pair] at growing
    exact ⟨early, growing, arrived⟩
  | cons next rest induction =>
    rw [List.cons_append, List.isChain_cons_cons] at growing
    exact induction (arrived.decode growing.1 fresh_plain) growing.2

/-- The last answer over a response that arrives in growing parts is the answer over the whole response
in one call, and each byte of the body was copied once. -/
theorem arrival_independent (method : Method) (out : Bytes) (parts : List Bytes) (whole : Bytes) (eof : Bool)
    (growing : (parts ++ [whole]).IsChain (· <+: ·)) :
    (((init method out).receive parts).decode whole eof false).1 =
        ((init method out).decode whole eof false).1 ∧
      Counts (((init method out).receive parts).decode whole eof false).1
        (((init method out).receive parts).decode whole eof false).2 := by
  have fresh := init_arrived method out
  have from_nothing : ([] :: (parts ++ [whole])).IsChain (· <+: ·) :=
    List.isChain_cons.mpr ⟨fun next _ => List.nil_prefix, growing⟩
  obtain ⟨last, grown, arrived⟩ :=
    Arrived.receive parts fresh (init_fitting method out).erase from_nothing
  refine ⟨?_, arrived.counts grown eof⟩
  rw [arrived.replies grown eof, fresh.replies List.nil_prefix eof]

theorem arrival_independent_sample :
    let whole := ascii "HTTP/1.1 200 OK\r\nContent-Length: 2\r\n\r\nhi"
    let last := ((init .get [0, 0, 0]).receive [whole.take 9, whole.take 39]).decode whole true false
    last.1 = ((init .get [0, 0, 0]).decode whole true false).1 ∧ Counts last.1 last.2 :=
  arrival_independent .get [0, 0, 0] _ _ true (by decide)

end Runs

end Decoding

end R4OS.Http
