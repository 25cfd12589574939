import R4OS.Http.Response

/-!
# Responses that arrive in parts

The marks that save searches are never ahead of what was searched, so the decoder takes the turns of a
decoder without marks.  A turn of that decoder stands however the input grows.
-/

namespace R4OS.Http

open Text
open Incremental (Machine Turn)

namespace Decoding

/-- A decoder without the marks of its searches. -/
def unmark (state : Decoding) : Decoding :=
  { state with seen_input := 0, header_scan := 0, line_scan := 0 }

/-- A decoder without marks; of a failed one only the failure is left. -/
def erase (state : Decoding) : Decoding :=
  match state.failure with
  | some error => { method := state.method, failure := some error, out := [] }
  | none => state.unmark

section Growth

variable {early late : Bytes} {state after before : Decoding} {head : ParsedHead} {stop : Nat}

theorem erase_failed {error : ResponseError} (failed : state.failure = some error) :
    state.erase = { method := state.method, failure := some error, out := [] } := by
  unfold erase
  rw [failed]

theorem erase_working (working : state.failure = none) :
    state.erase = state.unmark := by
  unfold erase
  rw [working]

@[simp] theorem erase_erase (state : Decoding) : state.erase.erase = state.erase := by
  cases failed : state.failure with
  | none =>
    rw [erase_working failed]
    exact erase_working failed
  | some error =>
    rw [erase_failed failed]
    exact erase_failed rfl

theorem erase_line_scan (mark : Nat) : ({ state with line_scan := mark } : Decoding).erase = state.erase := rfl

theorem erase_header_scan (mark : Nat) :
    ({ state with header_scan := mark } : Decoding).erase = state.erase := rfl

theorem lineEnd_full (grown : early <+: late)
    (full : state.cursor + max_header_bytes ≤ early.length) :
    state.lineEnd late = state.lineEnd early := by
  have longer := grown.length_le
  unfold lineEnd
  dsimp only
  rw [min_eq_right full, min_eq_right (full.trans longer), indexWithin_full grown full]

theorem lineEnd_found (grown : early <+: late) (found : state.lineEnd early = (some stop, after)) :
    state.lineEnd late = (some stop, after) := by
  have longer := grown.length_le
  unfold lineEnd at found ⊢
  dsimp only at found ⊢
  split at found
  · next place place_found =>
      rw [indexWithin_grown (by decide) grown (by omega) place_found]
      exact found
  · cases found

theorem lineEnd_later (grown : early <+: late) (missing : state.lineEnd early = (none, before))
    (found : state.lineEnd late = (some stop, after)) : early.length < stop + 2 := by
  have longer := grown.length_le
  unfold lineEnd at missing found
  dsimp only at missing found
  split at missing
  · cases missing
  next absent =>
  split at found
  · next place place_found =>
      cases found
      have beyond := indexWithin_beyond (by decide) grown absent place_found
      obtain ⟨-, -, fits, -⟩ := (indexWithin_eq_some (by decide)).mp place_found
      have two : crlf.length = 2 := rfl
      omega
  · cases found

/-- A turn waited, or is the later turn up to marks. -/
def Holds (early late : Turn Decoding DecodeResult) : Prop :=
  (∃ after, early = .wait after) ∨ early.map erase = late.map erase

section

variable (grown : early <+: late)

include grown

theorem slice_grown (low : stop ≤ early.length) :
    (late.take stop).drop state.cursor = (early.take stop).drop state.cursor := by
  obtain ⟨rest, rfl⟩ := grown
  rw [List.take_append_of_le_length low]

theorem readHead_holds (unmarked : state.header_scan = 0) :
    Holds (state.readHead early) (state.readHead late) := by
  have longer := grown.length_le
  unfold readHead
  dsimp only
  rw [unmarked, if_neg (Nat.not_lt_zero _), if_neg (Nat.not_lt_zero _)]
  split
  · next missing =>
      split
      · next full =>
          rw [min_eq_right full] at missing
          rw [min_eq_right (full.trans longer), indexWithin_full grown full, missing]
          dsimp only
          rw [if_pos (full.trans longer)]
          exact .inr rfl
      · exact .inl ⟨_, rfl⟩
  · next place found =>
      obtain ⟨-, occurs, -, first⟩ := (indexWithin_eq_some (by decide)).mp found
      have complete : indexOf early blankLine = some place :=
        indexOf_eq occurs fun earlier before => first earlier (Nat.zero_le _) before
      rw [indexWithin_grown (by decide) grown (by omega) found, parseHead_grown complete grown]
      dsimp only
      split
      · exact .inl ⟨_, rfl⟩
      · exact .inr rfl
      · exact .inr rfl

theorem readSize_holds :
    Holds (state.readSize early) (state.readSize late) := by
  have longer := grown.length_le
  cases found : state.lineEnd early with
  | mk place searched =>
  cases place with
  | none =>
    have searched_eq := lineEnd_none found
    unfold readSize
    rw [found]
    dsimp only
    split
    · next large =>
        have full : state.cursor + max_header_bytes ≤ early.length := by
          rw [searched_eq] at large
          have := le_trans large (Nat.sub_le _ _)
          dsimp only at large
          have positive : 0 < max_header_bytes := by decide
          omega
        rw [lineEnd_full grown full, found]
        dsimp only
        rw [if_pos (by omega)]
        exact .inr rfl
    · exact .inl ⟨_, rfl⟩
  | some stop =>
    obtain ⟨rfl, low, high⟩ := lineEnd_some found
    unfold readSize
    rw [found, lineEnd_found grown found]
    dsimp only
    rw [slice_grown grown (by omega)]
    exact .inr rfl

theorem readTrailer_holds :
    Holds (state.readTrailer head early) (state.readTrailer head late) := by
  have longer := grown.length_le
  cases found : state.lineEnd early with
  | mk place searched =>
  cases place with
  | none =>
    have searched_eq := lineEnd_none found
    unfold readTrailer
    rw [found]
    dsimp only
    split
    · next large =>
        right
        cases later : state.lineEnd late with
        | mk place after =>
        cases place with
        | none =>
          have after_eq := lineEnd_none later
          rw [searched_eq] at large ⊢
          rw [after_eq]
          dsimp only at large ⊢
          have past : max_header_bytes ≤ late.length - state.trailer_start := by omega
          rw [if_pos past]
          rfl
        | some stop =>
          have beyond := lineEnd_later grown found later
          obtain ⟨rfl, low, high⟩ := lineEnd_some later
          rw [searched_eq] at large ⊢
          dsimp only at large ⊢
          have past : max_header_bytes < stop + 2 - after.trailer_start := by
            have positive : 0 < max_header_bytes := by decide
            omega
          rw [if_pos past]
          rfl
    · exact .inl ⟨_, rfl⟩
  | some stop =>
    obtain ⟨rfl, low, high⟩ := lineEnd_some found
    unfold readTrailer
    rw [found, lineEnd_found grown found]
    dsimp only
    rw [slice_grown grown (by omega)]
    exact .inr rfl

theorem readDataEnd_holds :
    Holds (state.readDataEnd early) (state.readDataEnd late) := by
  have longer := grown.length_le
  unfold readDataEnd
  split
  · exact .inl ⟨_, rfl⟩
  next enough =>
  have enough_late : ¬ late.length - state.cursor < 2 := by omega
  rw [if_neg enough_late]
  have same : (late.drop state.cursor).take 2 = (early.drop state.cursor).take 2 := by
    obtain ⟨rest, rfl⟩ := grown
    rw [List.drop_append_of_le_length (by omega), List.take_append_of_le_length]
    rw [List.length_drop]
    omega
  rw [same]
  exact .inr rfl

end

variable {input line : Bytes}

theorem readHead_wait (taken : state.readHead input = .wait after) : after.erase = state.erase := by
  unfold readHead at taken
  dsimp only at taken
  split at taken
  · cases taken
  split at taken
  · split at taken
    · cases taken
    · cases taken
      exact erase_header_scan _
  · split at taken
    · cases taken
      rfl
    · cases taken
    · cases taken

theorem readSize_wait (taken : state.readSize input = .wait after) : after.erase = state.erase := by
  unfold readSize at taken
  split at taken
  · next searched missing =>
      split at taken
      · cases taken
      · cases taken
        rw [lineEnd_none missing]
        exact erase_line_scan _
  · split at taken
    · cases taken
    dsimp only at taken
    split at taken
    · cases taken
    · split at taken <;> cases taken

theorem readDataEnd_wait (taken : state.readDataEnd input = .wait after) : after.erase = state.erase := by
  unfold readDataEnd at taken
  split at taken
  · cases taken
    rfl
  · split at taken <;> cases taken

theorem readTrailerField_ne_wait : state.readTrailerField line ≠ .wait after := by
  intro answered
  unfold readTrailerField at answered
  dsimp only at answered
  split at answered
  · cases answered
  split at answered
  · cases answered
  split at answered <;> cases answered

theorem readTrailer_wait (taken : state.readTrailer head input = .wait after) :
    after.erase = state.erase := by
  unfold readTrailer at taken
  split at taken
  · next searched missing =>
      split at taken
      · cases taken
      · cases taken
        rw [lineEnd_none missing]
        exact erase_line_scan _
  · split at taken
    · cases taken
    dsimp only at taken
    split at taken
    · cases taken
    · exact absurd taken readTrailerField_ne_wait

/-- What a decoder knows of its buffer. -/
structure Fitting (state : Decoding) : Prop where
  fits : state.written ≤ state.out.length
  copied : state.copied_bytes = min state.written maxWord
  unread : state.head = none → state.written = 0
  length : ∀ head, state.head = some head → head.transfer = .content_length →
    state.written ≤ head.content_length
  data : state.phase = .data → state.written + state.remaining ≤ state.out.length ∧
    ∃ head, state.head = some head ∧ head.transfer = .chunked ∧ noBody state.method head = false

variable {first : Nat}

theorem copied_length (available : first ≤ early.length - state.cursor) :
    ((early.drop state.cursor).take first).length = first := by
  rw [List.length_take, List.length_drop, min_eq_left available]

theorem copy_grown (grown : early <+: late) (available : first ≤ early.length - state.cursor) :
    state.copy late first = state.copy early first := by
  have same : (late.drop state.cursor).take first = (early.drop state.cursor).take first := by
    obtain ⟨rest, rfl⟩ := grown
    by_cases inside : state.cursor ≤ early.length
    · rw [List.drop_append_of_le_length inside, List.take_append_of_le_length]
      rw [List.length_drop]
      exact available
    · rw [show first = 0 by omega, List.take_zero, List.take_zero]
  unfold copy
  rw [same]

theorem copy_length (available : first ≤ early.length - state.cursor)
    (room : state.written + first ≤ state.out.length) :
    (state.copy early first).out.length = state.out.length := by
  unfold copy
  dsimp only
  rw [List.length_append, List.length_append, copied_length available, List.length_take,
    List.length_drop]
  omega

theorem copy_copy (grown : early <+: late) (available : first ≤ early.length - state.cursor)
    (room : state.written + first ≤ state.out.length) (second : Nat) :
    (state.copy early first).copy late second = state.copy late (first + second) := by
  rw [← copy_grown grown available]
  have longer := grown.length_le
  have length := copied_length (le_trans available (Nat.sub_le_sub_right longer state.cursor))
  unfold copy
  simp only [Decoding.mk.injEq, ResponseDecoder.mk.injEq, Nat.add_assoc, true_and]
  refine ⟨⟨by omega, trivial⟩, ?_⟩
  have front : (state.out.take state.written ++ (late.drop state.cursor).take first).length =
      state.written + first := by
    rw [List.length_append, length, List.length_take, min_eq_left (by omega)]
  have kept : (state.out.take state.written ++ (late.drop state.cursor).take first ++
      state.out.drop (state.written + first)).take (state.written + first) =
      state.out.take state.written ++ (late.drop state.cursor).take first := by
    rw [← front, List.take_left]
  have dropped : (state.out.take state.written ++ (late.drop state.cursor).take first ++
      state.out.drop (state.written + first)).drop (state.written + (first + second)) =
      state.out.drop (state.written + (first + second)) := by
    rw [← Nat.add_assoc, ← front, ← List.drop_drop, List.drop_left, front, List.drop_drop]
  rw [kept, dropped, List.take_add, List.drop_drop]
  simp

/-- A copy stands where the decoder stood, up to what was copied. -/
structure Aligned (state after : Decoding) : Prop where
  method : after.method = state.method
  head : after.head = state.head
  phase : after.phase = state.phase
  failure : after.failure = state.failure
  marks : after.seen_input = state.seen_input ∧ after.header_scan = state.header_scan ∧
    after.line_scan = state.line_scan

/-- A turn that copies waited where it can be taken up again, or is the later turn. -/
def Resumes (state : Decoding) (read : Decoding → Bytes → Turn Decoding DecodeResult)
    (early late : Bytes) : Prop :=
  (∃ after, read state early = .wait after ∧ state.Aligned after ∧
    (read after late).map erase = (read state late).map erase) ∨
  (∀ after, read state early ≠ .wait after) ∧
    (read state early).map erase = (read state late).map erase

section

variable (grown : early <+: late)

include grown

theorem copyData_grown (available : first ≤ early.length - state.cursor) :
    state.copyData late first = state.copyData early first := by
  unfold copyData
  rw [copy_grown grown available]

theorem copyData_copyData (available : first ≤ early.length - state.cursor)
    (room : state.written + first ≤ state.out.length) (second : Nat) :
    (state.copyData early first).copyData late second = state.copyData late (first + second) := by
  have copied := copy_copy grown available room second
  unfold copyData
  rw [← copied, ← Nat.sub_sub]
  rfl

theorem readData_resumes (room : state.written + state.remaining ≤ state.out.length) :
    state.Resumes readData early late := by
  have longer := grown.length_le
  by_cases enough : state.remaining ≤ early.length - state.cursor
  · right
    have whole : min (early.length - state.cursor) state.remaining = state.remaining :=
      min_eq_right enough
    have whole_late : min (late.length - state.cursor) state.remaining = state.remaining := by omega
    have done : (state.copyData early state.remaining).remaining = 0 := Nat.sub_self _
    unfold readData
    rw [whole, whole_late, copyData_grown grown enough]
    dsimp only
    rw [if_neg (not_not.mpr done)]
    exact ⟨fun _ => Turn.next_ne_wait, rfl⟩
  · left
    have part : min (early.length - state.cursor) state.remaining = early.length - state.cursor := by
      omega
    have more : state.remaining - (early.length - state.cursor) ≠ 0 := by omega
    refine ⟨state.copyData early (early.length - state.cursor), ?_,
      ⟨rfl, rfl, rfl, rfl, rfl, rfl, rfl⟩, ?_⟩
    · unfold readData
      rw [part]
      exact if_pos more
    · have joined : early.length - state.cursor + min
          (late.length - (state.cursor + (early.length - state.cursor)))
          (state.remaining - (early.length - state.cursor)) =
          min (late.length - state.cursor) state.remaining := by omega
      have room_left : state.written + (early.length - state.cursor) ≤ state.out.length := by omega
      have again := copyData_copyData grown le_rfl room_left (min
          (late.length - (state.cursor + (early.length - state.cursor)))
          (state.remaining - (early.length - state.cursor)))
      rw [joined] at again
      unfold readData
      rw [← again]
      rfl

theorem readLength_resumes (within : state.written ≤ head.content_length) :
    state.Resumes (readLength · head) early late := by
  have longer := grown.length_le
  by_cases large : state.out.length < head.content_length
  · right
    have early_fails : state.readLength head early = state.fail .body_too_large := if_pos large
    have late_fails : state.readLength head late = state.fail .body_too_large := if_pos large
    dsimp only
    rw [early_fails, late_fails]
    exact ⟨fun _ => Turn.stop_ne_wait, rfl⟩
  by_cases enough : head.content_length - state.written ≤ early.length - state.cursor
  · right
    have whole := min_eq_right enough
    have whole_late : min (late.length - state.cursor) (head.content_length - state.written) =
        head.content_length - state.written := by omega
    have same : state.readLength head late = state.readLength head early := by
      unfold readLength
      rw [whole, whole_late, copy_grown grown enough]
    dsimp only
    rw [same]
    have all : state.written + (head.content_length - state.written) = head.content_length := by omega
    have finishes : state.readLength head early =
        (state.copy early (head.content_length - state.written)).finish head := by
      unfold readLength
      rw [if_neg large, whole]
      exact if_neg (not_not.mpr all)
    rw [finishes]
    exact ⟨fun _ => Turn.stop_ne_wait, rfl⟩
  · left
    have part : min (early.length - state.cursor) (head.content_length - state.written) =
        early.length - state.cursor := by omega
    have room : state.written + (early.length - state.cursor) ≤ state.out.length := by omega
    have more : state.written + (early.length - state.cursor) ≠ head.content_length := by omega
    refine ⟨state.copy early (early.length - state.cursor), ?_,
      ⟨rfl, rfl, rfl, rfl, rfl, rfl, rfl⟩, ?_⟩
    · change state.readLength head early = _
      unfold readLength
      rw [if_neg large, part]
      exact if_pos more
    · have joined : early.length - state.cursor + min
          (late.length - (state.cursor + (early.length - state.cursor)))
          (head.content_length - (state.written + (early.length - state.cursor))) =
          min (late.length - state.cursor) (head.content_length - state.written) := by omega
      have again := copy_copy grown le_rfl room (min
          (late.length - (state.cursor + (early.length - state.cursor)))
          (head.content_length - (state.written + (early.length - state.cursor))))
      rw [joined] at again
      change ((state.copy early _).readLength head late).map erase = (state.readLength head late).map erase
      unfold readLength
      rw [← again, copy_length le_rfl room, if_neg large, if_neg large]
      rfl

theorem readToClose_resumes (fits : state.written ≤ state.out.length) :
    state.Resumes readToClose early late := by
  have longer := grown.length_le
  by_cases large : state.out.length - state.written < early.length - state.cursor
  · right
    unfold readToClose
    dsimp only
    rw [if_pos large, if_pos (by omega)]
    exact ⟨fun _ => Turn.stop_ne_wait, rfl⟩
  · left
    have room : state.written + (early.length - state.cursor) ≤ state.out.length := by omega
    refine ⟨state.copy early (early.length - state.cursor), ?_,
      ⟨rfl, rfl, rfl, rfl, rfl, rfl, rfl⟩, ?_⟩
    · unfold readToClose
      exact if_neg large
    · have joined : early.length - state.cursor +
          (late.length - (state.cursor + (early.length - state.cursor))) =
          late.length - state.cursor := by omega
      have again := copy_copy grown le_rfl room
        (late.length - (state.cursor + (early.length - state.cursor)))
      rw [joined] at again
      unfold readToClose
      dsimp only
      rw [← again, copy_length le_rfl room]
      by_cases past : state.out.length - state.written < late.length - state.cursor
      · have over_copied : state.out.length - (state.written + (early.length - state.cursor)) <
            late.length - (state.cursor + (early.length - state.cursor)) := by omega
        rw [if_pos past]
        exact congrArg (Turn.map erase) (if_pos over_copied) |>.trans rfl
      · have under_copied : ¬ state.out.length - (state.written + (early.length - state.cursor)) <
            late.length - (state.cursor + (early.length - state.cursor)) := by omega
        rw [if_neg past]
        exact congrArg (Turn.map erase) (if_neg under_copied)

end

theorem work_erase (input : Bytes) (working : state.failure = none) :
    work input state.erase = work input state := by
  rw [erase_working working]
  rfl

theorem erase_eq_self (working : state.failure = none)
    (unmarked : state.seen_input = 0 ∧ state.header_scan = 0 ∧ state.line_scan = 0) :
    state.erase = state := by
  rw [erase_working working]
  obtain ⟨decoder, out⟩ := state
  cases decoder
  simp_all [unmark]

theorem Aligned.erase_eq (aligned : state.Aligned after) (erased : state.erase = state)
    (working : state.failure = none) : after.erase = after := by
  have marks : state.seen_input = 0 ∧ state.header_scan = 0 ∧ state.line_scan = 0 := by
    rw [← erased, erase_working working]
    exact ⟨rfl, rfl, rfl⟩
  exact erase_eq_self (aligned.failure.trans working)
    ⟨aligned.marks.1.trans marks.1, aligned.marks.2.1.trans marks.2.1, aligned.marks.2.2.trans marks.2.2⟩

/-- A turn without marks; a failed decoder takes none. -/
def plainTurn (input : Bytes) (state : Decoding) : Turn Decoding DecodeResult :=
  match state.failure with
  | some error => .stop state (.failure error)
  | none => (turn input state.erase).map erase

theorem plainTurn_working (working : state.failure = none) (input : Bytes) :
    plainTurn input state = (turn input state.erase).map erase := by
  unfold plainTurn
  rw [working]

theorem plainTurn_advances (taken : plainTurn input state = .next after) :
    work input after < work input state := by
  cases working : state.failure with
  | some error =>
    unfold plainTurn at taken
    rw [working] at taken
    cases taken
  | none =>
    rw [plainTurn_working working] at taken
    rw [← work_erase input working]
    cases turned : turn input state.erase with
    | wait other | stop other answer => rw [turned] at taken; cases taken
    | next other =>
      rw [turned] at taken
      cases taken
      have kept := turn_next_failure turned
      rw [erase_working working] at kept
      rw [work_erase input (kept.trans working)]
      exact turn_advances turned

/-- The decoder without marks. -/
def plainMachine : Machine Bytes Decoding DecodeResult := ⟨plainTurn, work, plainTurn_advances⟩

theorem Holds.stands {early_turn late_turn : Turn Decoding DecodeResult}
    (working : state.failure = none) (erased : state.erase = state)
    (late_eq : turn late state = late_turn) (holds : Holds early_turn late_turn)
    (waits : ∀ after, early_turn = .wait after → after.erase = state.erase) :
    (early_turn.map erase).Stands (plainTurn late) (late_turn.map erase) := by
  have again : plainTurn late state = late_turn.map erase := by
    rw [plainTurn_working working, erased, late_eq]
  cases early_turn with
  | wait after =>
    change plainTurn late after.erase = _
    rw [waits after rfl, erased, again]
  | next after | stop after answer =>
    rcases holds with ⟨other, same⟩ | same
    · cases same
    · exact same.symm

theorem Resumes.stands {read : Decoding → Bytes → Turn Decoding DecodeResult}
    (working : state.failure = none) (erased : state.erase = state)
    (resumes : state.Resumes read early late)
    (reads : ∀ other, state.Aligned other → turn late other = read other late) :
    ((read state early).map erase).Stands (plainTurn late) ((read state late).map erase) := by
  rcases resumes with ⟨after, taken, aligned, again⟩ | same
  · rw [taken]
    change plainTurn late after.erase = _
    rw [aligned.erase_eq erased working, plainTurn_working (aligned.failure.trans working),
      aligned.erase_eq erased working, reads after aligned, again]
  · obtain ⟨moves, same⟩ := same
    cases taken : read state early with
    | wait after => exact absurd taken (moves after)
    | next after | stop after answer =>
      rw [taken] at same
      exact same.symm

theorem turn_head (read : state.head = some head) : turn early state = state.readBody head early := by
  unfold turn
  rw [read]

theorem readChunked_stands (grown : early <+: late) (fitting : state.Fitting)
    (working : state.failure = none) (erased : state.erase = state)
    (turns : ∀ other, state.Aligned other → turn late other = other.readChunked head late) :
    ((state.readChunked head early).map erase).Stands (plainTurn late)
      ((state.readChunked head late).map erase) := by
  have late_eq := turns state ⟨rfl, rfl, rfl, rfl, rfl, rfl, rfl⟩
  unfold readChunked at late_eq ⊢
  split
  · next phase =>
      rw [phase] at late_eq
      exact Holds.stands working erased late_eq (readSize_holds grown) fun _ => readSize_wait
  · next phase =>
      refine Resumes.stands working erased (readData_resumes grown (fitting.data phase).1) ?_
      intro other aligned
      rw [turns other aligned, readChunked, aligned.phase, phase]
  · next phase =>
      rw [phase] at late_eq
      exact Holds.stands working erased late_eq (readDataEnd_holds grown) fun _ => readDataEnd_wait
  · next phase =>
      rw [phase] at late_eq
      exact Holds.stands working erased late_eq (readTrailer_holds grown) fun _ => readTrailer_wait

/-- A turn of the decoder without marks stands however the input grows. -/
theorem turn_stands (grown : early <+: late) (fitting : state.Fitting)
    (working : state.failure = none) (erased : state.erase = state) :
    ((turn early state).map erase).Stands (plainTurn late) ((turn late state).map erase) := by
  cases read : state.head with
  | none =>
    have turns (input : Bytes) : turn input state = state.readHead input := by
      unfold turn
      rw [read]
    have unmarked : state.header_scan = 0 := by
      rw [← erased, erase_working working]
      rfl
    rw [turns, turns]
    exact Holds.stands working erased (turns late) (readHead_holds grown unmarked)
      fun _ => readHead_wait
  | some head =>
    have turns (other : Decoding) (aligned : state.Aligned other) :
        turn late other = other.readBody head late := turn_head (aligned.head.trans read)
    rw [turn_head read, turn_head read]
    by_cases bare : noBody state.method head = true
    · have finishes (input : Bytes) : state.readBody head input = state.finish head := if_pos bare
      rw [finishes, finishes]
      rfl
    have body (other : Decoding) (aligned : state.Aligned other) : ¬ noBody other.method head = true := by
      rw [aligned.method]
      exact bare
    have self : state.Aligned state := ⟨rfl, rfl, rfl, rfl, rfl, rfl, rfl⟩
    have resumed {read : Decoding → Bytes → Turn Decoding DecodeResult}
        (framed : ∀ (other : Decoding) (input : Bytes), ¬ noBody other.method head = true →
          other.readBody head input = read other input)
        (resumes : state.Resumes read early late) :
        ((state.readBody head early).map erase).Stands (plainTurn late)
          ((state.readBody head late).map erase) := by
      rw [framed state early bare, framed state late bare]
      refine Resumes.stands working erased resumes fun other aligned => ?_
      rw [turns other aligned, framed other late (body other aligned)]
    cases framed : head.transfer with
    | none =>
      have finishes (input : Bytes) : state.readBody head input = state.finish head := by
        rw [readBody, if_neg bare, framed]
      rw [finishes, finishes]
      rfl
    | content_length =>
      refine resumed (fun other input body => ?_)
        (readLength_resumes grown (fitting.length head read framed))
      rw [readBody, if_neg body, framed]
    | close_delimited =>
      refine resumed (fun other input body => ?_) (readToClose_resumes grown fitting.fits)
      rw [readBody, if_neg body, framed]
    | chunked =>
      have reads (input : Bytes) (other : Decoding) (aligned : state.Aligned other) :
          other.readBody head input = other.readChunked head input := by
        rw [readBody, if_neg (body other aligned), framed]
      rw [reads early state self, reads late state self]
      refine readChunked_stands grown fitting working erased ?_
      intro other aligned
      rw [turns other aligned, reads late other aligned]

/-- The marks are not ahead of what was searched. -/
structure Marked (input : Bytes) (state : Decoding) : Prop where
  working : state.failure = none
  unfinished : state.done = false
  header : state.header_scan ≤ min (input.length - 3) max_header_bytes ∧
    ∀ place < state.header_scan, ¬ OccursAt input blankLine place
  unread : state.head = none → state.line_scan = 0
  line : state.line_scan ≤ max state.cursor (input.length - 1) ∧
    ∀ place, state.cursor ≤ place → place < state.line_scan → ¬ OccursAt input crlf place

theorem Marked.grown (marked : state.Marked early) (grown : early <+: late) : state.Marked late := by
  have longer := grown.length_le
  obtain ⟨rest, rfl⟩ := grown
  have four : blankLine.length = 4 := rfl
  have two : crlf.length = 2 := rfl
  obtain ⟨header_low, header_none⟩ := marked.header
  obtain ⟨line_low, line_none⟩ := marked.line
  refine ⟨marked.working, marked.unfinished, ⟨by omega, fun place before occurs => ?_⟩, marked.unread, by omega,
    fun place after before occurs => ?_⟩
  · exact header_none place before (occurs.of_append (by omega))
  · exact line_none place after before (occurs.of_append (by omega))

theorem unmark_erase (state : Decoding) : state.unmark.erase = state.erase := rfl

theorem lineEnd_unmark (marked : state.Marked input) :
    (∃ scanned, state.lineEnd input = (none, { state with line_scan := scanned }) ∧
      state.unmark.lineEnd input = (none, { state.unmark with line_scan := scanned })) ∨
    ∃ stop, state.lineEnd input = (some stop, state) ∧
      state.unmark.lineEnd input = (some stop, state.unmark) := by
  have skipped : indexWithin input crlf (max state.cursor state.line_scan)
      (min input.length (state.cursor + max_header_bytes)) =
      indexWithin input crlf (max state.cursor 0)
        (min input.length (state.cursor + max_header_bytes)) := by
    refine indexWithin_skip (by decide) (by omega) fun place low high => ?_
    exact marked.line.2 place (by omega) (by omega)
  unfold lineEnd unmark
  dsimp only
  rw [skipped]
  split
  · exact .inr ⟨_, rfl, rfl⟩
  · exact .inl ⟨_, rfl, rfl⟩

theorem readSize_unmark (marked : state.Marked input) :
    (state.unmark.readSize input).map erase = (state.readSize input).map erase := by
  unfold readSize
  obtain ⟨scanned, found, plain_found⟩ | ⟨stop, found, plain_found⟩ := lineEnd_unmark marked
  · rw [found, plain_found]
    dsimp [unmark]
    split <;> rfl
  · rw [found, plain_found]
    dsimp [unmark]
    split
    · rfl
    split
    · rfl
    split <;> rfl

theorem readTrailerField_unmark :
    (state.unmark.readTrailerField line).map erase = (state.readTrailerField line).map erase := by
  unfold readTrailerField unmark
  dsimp only
  split
  · rfl
  split
  · rfl
  split <;> rfl

theorem readTrailer_unmark (marked : state.Marked input) :
    (state.unmark.readTrailer head input).map erase = (state.readTrailer head input).map erase := by
  unfold readTrailer
  obtain ⟨scanned, found, plain_found⟩ | ⟨stop, found, plain_found⟩ := lineEnd_unmark marked
  · rw [found, plain_found]
    dsimp [unmark]
    split <;> rfl
  · rw [found, plain_found]
    dsimp [unmark]
    split
    · rfl
    split
    · rfl
    · refine Eq.trans ?_ readTrailerField_unmark
      rfl

theorem readDataEnd_unmark :
    (state.unmark.readDataEnd input).map erase = (state.readDataEnd input).map erase := by
  unfold readDataEnd unmark
  dsimp only
  split
  · rfl
  split <;> rfl

theorem readData_unmark : (state.unmark.readData input).map erase = (state.readData input).map erase := by
  unfold readData unmark copyData copy
  dsimp only
  split <;> rfl

theorem readLength_unmark :
    (state.unmark.readLength head input).map erase = (state.readLength head input).map erase := by
  unfold readLength unmark copy
  dsimp only
  split
  · rfl
  split <;> rfl

theorem readToClose_unmark :
    (state.unmark.readToClose input).map erase = (state.readToClose input).map erase := by
  unfold readToClose unmark copy
  dsimp only
  split <;> rfl

section

variable (marked : state.Marked input)

include marked

theorem readHead_unmark :
    (state.unmark.readHead input).map erase = (state.readHead input).map erase := by
  have inside := marked.header.1
  have skipped : indexWithin input blankLine state.header_scan (min input.length max_header_bytes) =
      indexWithin input blankLine 0 (min input.length max_header_bytes) :=
    indexWithin_skip (by decide) (Nat.zero_le _) fun place _ high => marked.header.2 place high
  have passed : ¬ min input.length max_header_bytes < state.header_scan := by omega
  unfold readHead unmark
  dsimp only
  rw [if_neg (Nat.not_lt_zero _), if_neg passed, skipped]
  split
  · split <;> rfl
  · split <;> rfl

theorem readBody_unmark :
    (state.unmark.readBody head input).map erase = (state.readBody head input).map erase := by
  have method_eq : state.unmark.method = state.method := rfl
  unfold readBody
  rw [method_eq]
  split
  · rfl
  split
  · rfl
  · exact readLength_unmark
  · exact readToClose_unmark
  · have phase_eq : state.unmark.phase = state.phase := rfl
    unfold readChunked
    rw [phase_eq]
    split
    · exact readSize_unmark marked
    · exact readData_unmark
    · exact readDataEnd_unmark
    · exact readTrailer_unmark marked

theorem turn_unmark :
    plainTurn input state.erase = (turn input state).map erase := by
  rw [erase_working marked.working]
  have working : state.unmark.failure = none := marked.working
  rw [plainTurn_working working, unmark_erase, erase_working marked.working]
  have head_eq : state.unmark.head = state.head := rfl
  unfold turn
  rw [head_eq]
  split
  · exact readHead_unmark marked
  · exact readBody_unmark marked

theorem Marked.fields (working : after.failure = none)
    (done : after.done = state.done) (header : after.header_scan = state.header_scan) (head_eq : after.head = state.head)
    (cursor : state.cursor ≤ after.cursor)
    (line_scan : after.line_scan = state.line_scan ∨ after.line_scan = 0) :
    after.Marked input := by
  refine ⟨working, done.trans marked.unfinished, by rw [header]; exact marked.header, fun unread => ?_, ?_, fun place low high => ?_⟩
  · rw [head_eq] at unread
    exact line_scan.elim (fun same => same.trans (marked.unread unread)) id
  · have low := marked.line.1
    omega
  · exact marked.line.2 place (by omega) (by omega)

theorem lineEnd_marked (missing : state.lineEnd input = (none, after))
    (read : state.head ≠ none) : after.Marked input := by
  have after_eq := lineEnd_none missing
  unfold lineEnd at missing
  dsimp only at missing
  split at missing
  · cases missing
  next absent =>
  have two : crlf.length = 2 := rfl
  subst after_eq
  refine ⟨marked.working, marked.unfinished, marked.header, fun unread => absurd unread read, ?_, fun place low high => ?_⟩
  · dsimp only
    omega
  · dsimp only at low high
    by_cases before : place < state.line_scan
    · exact marked.line.2 place low before
    · exact (indexWithin_eq_none (by decide)).mp absent place (by omega) (by omega)

theorem readHead_marked (unread : state.head = none) :
    (state.readHead input).Going (Marked input) := by
  obtain ⟨low, absent⟩ := marked.header
  have four : blankLine.length = 4 := rfl
  unfold readHead
  dsimp only
  split
  · trivial
  split
  · next missing =>
      split
      · trivial
      · refine ⟨marked.working, marked.unfinished, ⟨by dsimp only; omega, fun place before => ?_⟩, marked.unread, marked.line⟩
        by_cases early : place < state.header_scan
        · exact absent place early
        · dsimp only at before
          exact (indexWithin_eq_none (by decide)).mp missing place (by omega) (by omega)
  · split
    · exact marked
    · trivial
    · next head parsed =>
        have unsearched := marked.unread unread
        refine ⟨marked.working, marked.unfinished, marked.header, fun _ => unsearched, ?_, fun place after before => ?_⟩
        · dsimp only
          omega
        · dsimp only at before
          omega

theorem readSize_marked (read : state.head ≠ none) :
    (state.readSize input).Going (Marked input) := by
  unfold readSize
  split
  · next searched missing =>
      split
      · trivial
      · exact lineEnd_marked marked missing read
  · next stop searched found =>
      obtain ⟨rfl, low, -⟩ := lineEnd_some found
      split
      · trivial
      dsimp only
      split
      · trivial
      split
      · trivial
      · exact marked.fields marked.working rfl rfl rfl (by dsimp only; omega) (.inr rfl)

theorem readData_marked :
    (state.readData input).Going (Marked input) := by
  unfold readData
  dsimp only
  split
  · exact marked.fields marked.working rfl rfl rfl (Nat.le_add_right _ _) (.inl rfl)
  · exact marked.fields marked.working rfl rfl rfl (Nat.le_add_right _ _) (.inl rfl)

theorem readDataEnd_marked :
    (state.readDataEnd input).Going (Marked input) := by
  unfold readDataEnd
  split
  · exact marked
  split
  · trivial
  · exact marked.fields marked.working rfl rfl rfl (Nat.le_add_right _ _) (.inl rfl)

theorem readTrailer_marked (read : state.head ≠ none) :
    (state.readTrailer head input).Going (Marked input) := by
  unfold readTrailer
  split
  · next searched missing =>
      split
      · trivial
      · exact lineEnd_marked marked missing read
  · next stop searched found =>
      obtain ⟨rfl, low, -⟩ := lineEnd_some found
      split
      · trivial
      dsimp only
      split
      · trivial
      unfold readTrailerField
      dsimp only
      split
      · trivial
      split
      · trivial
      split
      · trivial
      · exact marked.fields marked.working rfl rfl rfl (by dsimp only; omega) (.inr rfl)

theorem turn_marked : (turn input state).Going (Marked input) := by
  unfold turn
  split
  · next unread => exact readHead_marked marked unread
  next head read =>
  have some_head : state.head ≠ none := by simp [read]
  unfold readBody
  split
  · trivial
  split
  · trivial
  · unfold readLength
    split
    · trivial
    dsimp only
    split
    · exact marked.fields marked.working rfl rfl rfl (Nat.le_add_right _ _) (.inl rfl)
    · trivial
  · unfold readToClose
    dsimp only
    split
    · trivial
    · exact marked.fields marked.working rfl rfl rfl (Nat.le_add_right _ _) (.inl rfl)
  · unfold readChunked
    split
    · exact readSize_marked marked some_head
    · exact readData_marked marked
    · exact readDataEnd_marked marked
    · exact readTrailer_marked marked some_head

end

theorem copied_saturates (first second : Nat) :
    min (min first maxWord + second) maxWord = min (first + second) maxWord := by omega

section

variable (fitting : state.Fitting)

include fitting

theorem Fitting.failed (error : ResponseError) :
    (state.fail error).state.Fitting :=
  ⟨fitting.fits, fitting.copied, fitting.unread, fitting.length, fitting.data⟩

theorem Fitting.finished (head : ParsedHead) :
    (state.finish head).state.Fitting :=
  ⟨fitting.fits, fitting.copied, fitting.unread, fitting.length, fitting.data⟩

theorem Fitting.copy (available : first ≤ early.length - state.cursor)
    (room : state.written + first ≤ state.out.length) (read : state.head = some head)
    (within : head.transfer = .content_length → state.written + first ≤ head.content_length)
    (idle : state.phase ≠ .data) : (state.copy early first).Fitting := by
  have length := copy_length available room
  refine ⟨?_, ?_, fun unread => ?_, fun other same framed => ?_, fun phase => absurd phase idle⟩
  · rw [length]
    exact room
  · change min (state.copied_bytes + first) maxWord = min (state.written + first) maxWord
    rw [fitting.copied, copied_saturates]
  · exact absurd (unread.symm.trans read) nofun
  · cases read.symm.trans same
    exact within framed

theorem Fitting.copyData (available : first ≤ early.length - state.cursor)
    (part : first ≤ state.remaining) (phase : state.phase = .data) :
    (state.copyData early first).Fitting := by
  obtain ⟨room, head, read, framed, full⟩ := fitting.data phase
  have length := copy_length available (show state.written + first ≤ state.out.length by omega)
  refine ⟨?_, ?_, fun unread => ?_, fun other same counted => ?_, fun _ => ⟨?_, head, read, framed, full⟩⟩
  · change state.written + first ≤ (state.copy early first).out.length
    omega
  · change min (state.copied_bytes + first) maxWord = min (state.written + first) maxWord
    rw [fitting.copied, copied_saturates]
  · exact absurd (unread.symm.trans read) nofun
  · cases read.symm.trans same
    exact absurd (framed.symm.trans counted) nofun
  · change state.written + first + (state.remaining - first) ≤ (state.copy early first).out.length
    omega

/-- A decoder that is not inside a chunk. -/
theorem Fitting.outside (head_eq : after.head = state.head)
    (written : after.written = state.written) (copied : after.copied_bytes = state.copied_bytes)
    (out : after.out = state.out) (idle : after.phase ≠ .data) : after.Fitting := by
  refine ⟨?_, ?_, ?_, ?_, fun phase => absurd phase idle⟩
  · rw [written, out]
    exact fitting.fits
  · rw [copied, written]
    exact fitting.copied
  · rw [head_eq, written]
    exact fitting.unread
  · rw [head_eq, written]
    exact fitting.length

theorem readHead_fitting (unread : state.head = none) :
    (state.readHead input).state.Fitting := by
  have idle : state.phase ≠ .data := by
    intro phase
    obtain ⟨-, head, read, -⟩ := fitting.data phase
    exact absurd (unread.symm.trans read) nofun
  have blank := fitting.unread unread
  unfold readHead
  dsimp only
  split
  · exact fitting.failed _
  split
  · split
    · exact fitting.outside rfl rfl rfl rfl idle
    · exact fitting.outside rfl rfl rfl rfl idle
  split
  · exact fitting
  · exact fitting.failed _
  · refine ⟨fitting.fits, fitting.copied, nofun, fun _ _ _ => ?_, fun phase => absurd phase idle⟩
    exact le_of_eq_of_le blank (Nat.zero_le _)

theorem readSize_fitting (read : state.head = some head)
    (framed : head.transfer = .chunked) (full : noBody state.method head = false)
    (idle : state.phase ≠ .data) : (state.readSize input).state.Fitting := by
  unfold readSize
  split
  · next searched missing =>
      rw [lineEnd_none missing]
      split
      · exact fitting.outside rfl rfl rfl rfl idle
      · exact fitting.outside rfl rfl rfl rfl idle
  · next stop searched found =>
      obtain ⟨rfl, -, -⟩ := lineEnd_some found
      split
      · exact fitting.failed _
      dsimp only
      split
      · exact fitting.failed _
      split
      · exact fitting.outside rfl rfl rfl rfl idle
      · next remaining parsed room =>
          have fits := fitting.fits
          refine ⟨fits, fitting.copied, fitting.unread, fitting.length, fun _ => ⟨?_, head, read, framed, full⟩⟩
          dsimp only [Turn.state] at room ⊢
          omega

theorem readData_fitting (phase : state.phase = .data) :
    (state.readData input).state.Fitting := by
  have copied : (state.copyData input (min (input.length - state.cursor) state.remaining)).Fitting :=
    fitting.copyData (min_le_left _ _) (min_le_right _ _) phase
  unfold readData
  dsimp only
  split
  · exact copied
  · exact copied.outside rfl rfl rfl rfl nofun

theorem readDataEnd_fitting : (state.readDataEnd input).state.Fitting := by
  unfold readDataEnd
  split
  · exact fitting
  split
  · exact fitting.failed _
  · exact fitting.outside rfl rfl rfl rfl nofun

theorem readTrailerField_fitting :
    (state.readTrailerField line).state.Fitting := by
  unfold readTrailerField
  dsimp only
  split
  · exact ⟨fitting.fits, fitting.copied, fitting.unread, fitting.length, fitting.data⟩
  split
  · exact ⟨fitting.fits, fitting.copied, fitting.unread, fitting.length, fitting.data⟩
  split
  · exact ⟨fitting.fits, fitting.copied, fitting.unread, fitting.length, fitting.data⟩
  · exact ⟨fitting.fits, fitting.copied, fitting.unread, fitting.length, fitting.data⟩

theorem readTrailer_fitting (idle : state.phase ≠ .data) :
    (state.readTrailer head input).state.Fitting := by
  unfold readTrailer
  split
  · next searched missing =>
      rw [lineEnd_none missing]
      split
      · exact fitting.outside rfl rfl rfl rfl idle
      · exact fitting.outside rfl rfl rfl rfl idle
  · next stop searched found =>
      obtain ⟨rfl, -, -⟩ := lineEnd_some found
      split
      · exact fitting.failed _
      dsimp only
      split
      · exact fitting.outside rfl rfl rfl rfl idle
      · exact readTrailerField_fitting (fitting.outside rfl rfl rfl rfl idle)

theorem turn_fitting : (turn input state).state.Fitting := by
  unfold turn
  split
  · next unread => exact readHead_fitting fitting unread
  next head read =>
  unfold readBody
  split
  · exact fitting.finished head
  next full =>
  have idle (framed : head.transfer ≠ .chunked) : state.phase ≠ .data := by
    intro phase
    obtain ⟨-, other, same, other_framed, -⟩ := fitting.data phase
    cases read.symm.trans same
    exact framed other_framed
  split
  · exact fitting.finished head
  · next framed =>
      have within := fitting.length head read framed
      unfold readLength
      split
      · exact fitting.failed _
      dsimp only
      have copied : (state.copy input (min (input.length - state.cursor)
          (head.content_length - state.written))).Fitting :=
        fitting.copy (min_le_left _ _) (by omega) read (fun _ => by omega) (idle (by rw [framed]; nofun))
      split
      · exact copied
      · exact copied.finished head
  · next framed =>
      unfold readToClose
      dsimp only
      split
      · exact fitting.failed _
      · have fits := fitting.fits
        exact fitting.copy le_rfl (by omega) read (fun counted => absurd (framed.symm.trans counted) nofun)
          (idle (by rw [framed]; nofun))
  · next framed =>
      unfold readChunked
      split
      · next phase =>
          exact readSize_fitting fitting read framed (Bool.eq_false_iff.mpr full) (by rw [phase]; nofun)
      · next phase => exact readData_fitting fitting phase
      · exact readDataEnd_fitting fitting
      · next phase => exact readTrailer_fitting fitting (by rw [phase]; nofun)

end

theorem plain_simulates : plainMachine.Simulates machine erase Marked where
  turn marked := turn_unmark marked
  kept _ _ marked := turn_marked marked

/-- What stands for a decoder without marks. -/
def Plain (state : Decoding) : Prop := state.Fitting ∧ state.erase = state

theorem Fitting.erase (fitting : state.Fitting) : state.erase.Plain := by
  refine ⟨?_, erase_erase state⟩
  cases failed : state.failure with
  | none =>
    rw [erase_working failed]
    exact ⟨fitting.fits, fitting.copied, fitting.unread, fitting.length, fitting.data⟩
  | some error =>
    rw [erase_failed failed]
    refine ⟨le_rfl, rfl, fun _ => rfl, fun head found => ?_, fun reading => ?_⟩
    · cases found
    · cases reading

/-- The turns of the decoder without marks stand however the input grows. -/
theorem plain_stable : plainMachine.Stable (· <+: ·) Plain where
  stands {early late state} grown plain := by
    change (plainTurn early state).Stands (plainTurn late) (plainTurn late state)
    cases working : state.failure with
    | some error =>
      unfold plainTurn
      rw [working]
      rfl
    | none =>
      rw [plainTurn_working working, plainTurn_working working, plain.2]
      exact turn_stands grown plain.1 working plain.2
  kept input {state} plain := by
    change Plain (plainTurn input state).state
    cases working : state.failure with
    | some error =>
      unfold plainTurn
      rw [working]
      exact plain
    | none =>
      rw [plainTurn_working working, plain.2, Turn.state_map]
      exact (turn_fitting plain.1).erase

end Growth

end Decoding

end R4OS.Http
