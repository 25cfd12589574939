import R4OS.Block.Fields

/-!
# Decompression of units

A compressed unit is a sequence of chunks whose references copy bytes that the chunk has produced.
The split of a reference depends on how much that is, so a chunk of few bytes must not grow too far.
-/

namespace R4OS.NtfsFormat

open Text Block

/-- Why decompression stops: it answers nothing, it traps, or its loops do not end. -/
inductive Stop
  | null
  | trap
  | endless
  deriving DecidableEq

/-- A place in the source and what was produced. -/
structure Progress where
  input : Nat
  output : Bytes
  deriving DecidableEq

section Decompression

variable (src : Bytes) (room chunk_end chunk_out_start : Nat)

/-- A word of the source. -/
def wordAt (place : Nat) : Except Stop Nat :=
  match src[place]?, src[place + 1]? with
  | some low, some high => .ok (ofLeBytes [low, high])
  | _, _ => .error .trap

def store (output bytes : Bytes) : Except Stop Bytes :=
  if output.length + bytes.length ≤ room then .ok (output ++ bytes) else .error .trap

/-- Count the bits that a distance needs beyond four.  The counter has four bits. -/
def lengthBits : (rounds u l : Nat) → Except Stop Nat
  | 0, _, _ => .error .endless
  | rounds + 1, u, l =>
    if u < 0x10 then .ok l
    else if l = 15 then .error .trap
    else lengthBits rounds (u >>> 1) (l + 1)

/-- Copy bytes that the chunk has produced, one by one. -/
def copyBack (offset : Nat) : Nat → Bytes → Except Stop Bytes
  | 0, output => .ok output
  | count + 1, output =>
    -- reading a byte that another chunk has produced counts as a trap
    if output.length < chunk_out_start + offset then .error .trap
    else match output[output.length - offset]? with
      | none => .error .trap
      | some byte => (store room output [byte]).bind (copyBack offset count)

/-- One item of a chunk: a byte, or a reference to what was produced. -/
def token (reference : Bool) (state : Progress) : Except Stop Progress :=
  if reference = false then
    if room < state.output.length + 1 then .error .null
    else match src[state.input]? with
      | none => .error .trap
      | some byte => (store room state.output [byte]).map fun output => ⟨state.input + 1, output⟩
  else if chunk_end < state.input + 2 then .error .null
  else (wordAt src state.input).bind fun tuple =>
    if state.output.length < chunk_out_start then .error .trap
    else
      let written := state.output.length - chunk_out_start
      if written = 0 then .error .null
      else (lengthBits 17 (written - 1) 0).bind fun l =>
        if 12 < l then .error .trap
        else
          let length := (tuple &&& (0x0FFF >>> l)) + 3
          let offset := tuple >>> (12 - l) + 1
          if written < offset then .error .null
          else if room < state.output.length + length then .error .null
          else (copyBack room chunk_out_start offset length state.output).map fun output =>
            ⟨state.input + 2, output⟩

/-- The items of one byte of flags. -/
def tokens : (left : Nat) → (flags : UInt8) → Progress → Except Stop Progress
  | 0, _, state => .ok state
  | left + 1, flags, state =>
    if chunk_end ≤ state.input then .ok state
    else (token src room chunk_end chunk_out_start (flags &&& 1 ≠ 0) state).bind fun state =>
      if room ≤ state.output.length then .ok state else tokens left (flags >>> 1) state

/-- The groups of items of a compressed chunk. -/
def groups : (rounds : Nat) → Progress → Except Stop Progress
  | 0, _ => .error .endless
  | rounds + 1, state =>
    if ¬(state.input < chunk_end ∧ state.output.length < room) then .ok state
    else match src[state.input]? with
      | none => .error .trap
      | some flags =>
        (tokens src room chunk_end chunk_out_start 8 flags ⟨state.input + 1, state.output⟩).bind
          (groups rounds)

/-- The chunks of a unit. -/
def chunks : (rounds : Nat) → Progress → Except Stop Bytes
  | 0, _ => .error .endless
  | rounds + 1, state =>
    if ¬(state.input + 2 ≤ src.length ∧ state.output.length < room) then .ok state.output
    else (wordAt src state.input).bind fun header =>
      let start := state.input + 2
      let payload_len := (header &&& 0x0FFF) + 1
      if header = 0 then .ok state.output
      else if header &&& 0x7000 ≠ 0x3000 then .error .null
      else if src.length < start + payload_len then .error .null
      else if header &&& 0x8000 = 0 then
        if room < state.output.length + payload_len then .error .null
        else (store room state.output (slice src start payload_len)).bind fun output =>
          chunks rounds ⟨start + payload_len, output⟩
      else (groups src room (start + payload_len) state.output.length (payload_len + 1)
        ⟨start, state.output⟩).bind fun after =>
          chunks rounds ⟨start + payload_len, after.output⟩

/-- Decompress a unit into a buffer with some room. -/
def lznt1Decompress : Except Stop Bytes := chunks src room (src.length + 1) ⟨0, []⟩

end Decompression

/-- A result is refused, or it satisfies an assertion. -/
def Safe {Result : Type} (post : Result → Prop) : Except Stop Result → Prop
  | .ok result => post result
  | .error stop => stop = .null

section Safety

variable {First Second : Type} {src : Bytes} {room chunk_end chunk_out_start start : Nat}

theorem Safe.bind {middle : First → Prop} {post : Second → Prop} {first : Except Stop First}
    {rest : First → Except Stop Second} (safe : Safe middle first)
    (next : ∀ result, middle result → Safe post (rest result)) : Safe post (first.bind rest) := by
  cases first with
  | ok result => exact next result safe
  | error stop => exact safe

theorem Safe.map {middle : First → Prop} {post : Second → Prop} {first : Except Stop First}
    {change : First → Second} (safe : Safe middle first)
    (next : ∀ result, middle result → post (change result)) : Safe post (first.map change) := by
  cases first with
  | ok result => exact next result safe
  | error stop => exact safe

theorem wordAt_safe {place : Nat} (inside : place + 2 ≤ src.length) :
    Safe (fun _ => True) (wordAt src place) := by
  rw [wordAt, List.getElem?_eq_getElem (by omega), List.getElem?_eq_getElem (by omega)]
  trivial

theorem store_safe {output bytes : Bytes} (fits : output.length + bytes.length ≤ room) :
    Safe (fun after => after.length = output.length + bytes.length) (store room output bytes) := by
  rw [store, if_pos fits]
  exact List.length_append

/-- The counter of a distance of sixteen bits stays at twelve, and bounds the distance. -/
theorem lengthBits_safe {left rounds u l : Nat} (enough : left < rounds)
    (small : u < 2 ^ (left + 4)) (low : l + left ≤ 12) :
    Safe (fun bits => bits ≤ 12 ∧ ∃ more, bits = l + more ∧ u < 2 ^ (more + 4))
      (lengthBits rounds u l) := by
  induction left generalizing rounds u l with
  | zero =>
    obtain ⟨rounds, rfl⟩ := Nat.exists_eq_succ_of_ne_zero (Nat.ne_of_gt enough)
    have found : u < 0x10 := small
    rw [lengthBits, if_pos found]
    exact ⟨low, 0, rfl, found⟩
  | succ left induction =>
    obtain ⟨rounds, rfl⟩ := Nat.exists_eq_succ_of_ne_zero (Nat.ne_of_gt (Nat.zero_lt_of_lt enough))
    rw [lengthBits]
    split
    · rename_i found
      exact ⟨by omega, 0, rfl, found⟩
    rw [if_neg (by omega), Nat.shiftRight_one]
    have half : u / 2 < 2 ^ (left + 4) := by
      rw [show left + 1 + 4 = left + 4 + 1 by omega, Nat.pow_succ] at small
      omega
    have rest := @induction rounds (u / 2) (l + 1) (by omega) half (by omega)
    generalize lengthBits rounds (u / 2) (l + 1) = result at rest ⊢
    cases result with
    | error stop => exact rest
    | ok bits =>
      obtain ⟨few, more, bits_eq, bound⟩ := rest
      refine ⟨few, more + 1, by omega, ?_⟩
      rw [show more + 1 + 4 = more + 4 + 1 by omega, Nat.pow_succ]
      omega

/-- Behind 4096 bytes a reference is short. -/
theorem lengths_short : ∀ bits ≤ 12, 0x0FFF >>> bits ≤ 7 ∨
    2 ^ (bits + 4) ≤ 4096 ∧ 0x0FFF >>> bits ≤ 4095 := by decide

theorem copyBack_safe {offset count : Nat} {output : Bytes} (positive : 0 < offset)
    (inside : chunk_out_start + offset ≤ output.length) (fits : output.length + count ≤ room) :
    Safe (fun after => after.length = output.length + count)
      (copyBack room chunk_out_start offset count output) := by
  induction count generalizing output with
  | zero => rfl
  | succ count induction =>
    rw [copyBack, if_neg (by omega), List.getElem?_eq_getElem (by omega)]
    refine (store_safe (by rw [List.length_singleton]; omega)).bind fun after length => ?_
    rw [List.length_singleton] at length
    have rest := @induction after (by omega) (by omega)
    rwa [length, show output.length + 1 + count = output.length + (count + 1) by omega] at rest

/-- Inside a chunk, the output has grown by few bytes for every byte of the source. -/
structure Within (room chunk_end chunk_out_start start : Nat) (state : Progress) : Prop where
  behind : start ≤ state.input
  inside : state.input ≤ chunk_end
  base : chunk_out_start ≤ state.output.length
  fits : state.output.length ≤ room
  slow : state.output.length ≤ chunk_out_start + 8194 + 10 * (state.input - start)

/-- An item takes bytes of the source and keeps the output slow. -/
theorem token_safe (complete : chunk_end ≤ src.length) (short : chunk_end ≤ start + 4096)
    {state : Progress} (within : Within room chunk_end chunk_out_start start state)
    (more : state.input < chunk_end) (reference : Bool) :
    Safe (fun after => Within room chunk_end chunk_out_start start after ∧
      state.input < after.input) (token src room chunk_end chunk_out_start reference state) := by
  obtain ⟨behind, inside, base, fits, slow⟩ := within
  unfold token
  dsimp only
  split_ifs with literal full cut early empty
  · rfl
  · rw [List.getElem?_eq_getElem (by omega)]
    refine (store_safe (by rw [List.length_singleton]; omega)).map fun output length => ?_
    rw [List.length_singleton] at length
    refine ⟨⟨?_, ?_, ?_, ?_, ?_⟩, ?_⟩ <;> dsimp only <;> omega
  · rfl
  · omega
  · exact (wordAt_safe (by omega)).bind fun _ _ => rfl
  · refine (wordAt_safe (by omega)).bind fun tuple _ => ?_
    refine (lengthBits_safe (by decide : 12 < 17) (by omega) (by decide)).bind ?_
    rintro bits ⟨few, wide, same, bound⟩
    obtain rfl : bits = wide := same.trans (Nat.zero_add wide)
    have masked := @Nat.and_le_right tuple (0x0FFF >>> bits)
    have lengths := lengths_short bits few
    rw [if_neg (Nat.not_lt.mpr few)]
    generalize tuple &&& 0x0FFF >>> bits = length at masked ⊢
    generalize tuple >>> (12 - bits) = offset
    split_ifs
    · rfl
    · rfl
    · refine (copyBack_safe (by omega) (by omega) (by omega)).map fun output length => ?_
      refine ⟨⟨?_, ?_, ?_, ?_, ?_⟩, ?_⟩ <;> dsimp only <;> omega

theorem tokens_safe (complete : chunk_end ≤ src.length) (short : chunk_end ≤ start + 4096)
    (left : Nat) (flags : UInt8) {state : Progress}
    (within : Within room chunk_end chunk_out_start start state) :
    Safe (fun after => Within room chunk_end chunk_out_start start after ∧
      state.input ≤ after.input) (tokens src room chunk_end chunk_out_start left flags state) := by
  induction left generalizing flags state with
  | zero => exact ⟨within, .refl⟩
  | succ left induction =>
    rw [tokens]
    split
    · exact ⟨within, .refl⟩
    refine (token_safe complete short within (by omega) _).bind fun after stepped => ?_
    split
    · exact ⟨stepped.1, Nat.le_of_lt stepped.2⟩
    · have rest := induction (flags >>> 1) stepped.1
      generalize tokens src room chunk_end chunk_out_start left _ after = result at rest ⊢
      cases result with
      | error stop => exact rest
      | ok last => exact ⟨rest.1, (Nat.le_of_lt stepped.2).trans rest.2⟩

theorem groups_safe (complete : chunk_end ≤ src.length) (short : chunk_end ≤ start + 4096)
    {rounds : Nat} {state : Progress} (enough : chunk_end < state.input + rounds)
    (within : Within room chunk_end chunk_out_start start state) :
    Safe (Within room chunk_end chunk_out_start start)
      (groups src room chunk_end chunk_out_start rounds state) := by
  induction rounds generalizing state with
  | zero => exact absurd within.inside (Nat.not_le.mpr enough)
  | succ rounds induction =>
    rw [groups]
    split
    · exact within
    rename_i more
    rw [not_not] at more
    obtain ⟨behind, inside, base, fits, slow⟩ := within
    rw [List.getElem?_eq_getElem (by omega)]
    have flagged : Within room chunk_end chunk_out_start start
        ⟨state.input + 1, state.output⟩ := by
      refine ⟨?_, ?_, base, fits, ?_⟩ <;> dsimp only <;> omega
    refine (tokens_safe complete short 8 _ flagged).bind fun after stepped =>
      induction ?_ stepped.1
    have taken := stepped.2
    dsimp only at taken
    omega

theorem chunks_safe {rounds : Nat} {state : Progress} (enough : src.length < state.input + rounds)
    (inside : state.input ≤ src.length) (fits : state.output.length ≤ room) :
    Safe (fun output => output.length ≤ room) (chunks src room rounds state) := by
  induction rounds generalizing state with
  | zero => omega
  | succ rounds induction =>
    rw [chunks]
    split
    · exact fits
    rename_i more
    rw [not_not] at more
    refine (wordAt_safe more.1).bind fun header _ => ?_
    have payload := @Nat.and_le_right header 0x0FFF
    dsimp only
    generalize header &&& 0x0FFF = payload_len at payload ⊢
    split_ifs with zero signature cut stored full
    · exact fits
    · rfl
    · rfl
    · rfl
    · have length : (slice src (state.input + 2) (payload_len + 1)).length = payload_len + 1 :=
        slice_length (by omega)
      refine (store_safe (by omega)).bind fun output output_length => induction ?_ ?_ ?_
      all_goals dsimp only; omega
    · have started : Within room (state.input + 2 + (payload_len + 1)) state.output.length
          (state.input + 2) ⟨state.input + 2, state.output⟩ :=
        ⟨.refl, Nat.le_add_right _ _, .refl, fits, by dsimp only; omega⟩
      refine (groups_safe (by omega) (by omega) (by dsimp only; omega) started).bind
        fun after within => induction ?_ ?_ within.fits
      all_goals dsimp only; omega

example : lznt1Decompress [0x03, 0xB0, 0x02, 0x61, 0x00, 0x00] 8 =
    .ok [0x61, 0x61, 0x61, 0x61] := by decide

end Safety

end R4OS.NtfsFormat
