import R4OS.Block.Fields

/-!
# Conversion of names

File names are converted between UTF-8 and the units of the basic plane.  Every name that was made
from units is converted back, but a name in UTF-8 comes back only when every character has its
shortest form.
-/

namespace R4OS.NtfsFormat

open Text Block

/-- Units that names must not hold. -/
def Unnameable (unit : Nat) : Prop := unit = 0 ∨ 0xD800 ≤ unit ∧ unit ≤ 0xDFFF

instance (unit : Nat) : Decidable (Unnameable unit) := instDecidableOr

/-- A character behind the units of the rest. -/
def emitUnit (room code : Nat) (later : Option Bytes) : Option Bytes :=
  if Unnameable code ∨ 0xFFFF < code then none
  else if room < 2 then none
  else later.map (leBytes 2 code ++ ·)

/-- The bits of a character with those of one more byte. -/
def shiftIn (code : Nat) (cont : UInt8) : Nat := code <<< 6 ||| (cont &&& 0x3F).toNat

/-- The units of a name in UTF-8. -/
def utf8ToUtf16 (room : Nat) : Bytes → Option Bytes
  | [] => some []
  | b0 :: rest =>
    if b0 < 0x80 then emitUnit room b0.toNat (utf8ToUtf16 (room - 2) rest)
    else if b0 &&& 0xE0 = 0xC0 then
      match rest with
      | b1 :: rest =>
        if b1 &&& 0xC0 ≠ 0x80 then none
        else emitUnit room (shiftIn (b0 &&& 0x1F).toNat b1) (utf8ToUtf16 (room - 2) rest)
      | [] => none
    else if b0 &&& 0xF0 = 0xE0 then
      match rest with
      | b1 :: b2 :: rest =>
        if b1 &&& 0xC0 ≠ 0x80 ∨ b2 &&& 0xC0 ≠ 0x80 then none
        else emitUnit room (shiftIn (shiftIn (b0 &&& 0x0F).toNat b1) b2)
          (utf8ToUtf16 (room - 2) rest)
      | _ => none
    else none

def unitText (unit : Nat) : Bytes :=
  if unit < 0x80 then [UInt8.ofNat unit]
  else if unit < 0x800 then
    [UInt8.ofNat (0xC0 ||| unit >>> 6), UInt8.ofNat (0x80 ||| unit &&& 0x3F)]
  else [UInt8.ofNat (0xE0 ||| unit >>> 12), UInt8.ofNat (0x80 ||| (unit >>> 6) &&& 0x3F),
    UInt8.ofNat (0x80 ||| unit &&& 0x3F)]

/-- The name in UTF-8 of units. -/
def utf16ToUtf8 (room : Nat) : Bytes → Option Bytes
  | low :: high :: rest =>
    let unit := ofLeBytes [low, high]
    if Unnameable unit then none
    else if room < (unitText unit).length then none
    else (utf16ToUtf8 (room - (unitText unit).length) rest).map (unitText unit ++ ·)
  | _ => some []

/-- No character has a longer form than it needs. -/
def shortest : Bytes → Bool
  | lead :: next :: rest =>
    lead ≠ 0xC0 && lead ≠ 0xC1 && (lead ≠ 0xE0 || 0xA0 ≤ next) && shortest (next :: rest)
  | _ => true

section Bits

variable {code : Nat} {byte : UInt8}

theorem six_bits (byte : UInt8) : (byte &&& 0x3F).toNat < 64 := by
  rw [UInt8.toNat_and]
  exact Nat.and_lt_two_pow (n := 6) _ (by decide)

theorem shiftIn_eq (code : Nat) (cont : UInt8) :
    shiftIn code cont = code * 64 + (cont &&& 0x3F).toNat := by
  rw [shiftIn, ← Nat.shiftLeft_add_eq_or_of_lt (six_bits cont), Nat.shiftLeft_eq]

/-- The bytes of the forms, from the bits they hold. -/
theorem form_of_bits :
    (∀ bits < 32, ¬UInt8.ofNat (0xC0 ||| bits) < 0x80 ∧
      UInt8.ofNat (0xC0 ||| bits) &&& 0xE0 = 0xC0 ∧
      (UInt8.ofNat (0xC0 ||| bits) &&& 0x1F).toNat = bits ∧
      UInt8.ofNat (0xC0 ||| bits) < 0xE0) ∧
    (∀ bits < 16, ¬UInt8.ofNat (0xE0 ||| bits) < 0x80 ∧
      UInt8.ofNat (0xE0 ||| bits) &&& 0xE0 ≠ 0xC0 ∧ UInt8.ofNat (0xE0 ||| bits) &&& 0xF0 = 0xE0 ∧
      (UInt8.ofNat (0xE0 ||| bits) &&& 0x0F).toNat = bits) ∧
    ∀ bits < 64, UInt8.ofNat (0x80 ||| bits) &&& 0xC0 = 0x80 ∧
      (UInt8.ofNat (0x80 ||| bits) &&& 0x3F).toNat = bits := by decide

theorem bits_of_form : ∀ byte : UInt8,
    (byte &&& 0xE0 = 0xC0 →
      UInt8.ofNat (0xC0 ||| (byte &&& 0x1F).toNat) = byte ∧ (byte &&& 0x1F).toNat < 32 ∧
        ((byte &&& 0x1F).toNat < 2 ↔ byte = 0xC0 ∨ byte = 0xC1) ∧ byte ≠ 0xE0 ∧ ¬byte < 0xC0) ∧
    (byte &&& 0xF0 = 0xE0 →
      UInt8.ofNat (0xE0 ||| (byte &&& 0x0F).toNat) = byte ∧ (byte &&& 0x0F).toNat < 16 ∧
        ((byte &&& 0x0F).toNat = 0 ↔ byte = 0xE0) ∧ ¬byte < 0xE0) ∧
    (byte &&& 0xC0 = 0x80 →
      UInt8.ofNat (0x80 ||| (byte &&& 0x3F).toNat) = byte ∧ byte < 0xC0 ∧
        ((byte &&& 0x3F).toNat < 32 ↔ ¬0xA0 ≤ byte)) :=
  forall_byte (by decide +kernel)

theorem low_six (code : Nat) : code &&& 0x3F = code % 64 := Nat.and_two_pow_sub_one_eq_mod code 6

theorem shiftRight_six (code : Nat) : code >>> 6 = code / 64 := Nat.shiftRight_eq_div_pow code 6

theorem shiftRight_twelve (code : Nat) : code >>> 12 = code / 4096 :=
  Nat.shiftRight_eq_div_pow code 12

end Bits

section Characters

variable {code room : Nat} {lead next last : UInt8} {units name rest : Bytes}

theorem utf8ToUtf16_unitText (small : code ≤ 0xFFFF) (rest : Bytes) :
    utf8ToUtf16 room (unitText code ++ rest) =
      emitUnit room code (utf8ToUtf16 (room - 2) rest) := by
  have last_tail := form_of_bits.2.2 (code &&& 0x3F) (by rw [low_six]; omega)
  unfold unitText
  split_ifs with one two
  · have ascii : UInt8.ofNat code < 0x80 ∧ (UInt8.ofNat code).toNat = code := by
      rw [UInt8.lt_iff_toNat_lt, UInt8.toNat_ofNat', Nat.mod_eq_of_lt (by omega)]
      exact ⟨one, rfl⟩
    rw [List.singleton_append, utf8ToUtf16.eq_def]
    dsimp only
    rw [if_pos ascii.1, ascii.2]
  · obtain ⟨high, two_form, bits, -⟩ := form_of_bits.1 (code >>> 6) (by rw [shiftRight_six]; omega)
    have whole : shiftIn (code >>> 6) (UInt8.ofNat (0x80 ||| code &&& 0x3F)) = code := by
      rw [shiftIn_eq, last_tail.2, shiftRight_six, low_six]
      omega
    rw [List.cons_append, List.singleton_append, utf8ToUtf16.eq_def]
    dsimp only
    rw [if_neg high, if_pos two_form, if_neg (not_not.mpr last_tail.1), bits, whole]
  · obtain ⟨high, not_two, three_form, bits⟩ :=
      form_of_bits.2.1 (code >>> 12) (by rw [shiftRight_twelve]; omega)
    have middle := form_of_bits.2.2 ((code >>> 6) &&& 0x3F) (by rw [low_six]; omega)
    have whole : shiftIn (shiftIn (code >>> 12) (UInt8.ofNat (0x80 ||| (code >>> 6) &&& 0x3F)))
        (UInt8.ofNat (0x80 ||| code &&& 0x3F)) = code := by
      rw [shiftIn_eq, shiftIn_eq, last_tail.2, middle.2, shiftRight_twelve, low_six, low_six,
        shiftRight_six]
      omega
    rw [List.cons_append, List.cons_append, List.singleton_append, utf8ToUtf16.eq_def]
    dsimp only
    rw [if_neg high, if_neg not_two, if_pos three_form,
      if_neg (not_or.mpr ⟨not_not.mpr middle.1, not_not.mpr last_tail.1⟩), bits, whole]

theorem emitUnit_eq_some {later : Option Bytes} : emitUnit room code later = some units ↔
    ¬Unnameable code ∧ code ≤ 0xFFFF ∧ 2 ≤ room ∧
      ∃ rest, later = some rest ∧ leBytes 2 code ++ rest = units := by
  unfold emitUnit
  split_ifs with refused full
  · exact ⟨nofun, fun ⟨named, small, _⟩ =>
      absurd refused (not_or.mpr ⟨named, Nat.not_lt.mpr small⟩)⟩
  · exact ⟨nofun, fun ⟨_, _, room, _⟩ => by omega⟩
  · rw [Option.map_eq_some_iff]
    exact ⟨fun found => ⟨fun bad => refused (.inl bad), by omega, by omega, found⟩,
      fun found => found.2.2.2⟩

theorem utf16ToUtf8_unit (small : code ≤ 0xFFFF) (rest : Bytes) :
    utf16ToUtf8 room (leBytes 2 code ++ rest) =
      if Unnameable code then none
      else if room < (unitText code).length then none
      else (utf16ToUtf8 (room - (unitText code).length) rest).map (unitText code ++ ·) := by
  have unit : ofLeBytes (leBytes 2 code) = code := ofLeBytes_leBytes (by omega)
  rw [leBytes, leBytes, leBytes] at unit ⊢
  rw [List.cons_append, List.cons_append, List.nil_append, utf16ToUtf8.eq_def]
  dsimp only
  rw [unit]

theorem unitText_length (code : Nat) : 0 < (unitText code).length ∧ (unitText code).length ≤ 3 := by
  unfold unitText
  split_ifs <;> simp

/-- A character is a unit's bytes, or longer than these. -/
inductive Form (code : Nat) (char : Bytes) : Prop
  | short (same : unitText code = char)
      (kept : ∀ rest, shortest (char ++ rest) = shortest rest)
  | long (nonempty : char ≠ []) (other : (unitText code).head? ≠ char.head?)
      (found : ∀ rest, shortest (char ++ rest) = false)

theorem shortest_cons (two : lead ≠ 0xC0 ∧ lead ≠ 0xC1) (three : lead ≠ 0xE0) (rest : Bytes) :
    shortest (lead :: rest) = shortest rest := by
  cases rest with
  | nil => rfl
  | cons next rest => simp [shortest, two, three]

theorem shortest_tail (tail : next &&& 0xC0 = 0x80) (rest : Bytes) :
    shortest (next :: rest) = shortest rest := by
  have low := ((bits_of_form next).2.2 tail).2.1
  refine shortest_cons ⟨?_, ?_⟩ ?_ rest <;>
    · rintro rfl
      exact absurd low (by decide)

theorem unitText_head (small : code < 0x800) : ∀ byte ∈ (unitText code).head?, byte < 0xE0 := by
  intro byte first
  unfold unitText at first
  split_ifs at first with one
  · cases first
    rw [UInt8.lt_iff_toNat_lt, UInt8.toNat_ofNat', Nat.mod_eq_of_lt (by omega)]
    exact one.trans (by decide)
  · cases first
    exact (form_of_bits.1 (code >>> 6) (by rw [shiftRight_six]; omega)).2.2.2

theorem form_one (ascii : lead < 0x80) : Form lead.toNat [lead] := by
  refine .short ?_ fun rest => shortest_cons ⟨?_, ?_⟩ ?_ rest
  · exact (if_pos (UInt8.lt_iff_toNat_lt.mp ascii)).trans (by rw [UInt8.ofNat_toNat])
  all_goals
    rintro rfl
    exact absurd ascii (by decide)

theorem form_two (two : lead &&& 0xE0 = 0xC0) (tail : next &&& 0xC0 = 0x80) :
    Form (shiftIn (lead &&& 0x1F).toNat next) [lead, next] := by
  obtain ⟨lead_eq, bits, overlong, not_three, high⟩ := (bits_of_form lead).1 two
  have low := six_bits next
  have next_eq := ((bits_of_form next).2.2 tail).1
  rw [shiftIn_eq]
  generalize (lead &&& 0x1F).toNat = front at *
  generalize (next &&& 0x3F).toNat = back at *
  by_cases early : front < 2
  · refine .long (List.cons_ne_nil _ _) ?_ fun rest => ?_
    · rw [unitText, if_pos (by omega)]
      intro same
      refine high ?_
      rw [← Option.some.inj same, UInt8.lt_iff_toNat_lt, UInt8.toNat_ofNat',
        Nat.mod_eq_of_lt (by omega)]
      exact Nat.lt_of_lt_of_le (by omega : _ < 128) (by decide)
    · rcases overlong.mp early with rfl | rfl <;> rfl
  · refine .short ?_ fun rest => ?_
    · rw [unitText, if_neg (by omega), if_pos (by omega), low_six, shiftRight_six,
        show (front * 64 + back) / 64 = front by omega,
        show (front * 64 + back) % 64 = back by omega, lead_eq, next_eq]
    · have proper := not_or.mp fun same => early (overlong.mpr same)
      exact (shortest_cons proper not_three _).trans (shortest_tail tail rest)

theorem form_three (three : lead &&& 0xF0 = 0xE0) (middle : next &&& 0xC0 = 0x80)
    (tail : last &&& 0xC0 = 0x80) :
    Form (shiftIn (shiftIn (lead &&& 0x0F).toNat next) last) [lead, next, last] := by
  obtain ⟨lead_eq, bits, zero, high⟩ := (bits_of_form lead).2.1 three
  obtain ⟨next_eq, -, overlong⟩ := (bits_of_form next).2.2 middle
  have next_low := six_bits next
  have last_low := six_bits last
  have last_eq := ((bits_of_form last).2.2 tail).1
  have not_two : lead ≠ 0xC0 ∧ lead ≠ 0xC1 := by
    constructor <;>
      · rintro rfl
        exact absurd three (by decide)
  rw [shiftIn_eq, shiftIn_eq]
  generalize (lead &&& 0x0F).toNat = front at *
  generalize (next &&& 0x3F).toNat = centre at *
  generalize (last &&& 0x3F).toNat = back at *
  by_cases early : front = 0 ∧ centre < 32
  · obtain rfl := zero.mp early.1
    refine .long (List.cons_ne_nil _ _) (fun same => ?_) fun rest => ?_
    · exact absurd (unitText_head (by omega) 0xE0 same) (by decide)
    · simp [shortest, overlong.mp early.2]
  · refine .short ?_ fun rest => ?_
    · rw [unitText, if_neg (by omega), if_neg (by omega), low_six, low_six, shiftRight_six,
        shiftRight_twelve, show ((front * 64 + centre) * 64 + back) / 4096 = front by omega,
        show ((front * 64 + centre) * 64 + back) / 64 % 64 = centre by omega,
        show ((front * 64 + centre) * 64 + back) % 64 = back by omega, lead_eq, next_eq, last_eq]
    · have proper : lead ≠ 0xE0 ∨ 0xA0 ≤ next := by
        rw [zero, overlong, not_and_or, not_not] at early
        exact early
      have kept : shortest (lead :: next :: last :: rest) = shortest (next :: last :: rest) := by
        simp [shortest, not_two, proper]
      exact kept.trans ((shortest_tail middle _).trans (shortest_tail tail rest))

end Characters

section Names

variable {room : Nat} {units name : Bytes}

/-- One more character of a name that is written again. -/
theorem utf16ToUtf8_next {code big : Nat} {char rest : Bytes} (form : Form code char)
    (emitted : emitUnit room code (utf8ToUtf16 (room - 2) rest) = some units)
    (enough : 3 * (units.length / 2) ≤ big)
    (induction : ∀ later, utf8ToUtf16 (room - 2) rest = some later → ∀ big,
      3 * (later.length / 2) ≤ big → ∃ text, utf16ToUtf8 big later = some text ∧
        (text = rest ↔ shortest rest = true)) :
    ∃ text, utf16ToUtf8 big units = some text ∧
      (text = char ++ rest ↔ shortest (char ++ rest) = true) := by
  obtain ⟨named, small, -, later, found, rfl⟩ := emitUnit_eq_some.mp emitted
  obtain ⟨some_text, length⟩ := unitText_length code
  rw [List.length_append, leBytes_length] at enough
  obtain ⟨text, written, comes_back⟩ :=
    induction later found (big - (unitText code).length) (by omega)
  refine ⟨unitText code ++ text, ?_, ?_⟩
  · rw [utf16ToUtf8_unit small, if_neg named, if_neg (by omega), written]
    rfl
  · cases form with
    | short same kept => rw [kept, same, List.append_cancel_left_eq, comes_back]
    | long nonempty other found =>
      rw [found]
      refine ⟨fun equal => absurd ?_ other, nofun⟩
      have heads := congrArg List.head? equal
      rwa [List.head?_append_of_ne_nil _ (List.length_pos_iff.mp some_text),
        List.head?_append_of_ne_nil _ nonempty] at heads

/-- Units that were read are written as the name, unless it has a longer form. -/
theorem utf16ToUtf8_of_name (done : utf8ToUtf16 room name = some units) {big : Nat}
    (enough : 3 * (units.length / 2) ≤ big) :
    ∃ text, utf16ToUtf8 big units = some text ∧ (text = name ↔ shortest name = true) := by
  fun_induction utf8ToUtf16 room name generalizing units big with
  | case1 =>
    cases done
    exact ⟨[], rfl, by decide⟩
  | case2 room lead rest ascii induction =>
    exact utf16ToUtf8_next (form_one ascii) done enough fun _ found _ => induction found
  | case4 room lead not_ascii two next rest tail induction =>
    exact utf16ToUtf8_next (form_two two (not_not.mp tail)) done enough
      fun _ found _ => induction found
  | case7 room lead not_ascii not_two three next last rest tails induction =>
    rw [not_or, not_not, not_not] at tails
    exact utf16ToUtf8_next (form_three three tails.1 tails.2) done enough
      fun _ found _ => induction found
  | _ => cases done

theorem leBytes_pair (low high : UInt8) : leBytes 2 (ofLeBytes [low, high]) = [low, high] := by
  have low_lt := low.toNat_lt
  have high_lt := high.toNat_lt
  simp only [leBytes, ofLeBytes]
  rw [show (low.toNat + 256 * (high.toNat + 256 * 0)) / 256 = high.toNat by omega,
    UInt8.ofNat_toNat]
  congr 1
  rw [← UInt8.toNat_inj, UInt8.toNat_ofNat']
  omega

/-- Names that were written from units are read as these units. -/
theorem utf8ToUtf16_of_units (even : units.length % 2 = 0)
    (done : utf16ToUtf8 room units = some name) {big : Nat} (enough : units.length ≤ big) :
    utf8ToUtf16 big name = some units := by
  fun_induction utf16ToUtf8 room units generalizing name big with
  | case1 | case2 => cases done
  | case3 room low high rest unit named fits =>
    rename_i induction
    obtain ⟨text, written, rfl⟩ := Option.map_eq_some_iff.mp done
    rw [List.length_cons, List.length_cons] at even enough
    have small : unit ≤ 0xFFFF := by
      have low_lt := low.toNat_lt
      have high_lt := high.toNat_lt
      simp only [unit, ofLeBytes]
      omega
    rw [utf8ToUtf16_unitText small]
    refine emitUnit_eq_some.mpr ⟨named, small, by omega, rest,
      induction (by omega) written (by omega), ?_⟩
    rw [leBytes_pair]
    rfl
  | case4 units room short =>
    cases done
    obtain - | ⟨low, - | ⟨high, rest⟩⟩ := units
    · rw [utf8ToUtf16]
    · cases even
    · exact absurd rfl (short low high rest)

end Names

/-- Names in shortest form are converted back, and units always are. -/
theorem names_convert_back (room big : Nat) (name units : Bytes) :
    (utf8ToUtf16 room name = some units → 3 * (units.length / 2) ≤ big →
      (utf16ToUtf8 big units = some name ↔ shortest name = true)) ∧
      (units.length % 2 = 0 → utf16ToUtf8 room units = some name → units.length ≤ big →
        utf8ToUtf16 big name = some units) := by
  refine ⟨fun done enough => ?_, fun even done enough => utf8ToUtf16_of_units even done enough⟩
  obtain ⟨text, written, comes_back⟩ := utf16ToUtf8_of_name done enough
  rw [written, Option.some.injEq, comes_back]

theorem names_convert_back_sample :
    utf16ToUtf8 9 [0x41, 0x00, 0xE9, 0x00, 0xAC, 0x20] =
      some [0x41, 0xC3, 0xA9, 0xE2, 0x82, 0xAC] :=
  ((names_convert_back 6 9 [0x41, 0xC3, 0xA9, 0xE2, 0x82, 0xAC] _).1 (by decide)
    (by decide)).mpr (by decide)

/-- A letter in two bytes is accepted and comes back in one. -/
theorem overlong_name_accepted : utf8ToUtf16 2 [0xC1, 0x81] = some [0x41, 0x00] ∧
    utf16ToUtf8 3 [0x41, 0x00] = some [0x41] := by decide

end R4OS.NtfsFormat
