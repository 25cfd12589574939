import R4OS.SubsystemCatalog.Catalog

/-!
# Probes

A probe is met by the first bytes of a file: magic bytes stand at their offset, or a text has a token as
a word.  A format is confirmed exactly when one of its probes is met, and what rejects a format on some
bytes of a file rejects it on more of them.
-/

namespace R4OS.SubsystemCatalog

open Text
open SystemInventory (toLower)

/-- A feature that tells the format of a file. -/
inductive Probe
  | magic (offset : Nat) (expected : Bytes)
  | text_token (token : Bytes)

/-- The bytes of pairs of hexadecimal digits. -/
def parseHex : Bytes → Option Bytes
  | high :: low :: rest =>
    match parseHexByte high low with
    | none => none
    | some byte => (parseHex rest).map (byte :: ·)
  | _ => some []

def Probe.parseMagic (descriptor : Bytes) : Option Probe :=
  match parseDescriptor descriptor with
  | none => none
  | some (offset, bytes_text) => (parseHex bytes_text).map (.magic offset)

def Probe.parse (feature : Bytes) : Option Probe :=
  let magic_prefix := ascii "probe.magic-v1."
  let token_prefix := ascii "probe.text-token-v1."
  if startsWith feature magic_prefix then parseMagic (feature.drop magic_prefix.length)
  else if startsWith feature token_prefix then
    (parseTokenHex (feature.drop token_prefix.length)).map .text_token
  else none

def probes (entry : Entry) (format_id : Bytes) : List Probe :=
  entry.guest_features.filterMap fun mapping =>
    match splitMapping mapping with
    | none => none
    | some (key, value) => if key ≠ format_id then none else Probe.parse value

/-- A text has no control bytes. -/
def Plain (window : Bytes) : Prop := ∀ byte ∈ window, isControl byte = false

/-- A token is a word of a text. -/
def HasToken (window token : Bytes) : Prop :=
  ∃ start, start + token.length ≤ window.length ∧ tokenAt window token start = true

def Probe.Met : Probe → Bytes → Prop
  | .magic offset expected, window =>
    offset + expected.length ≤ window.length ∧ expected <+: window.drop offset
  | .text_token token, window => Plain window ∧ HasToken window token

section Evaluation

variable {input : Input}

theorem parseHex_length {text bytes : Bytes} (parsed : parseHex text = some bytes) :
    bytes.length = text.length / 2 := by
  fun_induction parseHex text generalizing bytes with
  | case1 high low rest bad => cases parsed
  | case2 high low rest byte good induction =>
    obtain ⟨tail, tail_parsed, rfl⟩ := Option.map_eq_some_iff.mp parsed
    rw [List.length_cons, induction tail_parsed, List.length_cons, List.length_cons]
    omega
  | case3 text other =>
    cases parsed
    match text with
    | [] => rfl
    | [single] => simp
    | high :: low :: rest => exact (other high low rest rfl).elim

theorem compareMagic_confirmed {text window : Bytes} (room : text.length / 2 ≤ window.length) :
    compareMagic text window = some .confirmed ↔
      ∃ expected, parseHex text = some expected ∧ expected <+: window := by
  fun_induction compareMagic text window with
  | case1 high low rest byte bytes bad => simp [parseHex, bad]
  | case2 high low rest byte bytes expected good different =>
    constructor
    · intro never
      cases never
    · rintro ⟨whole, parsed, starts⟩
      rw [parseHex, good] at parsed
      obtain ⟨tail, -, rfl⟩ := Option.map_eq_some_iff.mp parsed
      exact absurd (List.cons_prefix_cons.mp starts).1.symm different
  | case3 high low rest byte bytes expected good same induction =>
    rw [not_not] at same
    subst same
    rw [List.length_cons, List.length_cons, List.length_cons] at room
    rw [induction (by omega), parseHex, good]
    constructor
    · rintro ⟨tail, parsed, starts⟩
      exact ⟨byte :: tail, congrArg (Option.map (byte :: ·)) parsed,
        List.cons_prefix_cons.mpr ⟨rfl, starts⟩⟩
    · rintro ⟨whole, parsed, starts⟩
      obtain ⟨tail, tail_parsed, rfl⟩ := Option.map_eq_some_iff.mp parsed
      exact ⟨tail, tail_parsed, (List.cons_prefix_cons.mp starts).2⟩
  | case4 text window other =>
    refine iff_of_true rfl ⟨[], ?_, List.nil_prefix⟩
    match text, window with
    | [], _ => rfl
    | [single], _ => rfl
    | high :: low :: rest, [] =>
      rw [List.length_cons, List.length_cons, List.length_nil] at room
      omega
    | high :: low :: rest, byte :: bytes => exact (other high low rest byte bytes rfl rfl).elim

theorem compareMagic_append {text window more : Bytes} (room : text.length / 2 ≤ window.length) :
    compareMagic text (window ++ more) = compareMagic text window := by
  fun_induction compareMagic text window with
  | case1 high low rest byte bytes bad => rw [List.cons_append, compareMagic, bad]
  | case2 high low rest byte bytes expected good different =>
    simp only [List.cons_append, compareMagic, good]
    rw [if_pos different]
  | case3 high low rest byte bytes expected good same induction =>
    rw [List.length_cons, List.length_cons, List.length_cons] at room
    rw [List.cons_append, compareMagic, good]
    exact (if_neg same).trans (induction (by omega))
  | case4 text window other =>
    match text, window with
    | [], _ => rfl
    | [single], _ => rfl
    | high :: low :: rest, [] =>
      rw [List.length_cons, List.length_cons, List.length_nil] at room
      omega
    | high :: low :: rest, byte :: bytes => exact (other high low rest byte bytes rfl rfl).elim

theorem any_isControl {window : Bytes} : window.any isControl = true ↔ ¬ Plain window := by
  rw [List.any_eq_true, Plain]
  simp

theorem containsTextToken_iff {window token : Bytes} :
    containsTextToken window token = true ↔ HasToken window token := by
  unfold containsTextToken HasToken
  split
  · next short =>
    constructor
    · intro never
      cases never
    · rintro ⟨start, room, -⟩
      omega
  · next room =>
    rw [List.any_eq_true]
    constructor
    · rintro ⟨start, member, found⟩
      have below := List.mem_range.mp member
      exact ⟨start, by omega, found⟩
    · rintro ⟨start, inside, found⟩
      exact ⟨start, List.mem_range.mpr (by omega), found⟩

variable (valid : validInput input = true)

include valid

theorem valid_lengths :
    input.probe_prefix_bytes.length ≤ max_probe_bytes ∧ input.probe_prefix_bytes.length ≤ input.file_size ∧
      (input.probe_window_complete = true →
        input.probe_prefix_bytes.length = min input.file_size max_probe_bytes) := by
  unfold validInput at valid
  split at valid
  · cases valid
  next bounds =>
  split at valid
  · cases valid
  · rw [not_or, not_or] at bounds
    refine ⟨by omega, by omega, fun complete => ?_⟩
    simpa [complete] using valid

theorem evaluateMagic_confirmed {descriptor : Bytes} :
    evaluateMagic descriptor input = some .confirmed ↔
      ∃ probe, Probe.parseMagic descriptor = some probe ∧ probe.Met input.probe_prefix_bytes := by
  have within := (valid_lengths valid).2.1
  unfold evaluateMagic Probe.parseMagic
  cases parseDescriptor descriptor with
  | none => simp
  | some descriptor =>
  obtain ⟨offset, bytes_text⟩ := descriptor
  dsimp only
  have counted : ∀ expected, parseHex bytes_text = some expected →
      expected.length = bytes_text.length / 2 := fun _ parsed => parseHex_length parsed
  have met : (∃ probe, (parseHex bytes_text).map (Probe.magic offset) = some probe ∧
      probe.Met input.probe_prefix_bytes) ↔ ∃ expected, parseHex bytes_text = some expected ∧
        offset + bytes_text.length / 2 ≤ input.probe_prefix_bytes.length ∧
        expected <+: input.probe_prefix_bytes.drop offset := by
    constructor
    · rintro ⟨probe, parsed, met⟩
      obtain ⟨expected, expected_parsed, rfl⟩ := Option.map_eq_some_iff.mp parsed
      obtain ⟨inside, starts⟩ := met
      exact ⟨expected, expected_parsed, counted expected expected_parsed ▸ inside, starts⟩
    · rintro ⟨expected, parsed, inside, starts⟩
      exact ⟨.magic offset expected, congrArg (Option.map _) parsed,
        (counted expected parsed).symm ▸ inside, starts⟩
  rw [met]
  split
  · next beyond =>
    constructor
    · intro never
      cases never
    · rintro ⟨_, _, inside, _⟩
      omega
  split
  · next beyond =>
    constructor
    · intro never
      split at never <;> cases never
    · rintro ⟨_, _, inside, _⟩
      omega
  · next inside =>
    rw [compareMagic_confirmed (by rw [List.length_drop]; omega)]
    constructor
    · rintro ⟨expected, parsed, starts⟩
      exact ⟨expected, parsed, by omega, starts⟩
    · rintro ⟨expected, parsed, -, starts⟩
      exact ⟨expected, parsed, starts⟩

theorem evaluateProbe_confirmed {feature : Bytes} :
    evaluateProbe feature input = some .confirmed ↔
      ∃ probe, Probe.parse feature = some probe ∧ probe.Met input.probe_prefix_bytes := by
  unfold evaluateProbe Probe.parse
  dsimp only
  split
  · exact evaluateMagic_confirmed valid
  split
  · unfold evaluateToken
    cases parseTokenHex (feature.drop (ascii "probe.text-token-v1.").length) with
    | none => simp
    | some token =>
      simp only [Option.map_some, Option.some.injEq, exists_eq_left']
      change _ ↔ Plain input.probe_prefix_bytes ∧ HasToken input.probe_prefix_bytes token
      rw [← containsTextToken_iff]
      by_cases control : input.probe_prefix_bytes.any isControl = true
      · rw [if_pos control]
        exact iff_of_false (by simp) fun met => any_isControl.mp control met.1
      · have plain : Plain input.probe_prefix_bytes := by
          by_contra other
          exact control (any_isControl.mpr other)
        rw [if_neg control]
        split
        · next found => exact iff_of_true rfl ⟨plain, found⟩
        · next missing =>
          refine iff_of_false ?_ fun met => missing met.2
          split <;> simp
  · simp

theorem confirmed_iff {entry : Entry} {format_id : Bytes} :
    probeState entry format_id input = .confirmed ↔
      ∃ probe ∈ probes entry format_id, probe.Met input.probe_prefix_bytes := by
  have verdict : .confirmed ∈ probeVerdicts entry format_id input ↔
      ∃ probe ∈ probes entry format_id, probe.Met input.probe_prefix_bytes := by
    unfold probeVerdicts probes
    simp only [List.mem_filterMap]
    constructor
    · rintro ⟨mapping, member, evaluated⟩
      split at evaluated
      · cases evaluated
      next key value split_eq =>
      split at evaluated
      · cases evaluated
      next own =>
      obtain ⟨probe, parsed, met⟩ := (evaluateProbe_confirmed valid).mp evaluated
      exact ⟨probe, ⟨mapping, member, by rw [split_eq]; exact (if_neg own).trans parsed⟩, met⟩
    · rintro ⟨probe, ⟨mapping, member, parsed⟩, met⟩
      split at parsed
      · cases parsed
      next key value split_eq =>
      split at parsed
      · cases parsed
      next own =>
      refine ⟨mapping, member, ?_⟩
      rw [split_eq]
      exact (if_neg own).trans ((evaluateProbe_confirmed valid).mpr ⟨probe, parsed, met⟩)
  rw [← verdict]
  unfold probeState
  dsimp only
  split
  · next holds => exact iff_of_true rfl holds
  next fails =>
  refine iff_of_false ?_ fails
  split
  · simp
  · split <;> simp

end Evaluation

end R4OS.SubsystemCatalog
