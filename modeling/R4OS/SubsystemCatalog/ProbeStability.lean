import Mathlib.Data.List.GetD
import Mathlib.Data.Set.Card
import R4OS.SubsystemCatalog.Candidates
import R4OS.SubsystemCatalog.Probes

/-!
# Verdicts on more of a file

A format that some bytes of a file reject is rejected on more of them, and magic bytes stay confirmed.
A token that ends with the bytes that were read is taken for a word, so that the next bytes may undo a
verdict that was already given.
-/

namespace R4OS.SubsystemCatalog

open Incremental Text

/-- One read of a file goes on where another one stopped. -/
structure Extends (first second : Input) : Prop where
  first_valid : validInput first = true
  second_valid : validInput second = true
  path : second.path = first.path
  size : second.file_size = first.file_size
  window : first.probe_prefix_bytes <+: second.probe_prefix_bytes
  complete : first.probe_window_complete = true → second.probe_window_complete = true

section Rejections

variable {first second : Input}

/-- Behind a complete window nothing is read. -/
theorem Extends.window_eq (further : Extends first second)
    (complete : first.probe_window_complete = true) :
    second.probe_prefix_bytes = first.probe_prefix_bytes := by
  have exact_length := (valid_lengths further.first_valid).2.2 complete
  obtain ⟨small, inside, -⟩ := valid_lengths further.second_valid
  rw [further.size] at inside
  exact (further.window.eq_of_length_le (by rw [exact_length]; exact Nat.le_min.mpr ⟨inside, small⟩)).symm

/-- A feature that neither confirms nor leaves open says the same on more of a file. -/
theorem evaluateProbe_kept (further : Extends first second) {feature : Bytes}
    (firm : evaluateProbe feature first ≠ some .confirmed)
    (settled : evaluateProbe feature first ≠ some .indeterminate) :
    evaluateProbe feature second = evaluateProbe feature first := by
  obtain ⟨more, longer⟩ := further.window
  unfold evaluateProbe at firm settled ⊢
  dsimp only at firm settled ⊢
  split at settled
  · next magic =>
    rw [if_pos magic, if_pos magic]
    unfold evaluateMagic at settled ⊢
    split at settled
    · rfl
    next offset bytes_text some_eq =>
    dsimp only at settled ⊢
    rw [further.size]
    split at settled
    · next beyond => rw [if_pos beyond, if_pos beyond]
    next inside =>
    rw [if_neg inside, if_neg inside]
    split at settled
    · next short =>
      split at settled
      · next complete =>
        rw [further.window_eq complete, if_pos short, if_pos short, if_pos complete,
          if_pos (further.complete complete)]
      · exact absurd rfl settled
    · next room =>
      have longer_room : ¬ second.probe_prefix_bytes.length < offset + bytes_text.length / 2 := by
        rw [← longer, List.length_append]
        omega
      rw [if_neg room, if_neg longer_room, ← longer, List.drop_append_of_le_length (by omega),
        compareMagic_append (by rw [List.length_drop]; omega)]
  next other =>
  rw [if_neg other, if_neg other]
  split at settled
  · next token =>
    rw [if_pos token, if_pos token]
    rw [if_neg other, if_pos token] at firm
    unfold evaluateToken at firm settled ⊢
    split at settled
    · rfl
    next token_bytes some_eq =>
    rw [some_eq] at firm
    dsimp only at firm settled ⊢
    split at settled
    · next control =>
      rw [if_pos control, if_pos]
      rw [← longer, List.any_append, control, Bool.true_or]
    next plain =>
    rw [if_neg plain] at firm
    split at settled
    · next found =>
      rw [if_pos found] at firm
      exact absurd rfl firm
    next missing =>
    split at settled
    · next complete =>
      rw [further.window_eq complete, if_neg plain, if_neg missing, if_neg plain, if_neg missing,
        if_pos complete, if_pos (further.complete complete)]
    · exact absurd rfl settled
  · next neither => rw [if_neg neither, if_neg neither]

theorem rejected_kept (further : Extends first second) {entry : Entry} {format_id : Bytes}
    (rejected : probeState entry format_id first = .rejected) :
    probeState entry format_id second = .rejected := by
  have unopened : .confirmed ∉ probeVerdicts entry format_id first ∧
      .indeterminate ∉ probeVerdicts entry format_id first := by
    unfold probeState at rejected
    dsimp only at rejected
    split at rejected
    · cases rejected
    next unconfirmed =>
    split at rejected
    · cases rejected
    split at rejected
    · cases rejected
    · next settled => exact ⟨unconfirmed, settled⟩
  have same : probeVerdicts entry format_id second = probeVerdicts entry format_id first := by
    unfold probeVerdicts
    refine List.filterMap_congr fun mapping member => ?_
    split
    · rfl
    next key value split_eq =>
    split
    · rfl
    next own =>
    have shown : ∀ verdict, evaluateProbe value first = some verdict →
        verdict ∈ probeVerdicts entry format_id first := by
      intro verdict evaluated
      exact List.mem_filterMap.mpr ⟨mapping, member, by
        rw [split_eq]
        exact (if_neg own).trans evaluated⟩
    exact evaluateProbe_kept further (fun confirmed => unopened.1 (shown _ confirmed))
      fun indeterminate => unopened.2 (shown _ indeterminate)
  rw [← rejected, probeState, probeState, same]

end Rejections

/-- A token ends with the first bytes of a text, and its word goes on behind them. -/
def Cut (token first second : Bytes) (start : Nat) : Prop :=
  start + token.length = first.length ∧ first.length < second.length ∧
    isWordByte (second.getD first.length 0) = true ∧ token.getLast?.any isWordByte = true

/-- What confirmed a probe on the first bytes is undone by the bytes behind them. -/
def Probe.Undone : Probe → Bytes → Bytes → Prop
  | .magic _ _, _, _ => False
  | .text_token token, first, second =>
    (∃ byte ∈ second.drop first.length, isControl byte = true) ∨
      ∀ start, start + token.length ≤ first.length → tokenAt first token start = true →
        Cut token first second start

/-- A probe is met by bytes behind the first ones. -/
def Probe.Gained : Probe → Bytes → Bytes → Prop
  | .magic offset expected, first, second => first.length < offset + expected.length ∧
      (Probe.magic offset expected).Met second
  | .text_token token, first, second => Plain second ∧
      ∃ start, first.length < start + token.length ∧ start + token.length ≤ second.length ∧
        tokenAt second token start = true

section Windows

variable {first more token : Bytes}

theorem tokenAt_append {start : Nat} (inside : start + token.length ≤ first.length) :
    tokenAt (first ++ more) token start = true ↔
      tokenAt first token start = true ∧ ¬ Cut token first (first ++ more) start := by
  have slice : ((first ++ more).drop start).take token.length =
      (first.drop start).take token.length := by
    rw [List.drop_append_of_le_length (by omega),
      List.take_append_of_le_length (by rw [List.length_drop]; omega)]
  have left : (start != 0 && isWordByte ((first ++ more).getD (start - 1) 0)) =
      (start != 0 && isWordByte (first.getD (start - 1) 0)) := by
    by_cases zero : start = 0
    · simp [zero]
    by_cases empty : first = []
    · subst empty
      simp only [List.length_nil] at inside
      omega
    · rw [List.getD_append _ _ _ _ (by
        have filled := List.length_pos_iff.mpr empty
        omega)]
  unfold tokenAt Cut
  rw [slice, left]
  rcases Nat.lt_or_eq_of_le inside with strictly | last
  · rw [List.getD_append _ _ _ _ strictly]
    have both : start + token.length < (first ++ more).length := by
      rw [List.length_append]
      omega
    simp only [both, strictly, decide_true, Bool.true_and]
    constructor
    · exact fun found => ⟨found, fun cut => absurd cut.1 (by omega)⟩
    · exact fun found => found.1
  · rw [last]
    simp only [Nat.lt_irrefl, decide_false, Bool.false_and, Bool.not_false, Bool.and_true,
      true_and]
    rw [Bool.and_eq_true (_ && _)]
    refine and_congr_right fun _ => ?_
    rw [Bool.not_eq_true', ← Bool.not_eq_true, Bool.and_eq_true, Bool.and_eq_true, decide_eq_true_eq,
      and_assoc]

theorem met_append (probe : Probe) : probe.Met (first ++ more) ↔
    (probe.Met first ∧ ¬ probe.Undone first (first ++ more)) ∨
      probe.Gained first (first ++ more) := by
  cases probe with
  | magic offset expected =>
    unfold Probe.Undone Probe.Gained
    simp only [not_false_eq_true, and_true]
    unfold Probe.Met
    dsimp only
    by_cases covered : offset + expected.length ≤ first.length
    · have dropped : (first ++ more).drop offset = first.drop offset ++ more :=
        List.drop_append_of_le_length (by omega)
      have shorter : expected <+: first.drop offset ++ more ↔ expected <+: first.drop offset := by
        constructor
        · intro starts
          exact List.prefix_of_prefix_length_le starts (List.prefix_append _ _)
            (by rw [List.length_drop]; omega)
        · exact fun starts => starts.trans (List.prefix_append _ _)
      rw [dropped, shorter, List.length_append]
      constructor
      · exact fun met => .inl ⟨covered, met.2⟩
      · rintro (met | ⟨beyond, -⟩)
        · exact ⟨by omega, met.2⟩
        · omega
    · constructor
      · exact fun met => .inr ⟨by omega, met⟩
      · rintro (met | ⟨-, met⟩)
        · exact absurd met.1 covered
        · exact met
  | text_token token =>
    have plain_iff : Plain (first ++ more) ↔ Plain first ∧ Plain more := by
      unfold Plain
      simp only [List.mem_append, or_imp, forall_and]
    have control : (∃ byte ∈ (first ++ more).drop first.length, isControl byte = true) ↔
        ¬ Plain more := by
      rw [List.drop_left, Plain]
      simp
    unfold Probe.Undone Probe.Gained Probe.Met HasToken
    dsimp only
    rw [control, plain_iff]
    constructor
    · rintro ⟨⟨first_plain, more_plain⟩, start, inside, found⟩
      by_cases covered : start + token.length ≤ first.length
      · obtain ⟨stood, whole⟩ := (tokenAt_append covered).mp found
        refine .inl ⟨⟨first_plain, start, covered, stood⟩, ?_⟩
        rintro (control | cut)
        · exact control more_plain
        · exact whole (cut start covered stood)
      · exact .inr ⟨⟨first_plain, more_plain⟩, start, by omega, inside, found⟩
    · rintro (⟨⟨first_plain, start, covered, stood⟩, kept⟩ | ⟨plain, start, -, inside, found⟩)
      · rw [not_or, not_not] at kept
        obtain ⟨more_plain, uncut⟩ := kept
        push Not at uncut
        obtain ⟨place, place_covered, place_stood, whole⟩ := uncut
        refine ⟨⟨first_plain, more_plain⟩, place, ?_,
          (tokenAt_append place_covered).mpr ⟨place_stood, whole⟩⟩
        rw [List.length_append]
        omega
      · exact ⟨plain, start, inside, found⟩

end Windows

/-- A verdict that was given stays on more of a file. -/
def Stable (entry : Entry) (format_id : Bytes) (first second : Input) : Prop :=
  ∀ state, state = .confirmed ∨ state = .rejected →
    probeState entry format_id first = state → probeState entry format_id second = state

/-- What confirmed a format is undone, and nothing else confirms it. -/
def Lost (entry : Entry) (format_id first second : Bytes) : Prop :=
  (∃ probe ∈ probes entry format_id, probe.Met first) ∧
    ∀ probe ∈ probes entry format_id, (probe.Met first → probe.Undone first second) ∧
      ¬ probe.Gained first second

/-- The file is resolved to a single subsystem by what its first bytes confirm. -/
def Selects (catalog : Catalog) (input : Input) (candidate : Candidate) : Prop :=
  ∃ resolution, resolve catalog input {} = .ok resolution ∧
    resolution.selected = some candidate ∧ candidate.evidence = .confirmed_probe

/-- The file is resolved to some subsystems by what its first bytes confirm. -/
def Confirms (catalog : Catalog) (input : Input) (subsystem_id : Bytes) : Prop :=
  ∃ resolution, resolve catalog input {} = .ok resolution ∧
    (∀ candidate ∈ resolution.candidates, candidate.evidence = .confirmed_probe) ∧
    ∃ candidate ∈ resolution.candidates, candidate.subsystem_id = subsystem_id

/-- A format of a subsystem has a probe that is met and not undone, or gained. -/
def Found (catalog : Catalog) (first second subsystem_id : Bytes) : Prop :=
  ∃ pair ∈ catalog.formats, pair.1.subsystem_id = subsystem_id ∧
    ∃ probe ∈ probes pair.1 pair.2,
      (probe.Met first ∧ ¬ probe.Undone first second) ∨ probe.Gained first second

/-- The formats that have a probe that is met are not too many. -/
def Few (catalog : Catalog) (window : Bytes) : Prop :=
  {key | ∃ pair ∈ catalog.formats, (∃ probe ∈ probes pair.1 pair.2, probe.Met window) ∧
    pairKey pair = key}.ncard ≤ max_candidates

section Stability

variable {entry : Entry} {format_id : Bytes} {first second input : Input} {catalog : Catalog}

theorem stable_iff (further : Extends first second) : Stable entry format_id first second ↔
    ¬ Lost entry format_id first.probe_prefix_bytes second.probe_prefix_bytes := by
  obtain ⟨more, longer⟩ := further.window
  have later : probeState entry format_id second = .confirmed ↔
      ∃ probe ∈ probes entry format_id,
        (probe.Met first.probe_prefix_bytes ∧
          ¬ probe.Undone first.probe_prefix_bytes second.probe_prefix_bytes) ∨
        probe.Gained first.probe_prefix_bytes second.probe_prefix_bytes := by
    rw [confirmed_iff further.second_valid]
    refine exists_congr fun probe => and_congr_right fun _ => ?_
    rw [← longer]
    exact met_append probe
  have earlier : probeState entry format_id first = .confirmed ↔
      ∃ probe ∈ probes entry format_id, probe.Met first.probe_prefix_bytes :=
    confirmed_iff further.first_valid
  unfold Lost
  rw [← earlier, not_and]
  constructor
  · rintro stable confirmed lost
    obtain ⟨probe, member, holds⟩ := later.mp (stable _ (.inl rfl) confirmed)
    rcases holds with ⟨met, kept⟩ | gained
    · exact kept ((lost probe member).1 met)
    · exact (lost probe member).2 gained
  · rintro kept state (rfl | rfl) given
    · by_contra other
      refine kept given fun probe member => ⟨fun met => ?_, fun gained => ?_⟩
      · by_contra undone
        exact other (later.mpr ⟨probe, member, .inl ⟨met, undone⟩⟩)
      · exact other (later.mpr ⟨probe, member, .inr gained⟩)
    · exact rejected_kept further given

theorem matchingAssociation_nil (extension : Bytes) :
    matchingAssociation [] extension = .ok none := by
  unfold matchingAssociation
  split <;> rfl

theorem resolve_plain (valid : validInput input = true) : resolve catalog input {} =
    appendAll (confirmedFormats catalog input) .confirmed_probe >>= fun confirmed =>
      if confirmed ≠ [] then .ok (finishResolution confirmed)
      else resolveExtension catalog input := by
  unfold resolve
  rw [if_neg (by simp [valid])]
  change (matchingAssociation [] (pathExtension input.path) >>= resolveUser catalog input {}) = _
  rw [matchingAssociation_nil]
  change resolveConfirmed catalog input [] = _
  unfold resolveConfirmed
  rw [matchingAssociation_nil]
  rfl

theorem mem_finishResolution {candidates : List Candidate} {candidate : Candidate} :
    candidate ∈ (finishResolution candidates).candidates ↔ candidate ∈ candidates :=
  (List.perm_insertionSort _ _).mem_iff

theorem mem_confirmedFormats (valid : validInput input = true) {pair : Entry × Bytes} :
    pair ∈ confirmedFormats catalog input ↔ pair ∈ catalog.formats ∧
      ∃ probe ∈ probes pair.1 pair.2, probe.Met input.probe_prefix_bytes := by
  unfold confirmedFormats
  rw [List.mem_filter, decide_eq_true_eq, confirmed_iff valid]

theorem resolveExtension_evidence {resolution : Resolution}
    (done : resolveExtension catalog input = .ok resolution) :
    ∀ candidate ∈ resolution.candidates, candidate.evidence = .extension := by
  unfold resolveExtension at done
  obtain ⟨candidates, collected, done⟩ := bind_eq_ok.mp done
  cases done
  intro candidate member
  rw [mem_finishResolution] at member
  unfold extensionCandidates at collected
  split at collected
  · cases collected
    cases member
  · obtain ⟨pair, -, rfl⟩ := (appendAll_ok collected).1.sound candidate member
    rfl

theorem few_iff (valid : validInput input = true) : Few catalog input.probe_prefix_bytes ↔
    (keys (confirmedFormats catalog input)).card ≤ max_candidates := by
  unfold Few
  have same : {key | ∃ pair ∈ catalog.formats,
      (∃ probe ∈ probes pair.1 pair.2, probe.Met input.probe_prefix_bytes) ∧ pairKey pair = key} =
      (keys (confirmedFormats catalog input) : Set (Bytes × Bytes)) := by
    ext key
    rw [Set.mem_ofPred_eq, Finset.mem_coe, keys, List.mem_toFinset, List.mem_map]
    refine exists_congr fun pair => ?_
    rw [mem_confirmedFormats valid, and_assoc]
  rw [same, Set.ncard_coe_finset]

theorem confirms_iff (valid : validInput input = true) (subsystem_id : Bytes) :
    Confirms catalog input subsystem_id ↔
      (∃ pair ∈ catalog.formats, pair.1.subsystem_id = subsystem_id ∧
        ∃ probe ∈ probes pair.1 pair.2, probe.Met input.probe_prefix_bytes) ∧
      Few catalog input.probe_prefix_bytes := by
  rw [few_iff valid]
  unfold Confirms
  rw [resolve_plain valid]
  rcases appendAll_cases (confirmedFormats catalog input) .confirmed_probe with
    ⟨out, done, collected, few⟩ | ⟨failed, many⟩
  · rw [done]
    constructor
    · rintro ⟨resolution, resolved, confirmed, candidate, member, rfl⟩
      refine ⟨?_, few⟩
      change (if out ≠ [] then _ else _) = _ at resolved
      split at resolved
      · cases resolved
        obtain ⟨pair, stored, rfl⟩ := collected.sound candidate (mem_finishResolution.mp member)
        obtain ⟨listed, met⟩ := (mem_confirmedFormats valid).mp stored
        exact ⟨pair, listed, rfl, met⟩
      · have extension := resolveExtension_evidence resolved candidate member
        rw [confirmed candidate member] at extension
        cases extension
    · rintro ⟨⟨pair, listed, rfl, met⟩, -⟩
      obtain ⟨candidate, member, same⟩ := List.mem_map.mp
        (collected.covered pair ((mem_confirmedFormats valid).mpr ⟨listed, met⟩))
      refine ⟨finishResolution out, if_pos (List.ne_nil_of_mem member), fun other stored => ?_,
        candidate, mem_finishResolution.mpr member, congrArg Prod.fst same⟩
      obtain ⟨-, -, rfl⟩ := collected.sound other (mem_finishResolution.mp stored)
      rfl
  · rw [failed]
    constructor
    · rintro ⟨resolution, resolved, -⟩
      cases resolved
    · rintro ⟨-, few⟩
      omega

/-- A verdict on some bytes of a file stays on more of them exactly when what confirmed it is not
undone, and a file that was resolved to a subsystem is resolved to it by all of its bytes exactly when
a format of the subsystem is still confirmed and not too many formats are. -/
theorem verdicts_stable_iff (further : Extends first second) :
    (∀ entry format_id, Stable entry format_id first second ↔
      ¬ Lost entry format_id first.probe_prefix_bytes second.probe_prefix_bytes) ∧
    ∀ catalog candidate, Selects catalog first candidate → second.probe_window_complete = true →
      (Confirms catalog second candidate.subsystem_id ↔
        Found catalog first.probe_prefix_bytes second.probe_prefix_bytes candidate.subsystem_id ∧
          Few catalog second.probe_prefix_bytes) := by
  refine ⟨fun entry format_id => stable_iff further, ?_⟩
  intro catalog candidate _ _
  rw [confirms_iff further.second_valid]
  obtain ⟨more, longer⟩ := further.window
  unfold Found
  rw [← longer]
  simp [met_append]

/-- A subsystem whose guests are recognized by the word `print`. -/
def sampleInventory : SystemInventory.Inventory where
  profile := .full
  entries := [{
    name := ascii "BASICA"
    kind := .r4x
    version := ascii "0.66.1"
    target := ascii "/R4OS/SUBSYSTEMS/basic.a/BASICA.R4X"
    module_role := some .subsystem
    subsystem_id := some (ascii "basic.a")
    subsystem_display_name := some (ascii "BASIC Host A")
    guest_formats := [ascii "basic.qbasic-source"]
    guest_extensions := [ascii "basic.qbasic-source:.bas"]
    guest_features := [ascii "basic.qbasic-source:probe.text-token-v1.7072696e74"] }]

def sampleEntry : Entry where
  subsystem_id := ascii "basic.a"
  host_path := ascii "/R4OS/SUBSYSTEMS/basic.a/BASICA.R4X"
  display_name := ascii "BASIC Host A"
  module_name := ascii "BASICA"
  module_version := ascii "0.66.1"
  guest_formats := [ascii "basic.qbasic-source"]
  guest_extensions := [ascii "basic.qbasic-source:.bas"]
  guest_features := [ascii "basic.qbasic-source:probe.text-token-v1.7072696e74"]

def sampleCatalog : Catalog where
  entries := [sampleEntry]

/-- The first bytes of a file that was read up to some place. -/
def sampleInput (content : Bytes) (count : Nat) : Input where
  path := ascii "C:/GAME.BAS"
  probe_prefix_bytes := content.take count
  file_size := content.length
  probe_window_complete := decide (content.length ≤ count)

theorem sample_extends : Extends (sampleInput (ascii "printer") 5) (sampleInput (ascii "printer") 7) where
  first_valid := by decide +kernel
  second_valid := by decide
  path := rfl
  size := rfl
  window := ⟨ascii "er", by decide⟩
  complete := by decide

theorem verdicts_stable_iff_sample :
    (Stable sampleEntry (ascii "basic.qbasic-source") (sampleInput (ascii "printer") 5)
        (sampleInput (ascii "printer") 7) ↔
      ¬ Lost sampleEntry (ascii "basic.qbasic-source") (ascii "print") (ascii "printer")) ∧
    (Confirms sampleCatalog (sampleInput (ascii "printer") 7) (ascii "basic.a") ↔
      Found sampleCatalog (ascii "print") (ascii "printer") (ascii "basic.a") ∧
        Few sampleCatalog (ascii "printer")) := by
  have window : (sampleInput (ascii "printer") 5).probe_prefix_bytes = ascii "print" := by decide
  have whole : (sampleInput (ascii "printer") 7).probe_prefix_bytes = ascii "printer" := by decide
  have selects : Selects sampleCatalog (sampleInput (ascii "printer") 5)
      (makeCandidate sampleEntry (ascii "basic.qbasic-source") .confirmed_probe) :=
    ⟨finishResolution [makeCandidate sampleEntry (ascii "basic.qbasic-source") .confirmed_probe],
      by decide, by decide, rfl⟩
  rw [← window, ← whole]
  exact ⟨(verdicts_stable_iff sample_extends).1 _ _,
    (verdicts_stable_iff sample_extends).2 _ _ selects (by decide)⟩

/-- A word is confirmed at the end of the bytes that were read, and goes on behind them. -/
theorem not_always_firm : ¬ ∀ inventory check catalog,
    SystemInventory.Inventory.validate inventory = true →
    projectInstalled inventory check = .ok catalog →
    ∀ entry ∈ catalog.entries, ∀ format_id ∈ entry.guest_formats, ∀ first second,
      Extends first second → Stable entry format_id first second := by
  intro always
  have stable := always sampleInventory (fun _ => .present) sampleCatalog (by decide +kernel)
    (by decide) sampleEntry (.head _) _ (.head _) _ _ sample_extends
    .confirmed (.inl rfl) (by decide)
  exact absurd stable (by decide)

end Stability

end R4OS.SubsystemCatalog
