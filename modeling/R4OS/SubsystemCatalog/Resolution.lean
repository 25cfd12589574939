import R4OS.SubsystemCatalog.Order
import R4OS.SubsystemCatalog.ProbeStability

/-!
# Resolving a file

What decides how a file is resolved: an association of the user, then confirmed formats, then a default
association, then the extension of the path.  None of this depends on the order of an inventory.
-/

namespace R4OS.SubsystemCatalog

open Incremental Text
open SystemInventory (Inventory)
open Update.Batch (eqlIgnoreCase)

/-- An association for the extension of a file. -/
def Applies (associations : List Association) (input : Input) (association : Association) : Prop :=
  association ∈ associations ∧ eqlIgnoreCase association.extension (pathExtension input.path) = true

/-- An association names a format of a subsystem, in any case. -/
def Names (association : Association) (pair : Entry × Bytes) : Prop :=
  eqlIgnoreCase pair.1.subsystem_id association.subsystem_id = true ∧
    eqlIgnoreCase pair.2 association.format_id = true

/-- A probe confirms a format. -/
def Confirmed (input : Input) (pair : Entry × Bytes) : Prop :=
  probeState pair.1 pair.2 input = .confirmed

/-- A probe rejects a format. -/
def Rejected (input : Input) (pair : Entry × Bytes) : Prop :=
  probeState pair.1 pair.2 input = .rejected

/-- A format maps the extension of a file. -/
def Maps (input : Input) (pair : Entry × Bytes) : Prop :=
  pair.1.mapsExtension pair.2 (pathExtension input.path) = true

/-- A format is the only candidate. -/
def Alone (pair : Entry × Bytes) (evidence : Evidence) (result : Except ResolveError Resolution) :
    Prop :=
  ∃ resolution, result = .ok resolution ∧
    resolution.candidates = [makeCandidate pair.1 pair.2 evidence]

/-- The candidates are exactly some formats, if a resolution has room for them. -/
def Exactly (catalog : Catalog) (chosen : Entry × Bytes → Prop) (evidence : Evidence)
    (result : Except ResolveError Resolution) : Prop :=
  let formats : Set (Entry × Bytes) := {pair | pair ∈ catalog.formats ∧ chosen pair}
  if formats.ncard ≤ max_candidates then
    ∃ resolution, result = .ok resolution ∧ ∀ candidate, candidate ∈ resolution.candidates ↔
      ∃ pair ∈ formats, candidate = makeCandidate pair.1 pair.2 evidence
  else result = .error .too_many_candidates

/-- How the associations and the formats of a catalog decide. -/
structure Decided (catalog : Catalog) (input : Input) (policy : Policy)
    (result : Except ResolveError Resolution) : Prop where
  user : ∀ association pair, Applies policy.user_associations input association →
    pair ∈ catalog.formats → Names association pair → Alone pair .user_association result
  stale_user : ∀ association, Applies policy.user_associations input association →
    (∀ pair ∈ catalog.formats, ¬ Names association pair) → result = .error .stale_association
  confirmed : (∀ association, ¬ Applies policy.user_associations input association) →
    (∃ pair ∈ catalog.formats, Confirmed input pair) →
    Exactly catalog (Confirmed input) .confirmed_probe result
  default : (∀ association, ¬ Applies policy.user_associations input association) →
    (∀ pair ∈ catalog.formats, ¬ Confirmed input pair) →
    ∀ association pair, Applies policy.default_associations input association →
      pair ∈ catalog.formats → Names association pair → Maps input pair → ¬ Rejected input pair →
      Alone pair .default_association result
  stale_default : (∀ association, ¬ Applies policy.user_associations input association) →
    (∀ pair ∈ catalog.formats, ¬ Confirmed input pair) →
    ∀ association, Applies policy.default_associations input association →
      (∀ pair ∈ catalog.formats, ¬ (Names association pair ∧ Maps input pair)) →
      result = .error .stale_association
  extension : (∀ association, ¬ Applies policy.user_associations input association) →
    (∀ pair ∈ catalog.formats, ¬ Confirmed input pair) →
    (∀ association, Applies policy.default_associations input association →
      ∃ pair ∈ catalog.formats, Names association pair ∧ Maps input pair ∧ Rejected input pair) →
    Exactly catalog (fun pair => Maps input pair ∧ ¬ Rejected input pair) .extension result

/-- Associations pass their check. -/
def Admitted (associations : List Association) : Prop :=
  validateAssociations associations = .ok ()

/-- A policy whose associations pass their checks. -/
structure Policy.Valid (policy : Policy) : Prop where
  user : Admitted policy.user_associations
  defaults : Admitted policy.default_associations

section Associations

variable {associations : List Association} {input : Input} {association other : Association}

theorem Admitted.rules (admitted : Admitted associations) :
    (∀ association ∈ associations, 2 ≤ association.extension.length) ∧
      associations.Pairwise fun prior association =>
        eqlIgnoreCase association.extension prior.extension = false := by
  unfold Admitted validateAssociations at admitted
  split at admitted
  · next rules =>
    refine ⟨fun association member => ?_, rules.2.2⟩
    have valid := List.all_eq_true.mp rules.2.1 association member
    unfold validAssociation validAssociationExtension at valid
    simp only [Bool.and_eq_true, decide_eq_true_eq] at valid
    tauto
  · cases admitted

theorem Admitted.extension_ne (admitted : Admitted associations)
    (applies : Applies associations input association) : pathExtension input.path ≠ [] := by
  obtain ⟨member, same⟩ := applies
  have long := admitted.rules.1 association member
  have counted := congrArg List.length (beq_iff_eq.mp same)
  rw [List.length_map, List.length_map] at counted
  intro empty
  rw [empty, List.length_nil] at counted
  omega

def matching (associations : List Association) (extension : Bytes) : List Association :=
  associations.filter fun value => eqlIgnoreCase value.extension extension

theorem applies_iff : Applies associations input association ↔
    association ∈ matching associations (pathExtension input.path) := by
  unfold Applies matching
  rw [List.mem_filter]

theorem Admitted.unique (admitted : Admitted associations) {first second : Association}
    {rest : List Association} (extension : Bytes) :
    matching associations extension ≠ first :: second :: rest := by
  intro listed
  have apart := admitted.rules.2.sublist
    (List.filter_sublist : (matching associations extension).Sublist associations)
  change List.Pairwise _ (matching associations extension) at apart
  rw [listed] at apart
  have clash : eqlIgnoreCase second.extension first.extension = false :=
    List.rel_of_pairwise_cons apart (.head _)
  have same : ∀ association ∈ first :: second :: rest,
      association.extension.map toUpper = extension.map toUpper := by
    rw [← listed]
    exact fun association member => beq_iff_eq.mp (List.mem_filter.mp member).2
  refine beq_eq_false_iff_ne.mp clash ?_
  rw [same first (.head _), same second (.tail _ (.head _))]

theorem matchingAssociation_cases (admitted : Admitted associations) (input : Input) :
    (matchingAssociation associations (pathExtension input.path) = .ok none ∧
      ∀ association, ¬ Applies associations input association) ∨
    ∃ association, matchingAssociation associations (pathExtension input.path) =
      .ok (some association) ∧ ∀ other, Applies associations input other ↔ other = association := by
  by_cases empty : pathExtension input.path = []
  · refine .inl ⟨if_pos empty, fun association applies => admitted.extension_ne applies empty⟩
  have listing : (associations.filter fun value =>
      eqlIgnoreCase value.extension (pathExtension input.path)) =
      matching associations (pathExtension input.path) := rfl
  unfold matchingAssociation
  rw [if_neg empty, listing]
  cases listed : matching associations (pathExtension input.path) with
  | nil => exact .inl ⟨rfl, fun association applies => by
      rw [applies_iff, listed] at applies
      cases applies⟩
  | cons first rest =>
    cases rest with
    | nil => exact .inr ⟨first, rfl, fun other => by
        rw [applies_iff, listed, List.mem_singleton]⟩
    | cons second rest => exact absurd listed (admitted.unique _)

end Associations

section Choosing

variable {catalog : Catalog} {input : Input} {association : Association} {pair other : Entry × Bytes}
  {candidate : Candidate} {evidence : Evidence}

theorem Installed.named_eq (installed : Installed catalog) (member : pair ∈ catalog.formats)
    (other_member : other ∈ catalog.formats) (named : Names association pair)
    (other_named : Names association other) : pair = other := by
  obtain ⟨stored, listed⟩ := mem_formats.mp member
  obtain ⟨other_stored, other_listed⟩ := mem_formats.mp other_member
  have same_entry := installed.entry_eq stored other_stored
    ((installed.lower_ids _ stored).unique (installed.lower_ids _ other_stored) named.1 other_named.1)
  have same_format := (installed.lower_formats _ stored _ listed).unique
    (installed.lower_formats _ other_stored _ other_listed) named.2 other_named.2
  exact Prod.ext same_entry same_format

theorem Installed.candidate_iff (installed : Installed catalog) (input : Input) (required : Bool) :
    associationCandidate catalog association (pathExtension input.path) required = some candidate ↔
      ∃ pair ∈ catalog.formats, Names association pair ∧ (required = true → Maps input pair) ∧
        candidate = makeCandidate pair.1 pair.2 .extension := by
  unfold associationCandidate
  have named_iff : ∀ pair : Entry × Bytes,
      (eqlIgnoreCase pair.1.subsystem_id association.subsystem_id &&
        eqlIgnoreCase pair.2 association.format_id) = true ↔ Names association pair :=
    fun pair => Bool.and_eq_true_iff
  cases found : catalog.formats.find? fun pair =>
      eqlIgnoreCase pair.1.subsystem_id association.subsystem_id &&
        eqlIgnoreCase pair.2 association.format_id with
  | none =>
    refine iff_of_false (by simp) ?_
    rintro ⟨pair, member, named, -⟩
    exact List.find?_eq_none.mp found pair member ((named_iff pair).mpr named)
  | some pair =>
    have member := List.mem_of_find?_eq_some found
    have named := (named_iff pair).mp (by simpa using List.find?_some found)
    dsimp only
    constructor
    · intro made
      split at made
      · cases made
      next allowed =>
      cases made
      refine ⟨pair, member, named, fun needed => ?_, rfl⟩
      by_contra other
      exact allowed ⟨needed, other⟩
    · rintro ⟨other, other_member, other_named, allowed, rfl⟩
      cases installed.named_eq member other_member named other_named
      exact if_neg fun refused => refused.2 (allowed refused.1)

theorem offered_filter {chosen : Entry × Bytes → Bool} :
    candidate ∈ offered (catalog.formats.filter chosen) evidence ↔
      ∃ pair ∈ catalog.formats, chosen pair = true ∧
        candidate = makeCandidate pair.1 pair.2 evidence := by
  unfold offered
  simp only [List.mem_map, List.mem_filter]
  constructor
  · rintro ⟨pair, ⟨member, meets⟩, rfl⟩
    exact ⟨pair, member, meets, rfl⟩
  · rintro ⟨pair, member, meets, rfl⟩
    exact ⟨pair, ⟨member, meets⟩, rfl⟩

/-- All formats that are chosen are offered, unless they are too many. -/
theorem Installed.exactly (installed : Installed catalog) {chosen : Entry × Bytes → Bool}
    {meets : Entry × Bytes → Prop} (same : ∀ pair, chosen pair = true ↔ meets pair) :
    Exactly catalog meets evidence
      (appendAll (catalog.formats.filter chosen) evidence >>= fun candidates =>
        .ok (finishResolution candidates)) := by
  have apart := installed.filter_apart chosen
  have counted : {pair | pair ∈ catalog.formats ∧ meets pair}.ncard =
      (catalog.formats.filter chosen).length := by
    rw [← List.toFinset_card_of_nodup apart.of_map, ← Set.ncard_coe_finset]
    congr 1
    ext pair
    simp [same]
  unfold Exactly
  dsimp only
  rw [counted, appendAll_apart apart]
  split
  · refine ⟨_, rfl, fun candidate => ?_⟩
    rw [mem_finishResolution, offered_filter]
    simp only [same, Set.mem_ofPred_eq, and_assoc]
  · rfl

end Choosing

section Deciding

variable {catalog : Catalog} {input : Input} {policy : Policy} {associations : List Association}
  {pair : Entry × Bytes} {evidence : Evidence}

theorem alone_finish (pair : Entry × Bytes) (evidence : Evidence) :
    Alone pair evidence (.ok (finishResolution [makeCandidate pair.1 pair.2 evidence])) :=
  ⟨_, rfl, rfl⟩

theorem splitMapping_value {mapping key value : Bytes} (split_eq : splitMapping mapping = some (key, value)) :
    value ≠ [] := by
  unfold splitMapping at split_eq
  split at split_eq
  · cases split_eq
  dsimp only at split_eq
  split at split_eq
  · cases split_eq
  next solid =>
  cases split_eq
  exact fun empty => solid (.inr empty)

theorem mapsExtension_nil (entry : Entry) (format_id : Bytes) :
    entry.mapsExtension format_id [] = false := by
  unfold Entry.mapsExtension
  rw [List.any_eq_false]
  intro mapping member
  cases split_eq : splitMapping mapping with
  | none => exact Bool.false_ne_true
  | some parts =>
    have solid := splitMapping_value split_eq
    simp only [decide_eq_true_eq, not_and]
    intro _ same
    exact solid (List.map_eq_nil_iff.mp (beq_iff_eq.mp same))

theorem extensionCandidates_eq (catalog : Catalog) (input : Input) :
    extensionCandidates catalog input = appendAll (extensionFormats catalog input) .extension := by
  unfold extensionCandidates
  split
  · next empty =>
    have none_map : extensionFormats catalog input = [] := by
      unfold extensionFormats
      rw [List.filter_eq_nil_iff, empty]
      intro pair member
      rw [decide_eq_true_eq, mapsExtension_nil]
      exact fun maps => Bool.false_ne_true maps.1
    rw [none_map]
    rfl
  · rfl

theorem Installed.extension (installed : Installed catalog) (input : Input) :
    Exactly catalog (fun pair => Maps input pair ∧ ¬ Rejected input pair) .extension
      (resolveExtension catalog input) := by
  unfold resolveExtension
  rw [extensionCandidates_eq]
  exact installed.exactly fun pair => decide_eq_true_iff

theorem resolve_admitted (valid : validInput input = true) (policy_valid : policy.Valid) :
    resolve catalog input policy =
      matchingAssociation policy.user_associations (pathExtension input.path) >>=
        resolveUser catalog input policy := by
  unfold resolve
  rw [if_neg (by simp [valid]), policy_valid.user, policy_valid.defaults]
  rfl

theorem confirmed_mem : pair ∈ confirmedFormats catalog input ↔
    pair ∈ catalog.formats ∧ Confirmed input pair := by
  unfold confirmedFormats
  rw [List.mem_filter, decide_eq_true_eq]
  rfl

theorem resolveConfirmed_some (installed : Installed catalog)
    (some_confirmed : ∃ pair ∈ catalog.formats, Confirmed input pair) :
    resolveConfirmed catalog input associations =
      appendAll (confirmedFormats catalog input) .confirmed_probe >>= fun confirmed =>
        .ok (finishResolution confirmed) := by
  obtain ⟨pair, member, confirmed⟩ := some_confirmed
  have listed := confirmed_mem.mpr ⟨member, confirmed⟩
  have apart : ((confirmedFormats catalog input).map pairKey).Nodup := installed.filter_apart _
  unfold resolveConfirmed
  rw [appendAll_apart apart]
  split
  · refine if_pos fun empty => ?_
    rw [List.map_eq_nil_iff.mp empty] at listed
    cases listed
  · rfl

theorem resolveConfirmed_none (none_confirmed : ∀ pair ∈ catalog.formats, ¬ Confirmed input pair) :
    resolveConfirmed catalog input associations =
      matchingAssociation associations (pathExtension input.path) >>=
        resolveDefault catalog input := by
  have empty : confirmedFormats catalog input = [] := by
    refine List.eq_nil_iff_forall_not_mem.mpr fun pair listed => ?_
    obtain ⟨member, confirmed⟩ := confirmed_mem.mp listed
    exact none_confirmed pair member confirmed
  unfold resolveConfirmed
  rw [empty]
  rfl

variable (installed : Installed catalog)

include installed

theorem Installed.resolveDefault_some (association : Association) :
    (∃ pair ∈ catalog.formats, Names association pair ∧ Maps input pair ∧
      ((Rejected input pair ∧
        resolveDefault catalog input (some association) = resolveExtension catalog input) ∨
      (¬ Rejected input pair ∧ resolveDefault catalog input (some association) =
        .ok (finishResolution [makeCandidate pair.1 pair.2 .default_association])))) ∨
    ((∀ pair ∈ catalog.formats, ¬ (Names association pair ∧ Maps input pair)) ∧
      resolveDefault catalog input (some association) = .error .stale_association) := by
  unfold resolveDefault
  dsimp only
  cases found : associationCandidate catalog association (pathExtension input.path) true with
  | none =>
    refine .inr ⟨fun pair member decided => ?_, rfl⟩
    have given := (installed.candidate_iff input true).mpr
      ⟨pair, member, decided.1, fun _ => decided.2, rfl⟩
    rw [found] at given
    cases given
  | some candidate =>
    obtain ⟨pair, member, named, maps, rfl⟩ := (installed.candidate_iff input true).mp found
    refine .inl ⟨pair, member, named, maps rfl, ?_⟩
    have looked : findEntry catalog (makeCandidate pair.1 pair.2 .extension).subsystem_id =
        some pair.1 := installed.found_entry (mem_formats.mp member).1
    dsimp only
    rw [looked, Option.any_some]
    by_cases rejected : Rejected input pair
    · exact .inl ⟨rejected, if_pos (by unfold Rejected at rejected; exact decide_eq_true rejected)⟩
    · exact .inr ⟨rejected, if_neg (by unfold Rejected at rejected; exact mt of_decide_eq_true rejected)⟩

theorem Installed.resolveUser_some (association : Association) :
    (∃ pair ∈ catalog.formats, Names association pair ∧
      resolveUser catalog input policy (some association) =
        .ok (finishResolution [makeCandidate pair.1 pair.2 .user_association])) ∨
    ((∀ pair ∈ catalog.formats, ¬ Names association pair) ∧
      resolveUser catalog input policy (some association) = .error .stale_association) := by
  unfold resolveUser
  dsimp only
  cases found : associationCandidate catalog association (pathExtension input.path) false with
  | none =>
    refine .inr ⟨fun pair member named => ?_, rfl⟩
    have given := (installed.candidate_iff input false).mpr
      ⟨pair, member, named, fun never => absurd never Bool.false_ne_true, rfl⟩
    rw [found] at given
    cases given
  | some candidate =>
    obtain ⟨pair, member, named, -, rfl⟩ := (installed.candidate_iff input false).mp found
    exact .inl ⟨pair, member, named, rfl⟩

theorem Installed.decided_user {association : Association}
    (applies : ∀ other, Applies policy.user_associations input other ↔ other = association) :
    Decided catalog input policy (resolveUser catalog input policy (some association)) := by
  have applied : ¬ ∀ other, ¬ Applies policy.user_associations input other :=
    fun none_apply => none_apply association ((applies association).mpr rfl)
  rcases installed.resolveUser_some association with ⟨pair, member, named, done⟩ | ⟨stale, done⟩
  · rw [done]
    exact {
      user := fun other other_pair other_applied other_member other_named => by
        cases (applies other).mp other_applied
        cases installed.named_eq member other_member named other_named
        exact alone_finish pair .user_association
      stale_user := fun other other_applied stale => by
        cases (applies other).mp other_applied
        exact absurd named (stale pair member)
      confirmed := fun none_apply => absurd none_apply applied
      default := fun none_apply => absurd none_apply applied
      stale_default := fun none_apply => absurd none_apply applied
      extension := fun none_apply => absurd none_apply applied }
  · rw [done]
    exact {
      user := fun other other_pair other_applied other_member other_named => by
        cases (applies other).mp other_applied
        exact absurd other_named (stale other_pair other_member)
      stale_user := fun _ _ _ => rfl
      confirmed := fun none_apply => absurd none_apply applied
      default := fun none_apply => absurd none_apply applied
      stale_default := fun none_apply => absurd none_apply applied
      extension := fun none_apply => absurd none_apply applied }

theorem Installed.decided_default {association : Association}
    (none_apply : ∀ other, ¬ Applies policy.user_associations input other)
    (unconfirmed : ¬ ∃ pair ∈ catalog.formats, Confirmed input pair)
    (applies : ∀ other, Applies policy.default_associations input other ↔ other = association) :
    Decided catalog input policy (resolveDefault catalog input (some association)) := by
  rcases installed.resolveDefault_some association with
    ⟨pair, member, named, maps, ⟨rejected, done⟩ | ⟨kept, done⟩⟩ | ⟨stale, done⟩
  · rw [done]
    exact {
      user := fun _ _ applied => absurd applied (none_apply _)
      stale_user := fun _ applied => absurd applied (none_apply _)
      confirmed := fun _ found => absurd found unconfirmed
      default := fun _ _ other other_pair applied other_member other_named _ other_kept => by
        cases (applies other).mp applied
        cases installed.named_eq member other_member named other_named
        exact absurd rejected other_kept
      stale_default := fun _ _ other applied other_stale => by
        cases (applies other).mp applied
        exact absurd ⟨named, maps⟩ (other_stale pair member)
      extension := fun _ _ _ => installed.extension input }
  · rw [done]
    exact {
      user := fun _ _ applied => absurd applied (none_apply _)
      stale_user := fun _ applied => absurd applied (none_apply _)
      confirmed := fun _ found => absurd found unconfirmed
      default := fun _ _ other other_pair applied other_member other_named _ _ => by
        cases (applies other).mp applied
        cases installed.named_eq member other_member named other_named
        exact alone_finish pair .default_association
      stale_default := fun _ _ other applied other_stale => by
        cases (applies other).mp applied
        exact absurd ⟨named, maps⟩ (other_stale pair member)
      extension := fun _ _ overruled => by
        obtain ⟨other, other_member, other_named, -, rejected⟩ :=
          overruled association ((applies association).mpr rfl)
        cases installed.named_eq member other_member named other_named
        exact absurd rejected kept }
  · rw [done]
    exact {
      user := fun _ _ applied => absurd applied (none_apply _)
      stale_user := fun _ applied => absurd applied (none_apply _)
      confirmed := fun _ found => absurd found unconfirmed
      default := fun _ _ other other_pair applied other_member other_named other_maps _ => by
        cases (applies other).mp applied
        exact absurd ⟨other_named, other_maps⟩ (stale other_pair other_member)
      stale_default := fun _ _ _ _ _ => rfl
      extension := fun _ _ overruled => by
        obtain ⟨other, other_member, other_named, other_maps, -⟩ :=
          overruled association ((applies association).mpr rfl)
        exact absurd ⟨other_named, other_maps⟩ (stale other other_member) }

theorem Installed.decided (valid : validInput input = true) (policy_valid : policy.Valid) :
    Decided catalog input policy (resolve catalog input policy) := by
  rw [resolve_admitted valid policy_valid]
  rcases matchingAssociation_cases policy_valid.user input with
    ⟨looked, none_apply⟩ | ⟨association, looked, applies⟩
  · rw [looked]
    change Decided catalog input policy
      (resolveConfirmed catalog input policy.default_associations)
    by_cases some_confirmed : ∃ pair ∈ catalog.formats, Confirmed input pair
    · rw [resolveConfirmed_some installed some_confirmed]
      have confirmed : ¬ ∀ pair ∈ catalog.formats, ¬ Confirmed input pair := by
        obtain ⟨pair, member, met⟩ := some_confirmed
        exact fun unmet => unmet pair member met
      exact {
        user := fun _ _ applied => absurd applied (none_apply _)
        stale_user := fun _ applied => absurd applied (none_apply _)
        confirmed := fun _ _ => installed.exactly fun pair => decide_eq_true_iff
        default := fun _ unmet => absurd unmet confirmed
        stale_default := fun _ unmet => absurd unmet confirmed
        extension := fun _ unmet => absurd unmet confirmed }
    · have unmet : ∀ pair ∈ catalog.formats, ¬ Confirmed input pair :=
        fun pair member met => some_confirmed ⟨pair, member, met⟩
      rw [resolveConfirmed_none unmet]
      rcases matchingAssociation_cases policy_valid.defaults input with
        ⟨default_looked, no_default⟩ | ⟨association, default_looked, applies⟩
      · rw [default_looked]
        change Decided catalog input policy (resolveExtension catalog input)
        exact {
          user := fun _ _ applied => absurd applied (none_apply _)
          stale_user := fun _ applied => absurd applied (none_apply _)
          confirmed := fun _ found => absurd found some_confirmed
          default := fun _ _ _ _ applied => absurd applied (no_default _)
          stale_default := fun _ _ _ applied => absurd applied (no_default _)
          extension := fun _ _ _ => installed.extension input }
      · rw [default_looked]
        exact installed.decided_default none_apply some_confirmed applies
  · rw [looked]
    exact installed.decided_user applies

end Deciding

end R4OS.SubsystemCatalog
