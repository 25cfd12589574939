import R4OS.SubsystemCatalog.Resolution

/-!
# Laws of resolving

A resolution depends on the set of subsystems, formats, extensions and features of an inventory only.
Its candidates are in strict order, and what a probe rejects is a candidate only when the user says so.
-/

namespace R4OS.SubsystemCatalog

open Incremental Text
open SystemInventory (Inventory)

/-- A subsystem whose formats, extensions and features are listed in another order. -/
structure SameSubsystem (first second : SystemInventory.Entry) : Prop where
  role : second.module_role = first.module_role
  subsystem_id : second.subsystem_id = first.subsystem_id
  display_name : second.subsystem_display_name = first.subsystem_display_name
  name : second.name = first.name
  version : second.version = first.version
  target : second.target = first.target
  formats : first.guest_formats.Perm second.guest_formats
  extensions : first.guest_extensions.Perm second.guest_extensions
  features : first.guest_features.Perm second.guest_features

structure SameSubsystems (first second : Inventory) : Prop where
  forth : ∀ entry ∈ first.entries, entry.module_role = some .subsystem →
    ∃ other ∈ second.entries, SameSubsystem entry other
  back : ∀ entry ∈ second.entries, entry.module_role = some .subsystem →
    ∃ other ∈ first.entries, SameSubsystem entry other

/-- An entry whose formats, extensions and features are listed in another order. -/
structure Entry.Same (first second : Entry) : Prop where
  subsystem_id : second.subsystem_id = first.subsystem_id
  host_path : second.host_path = first.host_path
  display_name : second.display_name = first.display_name
  module_version : second.module_version = first.module_version
  formats : first.guest_formats.Perm second.guest_formats
  extensions : first.guest_extensions.Perm second.guest_extensions
  features : first.guest_features.Perm second.guest_features

/-- A catalog has all entries of another one. -/
def Catalog.Covers (first second : Catalog) : Prop :=
  ∀ entry ∈ second.entries, ∃ other ∈ first.entries, entry.Same other

section Same

variable {first second : Entry} {input : Input} {format_id extension : Bytes}

theorem Entry.Same.makeCandidate (same : first.Same second) (evidence : Evidence) :
    makeCandidate second format_id evidence = makeCandidate first format_id evidence := by
  unfold SubsystemCatalog.makeCandidate
  rw [same.subsystem_id, same.host_path, same.display_name, same.module_version]

theorem Entry.Same.mapsExtension (same : first.Same second) :
    second.mapsExtension format_id extension = first.mapsExtension format_id extension := by
  unfold Entry.mapsExtension
  exact same.extensions.symm.any_eq

theorem Entry.Same.probeState (same : first.Same second) :
    probeState second format_id input = probeState first format_id input := by
  have verdicts : (probeVerdicts second format_id input).Perm (probeVerdicts first format_id input) :=
    same.features.symm.filterMap _
  unfold SubsystemCatalog.probeState
  simp only [verdicts.mem_iff, ← List.length_eq_zero_iff, verdicts.length_eq]

theorem entryOf_same {first second : SystemInventory.Entry} (same : SameSubsystem first second)
    {entry : Entry} (made : entryOf first = some entry) :
    ∃ other, entryOf second = some other ∧ entry.Same other := by
  obtain ⟨role, id_eq, name_eq, whole⟩ := entryOf_eq_some made
  refine ⟨⟨entry.subsystem_id, second.target, entry.display_name, second.name, second.version,
    second.guest_formats, second.guest_extensions, second.guest_features⟩, ?_, ?_⟩
  · unfold entryOf
    rw [same.role, role, same.subsystem_id, id_eq, same.display_name, name_eq]
    exact if_neg fun other => other rfl
  · rw [whole]
    exact ⟨rfl, same.target, rfl, same.version, same.formats, same.extensions, same.features⟩

end Same

section Covering

variable {catalog other : Catalog} {input : Input} {policy : Policy} {pair : Entry × Bytes}
  {evidence : Evidence}

theorem projectInstalled_covers {first second : Inventory} {first_check second_check : Bytes → HostState}
    (loaded : projectInstalled first first_check = .ok catalog)
    (other_loaded : projectInstalled second second_check = .ok other)
    (forth : ∀ entry ∈ first.entries, entry.module_role = some .subsystem →
      ∃ other ∈ second.entries, SameSubsystem entry other) : other.Covers catalog := by
  intro entry member
  obtain ⟨source, stored, made⟩ := (mem_projectInstalled loaded).mp member
  obtain ⟨other_source, other_stored, same⟩ := forth source stored (entryOf_eq_some made).1
  obtain ⟨other_entry, other_made, same_entry⟩ := entryOf_same same made
  exact ⟨other_entry, (mem_projectInstalled other_loaded).mpr ⟨other_source, other_stored, other_made⟩,
    same_entry⟩

/-- A choice of formats that the order of an entry does not change. -/
def Orderless (chosen : Entry × Bytes → Prop) : Prop :=
  ∀ first second : Entry, first.Same second → ∀ format_id,
    chosen (first, format_id) → chosen (second, format_id)

theorem Catalog.Covers.formats (covers : other.Covers catalog) (member : pair ∈ catalog.formats) :
    ∃ entry, (entry, pair.2) ∈ other.formats ∧ pair.1.Same entry := by
  obtain ⟨stored, listed⟩ := mem_formats.mp member
  obtain ⟨entry, entry_stored, same⟩ := covers pair.1 stored
  exact ⟨entry, mem_formats.mpr ⟨entry_stored, same.formats.mem_iff.mp listed⟩, same⟩

theorem Catalog.Covers.offered (covers : other.Covers catalog) {chosen : Entry × Bytes → Prop}
    (orderless : Orderless chosen) {candidate : Candidate}
    (found : ∃ pair ∈ catalog.formats, chosen pair ∧ candidate = makeCandidate pair.1 pair.2 evidence) :
    ∃ pair ∈ other.formats, chosen pair ∧ candidate = makeCandidate pair.1 pair.2 evidence := by
  obtain ⟨pair, member, meets, rfl⟩ := found
  obtain ⟨entry, entry_member, same⟩ := covers.formats member
  exact ⟨_, entry_member, orderless _ _ same _ meets, (same.makeCandidate evidence).symm⟩

theorem orderless_confirmed : Orderless (Confirmed input) := by
  intro first second same format_id confirmed
  unfold Confirmed at confirmed ⊢
  rwa [same.probeState]

theorem orderless_maps : Orderless (Maps input) := by
  intro first second same format_id maps
  unfold Maps at maps ⊢
  rwa [same.mapsExtension]

theorem orderless_extension : Orderless fun pair => Maps input pair ∧ ¬ Rejected input pair := by
  intro first second same format_id meets
  refine ⟨orderless_maps _ _ same _ meets.1, ?_⟩
  have kept := meets.2
  unfold Rejected at kept ⊢
  rwa [same.probeState]

theorem orderless_named {association : Association} {required : Bool} :
    Orderless fun pair => Names association pair ∧ (required = true → Maps input pair) := by
  intro first second same format_id meets
  obtain ⟨named, maps⟩ := meets
  refine ⟨?_, fun needed => orderless_maps _ _ same _ (maps needed)⟩
  unfold Names at named ⊢
  dsimp only at named ⊢
  rwa [same.subsystem_id]

end Covering

/-- Two installed catalogs that cover each other. -/
structure Alike (catalog other : Catalog) : Prop where
  installed : Installed catalog
  other_installed : Installed other
  covers : catalog.Covers other
  other_covers : other.Covers catalog

section Independence

variable {catalog other : Catalog} {input : Input} {policy : Policy} {evidence : Evidence}

variable (alike : Alike catalog other)

include alike

theorem Alike.offers_iff {chosen : Entry × Bytes → Prop}
    (orderless : Orderless chosen) (evidence : Evidence) (candidate : Candidate) :
    (∃ pair ∈ catalog.formats, chosen pair ∧ candidate = makeCandidate pair.1 pair.2 evidence) ↔
      ∃ pair ∈ other.formats, chosen pair ∧ candidate = makeCandidate pair.1 pair.2 evidence :=
  ⟨alike.other_covers.offered orderless, alike.covers.offered orderless⟩

theorem Alike.offered {chosen : Entry × Bytes → Bool}
    {meets : Entry × Bytes → Prop} (chosen_iff : ∀ pair, chosen pair = true ↔ meets pair)
    (orderless : Orderless meets) (evidence : Evidence) :
    (offered (catalog.formats.filter chosen) evidence).Perm
      (offered (other.formats.filter chosen) evidence) := by
  have apart : ∀ {catalog : Catalog}, Installed catalog →
      (SubsystemCatalog.offered (catalog.formats.filter chosen) evidence).Nodup := fun installed => by
    have keys_apart := installed.filter_apart chosen
    rw [← offered_keys _ evidence] at keys_apart
    exact keys_apart.of_map
  rw [List.perm_ext_iff_of_nodup (apart alike.installed) (apart alike.other_installed)]
  intro candidate
  rw [offered_filter, offered_filter]
  simp only [chosen_iff]
  exact alike.offers_iff orderless evidence candidate

theorem Alike.collected {chosen : Entry × Bytes → Bool}
    {meets : Entry × Bytes → Prop} (chosen_iff : ∀ pair, chosen pair = true ↔ meets pair)
    (orderless : Orderless meets) :
    (appendAll (catalog.formats.filter chosen) evidence >>= fun candidates =>
        .ok (finishResolution candidates)) =
      (appendAll (other.formats.filter chosen) evidence >>= fun candidates =>
        (.ok (finishResolution candidates) : Except ResolveError Resolution)) := by
  have same := alike.offered chosen_iff orderless evidence
  have counted := same.length_eq
  unfold SubsystemCatalog.offered at counted
  rw [List.length_map, List.length_map] at counted
  rw [appendAll_apart (alike.installed.filter_apart chosen),
    appendAll_apart (alike.other_installed.filter_apart chosen), counted]
  split
  · have apart := alike.installed.filter_apart chosen
    rw [← offered_keys _ evidence] at apart
    exact congrArg Except.ok (finishResolution_perm apart same)
  · rfl

theorem Alike.associationCandidate (association : Association) (required : Bool) :
    associationCandidate catalog association (pathExtension input.path) required =
      associationCandidate other association (pathExtension input.path) required := by
  refine Option.ext fun candidate => ?_
  have orderless : Orderless fun pair =>
      Names association pair ∧ (required = true → Maps input pair) := orderless_named
  have iff := alike.offers_iff orderless .extension candidate
  simp only [and_assoc] at iff
  exact (alike.installed.candidate_iff input required).trans
    (iff.trans (alike.other_installed.candidate_iff input required).symm)

theorem Alike.extension :
    resolveExtension catalog input = resolveExtension other input := by
  unfold resolveExtension
  rw [extensionCandidates_eq, extensionCandidates_eq]
  exact alike.collected (fun pair => decide_eq_true_iff) orderless_extension

theorem Alike.default (found : Option Association) :
    resolveDefault catalog input found = resolveDefault other input found := by
  cases found with
  | none => exact alike.extension
  | some association =>
    unfold resolveDefault
    dsimp only
    rw [← alike.associationCandidate]
    cases named : SubsystemCatalog.associationCandidate catalog association
        (pathExtension input.path) true with
    | none => rfl
    | some candidate =>
      obtain ⟨pair, member, -, -, rfl⟩ := (alike.installed.candidate_iff input true).mp named
      obtain ⟨entry, entry_member, same⟩ := alike.other_covers.formats member
      have looked : findEntry catalog pair.1.subsystem_id = some pair.1 :=
        alike.installed.found_entry (mem_formats.mp member).1
      have other_looked : findEntry other pair.1.subsystem_id = some entry :=
        same.subsystem_id ▸ alike.other_installed.found_entry (mem_formats.mp entry_member).1
      dsimp [makeCandidate]
      rw [looked, other_looked, Option.any_some, Option.any_some, same.probeState,
        alike.extension]

theorem Alike.confirmed (associations : List Association) :
    resolveConfirmed catalog input associations = resolveConfirmed other input associations := by
  by_cases found : ∃ pair ∈ catalog.formats, Confirmed input pair
  · have other_found : ∃ pair ∈ other.formats, Confirmed input pair := by
      obtain ⟨pair, member, confirmed⟩ := found
      obtain ⟨entry, entry_member, same⟩ := alike.other_covers.formats member
      exact ⟨_, entry_member, orderless_confirmed _ _ same _ confirmed⟩
    rw [resolveConfirmed_some alike.installed found,
      resolveConfirmed_some alike.other_installed other_found]
    exact alike.collected (fun pair => decide_eq_true_iff) orderless_confirmed
  · have unmet : ∀ pair ∈ catalog.formats, ¬ Confirmed input pair :=
      fun pair member met => found ⟨pair, member, met⟩
    have other_unmet : ∀ pair ∈ other.formats, ¬ Confirmed input pair := by
      intro pair member met
      obtain ⟨entry, entry_member, same⟩ := alike.covers.formats member
      exact unmet _ entry_member (orderless_confirmed _ _ same _ met)
    rw [resolveConfirmed_none unmet, resolveConfirmed_none other_unmet]
    exact congrArg _ (funext fun found => alike.default found)

theorem Alike.resolve (input : Input) (policy : Policy) :
    resolve catalog input policy = resolve other input policy := by
  have user : resolveUser catalog input policy = resolveUser other input policy := by
    funext found
    cases found with
    | none => exact alike.confirmed _
    | some association =>
      unfold resolveUser
      dsimp only
      rw [alike.associationCandidate]
  unfold SubsystemCatalog.resolve
  rw [user]

end Independence

section Listing

variable {catalog : Catalog} {input : Input} {policy : Policy} {resolution : Resolution}

/-- Candidates that are listed once, in order. -/
structure Listed (candidates : List Candidate) : Prop where
  distinct : (candidates.map Candidate.key).Nodup
  sorted : candidates.Pairwise fun first second => lessCandidate first second = true

theorem finishResolution_listed {candidates : List Candidate}
    (apart : (candidates.map Candidate.key).Nodup) :
    Listed (finishResolution candidates).candidates :=
  ⟨(finishResolution_keys candidates).nodup_iff.mpr apart, finishResolution_sorted apart⟩

theorem finish_one_listed (candidate : Candidate) :
    Listed (finishResolution [candidate]).candidates :=
  finishResolution_listed (List.nodup_singleton _)

theorem resolveExtension_listed (done : resolveExtension catalog input = .ok resolution) :
    Listed resolution.candidates := by
  unfold resolveExtension at done
  rw [extensionCandidates_eq] at done
  obtain ⟨candidates, collected, done⟩ := bind_eq_ok.mp done
  cases done
  exact finishResolution_listed (appendAll_ok collected).1.distinct.nodup

theorem resolveDefault_listed {found : Option Association}
    (done : resolveDefault catalog input found = .ok resolution) : Listed resolution.candidates := by
  unfold resolveDefault at done
  split at done
  · exact resolveExtension_listed done
  split at done
  · cases done
  split at done
  · exact resolveExtension_listed done
  · cases done
    exact finish_one_listed _

theorem resolve_listed (done : resolve catalog input policy = .ok resolution) :
    Listed resolution.candidates := by
  unfold resolve at done
  split at done
  · cases done
  obtain ⟨-, -, done⟩ := bind_eq_ok.mp done
  obtain ⟨-, -, done⟩ := bind_eq_ok.mp done
  obtain ⟨found, -, done⟩ := bind_eq_ok.mp done
  unfold resolveUser at done
  split at done
  · unfold resolveConfirmed at done
    obtain ⟨confirmed, collected, done⟩ := bind_eq_ok.mp done
    split at done
    · cases done
      exact finishResolution_listed (appendAll_ok collected).1.distinct.nodup
    · obtain ⟨association, -, done⟩ := bind_eq_ok.mp done
      exact resolveDefault_listed done
  split at done
  · cases done
  · cases done
    exact finish_one_listed _

theorem Decided.rejected (installed : Installed catalog)
    (decided : Decided catalog input policy (.ok resolution)) {candidate : Candidate}
    (member : candidate ∈ resolution.candidates) {pair : Entry × Bytes}
    (listed : pair ∈ catalog.formats) (named : pairKey pair = candidate.key)
    (rejected : Rejected input pair) : candidate.evidence = .user_association := by
  have same : ∀ other ∈ catalog.formats, candidate.key = pairKey other → pair = other :=
    fun other stored key_eq =>
      List.inj_on_of_nodup_map installed.apart listed stored (named.trans key_eq)
  have alone : ∀ other evidence, Alone other evidence (.ok resolution) →
      candidate = makeCandidate other.1 other.2 evidence := by
    rintro other evidence ⟨_, done, only⟩
    cases done
    rw [only] at member
    exact List.mem_singleton.mp member
  have chosen : ∀ meets evidence, Exactly catalog meets evidence (.ok resolution) →
      meets pair := by
    intro meets evidence exactly
    unfold Exactly at exactly
    dsimp only at exactly
    split at exactly
    · obtain ⟨_, done, offers⟩ := exactly
      cases done
      obtain ⟨other, ⟨stored, met⟩, made⟩ := (offers candidate).mp member
      cases same other stored (congrArg Candidate.key made)
      exact met
    · cases exactly
  by_cases user : ∃ association, Applies policy.user_associations input association
  · obtain ⟨association, applies⟩ := user
    by_cases stale : ∀ other ∈ catalog.formats, ¬ Names association other
    · cases decided.stale_user association applies stale
    · push Not at stale
      obtain ⟨other, stored, other_named⟩ := stale
      rw [alone other _ (decided.user association other applies stored other_named)]
      rfl
  have no_user : ∀ association, ¬ Applies policy.user_associations input association :=
    fun association applies => user ⟨association, applies⟩
  by_cases found : ∃ other ∈ catalog.formats, Confirmed input other
  · have confirmed : Confirmed input pair := chosen _ _ (decided.confirmed no_user found)
    cases rejected.symm.trans confirmed
  have unmet : ∀ other ∈ catalog.formats, ¬ Confirmed input other :=
    fun other stored met => found ⟨other, stored, met⟩
  by_cases overruled : ∀ association, Applies policy.default_associations input association →
      ∃ other ∈ catalog.formats, Names association other ∧ Maps input other ∧ Rejected input other
  · exact absurd rejected (chosen _ _ (decided.extension no_user unmet overruled)).2
  push Not at overruled
  obtain ⟨association, applies, kept⟩ := overruled
  by_cases stale : ∀ other ∈ catalog.formats, ¬ (Names association other ∧ Maps input other)
  · cases decided.stale_default no_user unmet association applies stale
  · push Not at stale
    obtain ⟨other, stored, other_named, maps⟩ := stale
    have other_kept := kept other stored other_named maps
    have made := alone other _
      (decided.default no_user unmet association other applies stored other_named maps other_kept)
    cases same other stored (congrArg Candidate.key made)
    exact absurd rejected other_kept

theorem resolve_invalid_input (invalid : validInput input = false) :
    resolve catalog input policy = .error .invalid_input := by
  unfold resolve
  exact if_pos (by simp [invalid])

theorem validateAssociations_cases (associations : List Association) :
    Admitted associations ∨ validateAssociations associations = .error .invalid_association := by
  unfold Admitted validateAssociations
  split
  · exact .inl rfl
  · exact .inr rfl

theorem resolve_invalid_policy (valid : validInput input = true) (invalid : ¬ policy.Valid) :
    resolve catalog input policy = .error .invalid_association := by
  unfold resolve
  rw [if_neg (by simp [valid])]
  rcases validateAssociations_cases policy.user_associations with user | refused
  · rcases validateAssociations_cases policy.default_associations with defaults | refused
    · exact absurd ⟨user, defaults⟩ invalid
    · rw [user, refused]
      rfl
  · rw [refused]
    rfl

/-- A file is resolved by the rules, to candidates that are listed once and in order, whatever the
order of the inventory. -/
theorem resolve_rules {inventory : Inventory} {check : Bytes → HostState}
    (valid : inventory.validate = true) (loaded : projectInstalled inventory check = .ok catalog)
    (input : Input) (policy : Policy) :
    (∀ other other_check other_catalog, Inventory.validate other = true →
      projectInstalled other other_check = .ok other_catalog → SameSubsystems inventory other →
      resolve other_catalog input policy = resolve catalog input policy) ∧
    (∀ resolution, resolve catalog input policy = .ok resolution →
      Listed resolution.candidates) ∧
    (validInput input = false → resolve catalog input policy = .error .invalid_input) ∧
    (validInput input = true → ¬ policy.Valid →
      resolve catalog input policy = .error .invalid_association) ∧
    (validInput input = true → policy.Valid →
      Decided catalog input policy (resolve catalog input policy)) ∧
    ∀ resolution, resolve catalog input policy = .ok resolution →
      ∀ candidate ∈ resolution.candidates, ∀ pair ∈ catalog.formats,
        pairKey pair = candidate.key → Rejected input pair →
        candidate.evidence = .user_association := by
  have installed := projectInstalled_installed valid loaded
  refine ⟨fun other other_check other_catalog other_valid other_loaded same => ?_,
    fun resolution done => resolve_listed done, resolve_invalid_input, resolve_invalid_policy,
    installed.decided, fun resolution done candidate member pair listed named rejected => ?_⟩
  · have other_installed := projectInstalled_installed other_valid other_loaded
    exact (Alike.mk installed other_installed (projectInstalled_covers other_loaded loaded same.back)
      (projectInstalled_covers loaded other_loaded same.forth)).resolve input policy |>.symm
  · by_cases input_valid : validInput input = true
    · by_cases policy_valid : policy.Valid
      · have decided := installed.decided input_valid policy_valid
        rw [done] at decided
        exact decided.rejected installed member listed named rejected
      · rw [resolve_invalid_policy input_valid policy_valid] at done
        cases done
    · rw [resolve_invalid_input (Bool.not_eq_true _ ▸ input_valid)] at done
      cases done

theorem resolve_rules_sample : Decided sampleCatalog (sampleInput (ascii "printer") 5) {}
    (resolve sampleCatalog (sampleInput (ascii "printer") 5) {}) := by
  have valid : sampleInventory.validate = true := by decide +kernel
  have loaded : projectInstalled sampleInventory (fun _ => .present) = .ok sampleCatalog := by
    decide
  have rules := resolve_rules valid loaded (sampleInput (ascii "printer") 5) {}
  exact rules.2.2.2.2.1 (by decide) ⟨rfl, rfl⟩

/-- A subsystem with sixteen formats of one extension. -/
def crowdedSource (digit : UInt8) : SystemInventory.Entry where
  name := [chr 'A', digit]
  kind := .r4x
  version := ascii "1.0.0"
  target := ascii "/R4OS/SUBSYSTEMS/a" ++ [digit] ++ ascii "/A" ++ [digit] ++ ascii ".R4X"
  module_role := some .subsystem
  subsystem_id := some [chr 'a', digit]
  subsystem_display_name := some [chr 'A', digit]
  guest_formats := (ascii "0123456789abcdef").map fun format => [chr 'f', format]
  guest_extensions := (ascii "0123456789abcdef").map fun format => chr 'f' :: format :: ascii ":.x1"

def crowdedInventory : Inventory where
  profile := .full
  entries := (ascii "012345678").map crowdedSource

def crowdedCatalog : Catalog where
  entries := ((ascii "012345678").map crowdedSource).filterMap entryOf

def crowdedInput : Input where
  path := ascii "C:/GUEST.X1"
  probe_prefix_bytes := []
  file_size := 0
  probe_window_complete := true

theorem crowdedInventory_valid : crowdedInventory.validate = true := by
  decide +kernel

theorem crowdedCatalog_loaded :
    projectInstalled crowdedInventory (fun _ => .present) = .ok crowdedCatalog := by
  decide

theorem crowded_resolve : resolve crowdedCatalog crowdedInput {} = .error .too_many_candidates := by
  decide +kernel

/-- More formats map an extension than a resolution has room for. -/
theorem not_always_listed : ¬ ∀ inventory check catalog, Inventory.validate inventory = true →
    projectInstalled inventory check = .ok catalog → ∀ input policy, validInput input = true →
    policy.Valid → (∀ association, ¬ Applies policy.user_associations input association) →
    (∀ pair ∈ catalog.formats, ¬ Confirmed input pair) →
    (∀ association, ¬ Applies policy.default_associations input association) →
    ∃ resolution, resolve catalog input policy = .ok resolution ∧
      ∀ candidate, candidate ∈ resolution.candidates ↔ ∃ pair ∈ catalog.formats,
        (Maps input pair ∧ ¬ Rejected input pair) ∧
          candidate = makeCandidate pair.1 pair.2 .extension := by
  intro always
  have unmet : ∀ pair ∈ crowdedCatalog.formats, ¬ Confirmed crowdedInput pair := by
    unfold Confirmed
    decide +kernel
  obtain ⟨resolution, done, -⟩ := always crowdedInventory _ crowdedCatalog crowdedInventory_valid
    crowdedCatalog_loaded crowdedInput {} (by decide) ⟨rfl, rfl⟩
    (fun _ applies => List.not_mem_nil applies.1) unmet
    (fun _ applies => List.not_mem_nil applies.1)
  rw [crowded_resolve] at done
  cases done

end Listing

end R4OS.SubsystemCatalog
