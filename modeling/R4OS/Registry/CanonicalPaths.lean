import R4OS.Path.RegistryPath
import R4OS.Registry.Hive

/-!
# Keys of canonical registry paths

A registry path designates a hive and the components below its root.  The hive ignores blanks at
both ends of a path, the canonical form drops the separators at its end, and a blank in front of
these separators is a part of a component for one of them only.
-/

namespace R4OS.Registry

open Text
open R4OS.Path (isSeparator segments joinComponents)

/-- The hive of a path and the components below its root. -/
def designatedKey (path : Bytes) : Option (HiveKind × List Bytes) :=
  (parseRoot path).map fun parsed => (parsed.kind, pathComponents parsed.rest)

/-- Whether separators end a path and a blank stands in front of them. -/
def blankBeforeEnd (path : Bytes) : Bool :=
  path.getLast?.any isSeparator && (path.rdropWhile isSeparator).getLast?.any isBlank

section Components

variable {path rest : Bytes}

theorem head?_leading {front whole : Bytes} (leads : front <+: whole) {byte : UInt8}
    (first : byte ∈ front.head?) : byte ∈ whole.head? := by
  obtain ⟨back, rfl⟩ := leads
  exact List.mem_head?_append_of_mem_head? first

theorem head?_dropWhile (drops : UInt8 → Bool) (value : Bytes) :
    ∀ byte ∈ (value.dropWhile drops).head?, drops byte = false := by
  intro byte first
  have stops := List.head?_dropWhile_not drops value
  rw [Option.mem_def.mp first] at stops
  simpa using stops

theorem nextComponent_eq_none (none_left : nextComponent rest = none) : segments rest = [] := by
  rw [nextComponent] at none_left
  split_ifs at none_left with empty
  rw [Path.segments_eq, ← parts_dropWhile, ← parts_rdropWhile]
  exact congrArg _ empty

theorem nextComponent_eq_some {component later : Bytes}
    (found : nextComponent rest = some (component, later)) :
    segments rest = component :: segments later ∧ later.length < rest.length := by
  rw [nextComponent] at found
  split_ifs at found with empty
  have trimmed_parts : segments (trimSeparators rest) = segments rest := by
    rw [Path.segments_eq, trimSeparators, parts_rdropWhile, parts_dropWhile]
    rfl
  have trimmed_length : (trimSeparators rest).length ≤ rest.length :=
    ((List.rdropWhile_prefix _ _).length_le).trans ((List.dropWhile_sublist _).length_le)
  have front : ∀ byte ∈ (trimSeparators rest).head?, isSeparator byte = false :=
    fun byte first => head?_dropWhile _ _ byte (head?_leading (List.rdropWhile_prefix _ _) first)
  generalize trimSeparators rest = trimmed at *
  obtain ⟨rfl, rfl⟩ := Prod.mk.inj (Option.some.inj found)
  refine ⟨?_, ?_⟩
  · rw [← trimmed_parts, Path.segments_eq, Path.segments_eq, parts_run empty front, parts_drop_run]
  · rw [List.length_drop]
    have some_left := List.length_pos_of_ne_nil empty
    omega

theorem componentsFrom_eq : ∀ (fuel : Nat) {rest : Bytes}, rest.length ≤ fuel →
    componentsFrom fuel rest = segments rest
  | 0, rest, room => by
      rw [List.length_eq_zero_iff.mp (Nat.le_zero.mp room)]
      rfl
  | fuel + 1, rest, room => by
      rw [componentsFrom]
      cases found : nextComponent rest with
      | none => exact (nextComponent_eq_none found).symm
      | some next =>
        obtain ⟨component, later⟩ := next
        obtain ⟨split, shorter⟩ := nextComponent_eq_some found
        rw [split]
        exact congrArg _ (componentsFrom_eq fuel (by omega))

theorem pathComponents_eq (rest : Bytes) : pathComponents rest = segments rest :=
  componentsFrom_eq rest.length .refl

/-- The key of a root and components below it. -/
def rootedKey : List Bytes → Option (HiveKind × List Bytes)
  | [] => none
  | root :: below => (rootKind root).map fun kind => (kind, below)

theorem rootKind_nil : rootKind [] = none := by decide

theorem parseRoot_eq (path : Bytes) : parseRoot path =
    if trim path = [] then none
    else (rootKind (splitRoot (trim path)).1).map fun kind =>
      { kind, rest := trimSeparators (splitRoot (trim path)).2 } := by
  rw [parseRoot, trimPath]
  by_cases empty : trim path = []
  · rw [if_pos empty, empty]
    rfl
  · rw [if_neg empty]
    simp only [guard, if_pos empty]
    cases rootKind (splitRoot (trim path)).1 <;> rfl

theorem parseRoot_front (designated : parseRoot path ≠ none) :
    trim path ≠ [] ∧ ∀ byte ∈ (trim path).head?, isSeparator byte = false := by
  rw [parseRoot_eq] at designated
  split_ifs at designated with empty
  · exact absurd rfl designated
  refine ⟨empty, fun byte first => ?_⟩
  rw [← Bool.not_eq_true]
  intro separator
  have root_empty : (splitRoot (trim path)).1 = [] := by
    cases text : trim path with
    | nil => exact absurd text empty
    | cons head tail =>
      rw [text, List.head?_cons, Option.mem_some_iff] at first
      rw [splitRoot, List.takeWhile_cons, first, separator]
      rfl
  rw [root_empty, rootKind_nil] at designated
  exact designated rfl

theorem designatedKey_eq (front : ∀ byte ∈ (trim path).head?, isSeparator byte = false) :
    designatedKey path = rootedKey (segments (trim path)) := by
  rw [designatedKey, parseRoot_eq]
  split_ifs with empty
  · rw [empty]
    rfl
  · have below : segments (trimSeparators (splitRoot (trim path)).2) =
        segments ((trim path).dropWhile fun ch => !isSeparator ch) := by
      rw [Path.segments_eq, trimSeparators, parts_rdropWhile, parts_dropWhile]
      exact parts_drop_run _
    have split : segments (trim path) = (splitRoot (trim path)).1 ::
        segments ((trim path).dropWhile fun ch => !isSeparator ch) := parts_run empty front
    rw [split, rootedKey, Option.map_map]
    refine congrArg (fun key => Option.map key _) (funext fun kind => ?_)
    exact congrArg (Prod.mk kind) ((pathComponents_eq _).trans below)

end Components

section Canonical

variable {path solid : Bytes}

theorem isBlank_separator {byte : UInt8} (separator : isSeparator byte = true) :
    isBlank byte = false := by
  rw [isSeparator, Bool.or_eq_true, beq_iff_eq, beq_iff_eq] at separator
  rcases separator with rfl | rfl <;> decide

theorem separator_blank {byte : UInt8} (blank : isBlank byte = true) :
    isSeparator byte = false := by
  rw [← Bool.not_eq_true]
  intro separator
  rw [isBlank_separator separator] at blank
  cases blank

/-- A text that starts with a component joins to a text that starts alike. -/
theorem joinComponents_segments (nonempty : solid ≠ [])
    (front : ∀ byte ∈ solid.head?, isSeparator byte = false) :
    joinComponents (segments solid) = (solid.takeWhile fun ch => !isSeparator ch) ++
      Path.behind (segments (solid.dropWhile fun ch => !isSeparator ch)) := by
  rw [Path.segments_eq, parts_run nonempty front, Path.joinComponents_cons]
  rfl

theorem joinComponents_head? (nonempty : solid ≠ [])
    (front : ∀ byte ∈ solid.head?, isSeparator byte = false) :
    (joinComponents (segments solid)).head? = solid.head? := by
  rw [joinComponents_segments nonempty front]
  cases solid with
  | nil => exact absurd rfl nonempty
  | cons first rest =>
    rw [List.takeWhile_cons, front first rfl]
    rfl

/-- Blanks in front of a path stay in front of its canonical form. -/
theorem joinComponents_blanks {blanks : Bytes} (all_blank : ∀ byte ∈ blanks, isBlank byte = true)
    (nonempty : solid ≠ []) (front : ∀ byte ∈ solid.head?, isSeparator byte = false) :
    joinComponents (segments (blanks ++ solid)) = blanks ++ joinComponents (segments solid) := by
  have clear : ∀ byte ∈ blanks, (!isSeparator byte) = true := fun byte member => by
    rw [separator_blank (all_blank byte member)]
    rfl
  have blanks_front : ∀ byte ∈ (blanks ++ solid).head?, isSeparator byte = false := by
    intro byte first
    cases blanks with
    | nil => exact front byte first
    | cons blank others =>
      rw [List.cons_append, List.head?_cons, Option.mem_some_iff] at first
      exact first ▸ separator_blank (all_blank blank (.head _))
  rw [joinComponents_segments (List.append_ne_nil_of_right_ne_nil _ nonempty) blanks_front,
    joinComponents_segments nonempty front, List.takeWhile_append_of_pos clear,
    List.dropWhile_append_of_pos clear, List.append_assoc]

/-- The canonical form of a path without blanks at both ends. -/
theorem trim_joinComponents (nonempty : path.dropWhile isBlank ≠ [])
    (front : ∀ byte ∈ (path.dropWhile isBlank).head?, isSeparator byte = false) :
    trim (joinComponents (segments path)) =
      (joinComponents (segments (path.dropWhile isBlank))).rdropWhile isBlank := by
  have all_blank : ∀ byte ∈ path.takeWhile isBlank, isBlank byte = true :=
    fun byte member => List.mem_takeWhile_imp member
  have solid_front := head?_dropWhile isBlank path
  have whole : path.takeWhile isBlank ++ path.dropWhile isBlank = path :=
    List.takeWhile_append_dropWhile
  generalize path.takeWhile isBlank = blanks at *
  generalize path.dropWhile isBlank = solid at *
  rw [← whole, trim, joinComponents_blanks all_blank nonempty front,
    List.dropWhile_append_of_pos all_blank]
  have kept : (joinComponents (segments solid)).dropWhile isBlank =
      joinComponents (segments solid) := by
    rw [List.dropWhile_eq_self_iff]
    intro some_left
    have head_same := joinComponents_head? nonempty front
    rw [List.head?_eq_getElem?, List.getElem?_eq_getElem some_left] at head_same
    rw [solid_front _ head_same.symm]
    decide
  rw [kept]

theorem joinComponents_last {components : List Bytes}
    (all_components : ∀ component ∈ components, Path.Component component) :
    ∀ byte ∈ (joinComponents components).getLast?, isSeparator byte = false := by
  induction components with
  | nil => intro byte ends; cases ends
  | cons component later induction =>
    rw [List.forall_mem_cons] at all_components
    intro byte ends
    cases later with
    | nil =>
      rw [joinComponents, List.intercalate_singleton] at ends
      exact all_components.1.clear byte (List.mem_of_getLast? ends)
    | cons second others =>
      have some_joined : joinComponents (second :: others) ≠ [] := by
        rw [Path.joinComponents_cons]
        exact List.append_ne_nil_of_left_ne_nil
          (all_components.2 second (.head _)).nonempty _
      have last_same : (joinComponents (component :: second :: others)).getLast? =
          (joinComponents (second :: others)).getLast? := by
        rw [joinComponents, List.intercalate_cons_cons]
        exact List.getLast?_append_of_ne_nil _ some_joined
      exact induction all_components.2 byte (last_same ▸ ends)

/-- The components of a canonical form without blanks at its end. -/
theorem segments_rdropWhile_joinComponents (path : Bytes) :
    segments ((joinComponents (segments path)).rdropWhile isBlank) =
      trimLast isBlank (segments path) := by
  have all_components : ∀ component ∈ segments path, Path.Component component :=
    fun component member => Path.component_of_mem member
  have trimmed := parts_trim (fun _ separator => isBlank_separator separator)
    (joinComponents_last all_components)
  rw [← Path.segments_eq, ← Path.segments_eq, Path.segments_join all_components] at trimmed
  exact trimmed

theorem isBlank_toUpper : ∀ byte, isBlank (toUpper byte) = isBlank byte :=
  forall_byte (by decide +kernel)

theorem rootKind_last {root : Bytes} {kind : HiveKind} (known : rootKind root = some kind) :
    ∀ byte ∈ root.getLast?, isBlank byte = false := by
  have roots : ∀ name ∈ [ascii "SYSTEM", ascii "SOFTWARE", ascii "DESKTOP", ascii "USER"],
      ∀ byte ∈ name.getLast?, isBlank byte = false := by decide +kernel
  have spelled : root.map toUpper ∈
      [ascii "SYSTEM", ascii "SOFTWARE", ascii "DESKTOP", ascii "USER"] := by
    have upper : [ascii "SYSTEM", ascii "SOFTWARE", ascii "DESKTOP", ascii "USER"].map
        (List.map toUpper) = [ascii "SYSTEM", ascii "SOFTWARE", ascii "DESKTOP", ascii "USER"] := by
      decide
    rw [← upper, List.mem_map]
    simp only [rootKind, asciiEqlIgnoreCase, beq_iff_eq] at known
    split_ifs at known with system software desktop user
    · exact ⟨_, by simp, system.symm⟩
    · exact ⟨_, by simp, software.symm⟩
    · exact ⟨_, by simp, desktop.symm⟩
    · exact ⟨_, by simp, user.symm⟩
  intro byte ends
  rw [← isBlank_toUpper]
  refine roots _ spelled _ ?_
  rw [List.getLast?_map, Option.mem_def.mp ends]
  rfl

theorem rootedKey_trimLast {components : List Bytes} (known : rootedKey components ≠ none) :
    rootedKey (trimLast isBlank components) = rootedKey components ↔
      trimLast isBlank components = components := by
  refine ⟨fun same => ?_, fun same => congrArg rootedKey same⟩
  cases components with
  | nil => rfl
  | cons root below =>
    cases kind : rootKind root with
    | none =>
      rw [rootedKey, kind] at known
      exact absurd rfl known
    | some kind_value =>
      by_cases bare : below = []
      · subst bare
        by_cases empty : root = []
        · rw [empty, rootKind_nil] at kind
          cases kind
        · exact (trimLast_eq_iff [] empty).mpr (rootKind_last kind)
      · rw [trimLast_cons root bare] at same ⊢
        rw [rootedKey, rootedKey, kind, Option.map_some, Option.map_some] at same
        rw [(Prod.mk.inj (Option.some.inj same)).2]

theorem rdropWhile_ne_nil (nonempty : solid ≠ [])
    (front : ∀ byte ∈ solid.head?, isSeparator byte = false) :
    solid.rdropWhile isSeparator ≠ [] := by
  intro all_separators
  rw [List.rdropWhile_eq_nil_iff] at all_separators
  have clear := front _ (List.head_mem_head? nonempty)
  rw [all_separators _ (List.head_mem nonempty)] at clear
  cases clear

theorem blankBeforeEnd_append (blanks : Bytes) (nonempty : solid ≠ [])
    (front : ∀ byte ∈ solid.head?, isSeparator byte = false) :
    blankBeforeEnd (blanks ++ solid) = blankBeforeEnd solid := by
  rw [blankBeforeEnd, blankBeforeEnd, rdropWhile_append,
    if_neg (rdropWhile_ne_nil nonempty front), List.getLast?_append_of_ne_nil _ nonempty,
    List.getLast?_append_of_ne_nil _ (rdropWhile_ne_nil nonempty front)]

/-- Blanks at the end of the last component are in front of the separators at the end. -/
theorem trimLast_segments_iff (nonempty : solid.rdropWhile isSeparator ≠ []) :
    trimLast isBlank (segments solid) = segments solid ↔
      (solid.rdropWhile isSeparator).getLast?.any isBlank = false := by
  have stripped : segments (solid.rdropWhile isSeparator) = segments solid := parts_rdropWhile solid
  rw [← stripped]
  obtain ⟨earlier, last, split, part, -, parts_eq⟩ := @parts_last _ isSeparator _ nonempty
    (fun byte ends => by
      rw [List.getLast?_eq_some_getLast nonempty, Option.mem_some_iff] at ends
      exact ends ▸ Bool.eq_false_of_not_eq_true (List.rdropWhile_last_not _ _ nonempty))
  rw [Path.segments_eq, parts_eq, trimLast_eq_iff _ part.nonempty, split,
    List.getLast?_append_of_ne_nil _ part.nonempty]
  cases last.getLast? <;> simp

/-- A canonical path designates the key of its input, unless a blank stands in front of separators
at the end of the input. -/
theorem RegistryPath.designatedKey_parse_iff {registry_path_max : Nat} {input path : Bytes}
    (parsed : Path.RegistryPath.parse registry_path_max input = .ok path)
    (designated : parseRoot input ≠ none) :
    designatedKey path = designatedKey input ↔ blankBeforeEnd input = false := by
  obtain ⟨some_text, front⟩ := parseRoot_front designated
  have input_key := designatedKey_eq front
  have key_known : designatedKey input ≠ none := by
    rw [designatedKey, Ne, Option.map_eq_none_iff]
    exact designated
  have some_solid : input.dropWhile isBlank ≠ [] := by
    intro all_blank
    rw [trim, all_blank] at some_text
    exact some_text rfl
  have text_head : (trim input).head? = (input.dropWhile isBlank).head? := by
    have first := List.head?_eq_some_head some_text
    rw [first]
    exact (head?_leading (List.rdropWhile_prefix _ _) first).symm
  have blank_front := @blankBeforeEnd_append _ (input.takeWhile isBlank) some_solid
  rw [List.takeWhile_append_dropWhile] at blank_front
  rw [text_head] at front
  have canonical := trim_joinComponents some_solid front
  rw [← Path.RegistryPath.parse_ok parsed] at canonical
  have canonical_front : ∀ byte ∈ (trim path).head?, isSeparator byte = false := by
    intro byte first
    rw [canonical] at first
    have joined_first := head?_leading (List.rdropWhile_prefix _ _) first
    rw [joinComponents_head? some_solid front] at joined_first
    exact front byte joined_first
  rw [input_key] at key_known
  rw [input_key, designatedKey_eq canonical_front, canonical, segments_rdropWhile_joinComponents,
    blank_front front]
  rw [trim] at key_known ⊢
  have some_left : (input.dropWhile isBlank).rdropWhile isSeparator ≠ [] :=
    rdropWhile_ne_nil some_solid front
  generalize input.dropWhile isBlank = solid at *
  cases ends : solid.getLast?.any isSeparator with
  | true =>
    -- No blank is behind the separators, and the input keeps the blanks in front of them.
    have kept : solid.rdropWhile isBlank = solid := by
      rw [List.rdropWhile_eq_self_iff]
      intro some_last blank_end
      rw [List.getLast?_eq_some_getLast some_last, Option.any_some,
        separator_blank blank_end] at ends
      cases ends
    rw [kept] at key_known ⊢
    rw [rootedKey_trimLast key_known, trimLast_segments_iff some_left, blankBeforeEnd, ends,
      Bool.true_and]
  | false =>
    have trimmed := parts_trim (fun _ separator => isBlank_separator separator)
      (fun last member => by rw [Option.mem_def.mp member] at ends; exact ends)
    rw [← Path.segments_eq, ← Path.segments_eq] at trimmed
    rw [trimmed, blankBeforeEnd, ends, Bool.false_and]
    exact iff_of_true rfl rfl

theorem RegistryPath.designatedKey_parse_sample :
    designatedKey (ascii " SYSTEM\\Shell") = designatedKey (ascii " SYSTEM//Shell\\") :=
  (@RegistryPath.designatedKey_parse_iff 511 (ascii " SYSTEM//Shell\\") _
    (by decide) (by decide)).mpr (by decide)

/-- The component with a blank at its end becomes another one. -/
theorem RegistryPath.parse_loses_blank :
    Path.RegistryPath.parse 511 (ascii "SYSTEM\\Shell \\") = .ok (ascii "SYSTEM\\Shell ") ∧
      designatedKey (ascii "SYSTEM\\Shell \\") = some (.system, [ascii "Shell "]) ∧
      designatedKey (ascii "SYSTEM\\Shell ") = some (.system, [ascii "Shell"]) := by
  decide

end Canonical

end R4OS.Registry
