import R4OS.Path.Components
import R4OS.Update.Paths

/-!
# The normal form of journal paths

A path in normal form is a root and its joined components.  Normalizing it again gives the same
path, unless its first component behind a bare separator reads like a drive.
-/

namespace R4OS.Update

open Text
open Path (isSeparator isAsciiAlpha segments joinComponents)

/-- A component that is part of a normal form. -/
structure NormalComponent (component : Bytes) : Prop where
  dot : equalsIgnoreCase component (ascii ".") = false
  dots : equalsIgnoreCase component (ascii "..") = false
  edges : ¬(component = [] ∨ component.getLast? = some (chr ' ') ∨
    component.getLast? = some (chr '.'))
  utf8 : utf8ValidateSlice component = true
  allowed : component.any forbiddenPathByte = false

def extendPath (out component : Bytes) : Bytes :=
  (if out ≠ [] ∧ out.getLast? ≠ some (chr '\\') then out ++ [chr '\\'] else out) ++ component

/-- The components that a path keeps. -/
def keptComponents (components : List Bytes) : List Bytes :=
  components.filter fun component => !equalsIgnoreCase component (ascii ".")

section Components

variable {capacity : Nat} {out after component : Bytes} {components : List Bytes}

theorem appendNormalizedPathByte_ok {byte : UInt8} (room : out.length + 1 < capacity) :
    appendNormalizedPathByte capacity out byte = some (out ++ [byte]) :=
  if_neg (Nat.not_le.mpr room)

theorem appendBytes_ok (bytes : Bytes) (room : (out ++ bytes).length < capacity) :
    bytes.foldlM (appendNormalizedPathByte capacity) out = some (out ++ bytes) := by
  induction bytes generalizing out with
  | nil => rw [List.append_nil]; rfl
  | cons byte rest induction =>
    have appended : out ++ byte :: rest = out ++ [byte] ++ rest := List.append_cons _ _ _
    rw [appended] at room ⊢
    rw [List.foldlM_cons, appendNormalizedPathByte_ok (by
      rw [List.length_append, List.length_append, List.length_singleton] at room
      omega)]
    exact induction room

theorem appendNormalizedComponent_some
    (appended : appendNormalizedComponent capacity out component = some after) :
    equalsIgnoreCase component (ascii ".") = true ∧ after = out ∨
      NormalComponent component ∧ after = extendPath out component := by
  unfold appendNormalizedComponent at appended
  split at appended
  · next dot => exact .inl ⟨dot, (Option.some.inj appended).symm⟩
  next dot =>
  split at appended
  · cases appended
  next dots =>
  split at appended
  · cases appended
  next edges =>
  split at appended
  · cases appended
  next utf8 =>
  split at appended
  · cases appended
  next allowed =>
  obtain ⟨separated, separated_eq, appended⟩ := Option.bind_eq_some_iff.mp appended
  refine .inr ⟨⟨Bool.eq_false_of_not_eq_true dot, Bool.eq_false_of_not_eq_true dots, edges,
    by simpa using utf8, Bool.eq_false_of_not_eq_true allowed⟩, ?_⟩
  rw [foldlM_appendNormalizedPathByte component appended, extendPath]
  unfold separateComponent at separated_eq
  split at separated_eq
  · next separated_here =>
    rw [if_pos separated_here, appendNormalizedPathByte_eq separated_eq]
  · next joined_here =>
    rw [if_neg joined_here, Option.some.inj separated_eq]

theorem appendNormalizedComponent_ok (normal : NormalComponent component)
    (room : (extendPath out component).length < capacity) :
    appendNormalizedComponent capacity out component = some (extendPath out component) := by
  unfold appendNormalizedComponent
  rw [normal.dot, normal.dots, normal.utf8, normal.allowed, if_neg Bool.false_ne_true,
    if_neg Bool.false_ne_true, if_neg normal.edges, if_neg (by decide), if_neg Bool.false_ne_true]
  unfold extendPath at room ⊢
  unfold separateComponent
  split at room
  · next separated =>
    rw [if_pos separated, if_pos separated, appendNormalizedPathByte_ok (by
      rw [List.length_append, List.length_append, List.length_singleton] at room
      have nonempty := List.length_pos_iff.mpr fun empty => normal.edges (.inl empty)
      omega), Option.bind_some]
    exact appendBytes_ok component room
  · next joined =>
    rw [if_neg joined, if_neg joined, Option.bind_some]
    exact appendBytes_ok component room

theorem length_extendPath (out component : Bytes) :
    out.length ≤ (extendPath out component).length := by
  unfold extendPath
  split
  · rw [List.length_append, List.length_append]
    omega
  · rw [List.length_append]
    omega

theorem length_extendPaths (out : Bytes) (components : List Bytes) :
    out.length ≤ (components.foldl extendPath out).length := by
  induction components generalizing out with
  | nil => exact .refl
  | cons component rest induction => exact (length_extendPath out component).trans (induction _)

theorem appendComponents_some
    (appended : components.foldlM (appendNormalizedComponent capacity) out = some after) :
    (∀ component ∈ keptComponents components, NormalComponent component) ∧
      after = (keptComponents components).foldl extendPath out := by
  induction components generalizing out with
  | nil => exact ⟨List.forall_mem_nil _, (Option.some.inj appended).symm⟩
  | cons component rest induction =>
    rw [List.foldlM_cons, Option.bind_eq_bind, Option.bind_eq_some_iff] at appended
    obtain ⟨next, step, later⟩ := appended
    obtain ⟨normal, result⟩ := induction later
    rcases appendNormalizedComponent_some step with ⟨dot, rfl⟩ | ⟨kept, rfl⟩
    · rw [keptComponents, List.filter_cons_of_neg (by rw [dot]; decide)]
      exact ⟨normal, result⟩
    · rw [keptComponents, List.filter_cons_of_pos (by rw [kept.dot]; decide)]
      exact ⟨List.forall_mem_cons.mpr ⟨kept, normal⟩, result⟩

theorem appendComponents_ok (normal : ∀ component ∈ components, NormalComponent component)
    (room : (components.foldl extendPath out).length < capacity) :
    components.foldlM (appendNormalizedComponent capacity) out =
      some (components.foldl extendPath out) := by
  induction components generalizing out with
  | nil => rfl
  | cons component rest induction =>
    rw [List.forall_mem_cons] at normal
    rw [List.foldlM_cons, appendNormalizedComponent_ok normal.1
      ((length_extendPaths _ rest).trans_lt room)]
    exact induction normal.2 room

end Components

/-- Whether the components behind a bare separator are read as a drive. -/
def startsLikeDrive : List Bytes → Bool
  | [letter] :: _ :: _ => isAsciiAlpha letter
  | _ => false

/-- Whether a path without a drive has a normal form with a drive. -/
def readsAsDrive (value : Bytes) : Bool :=
  (normalizedRoot value).any fun found => found.1 == [chr '\\'] &&
    startsLikeDrive (keptComponents (segments (value.drop found.2)))

section Paths

variable {capacity : Nat} {value root : Bytes} {start : Nat} {components : List Bytes}

theorem extendPaths_behind (all_components : ∀ component ∈ components, Path.Component component)
    {out : Bytes} (nonempty : out ≠ []) (open_end : out.getLast? ≠ some (chr '\\')) :
    components.foldl extendPath out = out ++ components.flatMap fun later => chr '\\' :: later := by
  induction components generalizing out with
  | nil => exact (List.append_nil _).symm
  | cons component rest induction =>
    rw [List.forall_mem_cons] at all_components
    rw [List.foldl_cons, extendPath, if_pos ⟨nonempty, open_end⟩, induction all_components.2
      (List.append_ne_nil_of_right_ne_nil _ all_components.1.nonempty)
      (all_components.1.getLast? _), List.flatMap_cons, List.append_assoc, List.append_assoc]
    rfl

theorem extendPaths_root (all_components : ∀ component ∈ components, Path.Component component)
    (closed : root.getLast? = some (chr '\\')) :
    components.foldl extendPath root = root ++ joinComponents components := by
  cases components with
  | nil => exact (List.append_nil _).symm
  | cons component rest =>
    rw [List.forall_mem_cons] at all_components
    rw [List.foldl_cons, extendPath, if_neg fun separated => separated.2 closed,
      extendPaths_behind all_components.2
        (List.append_ne_nil_of_right_ne_nil _ all_components.1.nonempty)
        (all_components.1.getLast? _), Path.joinComponents_cons, List.append_assoc]

/-- The roots of paths. -/
inductive IsRoot : Bytes → Prop
  | bare : IsRoot [chr '\\']
  | drive (letter : UInt8) (upper : toUpper letter = letter) (alpha : isAsciiAlpha letter = true) :
      IsRoot [letter, chr ':', chr '\\']

theorem IsRoot.closed (is_root : IsRoot root) : root.getLast? = some (chr '\\') := by
  cases is_root <;> rfl

theorem toUpper_toUpper : ∀ byte : UInt8, toUpper (toUpper byte) = toUpper byte :=
  forall_byte (by decide +kernel)

theorem isAsciiAlpha_toUpper (byte : UInt8) : isAsciiAlpha (toUpper byte) = isAsciiAlpha byte := by
  rw [isAsciiAlpha, isAsciiAlpha, toUpper_toUpper]

theorem normalizedRoot_isRoot (found : normalizedRoot value = some (root, start)) :
    IsRoot root := by
  cases value with
  | nil => cases found
  | cons first rest =>
    rw [normalizedRoot] at found
    split at found
    · next slashed =>
      obtain ⟨rfl, -⟩ := Prod.mk.inj (Option.some.inj found)
      rw [Bool.and_eq_true, Bool.and_eq_true] at slashed
      cases rest with
      | nil => cases slashed.1.2
      | cons drive rest =>
        exact .drive _ (toUpper_toUpper drive) ((isAsciiAlpha_toUpper drive).trans slashed.1.2)
    split at found
    · next drive =>
      split at found
      · cases found
      obtain ⟨rfl, -⟩ := Prod.mk.inj (Option.some.inj found)
      rw [Bool.and_eq_true] at drive
      exact .drive _ (toUpper_toUpper first) ((isAsciiAlpha_toUpper first).trans drive.1)
    split at found
    · obtain ⟨rfl, -⟩ := Prod.mk.inj (Option.some.inj found)
      exact .bare
    · cases found

theorem kept_component (value : Bytes) :
    ∀ component ∈ keptComponents (segments value), Path.Component component :=
  fun _ member => Path.component_of_mem (List.mem_of_mem_filter member)

variable {path : Bounded capacity}

theorem normalizeAbsolutePath_some (normalized : normalizeAbsolutePath capacity value = some path) :
    ∃ root start, normalizedRoot value = some (root, start) ∧
      (∀ component ∈ keptComponents (segments (value.drop start)), NormalComponent component) ∧
      path.bytes = root ++ joinComponents (keptComponents (segments (value.drop start))) := by
  unfold normalizeAbsolutePath at normalized
  split at normalized
  · cases normalized
  simp only [Option.bind_eq_bind, Option.bind_eq_some_iff, Prod.exists] at normalized
  obtain ⟨root, start, found, rooted, rooted_eq, out, out_eq, finished⟩ := normalized
  have rooted_root : rooted = root := by
    rw [foldlM_appendNormalizedPathByte root rooted_eq, List.nil_append]
  obtain ⟨normal, result⟩ := appendComponents_some out_eq
  rw [rooted_root, extendPaths_root (kept_component _) (normalizedRoot_isRoot found).closed]
    at result
  split at finished
  · refine ⟨root, start, found, normal, ?_⟩
    rw [← Option.some.inj finished, ← result]
  · cases finished

theorem normalizeAbsolutePath_ok (found : normalizedRoot path.bytes = some (root, start))
    (whole : path.bytes = root ++ joinComponents components)
    (kept : segments (path.bytes.drop start) = components)
    (normal : ∀ component ∈ components, NormalComponent component)
    (room : path.bytes.length < capacity) :
    normalizeAbsolutePath capacity path.bytes = some path := by
  have is_root := normalizedRoot_isRoot found
  have some_bytes : 1 ≤ root.length := by
    cases is_root
    · exact Nat.le_refl 1
    · exact Nat.le_add_left 1 2
  have all_components : ∀ component ∈ components, Path.Component component := by
    rw [← kept]
    exact fun component member => Path.component_of_mem member
  have longer : root.length ≤ path.bytes.length := by
    rw [whole, List.length_append]
    exact Nat.le_add_right _ _
  have joined := extendPaths_root all_components is_root.closed
  rw [← whole] at joined
  have rooted : root.foldlM (appendNormalizedPathByte capacity) [] = some root :=
    appendBytes_ok root (longer.trans_lt room)
  have result : components.foldlM (appendNormalizedComponent capacity) root = some path.bytes := by
    rw [appendComponents_ok normal (joined ▸ room), joined]
  unfold normalizeAbsolutePath
  simp only [Option.bind_eq_bind, found, Option.bind_some, rooted, kept, result]
  rw [if_neg (by omega), dif_pos ⟨List.ne_nil_of_length_pos (by omega), room⟩]

theorem drive_read {letter : UInt8} (upper : toUpper letter = letter)
    (alpha : isAsciiAlpha letter = true) (rest : Bytes) :
    normalizedRoot ([letter, chr ':', chr '\\'] ++ rest) =
      some ([letter, chr ':', chr '\\'], 2) := by
  have no_separator : isSeparator letter = false := by
    have all_bytes : ∀ byte : UInt8, isAsciiAlpha byte = true → isSeparator byte = false :=
      forall_byte (by decide +kernel)
    exact all_bytes letter alpha
  rw [List.cons_append, normalizedRoot, no_separator, alpha, upper]
  rfl

theorem bare_read (all_components : ∀ component ∈ components, Path.Component component) :
    normalizedRoot (chr '\\' :: joinComponents components) =
      if startsLikeDrive components then
        some ([toUpper (joinComponents components).head!, chr ':', chr '\\'], 3)
      else some ([chr '\\'], 1) := by
  have bare {rest : Bytes} (not_drive : (rest.drop 1).head?.any isSeparator = false) :
      normalizedRoot (chr '\\' :: rest) = some ([chr '\\'], 1) := by
    rw [normalizedRoot, not_drive, Bool.and_false, if_neg Bool.false_ne_true]
    rfl
  cases components with
  | nil => rfl
  | cons component later =>
    rw [List.forall_mem_cons] at all_components
    obtain ⟨⟨nonempty, clear⟩, -⟩ := all_components
    rw [Path.joinComponents_cons]
    cases component with
    | nil => exact absurd rfl nonempty
    | cons first others =>
      cases others with
      | cons second rest =>
        have unseparated := clear second (by simp)
        exact bare unseparated
      | nil =>
        cases later with
        | nil => exact bare rfl
        | cons second rest =>
          cases alpha : isAsciiAlpha first with
          | false =>
            rw [startsLikeDrive, alpha, if_neg Bool.false_ne_true, normalizedRoot]
            simp only [List.cons_append, List.head?_cons, Option.any_some, alpha,
              Bool.and_false, Bool.false_and, if_neg Bool.false_ne_true]
            rfl
          | true =>
            rw [startsLikeDrive, alpha, if_pos rfl, normalizedRoot]
            simp only [List.cons_append, List.head?_cons, Option.any_some, alpha]
            rfl

/-- A normal form is normalized to itself, unless it reads like a drive. -/
theorem normalizeAbsolutePath_idempotent_iff
    (normalized : normalizeAbsolutePath capacity value = some path) :
    normalizeAbsolutePath capacity path.bytes = some path ↔ readsAsDrive value = false := by
  obtain ⟨root, start, found, normal, whole⟩ := normalizeAbsolutePath_some normalized
  have room := (normalizeAbsolutePath_plain normalized).2.2
  have all_components := kept_component (value.drop start)
  have is_root := normalizedRoot_isRoot found
  rw [readsAsDrive, found, Option.any_some]
  dsimp only
  generalize keptComponents (segments (value.drop start)) = components at *
  cases is_root with
  | drive letter upper alpha =>
    have other : ([letter, chr ':', chr '\\'] == [chr '\\']) = false :=
      beq_false_of_ne fun same => absurd (congrArg List.length same) (by simp)
    rw [other, Bool.false_and]
    refine iff_of_true ?_ rfl
    refine normalizeAbsolutePath_ok (whole ▸ drive_read upper alpha _) whole ?_ normal room
    rw [whole]
    exact (Path.segments_separator _ rfl).trans (Path.segments_join all_components)
  | bare =>
    have read := bare_read all_components
    rw [← List.singleton_append, ← whole] at read
    rw [beq_self_eq_true, Bool.true_and]
    cases drive : startsLikeDrive components with
    | false =>
      rw [drive, if_neg Bool.false_ne_true] at read
      refine iff_of_true (normalizeAbsolutePath_ok read whole ?_ normal room) rfl
      rw [whole]
      exact Path.segments_join all_components
    | true =>
      rw [drive, if_pos rfl] at read
      refine iff_of_false (fun again => ?_) (Bool.true_eq_false ▸ id)
      obtain ⟨other, place, other_found, -, other_whole⟩ := normalizeAbsolutePath_some again
      rw [read] at other_found
      obtain ⟨rfl, rfl⟩ := Prod.mk.inj (Option.some.inj other_found)
      have first := congrArg List.head? (whole.symm.trans other_whole)
      have letter := normalizedRoot_isRoot read
      generalize toUpper (joinComponents components).head! = upper at letter first
      have alpha : isAsciiAlpha upper = true := by
        generalize drive_root : [upper, chr ':', chr '\\'] = root at letter
        cases letter with
        | bare => cases drive_root
        | drive letter _ alpha =>
          obtain rfl := List.head_eq_of_cons_eq drive_root
          exact alpha
      rw [← Option.some.inj first] at alpha
      exact absurd alpha (by decide)

end Paths

theorem normalizeAbsolutePath_idempotent_sample :
    ∃ path, normalizeAbsolutePath max_path (ascii "c:/R4OS//./UPDATE") = some path ∧
      normalizeAbsolutePath max_path path.bytes = some path := by
  obtain ⟨path, normalized⟩ : ∃ path,
      normalizeAbsolutePath max_path (ascii "c:/R4OS//./UPDATE") = some path :=
    Option.isSome_iff_exists.mp (by decide +kernel)
  exact ⟨path, normalized, (normalizeAbsolutePath_idempotent_iff normalized).mpr (by decide)⟩

/-- A path whose normal form names a file on a drive. -/
theorem normalForm_reads_as_drive :
    (normalizeAbsolutePath max_path (ascii "\\.\\c\\file")).map Bounded.bytes =
        some (ascii "\\c\\file") ∧
      (normalizeAbsolutePath max_path (ascii "\\c\\file")).map Bounded.bytes =
        some (ascii "C:\\file") := by
  decide +kernel

end R4OS.Update
