import R4OS.Path.Components

/-!
# Registry paths of the SDK

A canonical registry path joins its components with single backslashes.  The largest length of a
path is a constant of the contract.
-/

namespace R4OS.Path

open Text

/-- Write separators as backslashes, one for a run of them and none in front. -/
def collapseRegistry (out : Bytes) (previous_separator : Bool) : Bytes → Except Error Bytes
  | [] => .ok out
  | raw :: rest =>
    if raw = 0 then .error .EmbeddedNul
    else if raw < 0x20 ∨ raw = 0x7F then .error .InvalidCharacter
    else if isSeparator raw then
      if out = [] ∨ previous_separator then collapseRegistry out previous_separator rest
      else collapseRegistry (out ++ [chr '\\']) true rest
    else collapseRegistry (out ++ [raw]) false rest

def RegistryPath.parse (registry_path_max : Nat) (input : Bytes) : Except Error Bytes :=
  if input = [] then .error .Empty
  else if registry_path_max < input.length then .error .TooLong
  else do
    let out ← collapseRegistry [] false input
    let path := out.rdropWhile (· == chr '\\')
    if path = [] then .error .Empty else .ok path

example : RegistryPath.parse 511 (ascii "SYSTEM//Shell\\RecentDocuments") =
    .ok (ascii "SYSTEM\\Shell\\RecentDocuments") := by decide

section Canonical

variable {out rest result : Bytes} {previous_separator : Bool} {raw : UInt8}

theorem collapseRegistry_cons
    (collapsed : collapseRegistry out previous_separator (raw :: rest) = .ok result) :
    (isSeparator raw = true ∧ (out = [] ∨ previous_separator = true) ∧
        collapseRegistry out previous_separator rest = .ok result) ∨
      (isSeparator raw = true ∧ out ≠ [] ∧ previous_separator = false ∧
        collapseRegistry (out ++ [chr '\\']) true rest = .ok result) ∨
      (isSeparator raw = false ∧ collapseRegistry (out ++ [raw]) false rest = .ok result) := by
  rw [collapseRegistry] at collapsed
  split_ifs at collapsed with nul control separator skipped
  · exact .inl ⟨separator, skipped, collapsed⟩
  · rw [not_or, Bool.not_eq_true] at skipped
    exact .inr (.inl ⟨separator, skipped.1, skipped.2, collapsed⟩)
  · exact .inr (.inr ⟨Bool.eq_false_of_not_eq_true separator, collapsed⟩)

/-- Components behind other output, each after a backslash. -/
abbrev behind (components : List Bytes) : Bytes := components.flatMap fun later => chr '\\' :: later

theorem ends_unseparated (front : Bytes) (unseparated : isSeparator raw = false) :
    (front ++ [raw]).getLast? ≠ some (chr '\\') := by
  rw [List.getLast?_concat]
  rintro ⟨⟩
  exact absurd unseparated (by decide)

theorem collapseRegistry_behind (rest : Bytes) : ∀ {out : Bytes}, out ≠ [] →
    out.getLast? ≠ some (chr '\\') →
    (∀ {result}, collapseRegistry (out ++ [chr '\\']) true rest = .ok result →
      result.rdropWhile (· == chr '\\') = out ++ behind (segments rest)) ∧
    ∀ {result}, collapseRegistry out false rest = .ok result →
      result.rdropWhile (· == chr '\\') = out ++ rest.takeWhile (fun raw => !isSeparator raw) ++
        behind (segments (rest.dropWhile fun raw => !isSeparator raw)) := by
  induction rest with
  | nil =>
    intro out nonempty last
    have stripped : out.rdropWhile (· == chr '\\') = out := by
      rw [List.rdropWhile_eq_self_iff]
      intro some_out backslash
      rw [List.getLast?_eq_some_getLast some_out] at last
      exact last (congrArg some (beq_iff_eq.mp backslash))
    refine ⟨fun collapsed => ?_, fun collapsed => ?_⟩
    · rw [← Except.ok.inj collapsed, List.rdropWhile_concat_pos _ _ _ (by decide), stripped]
      exact (List.append_nil _).symm
    · rw [← Except.ok.inj collapsed, stripped, List.takeWhile_nil, List.append_nil]
      exact (List.append_nil _).symm
  | cons raw rest induction =>
    intro out nonempty last
    refine ⟨fun collapsed => ?_, fun collapsed => ?_⟩
    · rcases collapseRegistry_cons collapsed with
        ⟨separator, -, collapsed⟩ | ⟨-, -, contradiction, -⟩ | ⟨unseparated, collapsed⟩
      · rw [segments_separator _ separator]
        exact (induction nonempty last).1 collapsed
      · cases contradiction
      · have inside := (induction (List.concat_ne_nil _ _)
          (ends_unseparated (out ++ [chr '\\']) unseparated)).2 collapsed
        rw [inside, segments_eq (raw :: rest), parts_first unseparated, behind, behind,
          List.flatMap_cons]
        simp only [List.append_assoc, List.cons_append]
        rfl
    · rcases collapseRegistry_cons collapsed with
        ⟨-, skipped, -⟩ | ⟨separator, -, -, collapsed⟩ | ⟨unseparated, collapsed⟩
      · exact absurd skipped (by simp [nonempty])
      · rw [(induction nonempty last).1 collapsed, List.takeWhile_cons, List.dropWhile_cons,
          separator, ← segments_separator rest separator]
        exact congrArg (· ++ _) (List.append_nil out).symm
      · rw [(induction (List.concat_ne_nil _ _) (ends_unseparated out unseparated)).2 collapsed,
          List.takeWhile_cons, List.dropWhile_cons, unseparated]
        simp

theorem collapseRegistry_joins (rest : Bytes)
    (collapsed : collapseRegistry [] false rest = .ok result) :
    result.rdropWhile (· == chr '\\') = joinComponents (segments rest) := by
  induction rest with
  | nil => rw [← Except.ok.inj collapsed]; rfl
  | cons raw rest induction =>
    rcases collapseRegistry_cons collapsed with
      ⟨separator, -, collapsed⟩ | ⟨-, nonempty, -⟩ | ⟨unseparated, collapsed⟩
    · rw [segments_separator _ separator]
      exact induction collapsed
    · exact absurd rfl nonempty
    · have inside := (collapseRegistry_behind rest (List.concat_ne_nil _ _)
        (ends_unseparated [] unseparated)).2 collapsed
      rw [inside, segments_eq (raw :: rest), parts_first unseparated, joinComponents_cons]
      rfl

theorem RegistryPath.parse_ok {registry_path_max : Nat} {input path : Bytes}
    (parsed : RegistryPath.parse registry_path_max input = .ok path) :
    path = joinComponents (segments input) := by
  rw [RegistryPath.parse] at parsed
  split_ifs at parsed with empty long
  cases collapsed : collapseRegistry [] false input with
  | error reason => rw [collapsed] at parsed; cases parsed
  | ok out =>
    rw [collapsed] at parsed
    change (if out.rdropWhile (· == chr '\\') = [] then Except.error Error.Empty
      else .ok (out.rdropWhile (· == chr '\\'))) = _ at parsed
    split_ifs at parsed
    rw [← collapseRegistry_joins input collapsed]
    exact (Except.ok.inj parsed).symm

end Canonical

end R4OS.Path
