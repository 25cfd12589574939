import R4OS.Path.FilePath
import R4OS.Text.Parts

/-!
# Components of paths

Components are the parts of a path between separators, and a canonical path joins them with
backslashes.
-/

namespace R4OS.Path

open Text

/-- The components of a path joined with backslashes. -/
def joinComponents (components : List Bytes) : Bytes := [chr '\\'].intercalate components

/-- A nonempty text without separators. -/
abbrev Component (component : Bytes) : Prop := Part isSeparator component

section Components

variable {components : List Bytes} {component value : Bytes}

theorem segments_eq (value : Bytes) : segments value = parts isSeparator value := rfl

theorem component_of_mem (member : component ∈ segments value) : Component component :=
  part_of_mem member

theorem segments_separator {separator : UInt8} (rest : Bytes)
    (separates : isSeparator separator = true) : segments (separator :: rest) = segments rest :=
  parts_cons rest separates

theorem segments_join (all_components : ∀ component ∈ components, Component component) :
    segments (joinComponents components) = components :=
  parts_join rfl all_components

@[simp] theorem joinComponents_nil : joinComponents [] = [] := rfl

theorem joinComponents_cons (component : Bytes) (components : List Bytes) :
    joinComponents (component :: components) =
      component ++ components.flatMap fun later => chr '\\' :: later := by
  induction components generalizing component with
  | nil => rw [joinComponents, List.intercalate_singleton, List.flatMap_nil, List.append_nil]
  | cons later rest induction =>
    have joined := induction later
    rw [joinComponents] at joined ⊢
    rw [List.intercalate_cons_cons, joined, List.flatMap_cons, List.append_assoc]
    rfl

theorem Component.getLast? (component_ok : Component component) (front : Bytes) :
    (front ++ component).getLast? ≠ some (chr '\\') := by
  rw [List.getLast?_append_of_ne_nil _ component_ok.nonempty]
  intro last
  have clear := component_ok.clear _ (List.mem_of_getLast? last)
  exact absurd clear (by decide)

end Components

end R4OS.Path
