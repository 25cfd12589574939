import R4OS.Text.Bytes
import R4OS.Text.Search

/-!
# Lines ended by a carriage return and a line feed

A block of lines ends with a blank line.  When no line is empty or shows a line break, the first blank
line is where the block ends, and splitting the block gives its lines back.
-/

namespace R4OS.Text

variable {rest line : Bytes} {lines : List Bytes}

/-- A carriage return and a line feed. -/
def crlf : Bytes := [13, 10]

/-- The end of a block. -/
def blankLine : Bytes := crlf ++ crlf

/-- Lines with their ends. -/
def unlinesCrlf (lines : List Bytes) : Bytes := lines.flatMap (· ++ crlf)

/-- Split at every carriage return with a line feed behind it. -/
def splitCrlf : Bytes → List Bytes
  | [] => [[]]
  | [byte] => [[byte]]
  | byte :: next :: rest =>
    if byte = 13 ∧ next = 10 then [] :: splitCrlf rest
    else (splitCrlf (next :: rest)).modifyHead (byte :: ·)

def Unbroken (line : Bytes) : Prop := ∀ byte ∈ line, byte ≠ 13 ∧ byte ≠ 10

/-- A line that a block can show. -/
def PlainLine (line : Bytes) : Prop := line ≠ [] ∧ Unbroken line

instance (line : Bytes) : Decidable (Unbroken line) :=
  List.decidableBAll (fun byte => byte ≠ 13 ∧ byte ≠ 10) line

instance (line : Bytes) : Decidable (PlainLine line) :=
  inferInstanceAs (Decidable (line ≠ [] ∧ Unbroken line))

@[simp] theorem unbroken_nil : Unbroken [] := nofun

@[simp] theorem unbroken_cons {byte : UInt8} :
    Unbroken (byte :: rest) ↔ (byte ≠ 13 ∧ byte ≠ 10) ∧ Unbroken rest := List.forall_mem_cons

@[simp] theorem unbroken_append {front : Bytes} :
    Unbroken (front ++ rest) ↔ Unbroken front ∧ Unbroken rest := List.forall_mem_append

@[simp] theorem unlinesCrlf_nil : unlinesCrlf [] = [] := rfl

@[simp] theorem unlinesCrlf_cons (line : Bytes) (lines : List Bytes) :
    unlinesCrlf (line :: lines) = line ++ crlf ++ unlinesCrlf lines := List.flatMap_cons

theorem unlinesCrlf_append (first second : List Bytes) :
    unlinesCrlf (first ++ second) = unlinesCrlf first ++ unlinesCrlf second := List.flatMap_append

theorem splitCrlf_unbroken (unbroken : Unbroken line) : splitCrlf line = [line] := by
  induction line with
  | nil => rfl
  | cons byte line induction =>
    obtain ⟨⟨solid, -⟩, later⟩ := unbroken_cons.mp unbroken
    cases line with
    | nil => rfl
    | cons next line =>
      rw [splitCrlf, if_neg fun both => solid both.1, induction later]
      rfl

theorem splitCrlf_append (unbroken : Unbroken line) (rest : Bytes) :
    splitCrlf (line ++ crlf ++ rest) = line :: splitCrlf rest := by
  induction line with
  | nil =>
    rw [List.nil_append, crlf, List.cons_append, List.singleton_append, splitCrlf,
      if_pos ⟨rfl, rfl⟩]
  | cons byte line induction =>
    obtain ⟨⟨solid, -⟩, later⟩ := unbroken_cons.mp unbroken
    have split := induction later
    cases tail : line ++ crlf ++ rest with
    | nil => simp [crlf] at tail
    | cons next more =>
      rw [tail] at split
      rw [List.cons_append, List.cons_append, tail, splitCrlf, if_neg fun both => solid both.1, split]
      rfl

theorem splitCrlf_lines {last : Bytes}
    (plain : ∀ line ∈ lines, Unbroken line) (last_plain : Unbroken last) :
    splitCrlf (unlinesCrlf lines ++ last) = lines ++ [last] := by
  induction lines with
  | nil => exact splitCrlf_unbroken last_plain
  | cons line lines induction =>
    rw [unlinesCrlf_cons, List.append_assoc, splitCrlf_append (plain line (by simp)),
      induction fun other member => plain other (.tail _ member)]
    rfl

theorem OccursAt.blankLine {value : Bytes} {place : Nat} (occurs : OccursAt value blankLine place) :
    value[place]? = some 13 ∧ value[place + 2]? = some 13 :=
  ⟨occurs.getElem? (show 0 < Text.blankLine.length by decide),
    occurs.getElem? (show 2 < Text.blankLine.length by decide)⟩

/-- Nothing before the end of a plain line starts a blank line, unless the line is the last one. -/
theorem no_blankLine (unbroken : Unbroken line) (more : rest.head? ≠ some 13)
    {place : Nat} (inside : place < line.length + 2) :
    ¬ OccursAt (line ++ crlf ++ rest) blankLine place := by
  intro occurs
  obtain ⟨here, later⟩ := occurs.blankLine
  rw [List.append_assoc] at here later
  by_cases early : place < line.length
  · rw [List.getElem?_append_left early] at here
    exact (unbroken 13 (List.mem_of_getElem? here)).1 rfl
  · rw [List.getElem?_append_right (by omega)] at here later
    by_cases first : place = line.length
    · rw [show place + 2 - line.length = 2 by omega] at later
      exact more (by rw [List.head?_eq_getElem?]; exact later)
    · rw [show place - line.length = 1 by omega] at here
      exact absurd here (by decide : ¬ some (10 : UInt8) = some 13)

/-- The first blank line ends the block. -/
theorem indexOf_blankLine {last : Bytes} (plain : ∀ line ∈ lines, PlainLine line)
    (last_plain : PlainLine last) (rest : Bytes) :
    indexOf (unlinesCrlf lines ++ last ++ blankLine ++ rest) blankLine =
      some (unlinesCrlf lines ++ last).length := by
  refine indexOf_eq ?_ ?_
  · rw [OccursAt, List.append_assoc _ blankLine, List.drop_left]
    exact List.prefix_append _ _
  · induction lines with
    | nil =>
      intro earlier before occurs
      have here := occurs.blankLine.1
      rw [unlinesCrlf_nil, List.nil_append] at before here
      rw [List.append_assoc, List.getElem?_append_left before] at here
      exact (last_plain.2 13 (List.mem_of_getElem? here)).1 rfl
    | cons line lines induction =>
      intro earlier before occurs
      have first := plain line (by simp)
      have others : ∀ other ∈ lines, PlainLine other := fun other member =>
        plain other (.tail _ member)
      rw [unlinesCrlf_cons] at before occurs
      simp only [List.append_assoc] at occurs
      by_cases inside : earlier < line.length + 2
      · refine no_blankLine first.2 ?_ inside (by rw [List.append_assoc]; exact occurs)
        intro starts
        cases lines with
        | nil =>
          obtain ⟨byte, tail, rfl⟩ := List.exists_cons_of_ne_nil last_plain.1
          cases starts
          exact (last_plain.2 13 (by simp)).1 rfl
        | cons second lines =>
          have second_plain := others second (by simp)
          obtain ⟨byte, tail, rfl⟩ := List.exists_cons_of_ne_nil second_plain.1
          cases starts
          exact (second_plain.2 13 (by simp)).1 rfl
      · refine induction others (earlier - (line.length + 2)) ?_ ?_
        · simp only [List.length_append, crlf, List.length_cons, List.length_nil] at before ⊢
          omega
        · rw [← Nat.add_sub_cancel' (Nat.le_of_not_lt inside)] at occurs
          have moved := occursAt_drop.mpr occurs
          have skipped : (line ++ (crlf ++ (unlinesCrlf lines ++ (last ++ (blankLine ++ rest))))).drop
              (line.length + 2) = unlinesCrlf lines ++ (last ++ (blankLine ++ rest)) := by
            rw [← List.drop_drop, List.drop_left]
            rfl
          rw [skipped] at moved
          simpa only [List.append_assoc] using moved

/-- The part of a text in front of its first blank line splits into lines, and a rest is behind it. -/
def Splits (text : Bytes) (lines : List Bytes) (rest : Bytes) : Prop :=
  ∃ stop, indexOf text blankLine = some stop ∧ splitCrlf (text.take stop) = lines ∧
    text.drop (stop + blankLine.length) = rest

theorem splits_block (solid : lines ≠ []) (plain : ∀ line ∈ lines, PlainLine line)
    (rest : Bytes) : Splits (unlinesCrlf lines ++ crlf ++ rest) lines rest := by
  obtain ⟨front, last, rfl⟩ := (List.eq_nil_or_concat' lines).resolve_left solid
  obtain ⟨front_plain, last_plain⟩ := List.forall_mem_append.mp plain
  have text_eq : unlinesCrlf (front ++ [last]) ++ crlf ++ rest =
      (unlinesCrlf front ++ last) ++ blankLine ++ rest := by
    rw [unlinesCrlf_append, unlinesCrlf_cons, unlinesCrlf_nil, blankLine]
    simp
  have last_line := last_plain last (List.mem_singleton_self last)
  rw [text_eq]
  refine ⟨_, indexOf_blankLine front_plain last_line rest, ?_, ?_⟩
  · rw [List.append_assoc, List.take_left]
    exact splitCrlf_lines (fun line member => (front_plain line member).2) last_line.2
  · rw [← List.drop_drop, List.append_assoc, List.drop_left, List.drop_left]

end R4OS.Text
