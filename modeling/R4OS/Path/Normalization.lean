import R4OS.Path.Components
import Mathlib.Data.List.Count

/-!
# Normalized file paths

Normalization writes into one buffer and remembers where each component started.  Its progress is
that of a stack of components, and a normalized path is normalized to itself.
-/

namespace R4OS.Path

open Text

/-- The components behind one more segment, the last one on top. -/
def stackStep (stack : List Bytes) (segment : Bytes) : Option (List Bytes) :=
  if segment = ascii "." then some stack
  else if segment = ascii ".." then
    match stack with
    | [] => none
    | _ :: below => some below
  else some (segment :: stack)

def pathOf (root : Bytes) (stack : List Bytes) : Bytes := root ++ joinComponents stack.reverse

/-- Bytes that do not continue a character. -/
def startsChar (byte : UInt8) : Bool := byte &&& 0xC0 != 0x80

def charCount (value : Bytes) : Nat := value.countP startsChar

/-- Where the components of a stack start, in bytes and characters. -/
def marks (root : Bytes) : List Bytes → List (Nat × Nat)
  | [] => []
  | _ :: below => ((pathOf root below).length, charCount (pathOf root below)) :: marks root below

def progressOf (root : Bytes) (stack : List Bytes) : Progress where
  out := pathOf root stack
  starts := marks root stack
  chars := charCount (pathOf root stack)

/-- A drive root or nothing. -/
structure Root (absolute : Bool) (root : Bytes) : Prop where
  length : root.length = if absolute then 3 else 0
  chars : charCount root = root.length

structure Allowed (component : Bytes) : Prop where
  part : Component component
  ordinary : component ≠ ascii "." ∧ component ≠ ascii ".."
  valid : validateFileSegment component = .ok (charCount component)
  bytes : component.length ≤ component_max
  chars : charCount component ≤ component_max_chars

structure Fitting (root : Bytes) (stack : List Bytes) : Prop where
  allowed : ∀ component ∈ stack, Allowed component
  depth : stack.length ≤ path_rollback_entries
  bytes : (pathOf root stack).length ≤ file_path_max
  chars : charCount (pathOf root stack) ≤ file_path_max_chars

/-- Every front of the segments leaves a stack within the limits. -/
def Undisturbed (root : Bytes) (stack : List Bytes) (all_segments : List Bytes) : Prop :=
  ∀ front, front <+: all_segments →
    ∃ next, front.foldlM stackStep stack = some next ∧ Fitting root next

/-- The canonical drive root of an absolute input. -/
def rootOf (input : Bytes) : Bytes :=
  if absoluteInput input then [toUpper input.head!, chr ':', chr '\\'] else []

/-- The input may be split into segments. -/
structure Admitted (input : Bytes) (require_absolute : Option Bool) : Prop where
  nonempty : input ≠ []
  short : input.length ≤ file_path_max
  required : ∀ required ∈ require_absolute, absoluteInput input = required
  unrooted : absoluteInput input = false → isSeparator input.head! = false

theorem bind_eq_ok {First Second : Type} {program : Except Error First}
    {rest : First → Except Error Second} {result : Second} (done : program >>= rest = .ok result) :
    ∃ value, program = .ok value ∧ rest value = .ok result := by
  cases program with
  | error => cases done
  | ok value => exact ⟨value, rfl, done⟩

section Segments

variable {segment : Bytes} {count : Nat}

theorem startsChar_lead : ∀ byte : UInt8,
    byte < 0x80 ∨ byte &&& 0xE0 = 0xC0 ∨ byte &&& 0xF0 = 0xE0 → startsChar byte = true :=
  forall_byte (by decide +kernel)

theorem continues_iff {byte : UInt8} : startsChar byte = false ↔ byte &&& 0xC0 = 0x80 := by
  rw [startsChar, bne_eq_false_iff_eq]

theorem ne_of_high {byte : UInt8} (high : ¬byte < 0x80) : chr ':' ≠ byte := by
  rintro rfl
  exact high (by decide)

theorem validateFileByte_colon {byte : UInt8} (valid : validateFileByte byte = .ok ()) :
    chr ':' ≠ byte := by
  rintro rfl
  exact absurd valid (by decide)

theorem ne_of_continues {byte : UInt8} (continues : byte &&& 0xC0 = 0x80) : chr ':' ≠ byte := by
  rintro rfl
  exact absurd continues (by decide)

/-- The validation of a component counts its characters and leaves no colon. -/
theorem validateFileSegment_ok (valid : validateFileSegment segment = .ok count) :
    count = charCount segment ∧ chr ':' ∉ segment := by
  fun_induction validateFileSegment segment generalizing count with
  | case1 =>
    rw [← Except.ok.inj valid]
    exact ⟨rfl, List.not_mem_nil⟩
  | case2 byte rest ascii induction =>
    obtain ⟨_, checked, valid⟩ := bind_eq_ok valid
    obtain ⟨later, counted, done⟩ := bind_eq_ok valid
    obtain ⟨rfl, clear⟩ := induction counted
    rw [← Except.ok.inj done, charCount, charCount,
      List.countP_cons_of_pos (startsChar_lead byte (.inl ascii))]
    exact ⟨rfl, List.not_mem_cons_of_ne_of_not_mem (validateFileByte_colon checked) clear⟩
  | case5 byte high two proper next rest continues induction =>
    obtain ⟨later, counted, done⟩ := bind_eq_ok valid
    obtain ⟨rfl, clear⟩ := induction counted
    have next_continues := not_not.mp continues
    rw [← Except.ok.inj done, charCount, charCount,
      List.countP_cons_of_pos (startsChar_lead byte (.inr (.inl two))),
      List.countP_cons_of_neg (by rw [continues_iff.mpr next_continues]; decide)]
    exact ⟨rfl, List.not_mem_cons_of_ne_of_not_mem (ne_of_high high)
      (List.not_mem_cons_of_ne_of_not_mem (ne_of_continues next_continues) clear)⟩
  | case10 byte high not_two three second third rest continues long proper induction =>
    obtain ⟨later, counted, done⟩ := bind_eq_ok valid
    obtain ⟨rfl, clear⟩ := induction counted
    rw [not_or, not_not, not_not] at continues
    rw [← Except.ok.inj done, charCount, charCount,
      List.countP_cons_of_pos (startsChar_lead byte (.inr (.inr three))),
      List.countP_cons_of_neg (by rw [continues_iff.mpr continues.1]; decide),
      List.countP_cons_of_neg (by rw [continues_iff.mpr continues.2]; decide)]
    exact ⟨rfl, List.not_mem_cons_of_ne_of_not_mem (ne_of_high high)
      (List.not_mem_cons_of_ne_of_not_mem (ne_of_continues continues.1)
        (List.not_mem_cons_of_ne_of_not_mem (ne_of_continues continues.2) clear))⟩
  | _ => cases valid

end Segments

section Stacks

variable {absolute : Bool} {root segment : Bytes} {stack : List Bytes} {progress : Progress}

theorem pathOf_cons (root segment : Bytes) (stack : List Bytes) :
    pathOf root (segment :: stack) =
      pathOf root stack ++ ((if stack = [] then [] else [chr '\\']) ++ segment) := by
  rw [pathOf, pathOf, List.reverse_cons, List.append_assoc]
  congr 1
  cases reversed : stack.reverse with
  | nil =>
    rw [if_pos (List.reverse_eq_nil_iff.mp reversed)]
    exact (joinComponents_cons segment []).trans (List.append_nil segment)
  | cons first others =>
    have some_stack : stack ≠ [] := fun empty => by simp [empty] at reversed
    rw [if_neg some_stack, List.cons_append, joinComponents_cons, joinComponents_cons,
      List.flatMap_append, List.flatMap_singleton, List.append_assoc]
    rfl

theorem length_pathOf_cons (root segment : Bytes) (stack : List Bytes) :
    (pathOf root (segment :: stack)).length =
      (pathOf root stack).length + (if stack = [] then 0 else 1) + segment.length := by
  rw [pathOf_cons, List.length_append, List.length_append, Nat.add_assoc]
  split <;> rfl

theorem charCount_pathOf_cons (root segment : Bytes) (stack : List Bytes) :
    charCount (pathOf root (segment :: stack)) =
      charCount (pathOf root stack) + (if stack = [] then 0 else 1) + charCount segment := by
  rw [pathOf_cons, charCount, List.countP_append, List.countP_append, Nat.add_assoc]
  split <;> rfl

theorem length_marks (root : Bytes) (stack : List Bytes) :
    (marks root stack).length = stack.length := by
  induction stack with
  | nil => rfl
  | cons _ below induction => rw [marks, List.length_cons, List.length_cons, induction]

theorem Root.separated (root_ok : Root absolute root)
    (nonempty : ∀ component ∈ stack, component ≠ []) :
    ((absolute && 3 < (pathOf root stack).length) ||
      (!absolute && 0 < (pathOf root stack).length)) = !decide (stack = []) := by
  have root_length := root_ok.length
  cases stack with
  | nil =>
    rw [pathOf, List.reverse_nil, joinComponents_nil, List.append_nil, root_length]
    cases absolute <;> rfl
  | cons segment below =>
    have grown : root.length < (pathOf root (segment :: below)).length := by
      have some_segment := List.length_pos_of_ne_nil (nonempty segment (.head _))
      have rooted : root.length ≤ (pathOf root below).length := by
        rw [pathOf, List.length_append]
        exact Nat.le_add_right _ _
      rw [length_pathOf_cons]
      omega
    rw [root_length] at grown
    cases absolute <;> simpa using grown

theorem Fitting.below (fits : Fitting root (segment :: stack)) : Fitting root stack := by
  have bytes := fits.bytes
  have chars := fits.chars
  rw [length_pathOf_cons] at bytes
  rw [charCount_pathOf_cons] at chars
  exact ⟨fun component member => fits.allowed component (List.mem_cons_of_mem segment member),
    Nat.le_of_succ_le fits.depth, by omega, by omega⟩

theorem appendSegment_eq (absolute : Bool) (out : Bytes) (starts : List (Nat × Nat)) (chars : Nat)
    (segment : Bytes) {due : Bool}
    (separated : ((absolute && 3 < out.length) || (!absolute && 0 < out.length)) = due) :
    appendSegment absolute { out, starts, chars } segment =
      if component_max < segment.length then .error .ComponentTooLong
      else validateFileSegment segment >>= fun count =>
        if component_max_chars < count then .error .ComponentTooLong
        else if path_rollback_entries ≤ starts.length then .error .TooLong
        else if due && file_path_max ≤ out.length then .error .TooLong
        else if file_path_max - (if due then out ++ [chr '\\'] else out).length <
            segment.length then .error .TooLong
        else if file_path_max_chars < (if due then chars + 1 else chars) + count then
          .error .TooLong
        else .ok
          { out := (if due then out ++ [chr '\\'] else out) ++ segment
            starts := (out.length, chars) :: starts
            chars := (if due then chars + 1 else chars) + count } := by
  unfold appendSegment
  dsimp only
  rw [separated]
  refine ite_congr rfl (fun _ => rfl) fun _ => ?_
  refine congrArg _ (funext fun count => ?_)
  refine ite_congr rfl (fun _ => rfl) fun _ => ?_
  refine ite_congr rfl (fun _ => rfl) fun _ => ?_
  refine ite_congr rfl (fun _ => rfl) fun _ => ?_
  refine ite_congr rfl (fun _ => rfl) fun _ => ?_
  exact ite_congr rfl (fun _ => rfl) fun _ => rfl

/-- A component is appended when the longer path is still within the limits. -/
theorem appendSegment_ok_iff (root_ok : Root absolute root) (fits : Fitting root stack)
    (part : Component segment) (ordinary : segment ≠ ascii "." ∧ segment ≠ ascii "..") :
    appendSegment absolute (progressOf root stack) segment = .ok progress ↔
      Fitting root (segment :: stack) ∧ progress = progressOf root (segment :: stack) := by
  have due := root_ok.separated fun _ member => (fits.allowed _ member).part.nonempty
  have byte_length := length_pathOf_cons root segment stack
  have char_length := charCount_pathOf_cons root segment stack
  have longer_bytes : (if !decide (stack = []) then pathOf root stack ++ [chr '\\']
      else pathOf root stack) ++ segment = pathOf root (segment :: stack) := by
    rw [pathOf_cons]
    by_cases bottom : stack = [] <;> simp [bottom]
  have longer_chars : (if !decide (stack = []) then charCount (pathOf root stack) + 1
      else charCount (pathOf root stack)) + charCount segment =
        charCount (pathOf root (segment :: stack)) := by
    rw [char_length]
    by_cases bottom : stack = [] <;> simp [bottom]
  have total := congrArg List.length longer_bytes
  rw [List.length_append] at total
  rw [progressOf, progressOf, marks, appendSegment_eq absolute _ _ _ segment due, longer_bytes,
    length_marks]
  generalize (if !decide (stack = []) then pathOf root stack ++ [chr '\\']
    else pathOf root stack) = opened at longer_bytes total ⊢
  rw [byte_length] at total
  constructor
  · intro done
    split at done
    · cases done
    · next short =>
      obtain ⟨count, counted, done⟩ := bind_eq_ok done
      obtain rfl := (validateFileSegment_ok counted).1
      rw [longer_chars] at done
      split_ifs at done with few deep full long wide
      refine ⟨⟨List.forall_mem_cons.mpr
        ⟨⟨part, ordinary, counted, Nat.not_lt.mp short, Nat.not_lt.mp few⟩, fits.allowed⟩,
        Nat.not_le.mp deep, ?_, Nat.not_lt.mp wide⟩, (Except.ok.inj done).symm⟩
      have fitting := fits.bytes
      rw [byte_length, ← total]
      by_cases bottom : stack = []
      · rw [if_pos bottom] at total
        omega
      · rw [if_neg bottom] at total
        have room : (pathOf root stack).length < file_path_max := by simpa [bottom] using full
        omega
  · rintro ⟨longer, rfl⟩
    have allowed := longer.allowed segment List.mem_cons_self
    have depth : stack.length < path_rollback_entries := longer.depth
    have bytes := longer.bytes
    rw [byte_length, ← total] at bytes
    rw [if_neg (Nat.not_lt.mpr allowed.bytes), allowed.valid]
    refine (if_neg (Nat.not_lt.mpr allowed.chars)).trans
      ((if_neg (Nat.not_le.mpr depth)).trans ((if_neg ?_).trans ((if_neg ?_).trans ?_)))
    · rintro full
      rw [Bool.and_eq_true, Bool.not_eq_true', decide_eq_false_iff_not, decide_eq_true_iff] at full
      rw [if_neg full.1] at total
      have some_segment := List.length_pos_of_ne_nil part.nonempty
      omega
    · omega
    · rw [longer_chars]
      exact if_neg (Nat.not_lt.mpr longer.chars)

theorem rollbackSegment_eq (root_ok : Root absolute root) :
    rollbackSegment absolute (progressOf root (segment :: stack)) =
      .ok (progressOf root stack) := by
  have root_length := root_ok.length
  have kept : (pathOf root (segment :: stack)).take (pathOf root stack).length =
      pathOf root stack := by
    rw [pathOf_cons]
    exact List.take_left
  have byte_start : ¬(absolute ∧ (pathOf root stack).length = 2) := by
    rintro ⟨rfl, short⟩
    rw [pathOf, List.length_append, root_length, if_pos rfl] at short
    omega
  have char_start : ¬(absolute ∧ charCount (pathOf root stack) < 3) := by
    rintro ⟨rfl, short⟩
    rw [pathOf, charCount, List.countP_append, ← charCount, root_ok.chars, root_length,
      if_pos rfl] at short
    omega
  dsimp only [rollbackSegment, progressOf, marks]
  rw [if_neg byte_start, if_neg char_start, kept]

theorem normalizeSegment_ok_iff (root_ok : Root absolute root) (fits : Fitting root stack)
    (part : Component segment) :
    normalizeSegment absolute (progressOf root stack) segment = .ok progress ↔
      ∃ next, stackStep stack segment = some next ∧ Fitting root next ∧
        progress = progressOf root next := by
  unfold normalizeSegment stackStep
  split
  · constructor
    · rintro ⟨⟩
      exact ⟨stack, rfl, fits, rfl⟩
    · rintro ⟨next, ⟨⟩, _, rfl⟩
      rfl
  · next not_dot =>
    split
    · cases stack with
      | nil => exact ⟨nofun, fun ⟨_, none_left, _⟩ => nomatch none_left⟩
      | cons top below =>
        rw [rollbackSegment_eq root_ok]
        constructor
        · rintro ⟨⟩
          exact ⟨below, rfl, fits.below, rfl⟩
        · rintro ⟨next, ⟨⟩, _, rfl⟩
          rfl
    · next not_dots =>
      rw [appendSegment_ok_iff root_ok fits part ⟨not_dot, not_dots⟩]
      constructor
      · rintro ⟨longer, same⟩
        exact ⟨_, rfl, longer, same⟩
      · rintro ⟨next, ⟨⟩, longer, rfl⟩
        exact ⟨longer, rfl⟩

end Stacks

section Runs

variable {absolute : Bool} {root segment : Bytes} {stack all_segments : List Bytes}
  {progress : Progress}

theorem undisturbed_cons : Undisturbed root stack (segment :: all_segments) ↔ Fitting root stack ∧
    ∃ next, stackStep stack segment = some next ∧ Undisturbed root next all_segments := by
  constructor
  · intro undisturbed
    obtain ⟨_, ⟨⟩, fits⟩ := undisturbed [] List.nil_prefix
    obtain ⟨_, first_run, _⟩ := undisturbed [segment] (List.prefix_append [segment] all_segments)
    rw [List.foldlM_cons] at first_run
    obtain ⟨next, step, _⟩ := Option.bind_eq_some_iff.mp first_run
    refine ⟨fits, next, step, fun front ahead => ?_⟩
    have run := undisturbed (segment :: front) (List.cons_prefix_cons.mpr ⟨rfl, ahead⟩)
    rwa [List.foldlM_cons, step] at run
  · rintro ⟨fits, next, step, undisturbed⟩ front ahead
    rcases List.prefix_cons_iff.mp ahead with rfl | ⟨later, rfl, later_ahead⟩
    · exact ⟨stack, rfl, fits⟩
    · rw [List.foldlM_cons, step]
      exact undisturbed later later_ahead

/-- Normalization follows the stack as long as its path is within the limits. -/
theorem normalizeSegments_ok_iff (root_ok : Root absolute root) (fits : Fitting root stack)
    (all_parts : ∀ segment ∈ all_segments, Component segment) :
    all_segments.foldlM (normalizeSegment absolute) (progressOf root stack) = .ok progress ↔
      Undisturbed root stack all_segments ∧
        ∃ final, all_segments.foldlM stackStep stack = some final ∧
          progress = progressOf root final := by
  induction all_segments generalizing stack with
  | nil =>
    constructor
    · intro same
      cases same
      refine ⟨fun front ahead => ?_, stack, rfl, rfl⟩
      rw [List.prefix_nil.mp ahead]
      exact ⟨stack, rfl, fits⟩
    · rintro ⟨_, _, ⟨⟩, rfl⟩
      rfl
  | cons segment later induction =>
    rw [List.forall_mem_cons] at all_parts
    rw [undisturbed_cons, List.foldlM_cons, List.foldlM_cons]
    constructor
    · intro done
      obtain ⟨_, first, done⟩ := bind_eq_ok done
      obtain ⟨next, step, next_fits, rfl⟩ :=
        (normalizeSegment_ok_iff root_ok fits all_parts.1).mp first
      rw [step]
      obtain ⟨undisturbed, run⟩ := (induction next_fits all_parts.2).mp done
      exact ⟨⟨fits, next, rfl, undisturbed⟩, run⟩
    · rintro ⟨⟨_, next, step, undisturbed⟩, run⟩
      obtain ⟨_, ⟨⟩, next_fits⟩ := undisturbed [] List.nil_prefix
      rw [step] at run
      rw [(normalizeSegment_ok_iff root_ok fits all_parts.1).mpr ⟨next, step, next_fits, rfl⟩]
      exact (induction next_fits all_parts.2).mpr ⟨undisturbed, run⟩

theorem Fitting.run (fits : Fitting root stack) :
    stack.reverse.foldlM stackStep [] = some stack ∧ Undisturbed root [] stack.reverse := by
  induction stack with
  | nil =>
    refine ⟨rfl, fun front ahead => ?_⟩
    rw [List.prefix_nil.mp ahead]
    exact ⟨[], rfl, fits⟩
  | cons top below induction =>
    obtain ⟨run, undisturbed⟩ := induction fits.below
    have ordinary := (fits.allowed top (.head _)).ordinary
    have whole : (top :: below).reverse.foldlM stackStep [] = some (top :: below) := by
      rw [List.reverse_cons, List.foldlM_append, run]
      show (stackStep below top >>= pure) = _
      unfold stackStep
      rw [if_neg ordinary.1, if_neg ordinary.2]
      rfl
    refine ⟨whole, fun front ahead => ?_⟩
    rw [List.reverse_cons, List.prefix_concat_iff] at ahead
    rcases ahead with rfl | shorter
    · rw [← List.reverse_cons]
      exact ⟨_, whole, fits⟩
    · exact undisturbed front shorter

end Runs

section Inputs

variable {input out : Bytes} {require_absolute : Option Bool} {absolute : Bool} {stack : List Bytes}

theorem drive_root : ∀ drive : UInt8, isAsciiAlpha drive = true →
    startsChar (toUpper drive) = true ∧ isAsciiAlpha (toUpper drive) = true ∧
      toUpper (toUpper drive) = toUpper drive :=
  forall_byte (by decide +kernel)

theorem absoluteInput_iff : absoluteInput input = true ↔ ∃ drive separator rest,
    input = drive :: chr ':' :: separator :: rest ∧ isAsciiAlpha drive = true ∧
      isSeparator separator = true := by
  unfold absoluteInput
  split
  · next drive colon separator rest =>
    rw [Bool.and_eq_true, Bool.and_eq_true, beq_iff_eq]
    constructor
    · rintro ⟨⟨letter, rfl⟩, separates⟩
      exact ⟨drive, separator, rest, rfl, letter, separates⟩
    · rintro ⟨_, _, _, same, letter, separates⟩
      cases same
      exact ⟨⟨letter, rfl⟩, separates⟩
  · next short =>
    exact ⟨nofun, fun ⟨drive, separator, rest, same, _⟩ => absurd same (short _ _ _ _)⟩

theorem rootOf_root (input : Bytes) : Root (absoluteInput input) (rootOf input) := by
  cases kind : absoluteInput input with
  | false =>
    rw [rootOf, if_neg (by rw [kind]; decide)]
    exact ⟨rfl, rfl⟩
  | true =>
    obtain ⟨drive, separator, rest, rfl, letter, _⟩ := absoluteInput_iff.mp kind
    rw [rootOf, if_pos kind]
    refine ⟨rfl, ?_⟩
    exact (List.countP_cons_of_pos (drive_root drive letter).1).trans rfl

theorem pathOf_nil (root : Bytes) : pathOf root [] = root := List.append_nil root

theorem Root.fitting {root : Bytes} (root_ok : Root absolute root) : Fitting root [] := by
  have root_length := root_ok.length
  have short : root.length ≤ 3 := by
    rw [root_length]
    split <;> decide
  exact ⟨List.forall_mem_nil _, Nat.zero_le _, by rw [pathOf_nil]; exact short.trans (by decide),
    by rw [pathOf_nil, root_ok.chars]; exact short.trans (by decide)⟩

theorem normalizeFile_admitted (admitted : Admitted input require_absolute) :
    normalizeFile input require_absolute =
      (segments (input.drop (rootOf input).length)).foldlM (normalizeSegment (absoluteInput input))
        (progressOf (rootOf input) []) >>= fun progress =>
          .ok (if !absoluteInput input ∧ progress.out = [] then ascii "." else progress.out,
            absoluteInput input) := by
  have expected : ¬(require_absolute = some true ∧ !absoluteInput input) := by
    rintro ⟨rfl, relative⟩
    rw [admitted.required true rfl] at relative
    cases relative
  have unexpected : ¬(require_absolute = some false ∧ absoluteInput input) := by
    rintro ⟨rfl, relative⟩
    rw [admitted.required false rfl] at relative
    cases relative
  have unrooted : ¬(!absoluteInput input && isSeparator input.head!) := by
    intro rooted
    rw [Bool.and_eq_true, Bool.not_eq_true'] at rooted
    rw [admitted.unrooted rooted.1] at rooted
    cases rooted.2
  rw [progressOf, pathOf_nil, (rootOf_root input).chars]
  exact (if_neg admitted.nonempty).trans ((if_neg (Nat.not_lt.mpr admitted.short)).trans
    ((if_neg expected).trans ((if_neg unexpected).trans (if_neg unrooted))))

theorem normalizeFile_refused (refused : ¬Admitted input require_absolute) :
    ∃ refusal, normalizeFile input require_absolute = .error refusal := by
  by_cases empty : input = []
  · exact ⟨.Empty, if_pos empty⟩
  by_cases long : file_path_max < input.length
  · exact ⟨.TooLong, (if_neg empty).trans (if_pos long)⟩
  by_cases expected : require_absolute = some true ∧ !absoluteInput input
  · exact ⟨.ExpectedAbsolute, (if_neg empty).trans ((if_neg long).trans (if_pos expected))⟩
  by_cases unexpected : require_absolute = some false ∧ absoluteInput input
  · exact ⟨.ExpectedRelative, (if_neg empty).trans ((if_neg long).trans
      ((if_neg expected).trans (if_pos unexpected)))⟩
  by_cases rooted : !absoluteInput input && isSeparator input.head!
  · exact ⟨.ExpectedAbsolute, (if_neg empty).trans ((if_neg long).trans
      ((if_neg expected).trans ((if_neg unexpected).trans (if_pos rooted))))⟩
  refine absurd ⟨empty, Nat.not_lt.mp long, ?_, ?_⟩ refused
  · rintro required rfl
    cases required <;> simp_all
  · intro relative
    simpa [relative] using rooted

theorem pathOf_relative (fits : Fitting [] stack) (nonempty : stack ≠ []) :
    ∃ first rest, pathOf [] stack = first :: rest ∧ isSeparator first = false ∧
      absoluteInput (pathOf [] stack) = false := by
  have all_allowed : ∀ component ∈ stack.reverse, Allowed component :=
    fun component member => fits.allowed component (List.mem_reverse.mp member)
  rw [pathOf, List.nil_append]
  cases reversed : stack.reverse with
  | nil => exact absurd (List.reverse_eq_nil_iff.mp reversed) nonempty
  | cons bottom others =>
    rw [reversed, List.forall_mem_cons] at all_allowed
    have no_colon : chr ':' ∉ joinComponents (bottom :: others) := by
      rw [joinComponents_cons, List.mem_append, List.mem_flatMap]
      rintro (inside | ⟨component, member, inside⟩)
      · exact (validateFileSegment_ok all_allowed.1.valid).2 inside
      · rcases List.mem_cons.mp inside with same | inside
        · exact absurd same (by decide)
        · exact (validateFileSegment_ok (all_allowed.2 component member).valid).2 inside
    have relative : absoluteInput (joinComponents (bottom :: others)) = false := by
      rw [Bool.eq_false_iff, Ne, absoluteInput_iff]
      rintro ⟨drive, separator, rest, same, _⟩
      rw [same] at no_colon
      exact no_colon (List.mem_cons_of_mem drive (.head _))
    have part := all_allowed.1.part
    cases bottom with
    | nil => exact absurd rfl part.nonempty
    | cons first rest =>
      exact ⟨first, _, joinComponents_cons _ _, part.clear first List.mem_cons_self, relative⟩

theorem pathOf_input (fits : Fitting (rootOf input) stack)
    (some_path : ¬(absoluteInput input = false ∧ stack = [])) :
    absoluteInput (pathOf (rootOf input) stack) = absoluteInput input ∧
      rootOf (pathOf (rootOf input) stack) = rootOf input ∧
      pathOf (rootOf input) stack ≠ [] ∧
      (absoluteInput input = false → isSeparator (pathOf (rootOf input) stack).head! = false) := by
  cases kind : absoluteInput input with
  | true =>
    obtain ⟨drive, separator, rest, rfl, letter, separates⟩ := absoluteInput_iff.mp kind
    obtain ⟨_, upper, stable⟩ := drive_root drive letter
    have root : rootOf (drive :: chr ':' :: separator :: rest) =
        [toUpper drive, chr ':', chr '\\'] := if_pos kind
    have absolute : absoluteInput (pathOf [toUpper drive, chr ':', chr '\\'] stack) = true :=
      absoluteInput_iff.mpr ⟨_, _, _, rfl, upper, rfl⟩
    rw [root]
    refine ⟨absolute, (if_pos absolute).trans ?_, List.cons_ne_nil _ _, nofun⟩
    exact congrArg (fun byte => [byte, chr ':', chr '\\']) stable
  | false =>
    have root : rootOf input = [] := if_neg (by rw [kind]; decide)
    rw [root] at fits ⊢
    obtain ⟨first, rest, path_eq, unseparated, relative⟩ :=
      pathOf_relative fits fun bottom => some_path ⟨kind, bottom⟩
    refine ⟨relative, if_neg (by rw [relative]; decide), ?_, fun _ => ?_⟩ <;> rw [path_eq]
    · exact List.cons_ne_nil _ _
    · exact unseparated

theorem normalizeFile_ok (done : normalizeFile input require_absolute = .ok (out, absolute)) :
    absolute = absoluteInput input ∧
      ∃ stack, (segments (input.drop (rootOf input).length)).foldlM stackStep [] = some stack ∧
        Fitting (rootOf input) stack ∧
        out = if absolute = false ∧ stack = [] then ascii "." else pathOf (rootOf input) stack := by
  have root_ok := rootOf_root input
  by_cases admitted : Admitted input require_absolute
  · rw [normalizeFile_admitted admitted] at done
    obtain ⟨progress, run, done⟩ := bind_eq_ok done
    obtain ⟨undisturbed, stack, stack_run, rfl⟩ :=
      (normalizeSegments_ok_iff root_ok root_ok.fitting fun _ => component_of_mem).mp run
    obtain ⟨_, same, fits⟩ := undisturbed _ List.prefix_rfl
    cases stack_run.symm.trans same
    obtain ⟨rfl, rfl⟩ := Prod.mk.inj (Except.ok.inj done)
    refine ⟨rfl, stack, stack_run, fits, ?_⟩
    by_cases empty : absoluteInput input = false ∧ stack = []
    · rw [if_pos empty]
      have root : rootOf input = [] := if_neg (by rw [empty.1]; decide)
      exact if_pos ⟨by rw [empty.1]; rfl, by rw [empty.2, root]; rfl⟩
    · rw [if_neg empty]
      exact if_neg fun ⟨_, no_path⟩ => (pathOf_input fits empty).2.2.1 no_path
  · obtain ⟨refusal, refused⟩ := normalizeFile_refused admitted
    rw [refused] at done
    cases done

theorem normalizeFile_again (done : normalizeFile input require_absolute = .ok (out, absolute))
    {again : Option Bool} (same : again = none ∨ again = some absolute) :
    normalizeFile out again = .ok (out, absolute) := by
  obtain ⟨rfl, stack, _, fits, rfl⟩ := normalizeFile_ok done
  by_cases empty : absoluteInput input = false ∧ stack = []
  · rw [if_pos empty]
    rw [empty.1] at same ⊢
    rcases same with rfl | rfl <;> decide
  · rw [if_neg empty]
    obtain ⟨kind, root, some_path, unrooted⟩ := pathOf_input fits empty
    have admitted : Admitted (pathOf (rootOf input) stack) again := by
      refine ⟨some_path, fits.bytes, fun required asked => ?_, fun relative => ?_⟩
      · rw [kind]
        rcases same with rfl | rfl
        · cases asked
        · exact Option.some.inj asked
      · exact unrooted (kind ▸ relative)
    have all_parts : ∀ component ∈ stack.reverse, Component component :=
      fun component member => (fits.allowed component (List.mem_reverse.mp member)).part
    have parted : segments ((pathOf (rootOf input) stack).drop (rootOf input).length) =
        stack.reverse := by
      rw [pathOf, List.drop_left, segments_join all_parts]
    obtain ⟨run, undisturbed⟩ := fits.run
    have root_ok := rootOf_root input
    rw [normalizeFile_admitted admitted, root, kind, parted,
      (normalizeSegments_ok_iff root_ok root_ok.fitting all_parts).mpr ⟨undisturbed, _, run, rfl⟩]
    exact congrArg (fun path => Except.ok (path, absoluteInput input))
      (if_neg fun ⟨_, no_path⟩ => some_path no_path)

theorem normalizeFile_normalizes (input : Bytes) (require_absolute : Option Bool) :
    (∀ out absolute, normalizeFile input require_absolute = .ok (out, absolute) →
      absolute = absoluteInput input ∧
        (∃ stack, (segments (input.drop (rootOf input).length)).foldlM stackStep [] = some stack ∧
          (∀ component ∈ stack, Allowed component) ∧
          out = if absolute = false ∧ stack = [] then ascii "." else
            rootOf input ++ joinComponents stack.reverse) ∧
        out.length ≤ file_path_max ∧ charCount out ≤ file_path_max_chars ∧
        ∀ again, again = none ∨ again = some absolute →
          normalizeFile out again = .ok (out, absolute)) ∧
      ∀ front rest, Admitted input require_absolute →
        segments (input.drop (rootOf input).length) = front ++ ascii ".." :: rest →
        Undisturbed (rootOf input) [] front → front.foldlM stackStep [] = some [] →
        normalizeFile input require_absolute = .error .RootTraversal := by
  refine ⟨fun out absolute done => ?_, fun front rest admitted split undisturbed emptied => ?_⟩
  · obtain ⟨kind, stack, run, fits, path_eq⟩ := normalizeFile_ok done
    refine ⟨kind, ⟨stack, run, fits.allowed, path_eq⟩, ?_, ?_,
      fun again same => normalizeFile_again done same⟩
    · rw [path_eq]
      split
      · decide
      · exact fits.bytes
    · rw [path_eq]
      split
      · decide
      · exact fits.chars
  · have root_ok := rootOf_root input
    have front_parts : ∀ segment ∈ front, Component segment := fun segment member =>
      component_of_mem (split ▸ List.mem_append_left _ member)
    rw [normalizeFile_admitted admitted, split, List.foldlM_append,
      (normalizeSegments_ok_iff root_ok root_ok.fitting front_parts).mpr
        ⟨undisturbed, [], emptied, rfl⟩]
    rfl

theorem normalizeFile_normalizes_sample :
    normalizeFile (ascii "C:\\APPS\\TIME.R4S") (some true) =
      .ok (ascii "C:\\APPS\\TIME.R4S", true) :=
  ((normalizeFile_normalizes (ascii "c:/R4OS/..//APPS/./TIME.R4S") none).1 _ _
    (by decide +kernel)).2.2.2.2 (some true) (Or.inr rfl)

end Inputs

end R4OS.Path
