import R4OS.Incremental.Checks
import R4OS.Web.Navigation

/-!
# Segments of a path

A path that starts with a slash is a list of segments.  Normalising it leaves a list of segments none of
which is a dot segment, and leaves such a list as it is.
-/

namespace R4OS.Web

open Incremental Text

def pathText (segments : List Bytes) : Bytes := segments.flatMap (chr '/' :: ·)

/-- A segment that normalising keeps. -/
def PlainSegment (segment : Bytes) : Prop :=
  chr '/' ∉ segment ∧ segment ≠ ascii "." ∧ segment ≠ ascii ".."

/-- A path without dot segments. -/
def NormalPath (path : Bytes) : Prop :=
  ∃ segments, segments ≠ [] ∧ (∀ segment ∈ segments, PlainSegment segment) ∧ path = pathText segments

/-- A text that is empty or starts with a slash. -/
def Rooted (path : Bytes) : Prop := path = [] ∨ path.head? = some (chr '/')

section Segments

variable {segments : List Bytes} {segment path rest : Bytes} {room fuel : Nat}

@[simp] theorem pathText_nil : pathText [] = [] := rfl

@[simp] theorem pathText_cons : pathText (segment :: segments) = chr '/' :: segment ++ pathText segments :=
  rfl

@[simp] theorem pathText_append {front back : List Bytes} :
    pathText (front ++ back) = pathText front ++ pathText back := by simp [pathText]

theorem pathText_rooted (segments : List Bytes) : Rooted (pathText segments) := by
  cases segments with
  | nil => exact .inl rfl
  | cons segment rest => exact .inr rfl

theorem NormalPath.rooted (normal : NormalPath path) : path.head? = some (chr '/') := by
  obtain ⟨segments, nonempty, -, rfl⟩ := normal
  cases segments with
  | nil => exact absurd rfl nonempty
  | cons segment rest => rfl

theorem plainSegment_nil : PlainSegment [] := ⟨by simp, by decide, by decide⟩

theorem Rooted.not_startsWith {marker : Bytes} {first : UInt8} (rooted : Rooted rest)
    (other : first ≠ chr '/') : startsWith rest (first :: marker) = false := by
  rw [Bool.eq_false_iff]
  intro starts
  obtain ⟨tail, rfl⟩ := startsWith_iff.mp starts
  rcases rooted with empty | head
  · cases empty
  · exact other (Option.some.inj head)

theorem Rooted.split (rooted : Rooted path) : path = [] ∨ ∃ segment rest,
    path = chr '/' :: (segment ++ rest) ∧ chr '/' ∉ segment ∧ Rooted rest := by
  rcases rooted with empty | head
  · exact .inl empty
  · cases path with
    | nil => cases head
    | cons first tail =>
      obtain rfl : first = chr '/' := Option.some.inj head
      refine .inr ⟨(breakAt (· == chr '/') tail).1, (breakAt (· == chr '/') tail).2, ?_, ?_, ?_⟩
      · rw [breakAt_join]
      · intro member
        simpa using breakAt_front member
      · cases later : (breakAt (· == chr '/') tail).2 with
        | nil => exact .inl rfl
        | cons next rest =>
          have found : next ∈ (breakAt (· == chr '/') tail).2.head? := by rw [later]; rfl
          exact .inr (congrArg some (by simpa using breakAt_rest found))

theorem breakAt_segment (clear : chr '/' ∉ segment) (rooted : Rooted rest) :
    breakAt (· == chr '/') (segment ++ rest) = (segment, rest) := by
  refine breakAt_append (fun byte member => ?_) fun byte member => ?_
  · exact beq_false_of_ne fun slash => clear (slash ▸ member)
  · rcases rooted with rfl | head
    · cases member
    · rw [head] at member
      simpa using (Option.some.inj member).symm

theorem segment_unique {other tail : Bytes} (clear : chr '/' ∉ segment) (other_clear : chr '/' ∉ other)
    (rooted : Rooted rest) (tail_rooted : Rooted tail) (same : segment ++ rest = other ++ tail) :
    segment = other ∧ rest = tail := by
  have equal := (breakAt_segment clear rooted).symm.trans
    ((congrArg _ same).trans (breakAt_segment other_clear tail_rooted))
  exact Prod.mk.inj equal

theorem appendSegments_step (clear : chr '/' ∉ segment) (rooted : Rooted rest) (out : Bytes) :
    WebUrl.appendSegments room (fuel + 1) (chr '/' :: (segment ++ rest)) out =
      if segment = ascii "." then
        if rest = [] then WebUrl.appendSlice room out (ascii "/")
        else WebUrl.appendSegments room fuel rest out
      else if segment = ascii ".." then
        if rest = [] then WebUrl.appendSlice room (WebUrl.dropSegment out) (ascii "/")
        else WebUrl.appendSegments room fuel rest (WebUrl.dropSegment out)
      else WebUrl.appendSlice room out (chr '/' :: segment) >>= fun out =>
        WebUrl.appendSegments room fuel rest out := by
  have whole : Rooted (chr '/' :: (segment ++ rest)) := .inr rfl
  have parents : startsWith (chr '/' :: (segment ++ rest)) (ascii "../") = false :=
    whole.not_startsWith (by decide)
  have selves : startsWith (chr '/' :: (segment ++ rest)) (ascii "./") = false :=
    whole.not_startsWith (by decide)
  have dots : ∀ dots : Bytes, chr '/' ∉ dots →
      (startsWith (chr '/' :: (segment ++ rest)) (chr '/' :: (dots ++ ascii "/")) = true ↔
        segment = dots ∧ rest ≠ []) := by
    intro dots dots_clear
    rw [startsWith_iff]
    constructor
    · rintro ⟨tail, same⟩
      have tails : dots ++ (ascii "/" ++ tail) = segment ++ rest := by
        rw [← List.append_assoc]
        exact (List.cons.inj same).2
      obtain ⟨rfl, rfl⟩ := segment_unique dots_clear clear (.inr rfl) rooted tails
      exact ⟨rfl, by simp [ascii]⟩
    · rintro ⟨rfl, more⟩
      obtain ⟨next, tail, rfl, -, -⟩ := rooted.split.resolve_left more
      exact ⟨next ++ tail, by simp [ascii]⟩
  have ends : ∀ dots : Bytes, chr '/' ∉ dots →
      (chr '/' :: (segment ++ rest) = chr '/' :: dots ↔ segment = dots ∧ rest = []) := by
    intro dots dots_clear
    constructor
    · intro same
      have tails := (List.cons.inj same).2
      rw [← List.append_nil dots] at tails
      exact segment_unique clear dots_clear rooted (.inl rfl) tails
    · rintro ⟨rfl, rfl⟩
      rw [List.append_nil]
  have self_slash : startsWith (chr '/' :: (segment ++ rest)) (ascii "/./") = true ↔
      segment = ascii "." ∧ rest ≠ [] := dots (ascii ".") (by decide)
  have parent_slash : startsWith (chr '/' :: (segment ++ rest)) (ascii "/../") = true ↔
      segment = ascii ".." ∧ rest ≠ [] := dots (ascii "..") (by decide)
  have self_end : chr '/' :: (segment ++ rest) = ascii "/." ↔ segment = ascii "." ∧ rest = [] :=
    ends (ascii ".") (by decide)
  have parent_end : chr '/' :: (segment ++ rest) = ascii "/.." ↔ segment = ascii ".." ∧ rest = [] :=
    ends (ascii "..") (by decide)
  rw [WebUrl.appendSegments, if_neg (List.cons_ne_nil _ _), parents, selves]
  simp only [Bool.false_eq_true, if_false]
  by_cases self : segment = ascii "."
  · subst self
    rw [if_pos rfl]
    by_cases last : rest = []
    · subst last
      rfl
    · rw [if_pos (self_slash.mpr ⟨rfl, last⟩), if_neg last]
      rfl
  · rw [if_neg (fun starts => self (self_slash.mp starts).1), if_neg (fun same => self (self_end.mp same).1),
      if_neg self]
    by_cases parent : segment = ascii ".."
    · subst parent
      rw [if_pos rfl]
      by_cases last : rest = []
      · subst last
        rfl
      · rw [if_pos (.inl (parent_slash.mpr ⟨rfl, last⟩)), if_neg last, if_neg]
        · rfl
        · simpa [ascii] using last
    · have other : ¬ (startsWith (chr '/' :: (segment ++ rest)) (ascii "/../") = true ∨
          chr '/' :: (segment ++ rest) = ascii "/..") := by
        rintro (starts | same)
        · exact parent (parent_slash.mp starts).1
        · exact parent (parent_end.mp same).1
      have solid : ¬ (chr '/' :: (segment ++ rest) = ascii "." ∨
          chr '/' :: (segment ++ rest) = ascii "..") := by
        rintro (same | same)
        · exact absurd (List.cons.inj same).1 (by decide)
        · exact absurd (List.cons.inj same).1 (by decide)
      have first : WebUrl.segment (chr '/' :: (segment ++ rest)) = chr '/' :: segment := by
        rw [WebUrl.segment, if_pos rfl, breakAt_segment clear rooted]
      rw [if_neg other, if_neg solid, if_neg parent, first]
      simp

theorem dropSegment_pathText (segments : List Bytes) (plain : ∀ segment ∈ segments, PlainSegment segment) :
    WebUrl.dropSegment (pathText segments) = pathText segments.dropLast := by
  induction segments using List.reverseRecOn with
  | nil => rfl
  | append_singleton front last _ =>
    have kept : ∀ byte ∈ last, decide (byte ≠ chr '/') = true := fun byte member =>
      decide_eq_true fun slash => (plain last (by simp)).1 (slash ▸ member)
    have dropped : (pathText (front ++ [last])).rdropWhile (· ≠ chr '/') =
        pathText front ++ [chr '/'] := by
      rw [pathText_append, pathText_cons, pathText_nil, List.append_nil, List.append_cons]
      clear plain
      induction last using List.reverseRecOn with
      | nil =>
        rw [List.append_nil]
        rw [List.rdropWhile_concat, if_neg (by simp)]
      | append_singleton rest final induction =>
        rw [← List.append_assoc, List.rdropWhile_concat, if_pos (kept final (by simp))]
        exact induction fun byte member => kept byte (List.mem_append_left _ member)
    rw [WebUrl.dropSegment, dropped, List.dropLast_concat, List.dropLast_concat]

theorem pathText_dropLast_prefix (segments : List Bytes) :
    pathText segments.dropLast <+: pathText segments := by
  obtain ⟨last, whole⟩ := List.dropLast_prefix segments
  exact ⟨pathText last, by rw [← pathText_append, whole]⟩

variable {out : Bytes}

theorem appendSlice_ok {value result : Bytes}
    (done : WebUrl.appendSlice room out value = .ok result) :
    result = out ++ value ∧ result.length ≤ room := by
  unfold WebUrl.appendSlice at done
  split at done
  · cases done
  · next fits =>
    cases done
    exact ⟨rfl, by rw [List.length_append]; omega⟩

theorem appendSlice_eq {value : Bytes} (fits : (out ++ value).length ≤ room) :
    WebUrl.appendSlice room out value = .ok (out ++ value) := by
  rw [List.length_append] at fits
  rw [WebUrl.appendSlice, if_neg (by omega)]

theorem appendSegments_plain (plain : ∀ segment ∈ segments, PlainSegment segment)
    (fueled : (pathText segments).length ≤ fuel) (fits : (out ++ pathText segments).length ≤ room) :
    WebUrl.appendSegments room fuel (pathText segments) out = .ok (out ++ pathText segments) := by
  induction segments generalizing fuel out with
  | nil =>
    rw [pathText_nil, List.append_nil]
    cases fuel with
    | zero | succ fuel => rfl
  | cons segment rest induction =>
    obtain ⟨clear, self, parent⟩ := plain segment (by simp)
    simp only [pathText_cons, List.cons_append, List.length_cons, List.length_append] at fueled fits
    cases fuel with
    | zero => omega
    | succ fuel =>
      have first : WebUrl.appendSlice room out (chr '/' :: segment) = .ok (out ++ chr '/' :: segment) :=
        appendSlice_eq (by simp only [List.length_append, List.length_cons]; omega)
      rw [pathText_cons, List.cons_append, appendSegments_step clear (pathText_rooted rest),
        if_neg self, if_neg parent, first]
      rw [show (Except.ok (out ++ chr '/' :: segment) >>= fun out =>
          WebUrl.appendSegments room fuel (pathText rest) out) =
          WebUrl.appendSegments room fuel (pathText rest) (out ++ chr '/' :: segment) from rfl]
      rw [induction (fun other member => plain other (.tail _ member)) (by omega)
        (by simp only [List.length_append, List.length_cons]; omega)]
      simp

theorem appendSlash_normal (plain : ∀ segment ∈ segments, PlainSegment segment)
    (done : WebUrl.appendSlice room (pathText segments) (ascii "/") = .ok path) :
    ∃ kept, (∀ segment ∈ kept, PlainSegment segment) ∧ path = pathText kept ∧ kept ≠ [] ∧
      path.length ≤ room ∧ ∀ byte ∈ path, byte = chr '/' ∨ byte ∈ pathText segments := by
  obtain ⟨rfl, short⟩ := appendSlice_ok done
  refine ⟨segments ++ [[]], fun segment member => ?_, by simp [ascii], by simp, short, fun byte member => ?_⟩
  · rcases List.mem_append.mp member with old | new
    · exact plain segment old
    · obtain rfl := List.mem_singleton.mp new
      exact plainSegment_nil
  · rcases List.mem_append.mp member with old | new
    · exact .inr old
    · exact .inl (List.mem_singleton.mp new)

theorem appendSegments_normal (rooted : Rooted rest) (fueled : rest.length ≤ fuel)
    (plain : ∀ segment ∈ segments, PlainSegment segment) (within : (pathText segments).length ≤ room)
    (done : WebUrl.appendSegments room fuel rest (pathText segments) = .ok path) :
    ∃ kept, (∀ segment ∈ kept, PlainSegment segment) ∧ path = pathText kept ∧
      (rest ≠ [] ∨ segments ≠ [] → kept ≠ []) ∧ path.length ≤ room ∧
      ∀ byte ∈ path, byte = chr '/' ∨ byte ∈ rest ∨ byte ∈ pathText segments := by
  induction fuel generalizing rest segments with
  | zero =>
    obtain rfl := List.length_eq_zero_iff.mp (Nat.le_zero.mp fueled)
    cases done
    exact ⟨segments, plain, rfl, by simp, within, fun byte member => .inr (.inr member)⟩
  | succ fuel induction =>
    rcases rooted.split with rfl | ⟨segment, tail, rfl, clear, tail_rooted⟩
    · cases done
      exact ⟨segments, plain, rfl, by simp, within, fun byte member => .inr (.inr member)⟩
    · rw [List.length_cons, List.length_append] at fueled
      rw [appendSegments_step clear tail_rooted] at done
      split at done
      · split at done
        · obtain ⟨kept, kept_plain, equal, nonempty, short, among⟩ := appendSlash_normal plain done
          exact ⟨kept, kept_plain, equal, fun _ => nonempty, short,
            fun byte member => (among byte member).imp id .inr⟩
        · next more =>
          obtain ⟨kept, kept_plain, equal, nonempty, short, among⟩ :=
            induction tail_rooted (by omega) plain within done
          refine ⟨kept, kept_plain, equal, fun _ => nonempty (.inl more), short, fun byte member => ?_⟩
          rcases among byte member with slash | later | before
          · exact .inl slash
          · exact .inr (.inl (by simp [later]))
          · exact .inr (.inr before)
      · next not_self =>
        split at done
        · have shorter : ∀ kept ∈ segments.dropLast, PlainSegment kept := fun kept member =>
            plain kept (List.dropLast_subset _ member)
          have front := pathText_dropLast_prefix segments
          rw [dropSegment_pathText segments plain] at done
          split at done
          · obtain ⟨kept, kept_plain, equal, nonempty, short, among⟩ := appendSlash_normal shorter done
            exact ⟨kept, kept_plain, equal, fun _ => nonempty, short,
              fun byte member => (among byte member).imp id fun old => .inr (front.subset old)⟩
          · next more =>
            obtain ⟨kept, kept_plain, equal, nonempty, short, among⟩ :=
              induction tail_rooted (by omega) shorter (front.length_le.trans within) done
            refine ⟨kept, kept_plain, equal, fun _ => nonempty (.inl more), short, fun byte member => ?_⟩
            rcases among byte member with slash | later | before
            · exact .inl slash
            · exact .inr (.inl (by simp [later]))
            · exact .inr (.inr (front.subset before))
        · next not_parent =>
          obtain ⟨out, appended, done⟩ := bind_eq_ok.mp done
          obtain ⟨rfl, short⟩ := appendSlice_ok appended
          have longer : ∀ kept ∈ segments ++ [segment], PlainSegment kept := by
            intro kept member
            rcases List.mem_append.mp member with old | new
            · exact plain kept old
            · obtain rfl := List.mem_singleton.mp new
              exact ⟨clear, not_self, not_parent⟩
          have grown : pathText segments ++ chr '/' :: segment = pathText (segments ++ [segment]) := by
            simp
          rw [grown] at done short
          obtain ⟨kept, kept_plain, equal, nonempty, short, among⟩ :=
            induction tail_rooted (by omega) longer short done
          refine ⟨kept, kept_plain, equal, fun _ => nonempty (.inr (by simp)), short,
            fun byte member => ?_⟩
          rcases among byte member with slash | later | before
          · exact .inl slash
          · exact .inr (.inl (by simp [later]))
          · rw [← grown, List.mem_append, List.mem_cons] at before
            rcases before with old | slash | new
            · exact .inr (.inr old)
            · exact .inl slash
            · exact .inr (.inl (by simp [new]))

theorem appendNormalizedPath_normal (rooted : Rooted path)
    (done : WebUrl.appendNormalizedPath room path = .ok out) :
    NormalPath out ∧ out.length ≤ room ∧ ∀ byte ∈ out, byte = chr '/' ∨ byte ∈ path := by
  unfold WebUrl.appendNormalizedPath at done
  split at done
  · obtain ⟨rfl, short⟩ := appendSlice_ok done
    refine ⟨⟨[[]], by simp, ?_, rfl⟩, short, fun byte member => .inl (List.mem_singleton.mp member)⟩
    intro segment member
    obtain rfl := List.mem_singleton.mp member
    exact plainSegment_nil
  · next more =>
    have start : WebUrl.appendSegments room path.length path (pathText []) = .ok out := done
    obtain ⟨kept, kept_plain, equal, nonempty, short, among⟩ :=
      appendSegments_normal rooted (le_refl _) (by simp) (by simp) start
    refine ⟨⟨kept, nonempty (.inl more), kept_plain, equal⟩, short, fun byte member => ?_⟩
    rcases among byte member with slash | later | before
    · exact .inl slash
    · exact .inr later
    · cases before

theorem appendNormalizedPath_fixed (normal : NormalPath path) (fits : path.length ≤ room) :
    WebUrl.appendNormalizedPath room path = .ok path := by
  have head := normal.rooted
  obtain ⟨segments, nonempty, plain, rfl⟩ := normal
  rw [WebUrl.appendNormalizedPath, if_neg (by rintro empty; rw [empty] at head; cases head)]
  exact appendSegments_plain plain (le_refl _) fits

end Segments

end R4OS.Web
