import Mathlib.Data.List.Basic
import Mathlib.Order.Bounds.Basic

/-!
# Maximal runs of a predicate

The places where a predicate holds fall into maximal runs.  A scan from left to right lists them one
after the other, and finds the first one that has room behind a multiple of a step.
-/

namespace R4OS.Numeric

/-- The places from `first` up to `stop` are a run that cannot be extended. -/
structure MaximalRun (holds : Nat → Prop) (first stop : Nat) : Prop where
  nonempty : first < stop
  inside : ∀ place, first ≤ place → place < stop → holds place
  opens : ∀ place, place + 1 = first → ¬holds place
  closes : ¬holds stop

/-- A list of the maximal runs from a place on, in their order. -/
structure RunsFrom (holds : Nat → Prop) (cursor : Nat) (runs : List (Nat × Nat)) : Prop where
  complete : ∀ run, run ∈ runs ↔ MaximalRun holds run.1 run.2 ∧ cursor ≤ run.1
  ordered : runs.Pairwise fun run later => run.2 < later.1

section Runs

variable {holds : Nat → Prop} {cursor next first stop : Nat} {runs : List (Nat × Nat)}

/-- Two runs that start at one place end at one place. -/
theorem MaximalRun.stop_unique {other : Nat} (run : MaximalRun holds first stop)
    (second : MaximalRun holds first other) : stop = other := by
  rcases Nat.lt_trichotomy stop other with before | same | behind
  · exact absurd (second.inside stop run.nonempty.le before) run.closes
  · exact same
  · exact absurd (run.inside other second.nonempty.le behind) second.closes

theorem RunsFrom.nil (clear : ∀ place, cursor ≤ place → ¬holds place) :
    RunsFrom holds cursor [] where
  complete run := by
    refine ⟨fun member => absurd member List.not_mem_nil, fun found => ?_⟩
    exact absurd (found.1.inside run.1 le_rfl found.1.nonempty) (clear run.1 found.2)
  ordered := List.Pairwise.nil

theorem RunsFrom.skip (listed : RunsFrom holds next runs) (later : cursor ≤ next)
    (clear : ∀ place, cursor ≤ place → place < next → ¬holds place) :
    RunsFrom holds cursor runs where
  complete run := by
    rw [listed.complete]
    refine and_congr_right fun maximal => ⟨fun behind => later.trans behind, fun behind => ?_⟩
    by_contra before
    exact clear run.1 behind (Nat.lt_of_not_le before)
      (maximal.inside run.1 le_rfl maximal.nonempty)
  ordered := listed.ordered

theorem RunsFrom.cons (maximal : MaximalRun holds cursor stop) (listed : RunsFrom holds stop runs) :
    RunsFrom holds cursor ((cursor, stop) :: runs) where
  complete run := by
    rw [List.mem_cons, listed.complete]
    constructor
    · rintro (rfl | ⟨found, behind⟩)
      · exact ⟨maximal, le_rfl⟩
      · exact ⟨found, maximal.nonempty.le.trans behind⟩
    · rintro ⟨found, behind⟩
      by_cases before : stop ≤ run.1
      · exact .inr ⟨found, before⟩
      · -- A run that starts inside of this one starts with it.
        have start : run.1 = cursor := by
          by_contra inner
          refine found.opens (run.1 - 1) (by omega) (maximal.inside _ ?_ ?_)
          · omega
          · omega
        rw [start] at found
        exact .inl (Prod.ext start (found.stop_unique maximal))
  ordered := by
    refine List.pairwise_cons.mpr ⟨fun run member => ?_, listed.ordered⟩
    obtain ⟨found, behind⟩ := (listed.complete run).mp member
    have apart : stop ≠ run.1 := fun same =>
      maximal.closes (found.inside stop same.ge (same.trans_lt found.nonempty))
    exact Nat.lt_of_le_of_ne behind apart

end Runs

section Room

variable {runs : List (Nat × Nat)} {step count start : Nat}

/-- The least multiple of a step that is not less than a number. -/
def alignForward (step number : Nat) : Nat := (number + (step - 1)) / step * step

theorem le_alignForward (positive : 0 < step) (number : Nat) :
    number ≤ alignForward step number := by
  have split := Nat.div_add_mod (number + (step - 1)) step
  have small := Nat.mod_lt (number + (step - 1)) positive
  rw [alignForward, Nat.mul_comm]
  omega

theorem alignForward_le (positive : 0 < step) {number : Nat} (multiple : step ∣ start)
    (above : number ≤ start) : alignForward step number ≤ start := by
  obtain ⟨factor, rfl⟩ := multiple
  rw [alignForward, Nat.mul_comm]
  refine Nat.mul_le_mul_left step (Nat.lt_succ_iff.mp ?_)
  rw [Nat.div_lt_iff_lt_mul positive, Nat.succ_mul, Nat.mul_comm]
  omega

/-- A multiple of the step in a run with room for a number of places. -/
def Room (runs : List (Nat × Nat)) (step count start : Nat) : Prop :=
  step ∣ start ∧ ∃ run ∈ runs, run.1 ≤ start ∧ start + count ≤ run.2

def firstRoom (runs : List (Nat × Nat)) (step count : Nat) : Option Nat :=
  runs.findSome? fun run =>
    if alignForward step run.1 + count ≤ run.2 then some (alignForward step run.1) else none

theorem room_cons {run : Nat × Nat} : Room (run :: runs) step count start ↔
    (step ∣ start ∧ run.1 ≤ start ∧ start + count ≤ run.2) ∨ Room runs step count start := by
  simp only [Room, List.exists_mem_cons_iff]
  tauto

theorem firstRoom_eq_none (positive : 0 < step) :
    firstRoom runs step count = none ↔ ∀ start, ¬Room runs step count start := by
  induction runs with
  | nil => exact ⟨fun _ start room => by simpa using room.2, fun _ => rfl⟩
  | cons run rest induction =>
    rw [firstRoom, List.findSome?_cons]
    split_ifs with fits
    · refine iff_of_false not_false fun nowhere => ?_
      exact absurd (room_cons.mpr (.inl ⟨Nat.dvd_mul_left _ _, le_alignForward positive _, fits⟩))
        (nowhere _)
    · refine induction.trans (forall_congr' fun start => not_congr ?_)
      rw [room_cons]
      refine ⟨fun later => .inr later, fun either => ?_⟩
      rcases either with ⟨multiple, above, room⟩ | later
      · exact absurd (le_trans (Nat.add_le_add_right (alignForward_le positive multiple above) _)
          room) fits
      · exact later

/-- The scan finds the lowest multiple with room. -/
theorem firstRoom_isLeast (positive : 0 < step)
    (ordered : runs.Pairwise fun run later => run.2 < later.1)
    (found : firstRoom runs step count = some start) :
    IsLeast { place | Room runs step count place } start := by
  induction runs with
  | nil => cases found
  | cons run rest induction =>
    rw [List.pairwise_cons] at ordered
    rw [firstRoom, List.findSome?_cons] at found
    split_ifs at found with fits
    · cases found
      refine ⟨room_cons.mpr (.inl ⟨Nat.dvd_mul_left _ _, le_alignForward positive _, fits⟩),
        fun place room => ?_⟩
      rcases room_cons.mp room with ⟨multiple, above, -⟩ | ⟨-, later, member, above, -⟩
      · exact alignForward_le positive multiple above
      · have behind := ordered.1 later member
        omega
    · obtain ⟨room, least⟩ := induction ordered.2 found
      refine ⟨room_cons.mpr (.inr room), fun place either => ?_⟩
      rcases room_cons.mp either with ⟨multiple, above, fitting⟩ | later
      · exact absurd (le_trans (Nat.add_le_add_right (alignForward_le positive multiple above) _)
          fitting) fits
      · exact least later

end Room

end R4OS.Numeric
