import Mathlib.Data.List.Basic

/-!
# Tables of slots

A map kept in a table of slots, each of which is free or holds an entry with a key.  An entry is
replaced or removed in the slot that holds its key, and a new entry goes into a free slot.
-/

namespace R4OS.Buffer

/-- How a slot is read. -/
structure SlotView (Slot Key : Type*) where
  occupied : Slot → Bool
  key : Slot → Key

namespace SlotView

variable {Slot Key : Type*} [DecidableEq Key] (view : SlotView Slot Key) {slots : List Slot}
  {place : Nat} {key other : Key} {slot fresh : Slot}

def holds (key : Key) (slot : Slot) : Bool := view.occupied slot && decide (view.key slot = key)

theorem holds_iff : view.holds key slot = true ↔ view.occupied slot = true ∧ view.key slot = key := by
  simp [holds]

/-- The entry of a key. -/
def lookup (slots : List Slot) (key : Key) : Option Slot := slots.find? (view.holds key)

/-- No key has two entries. -/
def Unique (slots : List Slot) : Prop :=
  slots.Pairwise fun first second => view.occupied first = true → view.occupied second = true →
    view.key first ≠ view.key second

end SlotView

theorem findIdx?_split {Slot : Type*} {slots : List Slot} {wanted : Slot → Bool} {place : Nat}
    (found : slots.findIdx? wanted = some place) :
    ∃ front slot rest, slots = front ++ slot :: rest ∧ front.length = place ∧ wanted slot = true ∧
      ∀ earlier ∈ front, wanted earlier = false := by
  induction slots generalizing place with
  | nil => cases found
  | cons head tail induction =>
    rw [List.findIdx?_cons] at found
    split at found
    · next first =>
      cases found
      exact ⟨[], head, tail, rfl, rfl, first, by simp⟩
    · next later =>
      obtain ⟨beyond, behind, rfl⟩ := Option.map_eq_some_iff.mp found
      obtain ⟨front, slot, rest, rfl, rfl, holds, earlier⟩ := induction behind
      refine ⟨head :: front, slot, rest, rfl, rfl, holds, ?_⟩
      simpa [Bool.eq_false_iff.mpr later] using earlier

namespace SlotView

variable {Slot Key : Type*} [DecidableEq Key] {view : SlotView Slot Key} {slots front rest : List Slot}
  {key other : Key} {slot fresh : Slot}

theorem lookup_split : view.lookup (front ++ slot :: rest) key =
    (view.lookup front key).or (if view.holds key slot then some slot else view.lookup rest key) := by
  rw [lookup, List.find?_append, List.find?_cons]
  cases view.holds key slot with
  | true | false => rfl

theorem lookup_none : view.lookup slots key = none ↔ ∀ slot ∈ slots, view.holds key slot = false := by
  simp [lookup, List.find?_eq_none]

theorem lookup_exchange (before : view.holds other slot = false)
    (after : view.holds other fresh = false) :
    view.lookup (front ++ fresh :: rest) other = view.lookup (front ++ slot :: rest) other := by
  simp [lookup_split, before, after]

theorem Unique.alone (unique : view.Unique (front ++ slot :: rest)) (holds : view.holds key slot = true) :
    view.lookup front key = none ∧ view.lookup rest key = none := by
  obtain ⟨occupied, same⟩ := view.holds_iff.mp holds
  obtain ⟨-, back, across⟩ := List.pairwise_append.mp unique
  constructor
  · rw [lookup_none]
    intro earlier member
    refine Bool.eq_false_iff.mpr fun again => ?_
    obtain ⟨filled, clash⟩ := view.holds_iff.mp again
    exact across earlier member slot (by simp) filled occupied (clash.trans same.symm)
  · rw [lookup_none]
    intro later member
    refine Bool.eq_false_iff.mpr fun again => ?_
    obtain ⟨filled, clash⟩ := view.holds_iff.mp again
    exact (List.pairwise_cons.mp back).1 later member occupied filled (same.trans clash.symm)

theorem Unique.exchange (unique : view.Unique (front ++ slot :: rest))
    (alone : view.occupied fresh = true →
      view.lookup front (view.key fresh) = none ∧ view.lookup rest (view.key fresh) = none) :
    view.Unique (front ++ fresh :: rest) := by
  obtain ⟨before, back, across⟩ := List.pairwise_append.mp unique
  obtain ⟨beside, after⟩ := List.pairwise_cons.mp back
  refine List.pairwise_append.mpr ⟨before, List.pairwise_cons.mpr ⟨?_, after⟩, ?_⟩
  · intro later member occupied filled same
    have holds : view.holds (view.key fresh) later = true := view.holds_iff.mpr ⟨filled, same.symm⟩
    rw [lookup_none.mp (alone occupied).2 later member] at holds
    cases holds
  · intro earlier member later within filled occupied same
    rcases List.mem_cons.mp within with rfl | within
    · have holds : view.holds (view.key later) earlier = true := view.holds_iff.mpr ⟨filled, same⟩
      rw [lookup_none.mp (alone occupied).1 earlier member] at holds
      cases holds
    · exact across earlier member later (.tail _ within) filled occupied same

/-- Writing the slot of a key, or a free slot for a new key, updates the map of a table. -/
theorem Unique.write (unique : view.Unique (front ++ slot :: rest))
    (own : view.holds key slot = true ∨
      view.occupied slot = false ∧ view.lookup (front ++ slot :: rest) key = none)
    (kept : view.occupied fresh = true → view.key fresh = key) :
    view.Unique (front ++ fresh :: rest) ∧ view.lookup (front ++ fresh :: rest) =
      Function.update (view.lookup (front ++ slot :: rest)) key
        (if view.occupied fresh then some fresh else none) := by
  have alone : view.lookup front key = none ∧ view.lookup rest key = none := by
    rcases own with holds | ⟨-, missing⟩
    · exact unique.alone holds
    · rw [lookup_none] at missing
      simp_all [lookup_none]
  refine ⟨unique.exchange fun occupied => kept occupied ▸ alone, funext fun other => ?_⟩
  by_cases same : other = key
  · subst same
    cases occupied : view.occupied fresh with
    | true => simp [lookup_split, alone, holds, occupied, kept occupied]
    | false => simp [lookup_split, alone, holds, occupied]
  · rw [Function.update_of_ne same]
    refine lookup_exchange (Bool.eq_false_iff.mpr fun held => ?_) (Bool.eq_false_iff.mpr fun held => ?_)
    · obtain ⟨occupied, at_slot⟩ := view.holds_iff.mp held
      rcases own with holds | ⟨free, -⟩
      · exact same (at_slot.symm.trans (view.holds_iff.mp holds).2)
      · exact Bool.eq_false_iff.mp free occupied
    · obtain ⟨occupied, at_fresh⟩ := view.holds_iff.mp held
      exact same (at_fresh.symm.trans (kept occupied))

end SlotView

end R4OS.Buffer
