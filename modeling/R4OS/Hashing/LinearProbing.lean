import Mathlib.Algebra.Order.Group.Nat
import Mathlib.Data.Finset.Card
import Mathlib.Data.Nat.Bitwise
import Mathlib.Logic.Function.Basic

/-!
# Linear probing

Hash tables whose size is a power of two, searched from the home slot of a hash to the first free
slot.  While one slot is free, a search ends, and it finds an item exactly when the table holds one
that matches.
-/

namespace R4OS.Hashing

variable {Item : Type}

def slotOf (size hash : Nat) : Nat := hash &&& (size - 1)

def search (size : Nat) (table : Nat → Option Item) (same : Item → Bool) :
    (fuel slot : Nat) → Option (Item ⊕ Nat)
  | 0, _ => none
  | fuel + 1, slot =>
    match table slot with
    | none => some (.inr slot)
    | some item =>
      if same item then some (.inl item)
      else search size table same fuel (slotOf size (slot + 1))

/-- Add an item unless the table holds one that matches it. -/
def insertDistinct (size : Nat) (home : Item → Nat) (same : Item → Item → Bool)
    (table : Nat → Option Item) (item : Item) : Option (Nat → Option Item) :=
  match search size table (same · item) size (slotOf size (home item)) with
  | some (.inr slot) => some (Function.update table slot (some item))
  | _ => none

/-- Whether no item matches an earlier one. -/
def allDistinct (size : Nat) (home : Item → Nat) (same : Item → Item → Bool) (items : List Item) :
    Bool :=
  (items.foldlM (insertDistinct size home same) fun _ => none).isSome

theorem slotOf_pow {bits hash : Nat} : slotOf (2 ^ bits) hash = hash % 2 ^ bits :=
  Nat.and_two_pow_sub_one_eq_mod hash bits

/-- A table that holds some items, each behind occupied slots only. -/
structure Holds (size : Nat) (home : Item → Nat) (table : Nat → Option Item) (items : List Item) :
    Prop where
  sound : ∀ slot item, table slot = some item → item ∈ items
  reached : ∀ item ∈ items, ∃ distance < size,
    table ((home item + distance) % size) = some item ∧
      ∀ nearer < distance, table ((home item + nearer) % size) ≠ none
  room : ((Finset.range size).filter fun slot => table slot ≠ none).card ≤ items.length

theorem Holds.empty (size : Nat) (home : Item → Nat) : Holds size home (fun _ => none) [] := by
  constructor
  · rintro slot item ⟨⟩
  · rintro item ⟨⟩
  · simp

theorem Holds.congr {size : Nat} {home other : Item → Nat} {table : Nat → Option Item}
    {items : List Item} (holds : Holds size home table items)
    (same : ∀ item ∈ items, other item = home item) : Holds size other table items := by
  constructor
  · exact holds.sound
  · intro item member
    rw [same item member]
    exact holds.reached item member
  · exact holds.room

section Search

variable {bits : Nat} {table : Nat → Option Item} {same : Item → Bool} {home : Item → Nat}
  {items : List Item} {hash : Nat}

theorem Holds.free (holds : Holds (2 ^ bits) home table items) (room : items.length < 2 ^ bits)
    (hash : Nat) : ∃ distance < 2 ^ bits, table ((hash + distance) % 2 ^ bits) = none := by
  have fewer : ((Finset.range (2 ^ bits)).filter fun slot => table slot ≠ none).card <
      (Finset.range (2 ^ bits)).card := by
    rw [Finset.card_range]
    exact lt_of_le_of_lt holds.room room
  obtain ⟨slot, inside, outside⟩ := Finset.exists_mem_notMem_of_card_lt_card fewer
  have free : table slot = none := by
    by_contra occupied
    exact outside (Finset.mem_filter.mpr ⟨inside, occupied⟩)
  have bound : slot < 2 ^ bits := Finset.mem_range.mp inside
  have size_pos : 0 < 2 ^ bits := Nat.two_pow_pos bits
  refine ⟨(slot + (2 ^ bits - hash % 2 ^ bits)) % 2 ^ bits, Nat.mod_lt _ size_pos, ?_⟩
  have home_lt : hash % 2 ^ bits < 2 ^ bits := Nat.mod_lt _ size_pos
  have position : (hash + (slot + (2 ^ bits - hash % 2 ^ bits)) % 2 ^ bits) % 2 ^ bits = slot := by
    rw [Nat.add_mod_mod, Nat.add_mod hash]
    have total : hash % 2 ^ bits + (slot + (2 ^ bits - hash % 2 ^ bits)) = slot + 2 ^ bits := by
      omega
    rw [Nat.add_mod_mod, total, Nat.add_mod_right, Nat.mod_eq_of_lt bound]
  rw [position]
  exact free

/-- What a search returns. -/
inductive Found (size : Nat) (table : Nat → Option Item) (same : Item → Bool) (hash : Nat) :
    Item ⊕ Nat → Prop
  | item (distance : Nat) (item : Item) (bound : distance < size)
      (held : table ((hash + distance) % size) = some item) (matching : same item = true)
      (passed : ∀ nearer < distance, ∃ other,
        table ((hash + nearer) % size) = some other ∧ same other = false) :
      Found size table same hash (.inl item)
  | free (distance : Nat) (bound : distance < size)
      (free : table ((hash + distance) % size) = none)
      (passed : ∀ nearer < distance, ∃ other,
        table ((hash + nearer) % size) = some other ∧ same other = false) :
      Found size table same hash (.inr ((hash + distance) % size))

theorem search_from (free : ∃ distance < 2 ^ bits, table ((hash + distance) % 2 ^ bits) = none)
    (fuel distance : Nat) (left : distance + fuel = 2 ^ bits)
    (passed : ∀ nearer < distance, ∃ other,
      table ((hash + nearer) % 2 ^ bits) = some other ∧ same other = false) :
    ∃ result, search (2 ^ bits) table same fuel ((hash + distance) % 2 ^ bits) = some result ∧
      Found (2 ^ bits) table same hash result := by
  induction fuel generalizing distance with
  | zero =>
    obtain ⟨stop, bound, empty⟩ := free
    obtain ⟨other, held, _⟩ := passed stop (by omega)
    rw [empty] at held
    cases held
  | succ fuel induction =>
    cases held : table ((hash + distance) % 2 ^ bits) with
    | none =>
      refine ⟨.inr ((hash + distance) % 2 ^ bits), by simp [search, held], ?_⟩
      exact .free distance (by omega) held passed
    | some item =>
      by_cases matching : same item = true
      · refine ⟨.inl item, by simp [search, held, matching], ?_⟩
        exact .item distance item (by omega) held matching passed
      · have mismatch : same item = false := by simpa using matching
        have next : slotOf (2 ^ bits) ((hash + distance) % 2 ^ bits + 1) =
            (hash + (distance + 1)) % 2 ^ bits := by
          rw [slotOf_pow, Nat.mod_add_mod, Nat.add_assoc]
        have longer : ∀ nearer < distance + 1, ∃ other,
            table ((hash + nearer) % 2 ^ bits) = some other ∧ same other = false := by
          intro nearer near
          rcases Nat.lt_succ_iff_lt_or_eq.mp near with before | rfl
          · exact passed nearer before
          · exact ⟨item, held, mismatch⟩
        obtain ⟨result, found, kind⟩ := induction (distance + 1) (by omega) longer
        refine ⟨result, ?_, kind⟩
        simpa [search, held, mismatch, next] using found

variable (holds : Holds (2 ^ bits) home table items)

include holds

theorem Holds.search_found (room : items.length < 2 ^ bits) (same : Item → Bool) (hash : Nat) :
    ∃ result, search (2 ^ bits) table same (2 ^ bits) (slotOf (2 ^ bits) hash) = some result ∧
      Found (2 ^ bits) table same hash result := by
  have none_passed : ∀ nearer < 0, ∃ other,
      table ((hash + nearer) % 2 ^ bits) = some other ∧ same other = false := by
    intro nearer impossible
    omega
  rw [slotOf_pow]
  exact search_from (holds.free room hash) (2 ^ bits) 0 (by omega) none_passed

theorem Holds.unmatched {slot : Nat} (found : Found (2 ^ bits) table same hash (.inr slot))
    (homes : ∀ item ∈ items, same item = true → home item = hash) :
    ∀ item ∈ items, same item = false := by
  intro item member
  by_contra matching
  have matching : same item = true := by simpa using matching
  obtain ⟨distance, bound, held, before⟩ := holds.reached item member
  rw [homes item member matching] at held before
  cases found with
  | free stop _ free passed =>
    rcases Nat.lt_trichotomy distance stop with near | rfl | far
    · obtain ⟨other, held', mismatch⟩ := passed distance near
      rw [held] at held'
      rw [Option.some.inj held', mismatch] at matching
      cases matching
    · rw [free] at held
      cases held
    · exact before stop far free

theorem Holds.add {item : Item} {slot : Nat}
    (found : Found (2 ^ bits) table same (home item) (.inr slot)) :
    Holds (2 ^ bits) home (Function.update table slot (some item)) (items ++ [item]) := by
  cases found with
  | free stop bound free passed =>
    have occupied : ∀ other, table other ≠ none →
        Function.update table ((home item + stop) % 2 ^ bits) (some item) other = table other := by
      intro other held
      apply Function.update_of_ne
      rintro rfl
      exact held free
    constructor
    · intro other kept held
      by_cases here : other = (home item + stop) % 2 ^ bits
      · subst here
        rw [Function.update_self] at held
        rw [← Option.some.inj held]
        exact List.mem_append_right _ (List.mem_singleton_self _)
      · rw [Function.update_of_ne here] at held
        exact List.mem_append_left _ (holds.sound other kept held)
    · intro other member
      rcases List.mem_append.mp member with old | new
      · obtain ⟨distance, bound, held, before⟩ := holds.reached other old
        refine ⟨distance, bound, ?_, ?_⟩
        · rw [occupied _ (by rw [held]; simp), held]
        · intro nearer near
          rw [occupied _ (before nearer near)]
          exact before nearer near
      · obtain rfl := List.mem_singleton.mp new
        refine ⟨stop, bound, Function.update_self .., ?_⟩
        intro nearer near
        obtain ⟨passing, held, _⟩ := passed nearer near
        rw [occupied _ (by rw [held]; simp), held]
        simp
    · have slots : ((Finset.range (2 ^ bits)).filter fun slot =>
          Function.update table ((home item + stop) % 2 ^ bits) (some item) slot ≠ none) ⊆
          insert ((home item + stop) % 2 ^ bits)
            ((Finset.range (2 ^ bits)).filter fun slot => table slot ≠ none) := by
        intro slot member
        obtain ⟨inside, held⟩ := Finset.mem_filter.mp member
        by_cases here : slot = (home item + stop) % 2 ^ bits
        · exact here ▸ Finset.mem_insert_self _ _
        · rw [Function.update_of_ne here] at held
          exact Finset.mem_insert_of_mem (Finset.mem_filter.mpr ⟨inside, held⟩)
      calc _ ≤ _ := Finset.card_le_card slots
        _ ≤ _ := Finset.card_insert_le _ _
        _ ≤ items.length + 1 := Nat.add_le_add_right holds.room 1
        _ = (items ++ [item]).length := by simp

end Search

section Distinct

variable {bits : Nat} {home : Item → Nat} {same : Item → Item → Bool}

theorem insertDistinct_iff {table : Nat → Option Item} {items : List Item}
    (holds : Holds (2 ^ bits) home table items) (room : items.length < 2 ^ bits) {item : Item}
    (homes : ∀ prior ∈ items, same prior item = true → home prior = home item) :
    (∃ prior ∈ items, same prior item = true) ∧
        insertDistinct (2 ^ bits) home same table item = none ∨
      (∀ prior ∈ items, same prior item = false) ∧
        ∃ after, insertDistinct (2 ^ bits) home same table item = some after ∧
          Holds (2 ^ bits) home after (items ++ [item]) := by
  obtain ⟨result, searched, found⟩ := holds.search_found room (same · item) (home item)
  cases result with
  | inl prior =>
    left
    cases found with
    | item _ _ _ held matching _ =>
      exact ⟨⟨prior, holds.sound _ _ held, matching⟩, by simp [insertDistinct, searched]⟩
  | inr slot =>
    right
    refine ⟨holds.unmatched found homes, _, ?_, holds.add found⟩
    simp [insertDistinct, searched]

theorem foldlM_insertDistinct {table : Nat → Option Item} {items rest : List Item}
    (holds : Holds (2 ^ bits) home table items) (room : (items ++ rest).length ≤ 2 ^ bits)
    (homes : ∀ prior ∈ items ++ rest, ∀ item ∈ rest, same prior item = true →
      home prior = home item) :
    (rest.foldlM (insertDistinct (2 ^ bits) home same) table).isSome = true ↔
      (∀ prior ∈ items, ∀ item ∈ rest, same prior item = false) ∧
        rest.Pairwise fun prior item => same prior item = false := by
  induction rest generalizing table items with
  | nil => simp
  | cons item rest induction =>
    have room_now : items.length < 2 ^ bits := by
      simp only [List.length_append, List.length_cons] at room
      omega
    have homes_now : ∀ prior ∈ items, same prior item = true → home prior = home item :=
      fun prior member => homes prior (List.mem_append_left _ member) item (.head _)
    rcases insertDistinct_iff holds room_now homes_now with
      ⟨⟨prior, member, matching⟩, refused⟩ | ⟨fresh, after, added, held⟩
    · rw [List.foldlM_cons, refused]
      constructor
      · rintro ⟨⟩
      · rintro ⟨distinct, _⟩
        rw [distinct prior member item List.mem_cons_self] at matching
        cases matching
    · have shape : items ++ item :: rest = (items ++ [item]) ++ rest := by simp
      rw [shape] at room homes
      have later := induction held room fun prior member other inside =>
        homes prior member other (.tail _ inside)
      rw [List.foldlM_cons, added]
      refine later.trans ?_
      simp only [List.mem_append, List.mem_cons, List.not_mem_nil, or_false, List.pairwise_cons]
      constructor
      · rintro ⟨distinct, pairwise⟩
        refine ⟨?_, fun other inside => distinct item (.inr rfl) other inside, pairwise⟩
        rintro prior member other (rfl | inside)
        · exact fresh prior member
        · exact distinct prior (.inl member) other inside
      · rintro ⟨distinct, first, pairwise⟩
        refine ⟨?_, pairwise⟩
        rintro prior (member | rfl) other inside
        · exact distinct prior member other (.inr inside)
        · exact first other inside

/-- Items whose matches share a home are told apart exactly. -/
theorem allDistinct_iff {items : List Item} (room : items.length ≤ 2 ^ bits)
    (homes : ∀ prior ∈ items, ∀ item ∈ items, same prior item = true → home prior = home item) :
    allDistinct (2 ^ bits) home same items = true ↔
      items.Pairwise fun prior item => same prior item = false := by
  unfold allDistinct
  rw [foldlM_insertDistinct (Holds.empty (2 ^ bits) home) (by simpa using room)
    (by simpa using homes)]
  simp

end Distinct

end R4OS.Hashing
