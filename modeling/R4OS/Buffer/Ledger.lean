import Mathlib.Algebra.Ring.Nat
import Mathlib.Data.List.Basic
import Mathlib.Logic.Relation

/-!
# Ledgers of a queue

A producer puts items into a queue, and they leave it in their order: accepted by a consumer,
suppressed or discarded.  A consumer may be offered the first items and answer later.  A ledger keeps
what happened.  When nothing is accepted that was discarded before, every item is settled once.
-/

namespace R4OS.Buffer

variable {α : Type*}

/-- What happened to the items of a queue. -/
inductive Entry (α : Type*)
  | produced (items : List α)
  | accepted (items : List α)
  | suppressed (count : Nat)
  | discarded (count : Nat)

namespace Entry

def producedItems : Entry α → List α
  | produced items => items
  | _ => []

def acceptedItems : Entry α → List α
  | accepted items => items
  | _ => []

def suppressedCount : Entry α → Nat
  | suppressed count => count
  | _ => 0

def discardedCount : Entry α → Nat
  | discarded count => count
  | _ => 0

/-- The number of items of an entry. -/
def count : Entry α → Nat
  | produced items => items.length
  | accepted items => items.length
  | suppressed count => count
  | discarded count => count

end Entry

section Entries

variable (entries : List (Entry α))

/-- All items that were put into the queue. -/
def producedItems : List α := entries.flatMap Entry.producedItems

def acceptedItems : List α := entries.flatMap Entry.acceptedItems

def suppressedCount : Nat := (entries.map Entry.suppressedCount).sum

def discardedCount : Nat := (entries.map Entry.discardedCount).sum

/-- Every entry is about a whole number of units. -/
def WholeUnits (unit : Nat) : Prop := ∀ entry ∈ entries, unit ∣ entry.count

end Entries

section EntriesRules

variable {entries : List (Entry α)} {entry : Entry α}

@[simp] theorem producedItems_snoc :
    producedItems (entries ++ [entry]) = producedItems entries ++ entry.producedItems := by
  simp [producedItems]

@[simp] theorem acceptedItems_snoc :
    acceptedItems (entries ++ [entry]) = acceptedItems entries ++ entry.acceptedItems := by
  simp [acceptedItems]

@[simp] theorem suppressedCount_snoc :
    suppressedCount (entries ++ [entry]) = suppressedCount entries + entry.suppressedCount := by
  simp [suppressedCount]

@[simp] theorem discardedCount_snoc :
    discardedCount (entries ++ [entry]) = discardedCount entries + entry.discardedCount := by
  simp [discardedCount]

theorem WholeUnits.snoc {unit : Nat} (whole : WholeUnits entries unit) (last : unit ∣ entry.count) :
    WholeUnits (entries ++ [entry]) unit := by
  intro other member
  rcases List.mem_append.mp member with old | new
  · exact whole other old
  · rw [List.mem_singleton.mp new]
    exact last

end EntriesRules

/-- A queue, the first items of it that were offered, and what happened so far. -/
structure Ledger (α : Type*) where
  held : List α := []
  pending : Option (List α) := none
  entries : List (Entry α) := []

namespace Ledger

/-- One step of a queue of units: whether the producer may add items, and whether items may be
accepted that the queue no longer holds. -/
inductive Step (unit : Nat) (produces loses : Prop) : Ledger α → Ledger α → Prop
  | produce {ledger : Ledger α} {items : List α} (may : produces) (idle : ledger.pending = none)
      (whole : unit ∣ items.length) :
      Step unit produces loses ledger
        { ledger with
          held := ledger.held ++ items
          entries := ledger.entries ++ [.produced items] }
  | suppress {ledger : Ledger α} {count : Nat} (idle : ledger.pending = none)
      (whole : unit ∣ count) (available : count ≤ ledger.held.length) :
      Step unit produces loses ledger
        { ledger with
          held := ledger.held.drop count
          entries := ledger.entries ++ [.suppressed count] }
  | discard {ledger : Ledger α} :
      Step unit produces loses ledger
        { ledger with
          held := []
          entries := ledger.entries ++ [.discarded ledger.held.length] }
  | offer {ledger : Ledger α} {payload : List α} (idle : ledger.pending = none)
      (first : payload <+: ledger.held) :
      Step unit produces loses ledger { ledger with pending := some payload }
  | withdraw {ledger : Ledger α} :
      Step unit produces loses ledger { ledger with pending := none }
  | accept {ledger : Ledger α} {payload items : List α} (offered : ledger.pending = some payload)
      (first : items <+: payload) (whole : unit ∣ items.length)
      (kept : loses ∨ payload <+: ledger.held) :
      Step unit produces loses ledger
        { held := ledger.held.drop items.length
          pending := none
          entries := ledger.entries ++ [.accepted items] }

/-- Any number of steps. -/
abbrev Path (unit : Nat) (produces loses : Prop) : Ledger α → Ledger α → Prop :=
  Relation.ReflTransGen (Step unit produces loses)

/-- Items leave the queue in their order, whole units at a time. -/
structure Ordered (unit : Nat) (ledger : Ledger α) : Prop where
  held : unit ∣ ledger.held.length
  whole : WholeUnits ledger.entries unit
  ordered : ∃ past, producedItems ledger.entries = past ++ ledger.held ∧
    (acceptedItems ledger.entries).Sublist past ∧
    ∀ payload ∈ ledger.pending, payload <+: ledger.held ∨
      ledger.held = [] ∧ (acceptedItems ledger.entries ++ payload).Sublist past

/-- Every item is accepted, suppressed, discarded or still held, and only one of these. -/
def Balanced (ledger : Ledger α) : Prop :=
  (producedItems ledger.entries).length = (acceptedItems ledger.entries).length +
    suppressedCount ledger.entries + discardedCount ledger.entries + ledger.held.length

section Rules

variable {unit : Nat} {produces loses : Prop} {ledger after : Ledger α}

theorem Step.mono {produces' loses' : Prop} (more : produces → produces') (worse : loses → loses')
    (step : Step unit produces loses ledger after) : Step unit produces' loses' ledger after := by
  cases step with
  | produce may idle whole => exact .produce (more may) idle whole
  | suppress idle whole available => exact .suppress idle whole available
  | discard => exact .discard
  | offer idle first => exact .offer idle first
  | withdraw => exact .withdraw
  | accept offered first whole kept => exact .accept offered first whole (kept.imp_left worse)

theorem Path.mono {produces' loses' : Prop} (more : produces → produces') (worse : loses → loses')
    (path : Path unit produces loses ledger after) : Path unit produces' loses' ledger after :=
  Relation.ReflTransGen.mono (fun _ _ step => step.mono more worse) _ _ path

theorem Step.ordered (step : Step unit produces loses ledger after) (ordered : Ordered unit ledger) :
    Ordered unit after := by
  obtain ⟨held, whole, past, split, accepted, offers⟩ := ordered
  cases step with
  | @produce items may idle fits =>
    refine ⟨?_, whole.snoc fits, past, ?_, ?_, ?_⟩
    · simpa using Nat.dvd_add held fits
    · simp [split, Entry.producedItems]
    · simpa [Entry.acceptedItems] using accepted
    · simp [idle]
  | @suppress count idle fits available =>
    refine ⟨?_, whole.snoc fits, past ++ ledger.held.take count, ?_, ?_, ?_⟩
    · simpa using Nat.dvd_sub held fits
    · simp [split, Entry.producedItems]
    · simpa [Entry.acceptedItems] using accepted.trans (List.sublist_append_left _ _)
    · simp [idle]
  | discard =>
    refine ⟨by simp, whole.snoc held, past ++ ledger.held, ?_, ?_, ?_⟩
    · simp [split, Entry.producedItems]
    · simpa [Entry.acceptedItems] using accepted.trans (List.sublist_append_left _ _)
    · intro payload pending
      refine .inr ⟨rfl, ?_⟩
      simp only [acceptedItems_snoc, Entry.acceptedItems, List.append_nil]
      rcases offers payload pending with first | ⟨empty, lost⟩
      · exact accepted.append first.sublist
      · exact lost.trans (List.sublist_append_left _ _)
  | @offer payload idle first =>
    refine ⟨held, whole, past, split, accepted, ?_⟩
    intro other pending
    cases pending
    exact .inl first
  | withdraw => exact ⟨held, whole, past, split, accepted, nofun⟩
  | @accept payload items offered first fits kept =>
    rcases offers payload offered with front | ⟨empty, lost⟩
    · have held_first := first.trans front
      have taken := List.prefix_iff_eq_take.mp held_first
      refine ⟨?_, whole.snoc fits, past ++ items, ?_, ?_, nofun⟩
      · simpa using Nat.dvd_sub held fits
      · simp only [producedItems_snoc, Entry.producedItems, List.append_nil, split,
          List.append_assoc]
        congr 1
        conv_lhs => rw [← List.take_append_drop items.length ledger.held, ← taken]
      · simpa [Entry.acceptedItems] using accepted.append (List.Sublist.refl items)
    · refine ⟨by simp [empty], whole.snoc fits, past, ?_, ?_, nofun⟩
      · simp [split, empty, Entry.producedItems]
      · simpa [Entry.acceptedItems] using
          ((List.Sublist.refl _).append first.sublist).trans lost

theorem Step.balanced (step : Step unit produces loses ledger after) (safe : ¬ loses)
    (balanced : ledger.Balanced) : after.Balanced := by
  unfold Balanced at balanced ⊢
  cases step with
  | produce | suppress _ _ available | discard =>
    simp [Entry.producedItems, Entry.acceptedItems, Entry.suppressedCount, Entry.discardedCount,
      balanced]
    omega
  | offer | withdraw => exact balanced
  | accept _ first _ kept =>
    have available := (first.trans (kept.resolve_left safe)).length_le
    simp [Entry.producedItems, Entry.acceptedItems, Entry.suppressedCount,
      Entry.discardedCount, balanced]
    omega

/-- When nothing lost is accepted, every item is settled once. -/
theorem Path.balanced (path : Path unit produces loses ledger after) (safe : ¬ loses)
    (balanced : ledger.Balanced) : after.Balanced := by
  induction path with
  | refl => exact balanced
  | tail _ step induction => exact step.balanced safe induction

theorem Path.silent (path : Path unit produces loses ledger after) (silent : ¬ produces) :
    producedItems after.entries = producedItems ledger.entries := by
  induction path with
  | refl => rfl
  | tail _ step induction =>
    rw [← induction]
    cases step with
    | produce may => exact absurd may silent
    | suppress | discard => simp [Entry.producedItems]
    | offer | withdraw => rfl
    | accept => simp [Entry.producedItems]

end Rules

end Ledger

end R4OS.Buffer
