import R4OS.Web.StorageRoundTrip

/-!
# Storage areas are maps

Whatever was done with the area of an origin before, what is done next changes what it answers for its
keys as it would change a map of limited size.
-/

namespace R4OS.Web

open Buffer Incremental Text

/-- The entries of an area by their keys. -/
def entryView : SlotView StorageEntry Bytes := ⟨StorageEntry.occupied, (·.key.bytes)⟩

/-- What an action makes of an area that is seen as a map: a value is refused when it or its key is
too long, or when its key is new and no entry is free. -/
def AreaAction.update (area : StorageArea) : AreaAction → Bytes → Option Bytes
  | .open_area => area.get
  | .set key value =>
    if key.length ≤ max_storage_key_bytes ∧ value.length ≤ max_storage_value_bytes ∧
        (area.get key ≠ none ∨ ∃ entry ∈ area.entries, entry.occupied = false) then
      Function.update area.get key (some value)
    else area.get
  | .remove key => Function.update area.get key none
  | .clear => fun _ => none

variable {area : StorageArea}

theorem holds_eq (key : Bytes) :
    (fun entry : StorageEntry => entry.occupied && entry.key.bytes == key) = entryView.holds key := by
  funext entry
  rw [Bool.eq_iff_iff, SlotView.holds_iff]
  simp [entryView]

theorem StorageArea.get_eq (area : StorageArea) :
    area.get = Option.map (·.value.bytes) ∘ entryView.lookup area.entries := by
  funext key
  rw [get, holds_eq]
  rfl

theorem StorageArea.get_write {front rest : List StorageEntry} {old : StorageEntry} {key : Bytes}
    (fresh : StorageEntry) (unique : entryView.Unique area.entries)
    (split : area.entries = front ++ old :: rest)
    (own : entryView.holds key old = true ∨ old.occupied = false ∧ area.get key = none)
    (kept : fresh.occupied = true → fresh.key.bytes = key) :
    entryView.Unique (front ++ fresh :: rest) ∧
      { area with entries := front ++ fresh :: rest }.get = Function.update area.get key
        (if fresh.occupied then some fresh.value.bytes else none) := by
  rw [area.get_eq, Function.comp_apply, Option.map_eq_none_iff] at own
  rw [split] at unique own
  obtain ⟨again, found⟩ := unique.write own kept
  rw [StorageArea.get_eq, area.get_eq, split, found, Function.comp_update]
  refine ⟨again, congrArg _ ?_⟩
  cases occupied : fresh.occupied with
  | true | false => simp [entryView, occupied]

theorem StorageArea.get_none {key : Bytes}
    (missing : area.entries.findIdx? (entryView.holds key) = none) : area.get key = none := by
  rw [get_eq, Function.comp_apply, SlotView.lookup_none.mpr (List.findIdx?_eq_none_iff.mp missing)]
  rfl

theorem AreaAction.apply_law (unique : entryView.Unique area.entries) (action : AreaAction) :
    entryView.Unique (action.apply area).entries ∧ (action.apply area).get = action.update area := by
  cases action with
  | open_area => exact ⟨unique, rfl⟩
  | clear =>
    refine ⟨List.pairwise_replicate.mpr (.inr fun occupied => by cases occupied), ?_⟩
    funext key
    simp [apply, StorageArea.clear, StorageArea.get, update]
  | remove key =>
    rw [apply, StorageArea.remove, holds_eq, update]
    split
    · next found =>
      obtain ⟨front, old, rest, split, rfl, holds, -⟩ := findIdx?_split found
      simpa [split] using StorageArea.get_write {} unique split (.inl holds) nofun
    · next missing =>
      exact ⟨unique, (Function.update_eq_self_iff.mpr (StorageArea.get_none missing).symm).symm⟩
  | set key value =>
    rw [apply, StorageArea.set, holds_eq, update]
    by_cases key_fits : key.length ≤ max_storage_key_bytes
    swap
    · rw [dif_neg key_fits, if_neg fun fits => key_fits fits.1]
      exact ⟨unique, rfl⟩
    by_cases value_fits : value.length ≤ max_storage_value_bytes
    swap
    · rw [dif_pos key_fits, dif_neg value_fits, if_neg fun fits => value_fits fits.2.1]
      exact ⟨unique, rfl⟩
    rw [dif_pos key_fits, dif_pos value_fits]
    split
    · next found =>
      obtain ⟨front, old, rest, split, rfl, holds, -⟩ := findIdx?_split found
      obtain ⟨occupied, same⟩ := entryView.holds_iff.mp holds
      have present : area.get key ≠ none := by
        rw [area.get_eq, Function.comp_apply, Ne, Option.map_eq_none_iff, SlotView.lookup_none, split]
        exact fun missing => Bool.eq_false_iff.mp (missing old (by simp)) holds
      rw [if_pos ⟨key_fits, value_fits, .inl present⟩]
      have written := StorageArea.get_write { old with value := ⟨value, value_fits⟩ } unique split
        (.inl holds) fun _ => same
      have filled : old.occupied = true := occupied
      simpa [split, filled, List.modify_eq_take_cons_drop] using written
    · next missing =>
      have absent := StorageArea.get_none missing
      split
      · next found =>
        obtain ⟨front, old, rest, split, rfl, free, -⟩ := findIdx?_split found
        have vacant : old.occupied = false := by simpa using free
        rw [if_pos ⟨key_fits, value_fits, .inr ⟨old, by simp [split], vacant⟩⟩]
        simpa [split] using StorageArea.get_write ⟨true, ⟨key, key_fits⟩, ⟨value, value_fits⟩⟩ unique
          split (.inr ⟨vacant, absent⟩) fun _ => rfl
      · next full =>
        refine ⟨unique, (if_neg ?_).symm⟩
        rintro ⟨-, -, present | ⟨entry, member, vacant⟩⟩
        · exact present absent
        · simpa [vacant] using List.findIdx?_eq_none_iff.mp full entry member

/-- After any history of calls, an area changes as a map does. -/
theorem area_is_map (actions : List AreaAction) (action : AreaAction) :
    (action.apply (actions.foldl (fun area action => action.apply area) {})).get =
      action.update (actions.foldl (fun area action => action.apply area) {}) := by
  have kept (area : StorageArea) (action : AreaAction) (unique : entryView.Unique area.entries) :
      entryView.Unique (action.apply area).entries := (action.apply_law unique).1
  have start : entryView.Unique ({} : StorageArea).entries :=
    List.pairwise_replicate.mpr (.inr fun occupied => by cases occupied)
  exact (action.apply_law (run_keeps kept start actions)).2

end R4OS.Web
