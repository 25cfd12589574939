import R4OS.FontCache.Catalog

/-!
# Exactness of the font catalog

A catalog is exact when its occupied entries are valid and distinct, and when count and total are
those of the occupied entries.  Recording, touching and removing keep it exact, and each is described
by what it does to the occupied entries.
-/

namespace R4OS.FontCache

open Numeric Text

variable {entry : Metadata} {catalog : Catalog}

/-- Total size of a list of entries. -/
def weight (entries : List Metadata) : Nat := (entries.map fun entry => entry.size.toNat).sum

@[simp] theorem weight_nil : weight [] = 0 := rfl

@[simp] theorem weight_cons (entry : Metadata) (rest : List Metadata) :
    weight (entry :: rest) = entry.size.toNat + weight rest := rfl

theorem weight_append (front back : List Metadata) :
    weight (front ++ back) = weight front + weight back := by
  simp [weight]

variable {entries : List Metadata}

theorem weight_perm {other : List Metadata} (same : entries.Perm other) :
    weight entries = weight other :=
  (same.map _).sum_eq

/-- Entries of pairwise different ids. -/
def Distinct (entries : List Metadata) : Prop :=
  entries.Pairwise fun entry later => entry.id ≠ later.id

theorem Distinct.perm {other : List Metadata} (distinct : Distinct entries)
    (same : entries.Perm other) : Distinct other :=
  List.Pairwise.perm distinct same fun different => different.symm

theorem Distinct.eq_of_id (distinct : Distinct entries) {other : Metadata}
    (entry_mem : entry ∈ entries) (other_mem : other ∈ entries) (same : entry.id = other.id) :
    entry = other := by
  have nodup : (entries.map Metadata.id).Nodup := List.pairwise_map.mpr distinct
  exact List.inj_on_of_nodup_map nodup entry_mem other_mem same

/-- Count, total and entries of a catalog agree. -/
structure Exact (catalog : Catalog) : Prop where
  valid : ∀ entry ∈ catalog.live, entry.valid = true
  distinct : Distinct catalog.live
  count : catalog.count = catalog.live.length
  total : catalog.total_bytes.toNat = weight catalog.live

theorem validate_iff : catalog.validate = true ↔ Exact catalog := by
  simp only [Catalog.validate, Bool.and_eq_true, List.all_eq_true, decide_eq_true_eq, beq_iff_eq]
  rw [foldlM_checkedAdd_eq_some]
  constructor
  · rintro ⟨⟨⟨valid, distinct⟩, count⟩, total⟩
    exact ⟨valid, distinct, count.symm, by simpa [weight] using total⟩
  · intro exact_catalog
    exact ⟨⟨⟨exact_catalog.valid, exact_catalog.distinct⟩, exact_catalog.count.symm⟩,
      by simpa [weight] using exact_catalog.total⟩

theorem Exact.eq_of_entries {other : Catalog} (exact_catalog : Exact catalog)
    (exact_other : Exact other) (same : catalog.entries = other.entries) : catalog = other := by
  have live_eq : catalog.live = other.live := congrArg (List.filter Metadata.occupied) same
  have count_eq : catalog.count = other.count := by
    rw [exact_catalog.count, exact_other.count, live_eq]
  have total_eq : catalog.total_bytes = other.total_bytes := by
    rw [← UInt64.toNat_inj, exact_catalog.total, exact_other.total, live_eq]
  cases catalog
  cases other
  simp_all

section Table

variable {Item : Type} {matching : Item → Bool} {items : List Item} {index : Nat}

theorem set_findIdx?_eq_map (change : Item → Item) (default : Item)
    (alone : items.Pairwise fun item later => ¬ (matching item ∧ matching later))
    (found : items.findIdx? matching = some index) :
    items.set index (change (items.getD index default)) =
      items.map fun item => if matching item then change item else item := by
  induction items generalizing index with
  | nil => cases found
  | cons item rest induction =>
    obtain ⟨head_alone, rest_alone⟩ := List.pairwise_cons.mp alone
    rw [List.findIdx?_cons] at found
    split at found
    · rename_i head
      cases found
      have untouched : rest.map (fun item => if matching item then change item else item) =
          rest := by
        refine (List.map_congr_left fun other member => ?_).trans (List.map_id rest)
        exact if_neg fun other_matches => head_alone other member ⟨head, other_matches⟩
      rw [List.map_cons, untouched, if_pos head]
      rfl
    · rename_i head
      obtain ⟨position, position_found, rfl⟩ := Option.map_eq_some_iff.mp found
      rw [List.map_cons, if_neg head, ← induction rest_alone position_found]
      rfl

theorem filter_set_perm {item : Item} (default : Item)
    (free : matching (items.getD index default) = false)
    (inside : index < items.length) (used : matching item = true) :
    ((items.set index item).filter matching).Perm (item :: items.filter matching) := by
  induction items generalizing index with
  | nil => cases inside
  | cons head rest induction =>
    cases index with
    | zero =>
      have head_free : matching head = false := free
      simp [used, head_free]
    | succ index =>
      have rest_perm := induction free (Nat.lt_of_succ_lt_succ inside)
      rw [List.set_cons_succ, List.filter_cons, List.filter_cons]
      split
      · exact (rest_perm.cons head).trans (List.Perm.swap ..)
      · exact rest_perm

end Table

section Ids

variable {catalog : Catalog} {id : Digest} {index : Nat}

variable {entry : Metadata}

theorem holds_iff : entry.holds id = true ↔ entry.occupied ∧ entry.id = id := by
  simp [Metadata.holds]

theorem mem_live :
    entry ∈ catalog.live ↔ entry ∈ catalog.entries ∧ entry.occupied = true :=
  List.mem_filter

theorem Distinct.alone (distinct : Distinct catalog.live) (id : Digest) :
    catalog.entries.Pairwise fun entry later => ¬ (entry.holds id ∧ later.holds id) := by
  refine (List.pairwise_filter.mp distinct).imp ?_
  rintro entry later different ⟨entry_holds, later_holds⟩
  obtain ⟨entry_occupied, entry_id⟩ := holds_iff.mp entry_holds
  obtain ⟨later_occupied, later_id⟩ := holds_iff.mp later_holds
  exact different entry_occupied later_occupied (entry_id.trans later_id.symm)

theorem slot_of_findIdx? (found : catalog.entries.findIdx? (·.holds id) = some index) :
    catalog.entries.getD index {} ∈ catalog.live ∧ (catalog.entries.getD index {}).id = id := by
  obtain ⟨inside, holds, -⟩ := List.findIdx?_eq_some_iff_getElem.mp found
  obtain ⟨occupied, same⟩ := holds_iff.mp holds
  rw [List.getD_eq_getElem?_getD, List.getElem?_eq_getElem inside, Option.getD_some]
  exact ⟨mem_live.mpr ⟨List.getElem_mem inside, occupied⟩, same⟩

theorem findIdx?_eq_none_iff_live :
    catalog.entries.findIdx? (·.holds id) = none ↔ ∀ entry ∈ catalog.live, entry.id ≠ id := by
  rw [List.findIdx?_eq_none_iff]
  constructor
  · intro none_holds entry member same
    obtain ⟨inside, occupied⟩ := mem_live.mp member
    have not_holds := none_holds entry inside
    simp [Metadata.holds, occupied, same] at not_holds
  · intro none_live entry inside
    cases holds : entry.holds id with
    | false => rfl
    | true =>
      obtain ⟨occupied, same⟩ := holds_iff.mp holds
      exact absurd same (none_live entry (mem_live.mpr ⟨inside, occupied⟩))

theorem live_of_find (found : catalog.find id = some entry) :
    entry ∈ catalog.live ∧ entry.id = id := by
  unfold Catalog.find at found
  have holds := List.find?_some found
  obtain ⟨occupied, same⟩ := holds_iff.mp holds
  exact ⟨mem_live.mpr ⟨List.mem_of_find?_eq_some found, occupied⟩, same⟩

theorem find_eq_some (distinct : Distinct catalog.live) :
    catalog.find id = some entry ↔ entry ∈ catalog.live ∧ entry.id = id := by
  constructor
  · exact fun found => live_of_find found
  · rintro ⟨member, same⟩
    obtain ⟨inside, occupied⟩ := mem_live.mp member
    have exists_holder : (catalog.find id).isSome :=
      List.find?_isSome.mpr ⟨entry, inside, holds_iff.mpr ⟨occupied, same⟩⟩
    obtain ⟨other, found⟩ := Option.isSome_iff_exists.mp exists_holder
    obtain ⟨other_mem, other_id⟩ := live_of_find found
    have equal := distinct.eq_of_id other_mem member (other_id.trans same.symm)
    exact equal ▸ found

theorem find_eq_none : catalog.find id = none ↔ ∀ entry ∈ catalog.live, entry.id ≠ id := by
  unfold Catalog.find
  rw [← findIdx?_eq_none_iff_live, List.find?_eq_none, List.findIdx?_eq_none_iff]
  simp

theorem live_put (change : Metadata → Metadata) (distinct : Distinct catalog.live)
    (found : catalog.entries.findIdx? (·.holds id) = some index)
    (kept : ∀ entry ∈ catalog.live, entry.id = id → (change entry).occupied = true) :
    (catalog.put index (change (catalog.entries.getD index {}))).live =
      catalog.live.map fun entry => if entry.id = id then change entry else entry := by
  have table := set_findIdx?_eq_map change {} (distinct.alone id) found
  change (catalog.entries.set index _).filter Metadata.occupied =
    (catalog.entries.filter Metadata.occupied).map _
  rw [table]
  have occupied_kept : ∀ entry ∈ catalog.entries, entry.holds id = true →
      (change entry).occupied = true := by
    intro entry inside holds
    obtain ⟨occupied, same⟩ := holds_iff.mp holds
    exact kept entry (mem_live.mpr ⟨inside, occupied⟩) same
  clear table found kept distinct
  generalize catalog.entries = entries at occupied_kept
  induction entries with
  | nil => rfl
  | cons entry rest induction =>
    obtain ⟨head_kept, rest_kept⟩ := List.forall_mem_cons.mp occupied_kept
    have tail := induction rest_kept
    cases occupied : entry.occupied <;> by_cases same : entry.id = id <;>
      simp_all [Metadata.holds]

end Ids

/-- Clear every slot that is occupied under one of the ids. -/
def vacate (ids : List Digest) (entries : List Metadata) : List Metadata :=
  entries.map fun entry => if entry.occupied && ids.contains entry.id then {} else entry

@[simp] theorem vacate_nil (entries : List Metadata) : vacate [] entries = entries := by
  simp [vacate]

theorem vacate_cons (id : Digest) (ids : List Digest) (entries : List Metadata) :
    vacate (id :: ids) entries = vacate ids (vacate [id] entries) := by
  unfold vacate
  rw [List.map_map]
  apply List.map_congr_left
  intro entry _
  cases occupied : entry.occupied <;> by_cases same : entry.id = id <;> simp [occupied, same]

theorem filter_vacate (ids : List Digest) (entries : List Metadata) :
    (vacate ids entries).filter Metadata.occupied =
      (entries.filter Metadata.occupied).filter fun entry => entry.id ∉ ids := by
  unfold vacate
  induction entries with
  | nil => rfl
  | cons entry rest induction =>
    cases occupied : entry.occupied <;> by_cases listed : entry.id ∈ ids <;>
      simp_all

theorem Distinct.perm_cons_filter (distinct : Distinct entries) (member : entry ∈ entries) :
    entries.Perm (entry :: entries.filter fun other => other.id ≠ entry.id) := by
  induction entries with
  | nil => cases member
  | cons head rest induction =>
    obtain ⟨head_different, rest_distinct⟩ := List.pairwise_cons.mp distinct
    rcases List.mem_cons.mp member with rfl | later
    · have untouched : rest.filter (fun other => other.id ≠ entry.id) = rest := by
        rw [List.filter_eq_self]
        intro other other_mem
        simpa using (head_different other other_mem).symm
      rw [List.filter_cons_of_neg (by simp), untouched]
    · have head_kept : head.id ≠ entry.id := head_different entry later
      rw [List.filter_cons_of_pos (by simpa using head_kept)]
      exact ((induction rest_distinct later).cons head).trans (List.Perm.swap ..)

theorem Distinct.filter (distinct : Distinct entries) (keep : Metadata → Bool) :
    Distinct (entries.filter keep) :=
  List.Pairwise.filter keep distinct

theorem weight_filter_add (distinct : Distinct entries) (member : entry ∈ entries) :
    weight (entries.filter fun other => other.id ≠ entry.id) + entry.size.toNat = weight entries := by
  rw [weight_perm (distinct.perm_cons_filter member), weight_cons, Nat.add_comm]

theorem length_filter_add (distinct : Distinct entries) (member : entry ∈ entries) :
    (entries.filter fun other => other.id ≠ entry.id).length + 1 = entries.length :=
  (distinct.perm_cons_filter member).length_eq.symm

structure Removed (catalog : Catalog) (entry : Metadata) (after : Catalog) : Prop where
  entries : after.entries = vacate [entry.id] catalog.entries
  live : after.live = catalog.live.filter fun other => other.id ≠ entry.id
  count : after.count + 1 = catalog.count
  total : after.total_bytes.toNat + entry.size.toNat = catalog.total_bytes.toNat
  exact : Exact after

theorem Exact.remove (exact_catalog : Exact catalog) {entry : Metadata}
    (member : entry ∈ catalog.live) :
    ∃ after, catalog.remove entry.id = some (entry, after) ∧ Removed catalog entry after := by
  have distinct := exact_catalog.distinct
  cases found : catalog.entries.findIdx? (·.holds entry.id) with
  | none => exact absurd rfl (findIdx?_eq_none_iff_live.mp found entry member)
  | some index =>
    obtain ⟨slot_mem, slot_id⟩ := slot_of_findIdx? found
    have slot_eq : catalog.entries.getD index {} = entry :=
      distinct.eq_of_id slot_mem member slot_id
    let after : Catalog :=
      { catalog.put index {} with
        count := catalog.count - 1
        total_bytes := saturatingSub catalog.total_bytes entry.size }
    have entries_eq : after.entries = vacate [entry.id] catalog.entries := by
      refine (set_findIdx?_eq_map (fun _ => {}) {} (distinct.alone entry.id) found).trans ?_
      apply List.map_congr_left
      intro other _
      cases occupied : other.occupied <;> simp [Metadata.holds, occupied]
    have live_eq : after.live = catalog.live.filter fun other => other.id ≠ entry.id := by
      rw [Catalog.live, entries_eq, filter_vacate]
      apply List.filter_congr
      intro other _
      simp
    have count_eq := length_filter_add distinct member
    have weight_eq := weight_filter_add distinct member
    have count_after : after.count + 1 = catalog.count := by
      have positive : after.count = catalog.count - 1 := rfl
      rw [positive, exact_catalog.count]
      omega
    have total_after : after.total_bytes.toNat + entry.size.toNat = catalog.total_bytes.toNat := by
      have sub : after.total_bytes.toNat = catalog.total_bytes.toNat - entry.size.toNat :=
        saturatingSub_toNat _ _
      rw [sub, exact_catalog.total]
      omega
    have exact_after : Exact after :=
      { valid := fun other other_mem => by
          rw [live_eq] at other_mem
          exact exact_catalog.valid other (List.mem_of_mem_filter other_mem)
        distinct := by
          rw [live_eq]
          exact distinct.filter _
        count := by
          rw [live_eq]
          have former := exact_catalog.count
          omega
        total := by
          rw [live_eq]
          have former := exact_catalog.total
          omega }
    refine ⟨after, ?_, entries_eq, live_eq, count_after, total_after, exact_after⟩
    simp only [Catalog.remove, found, slot_eq]
    rfl

/-- Nothing is removed under a foreign id. -/
theorem remove_eq_none {id : Digest} :
    catalog.remove id = none ↔ ∀ entry ∈ catalog.live, entry.id ≠ id := by
  rw [← findIdx?_eq_none_iff_live]
  unfold Catalog.remove
  split <;> simp_all

section Record

variable {catalog after : Catalog} {candidate : Prepared} {disposition : Disposition}

theorem Exact.put (change : Metadata → Metadata) {id : Digest} {index : Nat}
    (exact_catalog : Exact catalog) (found : catalog.entries.findIdx? (·.holds id) = some index)
    (kept : ∀ entry ∈ catalog.live, entry.id = id → (change entry).valid = true ∧
      (change entry).id = id ∧ (change entry).size = entry.size) :
    Exact (catalog.put index (change (catalog.entries.getD index {}))) ∧
      (catalog.put index (change (catalog.entries.getD index {}))).live =
        catalog.live.map fun entry => if entry.id = id then change entry else entry := by
  have occupied : ∀ entry ∈ catalog.live, entry.id = id → (change entry).occupied = true := by
    intro entry member same
    have valid := (kept entry member same).1
    simp only [Metadata.valid, Bool.and_eq_true] at valid
    exact valid.1.1.1.1.1.1
  have live_eq := live_put change exact_catalog.distinct found occupied
  have ids : (catalog.live.map fun entry => if entry.id = id then change entry else entry).map
      Metadata.id = catalog.live.map Metadata.id := by
    rw [List.map_map]
    apply List.map_congr_left
    intro entry member
    by_cases same : entry.id = id
    · simp [same, (kept entry member same).2.1]
    · simp [same]
  have sizes : weight (catalog.live.map fun entry =>
      if entry.id = id then change entry else entry) = weight catalog.live := by
    unfold weight
    rw [List.map_map]
    congr 1
    apply List.map_congr_left
    intro entry member
    by_cases same : entry.id = id
    · simp [same, (kept entry member same).2.2]
    · simp [same]
  refine ⟨?_, live_eq⟩
  constructor
  · rw [live_eq]
    intro entry member
    obtain ⟨former, former_mem, rfl⟩ := List.mem_map.mp member
    split
    · rename_i same
      exact (kept former former_mem same).1
    · exact exact_catalog.valid former former_mem
  · have nodup : (catalog.live.map Metadata.id).Nodup :=
      List.pairwise_map.mpr exact_catalog.distinct
    rw [live_eq]
    exact List.pairwise_map.mp (ids ▸ nodup)
  · rw [live_eq, List.length_map]
    exact exact_catalog.count
  · rw [live_eq, sizes]
    exact exact_catalog.total

theorem Exact.touch (exact_catalog : Exact catalog) (id : Digest) (now : UInt64) :
    Exact (catalog.touch id now).2 := by
  unfold Catalog.touch
  split
  · exact exact_catalog
  · rename_i index found
    refine (Exact.put (fun entry => { entry with last_access := max entry.last_access now })
      exact_catalog found ?_).1
    intro entry member same
    have valid := exact_catalog.valid entry member
    refine ⟨?_, same, rfl⟩
    simp only [Metadata.valid, Bool.and_eq_true, decide_eq_true_eq] at valid ⊢
    refine ⟨valid.1, UInt64.le_iff_toNat_le.mpr ?_⟩
    rw [toNat_max]
    exact le_max_of_le_left (UInt64.le_iff_toNat_le.mp valid.2)

/-- What a classification tells. -/
inductive Classified (catalog : Catalog) (candidate : Prepared) : Disposition → Prop
  | new_object (fresh : ∀ entry ∈ catalog.live, entry.id ≠ candidate.metadata.id) :
      Classified catalog candidate .new_object
  | duplicate (entry : Metadata) (member : entry ∈ catalog.live)
      (same : entry.id = candidate.metadata.id) (size : entry.size = candidate.metadata.size) :
      Classified catalog candidate .duplicate

theorem classify_ok (classified : catalog.classify candidate = .ok disposition) :
    candidate.metadata.valid = true ∧ Classified catalog candidate disposition := by
  unfold Catalog.classify at classified
  split at classified
  · cases classified
  · rename_i valid
    refine ⟨by simpa using valid, ?_⟩
    split at classified
    · rename_i absent
      cases classified
      exact .new_object (find_eq_none.mp absent)
    · rename_i entry found
      split at classified
      · cases classified
      · rename_i agrees
        cases classified
        obtain ⟨member, same⟩ := live_of_find found
        simp only [Bool.or_eq_true, bne_iff_ne, not_or, not_not] at agrees
        exact .duplicate entry member same agrees.2

theorem Metadata.valid_occupied (valid : entry.valid = true) :
    entry.occupied = true := by
  simp only [Metadata.valid, Bool.and_eq_true] at valid
  exact valid.1.1.1.1.1.1

theorem merged_valid {candidate : Metadata} (valid : candidate.valid = true) :
    (Catalog.merged entry candidate).valid = true := by
  simp only [Metadata.valid, Catalog.merged, Bool.and_eq_true] at valid ⊢
  refine ⟨valid.1, decide_eq_true (UInt64.le_iff_toNat_le.mpr ?_)⟩
  rw [toNat_max]
  exact le_max_right _ _

/-- What recording a candidate leaves: an exact catalog with the figures of its disposition. -/
structure Recorded (catalog : Catalog) (candidate : Prepared) (disposition : Disposition)
    (after : Catalog) : Prop where
  exact : Exact after
  count : after.count = catalog.count + (if disposition = .new_object then 1 else 0)
  total : after.total_bytes.toNat = catalog.total_bytes.toNat +
    (if disposition = .new_object then candidate.metadata.size.toNat else 0)

theorem Exact.record_duplicate (exact_catalog : Exact catalog)
    (classified : catalog.classify candidate = .ok .duplicate) :
    ∃ after, catalog.recordCommitted candidate = .ok (.duplicate, after) ∧
      Recorded catalog candidate .duplicate after := by
  obtain ⟨valid, outcome⟩ := classify_ok classified
  obtain ⟨entry, member, same, size⟩ : ∃ entry ∈ catalog.live,
      entry.id = candidate.metadata.id ∧ entry.size = candidate.metadata.size := by
    cases outcome with
    | duplicate entry member same size => exact ⟨entry, member, same, size⟩
  cases found : catalog.entries.findIdx? (·.holds candidate.metadata.id) with
  | none => exact absurd same (findIdx?_eq_none_iff_live.mp found entry member)
  | some index =>
    have step := Exact.put (fun entry => Catalog.merged entry candidate.metadata) exact_catalog
      found (fun other other_mem other_id => ⟨merged_valid valid, rfl, by
        rw [exact_catalog.distinct.eq_of_id other_mem member (other_id.trans same.symm)]
        exact size.symm⟩)
    refine ⟨_, ?_, step.1, rfl, rfl⟩
    simp [Catalog.recordCommitted, classified, found]

theorem exists_free (room : catalog.live.length < max_entries) :
    ∃ index, catalog.entries.findIdx? (!·.occupied) = some index := by
  cases found : catalog.entries.findIdx? (!·.occupied) with
  | some index => exact ⟨index, rfl⟩
  | none =>
    have all_occupied : catalog.live = catalog.entries := by
      rw [Catalog.live, List.filter_eq_self]
      intro entry member
      simpa using List.findIdx?_eq_none_iff.mp found entry member
    rw [all_occupied, catalog.capacity] at room
    exact absurd room (Nat.lt_irrefl _)

theorem Exact.record_new (exact_catalog : Exact catalog)
    (classified : catalog.classify candidate = .ok .new_object)
    (count_room : catalog.count < max_entries)
    (total_room : catalog.total_bytes.toNat + candidate.metadata.size.toNat < 2 ^ 64) :
    ∃ after, catalog.recordCommitted candidate = .ok (.new_object, after) ∧
      Recorded catalog candidate .new_object after := by
  obtain ⟨valid, outcome⟩ := classify_ok classified
  cases outcome with
  | new_object fresh =>
    obtain ⟨index, found⟩ := exists_free (exact_catalog.count ▸ count_room)
    obtain ⟨total, total_eq⟩ : ∃ total,
        checkedAdd catalog.total_bytes candidate.metadata.size = some total :=
      ⟨_, if_pos total_room⟩
    have total_value := checkedAdd_eq_some.mp total_eq
    obtain ⟨inside, free, -⟩ := List.findIdx?_eq_some_iff_getElem.mp found
    let after : Catalog :=
      { catalog.put index candidate.metadata with
        count := catalog.count + 1
        total_bytes := total }
    have perm : after.live.Perm (candidate.metadata :: catalog.live) := by
      refine filter_set_perm {} ?_ inside (Metadata.valid_occupied valid)
      rw [List.getD_eq_getElem?_getD, List.getElem?_eq_getElem inside, Option.getD_some]
      simpa using free
    have exact_after : Exact after :=
      { valid := fun entry member => by
          rcases List.mem_cons.mp (perm.mem_iff.mp member) with rfl | old
          · exact valid
          · exact exact_catalog.valid entry old
        distinct := by
          refine Distinct.perm ?_ perm.symm
          refine List.pairwise_cons.mpr ⟨?_, exact_catalog.distinct⟩
          intro entry member
          exact (fresh entry member).symm
        count := by
          rw [perm.length_eq, List.length_cons, ← exact_catalog.count]
        total := by
          rw [weight_perm perm, weight_cons, ← exact_catalog.total, Nat.add_comm]
          exact total_value }
    refine ⟨after, ?_, exact_after, rfl, total_value⟩
    simp only [Catalog.recordCommitted, classified, found, total_eq]
    exact if_neg (by omega)

theorem Exact.recordCommitted (exact_catalog : Exact catalog)
    (recorded : catalog.recordCommitted candidate = .ok (disposition, after)) :
    Recorded catalog candidate disposition after := by
  cases classified : catalog.classify candidate with
  | error error => simp [Catalog.recordCommitted, classified] at recorded
  | ok known =>
    cases known with
    | duplicate =>
      obtain ⟨result, result_eq, result_recorded⟩ := exact_catalog.record_duplicate classified
      rw [result_eq] at recorded
      cases recorded
      exact result_recorded
    | new_object =>
      by_cases count_room : catalog.count < max_entries
      · by_cases total_room :
            catalog.total_bytes.toNat + candidate.metadata.size.toNat < 2 ^ 64
        · obtain ⟨result, result_eq, result_recorded⟩ :=
            exact_catalog.record_new classified count_room total_room
          rw [result_eq] at recorded
          cases recorded
          exact result_recorded
        · have overflow := checkedAdd_eq_none.mpr (Nat.not_lt.mp total_room)
          simp [Catalog.recordCommitted, classified, overflow, Nat.not_le.mpr count_room] at recorded
      · simp [Catalog.recordCommitted, classified, Nat.not_lt.mp count_room] at recorded

end Record

end R4OS.FontCache
