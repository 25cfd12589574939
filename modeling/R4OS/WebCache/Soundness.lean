import R4OS.WebCache.Cache

/-!
# The cache is sound

Over every run of calls the byte count is exact and within its budget, a key finds one entry at most,
and a handle shows the response it was looked up for as long as it is held.
-/

namespace R4OS.WebCache

open Text

/-- A call of store. -/
structure Stored where
  headers : Bytes
  body : Bytes
  now : Clock
  request_started_ms : Nat
  deriving DecidableEq

/-- How the headers of a call of store allow it to be cached. -/
def Stored.policy (stored : Stored) : Policy :=
  responsePolicy stored.headers stored.now stored.request_started_ms

/-- What has happened: the handles that are held, each with the store it was looked up for, and the
last store of every key. -/
structure Ledger where
  held : List (Handle × Option Stored)
  last : Key → Option Stored

/-- Remember the handle of a lookup. -/
def Ledger.note (ledger : Ledger) (key : Key) (answer : Lookup) : Ledger :=
  match answer.handle with
  | none => ledger
  | some handle => { ledger with held := (handle, ledger.last key) :: ledger.held }

/-- One call.  A handle is released once for each lookup that returned it, and an identity that is
kept is one that a cache gave out. -/
inductive Step : Cache × Ledger → Cache × Ledger → Prop
  | store (cache : Cache) (ledger : Ledger) (key : Key) (stored : Stored)
      (preserved_identity : Option Nat) (allocated : Bool)
      (given : ∀ identity ∈ preserved_identity, identity ≠ 0) :
      Step (cache, ledger)
        ((cache.store key stored.headers stored.body stored.now stored.request_started_ms
            preserved_identity allocated).2,
          { ledger with last := Function.update ledger.last key (some stored) })
  | lookup (cache : Cache) (ledger : Ledger) (key : Key) (mode : Mode) (now : Clock) :
      Step (cache, ledger) ((cache.lookup key mode now).2, ledger.note key (cache.lookup key mode now).1)
  | view (cache : Cache) (ledger : Ledger) (handle : Handle) (now : Clock) :
      Step (cache, ledger) (cache, ledger)
  | release (cache : Cache) (ledger : Ledger) (item : Handle × Option Stored)
      (held : item ∈ ledger.held) :
      Step (cache, ledger) (cache.release item.1, { ledger with held := ledger.held.erase item })
  | invalidate (cache : Cache) (ledger : Ledger) (key : Key) :
      Step (cache, ledger) (cache.invalidate key, ledger)
  | invalidateUrl (cache : Cache) (ledger : Ledger) (url : Bytes) :
      Step (cache, ledger) (cache.invalidateUrl url, ledger)

/-- What calls may have made of a new cache. -/
def Reachable (limits : Limits) (cache : Cache) (ledger : Ledger) : Prop :=
  Relation.ReflTransGen Step (Cache.init limits, ⟨[], fun _ => none⟩) (cache, ledger)

/-- An entry that a call of store has filled. -/
structure Entry.Describes (entry : Entry) (stored : Stored) : Prop where
  allowed : stored.policy.allowed = true
  headers : entry.part 3 = stored.headers
  body : entry.part 4 = stored.body
  stored_ms : entry.stored_ms = stored.now.monotonic_ms
  age : entry.initial_age_ms = stored.policy.age_ms
  lifetime : entry.lifetime_ms = stored.policy.lifetime_ms
  validate : entry.validate = stored.policy.validate

/-- What holds of a slot. -/
structure SlotInv (ledger : Ledger) (index : Fin max_entries) (entry : Entry) : Prop where
  blank : entry.identity = 0 → entry = {}
  pins : entry.pins = ledger.held.countP fun item => item.1.index = index.val
  held : ∀ item ∈ ledger.held, item.1.index = index.val → entry.token = item.1.identity ∧
    ∃ stored, item.2 = some stored ∧ entry.part 3 = stored.headers ∧ entry.part 4 = stored.body
  latest : ∀ key, entry.matchesKey key = true →
    ∃ stored, ledger.last key = some stored ∧ entry.Describes stored

/-- What holds of a cache. -/
structure CacheInv (limits : Limits) (cache : Cache) (ledger : Ledger) : Prop where
  limits_eq : cache.limits = limits
  slots : ∀ index, SlotInv ledger index (cache.entries index)
  inside : ∀ item ∈ ledger.held, item.1.index < max_entries
  bytes : cache.bytes = ∑ index, (cache.entries index).data.length
  budget : cache.bytes ≤ limits.total_bytes
  unique : ∀ first second key, (cache.entries first).matchesKey key = true →
    (cache.entries second).matchesKey key = true → first = second
  named : cache.next_identity ≠ 0

section Invariant

variable {limits : Limits} {cache : Cache} {ledger : Ledger} {index : Fin max_entries} {key : Key}

variable {entry : Entry} {stored : Stored}

theorem blank_unmatched : ({} : Entry).matchesKey key = false := rfl

theorem matchesKey_iff : entry.matchesKey key = true ↔
    entry.identity ≠ 0 ∧ entry.retired = false ∧ entry.part 0 = key.url ∧
      entry.part 1 = key.context ∧ entry.part 2 = key.headers := by
  simp [Entry.matchesKey, and_assoc]

theorem sum_setEntry (entries : Fin max_entries → Entry) (index : Fin max_entries) (entry : Entry) :
    (∑ other, (Function.update entries index entry other).data.length) +
        (entries index).data.length =
      (∑ other, (entries other).data.length) + entry.data.length := by
  have moved (other : Fin max_entries) : (Function.update entries index entry other).data.length =
      Function.update (fun other => (entries other).data.length) index entry.data.length other := by
    rw [Function.update_apply, Function.update_apply]
    split
    · rfl
    · rfl
  simp only [moved]
  rw [Finset.sum_update_of_mem (Finset.mem_univ index),
    ← Finset.add_sum_erase _ (fun other => (entries other).data.length) (Finset.mem_univ index),
    Finset.sdiff_singleton_eq_erase]
  omega

theorem init_inv (limits : Limits) : CacheInv limits (Cache.init limits) ⟨[], fun _ => none⟩ where
  limits_eq := rfl
  slots _ := ⟨fun _ => rfl, rfl, nofun, nofun⟩
  inside := nofun
  bytes := by simp [Cache.init]
  budget := Nat.zero_le _
  unique _ _ _ found := by cases found
  named := one_ne_zero

theorem CacheInv.setEntry (inv : CacheInv limits cache ledger) {ledger' : Ledger}
    (slot : SlotInv ledger' index entry)
    (others : ∀ other, other ≠ index → SlotInv ledger' other (cache.entries other))
    (inside : ∀ item ∈ ledger'.held, item.1.index < max_entries)
    (data : entry.data.length = (cache.entries index).data.length)
    (found : ∀ key, entry.matchesKey key = true → (cache.entries index).matchesKey key = true) :
    CacheInv limits (cache.setEntry index entry) ledger' where
  limits_eq := inv.limits_eq
  slots other := by
    by_cases same : other = index
    · subst same
      simpa [Cache.setEntry] using slot
    · simpa [Cache.setEntry, Function.update_of_ne same] using others other same
  inside := inside
  bytes := by
    have sum := sum_setEntry cache.entries index entry
    have bytes := inv.bytes
    simp only [Cache.setEntry]
    omega
  budget := inv.budget
  unique first second key first_found second_found := by
    have was (other : Fin max_entries)
        (matched : ((cache.setEntry index entry).entries other).matchesKey key = true) :
        (cache.entries other).matchesKey key = true := by
      by_cases same : other = index
      · subst same
        exact found key (by simpa [Cache.setEntry] using matched)
      · simpa [Cache.setEntry, Function.update_of_ne same] using matched
    exact inv.unique first second key (was first first_found) (was second second_found)
  named := inv.named

theorem SlotInv.unheld (slot : SlotInv ledger index entry) (unpinned : entry.pins = 0) :
    ∀ item ∈ ledger.held, item.1.index ≠ index.val := by
  have none_held := slot.pins.symm.trans unpinned
  rw [List.countP_eq_zero] at none_held
  simpa using none_held

theorem SlotInv.occupied (slot : SlotInv ledger index entry) (pinned : entry.pins ≠ 0) :
    entry.identity ≠ 0 := by
  intro free
  rw [slot.blank free] at pinned
  exact pinned rfl

theorem blank_slot (unheld : ∀ item ∈ ledger.held, item.1.index ≠ index.val) :
    SlotInv ledger index {} where
  blank _ := rfl
  pins := by
    rw [eq_comm, List.countP_eq_zero]
    simpa using unheld
  held item member same := absurd same (unheld item member)
  latest key found := by cases found

theorem CacheInv.remove (inv : CacheInv limits cache ledger) (unpinned : (cache.entries index).pins = 0) :
    CacheInv limits (cache.remove index) ledger where
  limits_eq := inv.limits_eq
  slots other := by
    by_cases same : other = index
    · subst same
      simpa [Cache.remove, Cache.setEntry] using blank_slot ((inv.slots other).unheld unpinned)
    · simpa [Cache.remove, Cache.setEntry, Function.update_of_ne same] using inv.slots other
  inside := inv.inside
  bytes := by
    have sum := sum_setEntry cache.entries index {}
    have bytes := inv.bytes
    simp only [Cache.remove, Cache.setEntry]
    have nothing : ({} : Entry).data.length = 0 := rfl
    omega
  budget := (Nat.sub_le _ _).trans inv.budget
  unique first second key first_found second_found := by
    have was (other : Fin max_entries)
        (matched : ((cache.remove index).entries other).matchesKey key = true) :
        (cache.entries other).matchesKey key = true := by
      by_cases same : other = index
      · subst same
        simp [Cache.remove, Cache.setEntry, blank_unmatched] at matched
      · simpa [Cache.remove, Cache.setEntry, Function.update_of_ne same] using matched
    exact inv.unique first second key (was first first_found) (was second second_found)
  named := inv.named

theorem CacheInv.retire (inv : CacheInv limits cache ledger) : CacheInv limits (cache.retire index) ledger := by
  unfold Cache.retire
  split
  · next unpinned => exact inv.remove unpinned
  · next pinned =>
      have slot := inv.slots index
      have unmatched (key : Key) :
          ({ cache.entries index with retired := true } : Entry).matchesKey key = false := by
        simp [Entry.matchesKey]
      refine inv.setEntry ⟨fun free => absurd free (slot.occupied pinned), slot.pins, slot.held, ?_⟩
        (fun other _ => inv.slots other) inv.inside rfl ?_
      · intro key found
        rw [unmatched] at found
        cases found
      · intro key found
        rw [unmatched] at found
        cases found

def Entry.retiredImage (entry : Entry) : Entry :=
  if entry.pins = 0 then {} else { entry with retired := true }

theorem retire_entries (cache : Cache) (index : Fin max_entries) :
    (cache.retire index).entries =
      Function.update cache.entries index (cache.entries index).retiredImage := by
  unfold Cache.retire Entry.retiredImage
  split
  · rfl
  · rfl

theorem retiredImage_unmatched (entry : Entry) : entry.retiredImage.matchesKey key = false := by
  unfold Entry.retiredImage
  split
  · rfl
  · simp [Entry.matchesKey]

theorem retireFold_entries {condition : Entry → Bool} {indices : List (Fin max_entries)}
    (distinct : indices.Nodup) (cache : Cache) (other : Fin max_entries) :
    (indices.foldl (fun cache index =>
      if condition (cache.entries index) then cache.retire index else cache) cache).entries other =
      if other ∈ indices ∧ condition (cache.entries other) = true then
        (cache.entries other).retiredImage
      else cache.entries other := by
  induction indices generalizing cache with
  | nil => simp
  | cons index indices induction =>
    obtain ⟨fresh, rest⟩ := List.nodup_cons.mp distinct
    rw [List.foldl_cons, induction rest]
    by_cases same : other = index
    · subst same
      have left_alone (cache' : Cache) : (if other ∈ indices ∧ condition (cache'.entries other) = true
          then (cache'.entries other).retiredImage else cache'.entries other) =
            cache'.entries other := if_neg fun found => fresh found.1
      rw [left_alone]
      by_cases picked : condition (cache.entries other) = true
      · simp [picked, retire_entries]
      · simp [picked]
    · have unchanged : (if condition (cache.entries index) = true then cache.retire index
          else cache).entries other = cache.entries other := by
        split
        · rw [retire_entries, Function.update_of_ne same]
        · rfl
      rw [unchanged]
      simp [same]

theorem retireWhere_entries (cache : Cache) (condition : Entry → Bool) (other : Fin max_entries) :
    (cache.retireWhere condition).entries other =
      if condition (cache.entries other) then (cache.entries other).retiredImage
      else cache.entries other := by
  rw [Cache.retireWhere, retireFold_entries (List.nodup_finRange _)]
  simp

theorem CacheInv.retireWhere (inv : CacheInv limits cache ledger) (condition : Entry → Bool) :
    CacheInv limits (cache.retireWhere condition) ledger := by
  unfold Cache.retireWhere
  induction List.finRange max_entries generalizing cache with
  | nil => exact inv
  | cons index indices induction =>
    rw [List.foldl_cons]
    apply induction
    split
    · exact inv.retire
    · exact inv

theorem invalidate_unmatched (cache : Cache) (key : Key) (index : Fin max_entries) :
    ((cache.invalidate key).entries index).matchesKey key = false := by
  rw [Cache.invalidate, retireWhere_entries]
  split
  · exact retiredImage_unmatched _
  · next unmatched => exact Bool.eq_false_iff.mpr unmatched

theorem findEntry_matches (found : cache.findEntry key = some index) :
    (cache.entries index).matchesKey key = true := by
  have picked := List.find?_some found
  simp only [Bool.and_eq_true] at picked
  exact picked.1

theorem SlotInv.repinned (slot : SlotInv ledger index entry) (used pins : Nat) :
    ∀ key, ({ entry with used, pins } : Entry).matchesKey key = true →
      ∃ stored, ledger.last key = some stored ∧
        ({ entry with used, pins } : Entry).Describes stored := by
  intro key matched
  obtain ⟨stored, last, describes⟩ := slot.latest key matched
  exact ⟨stored, last, describes.allowed, describes.headers, describes.body, describes.stored_ms,
    describes.age, describes.lifetime, describes.validate⟩

theorem CacheInv.pin (inv : CacheInv limits cache ledger)
    (found : (cache.entries index).matchesKey key = true) (used : Nat) :
    CacheInv limits
      (cache.setEntry index { cache.entries index with used, pins := (cache.entries index).pins + 1 })
      { ledger with held := (⟨index, (cache.entries index).token⟩, ledger.last key) :: ledger.held } := by
  have slot := inv.slots index
  obtain ⟨stored, stored_eq, describes⟩ := slot.latest key found
  have occupied := (matchesKey_iff.mp found).1
  refine inv.setEntry ⟨fun free => absurd free occupied, ?_, ?_, slot.repinned _ _⟩ ?_ ?_ rfl ?_
  · rw [List.countP_cons, slot.pins]
    simp
  · intro item member same
    rcases List.mem_cons.mp member with rfl | earlier
    · exact ⟨rfl, stored, stored_eq, describes.headers, describes.body⟩
    · exact slot.held item earlier same
  · intro other different
    have kept := inv.slots other
    have apart : ¬index.val = other.val := fun same => different (Fin.ext same.symm)
    refine ⟨kept.blank, ?_, ?_, kept.latest⟩
    · rw [List.countP_cons, kept.pins]
      simp [apart]
    · intro item member same
      rcases List.mem_cons.mp member with rfl | earlier
      · exact absurd same apart
      · exact kept.held item earlier same
  · intro item member
    rcases List.mem_cons.mp member with rfl | earlier
    · exact index.isLt
    · exact inv.inside item earlier
  · exact fun _ matched => matched

theorem CacheInv.counters (inv : CacheInv limits cache ledger) (serial : Nat) (stats : Stats) :
    CacheInv limits { cache with serial, stats } ledger :=
  ⟨inv.limits_eq, inv.slots, inv.inside, inv.bytes, inv.budget, inv.unique, inv.named⟩

theorem CacheInv.lookup (inv : CacheInv limits cache ledger) (mode : Mode) (now : Clock) :
    CacheInv limits (cache.lookup key mode now).2 (ledger.note key (cache.lookup key mode now).1) := by
  unfold Cache.lookup
  dsimp only
  split
  · next index found =>
      have picked : cache.findEntry key = some index := by
        split at found
        · exact found
        · cases found
      exact (inv.pin (findEntry_matches picked) _).counters _ _
  · exact inv.counters _ _

theorem entryFor_eq_some {handle : Handle} :
    cache.entryFor handle = some index ↔ handle.index = index.val ∧
      (cache.entries index).token = handle.identity ∧ (cache.entries index).pins ≠ 0 := by
  unfold Cache.entryFor
  split
  · next inside =>
      split
      · next live =>
          constructor
          · intro found
            cases found
            exact ⟨rfl, live⟩
          · rintro ⟨place, -⟩
            exact congrArg some (Fin.ext place)
      · next dead =>
          constructor
          · rintro ⟨⟩
          · rintro ⟨place, live⟩
            obtain rfl : (⟨handle.index, inside⟩ : Fin max_entries) = index := Fin.ext place
            exact absurd live dead
  · next outside =>
      constructor
      · rintro ⟨⟩
      · rintro ⟨place, -⟩
        exact absurd (place ▸ index.isLt) outside

theorem CacheInv.entryFor_held (inv : CacheInv limits cache ledger) {item : Handle × Option Stored}
    (held : item ∈ ledger.held) :
    ∃ index, cache.entryFor item.1 = some index := by
  refine ⟨⟨item.1.index, inv.inside item held⟩, entryFor_eq_some.mpr ⟨rfl, ?_, ?_⟩⟩
  · exact ((inv.slots _).held item held rfl).1
  · intro unpinned
    exact (inv.slots _).unheld unpinned item held rfl

theorem CacheInv.release (inv : CacheInv limits cache ledger) {item : Handle × Option Stored}
    (held : item ∈ ledger.held) :
    CacheInv limits (cache.release item.1) { ledger with held := ledger.held.erase item } := by
  obtain ⟨index, found⟩ := inv.entryFor_held held
  obtain ⟨place, -, pinned⟩ := entryFor_eq_some.mp found
  have slot := inv.slots index
  have counted (other : Fin max_entries) : (ledger.held.erase item).countP (fun item =>
      item.1.index = other.val) = ledger.held.countP (fun item => item.1.index = other.val) -
        if item.1.index = other.val then 1 else 0 := by
    rw [List.countP_erase]
    simp [held]
  have unpinned : CacheInv limits
      (cache.setEntry index { cache.entries index with pins := (cache.entries index).pins - 1 })
      { ledger with held := ledger.held.erase item } := by
    refine inv.setEntry ⟨fun free => absurd free (slot.occupied pinned), ?_, ?_,
      slot.repinned _ _⟩ ?_ ?_ rfl fun _ matched => matched
    · rw [counted, if_pos place, ← slot.pins]
    · exact fun other member => slot.held other (List.mem_of_mem_erase member)
    · intro other different
      have kept := inv.slots other
      have apart : ¬item.1.index = other.val := fun same =>
        different (Fin.ext (same.symm.trans place))
      refine ⟨kept.blank, ?_, fun item member => kept.held item (List.mem_of_mem_erase member),
        kept.latest⟩
      rw [counted, if_neg apart, kept.pins]
      rfl
    · exact fun other member => inv.inside other (List.mem_of_mem_erase member)
  unfold Cache.release
  rw [found]
  dsimp only
  split
  · next last =>
      refine unpinned.remove ?_
      simpa [Cache.setEntry] using last.1
  · exact unpinned

theorem scan_finds {slot : Option (Fin max_entries)}
    (free : ∀ index ∈ slot, (cache.entries index).identity = 0) :
    (∀ index ∈ (cache.scan slot).1, (cache.entries index).identity = 0) ∧
      ∀ index ∈ (cache.scan slot).2, (cache.entries index).pins = 0 := by
  unfold Cache.scan
  refine List.foldlRecOn (List.finRange max_entries) _ (motive := fun found :
      Option (Fin max_entries) × Option (Fin max_entries) => (∀ index ∈ found.1, (cache.entries index).identity = 0) ∧
        ∀ index ∈ found.2, (cache.entries index).pins = 0) ⟨free, nofun⟩ ?_
  rintro ⟨found, oldest⟩ ⟨found_free, oldest_unpinned⟩ index -
  dsimp only
  split
  · next blank => exact ⟨by simpa using blank, oldest_unpinned⟩
  split
  · next older => exact ⟨found_free, by simpa using older.1⟩
  · exact ⟨found_free, oldest_unpinned⟩

theorem remove_entries (cache : Cache) (index : Fin max_entries) :
    (cache.remove index).entries = Function.update cache.entries index {} := rfl

/-- What making room leaves behind. -/
structure Roomy (limits : Limits) (ledger : Ledger) (key : Key) (size : Nat)
    (found : Option (Fin max_entries) × Cache) : Prop where
  inv : CacheInv limits found.2 ledger
  unmatched : ∀ index, (found.2.entries index).matchesKey key = false
  free : ∀ index ∈ found.1, (found.2.entries index).identity = 0
  room : found.1.isSome → found.2.bytes ≤ limits.total_bytes - size

theorem makeRoom_roomy {size rounds : Nat} {slot : Option (Fin max_entries)}
    (inv : CacheInv limits cache ledger)
    (unmatched : ∀ index, (cache.entries index).matchesKey key = false)
    (free : ∀ index ∈ slot, (cache.entries index).identity = 0) :
    Roomy limits ledger key size (Cache.makeRoom size rounds cache slot) := by
  induction rounds generalizing cache slot with
  | zero =>
    unfold Cache.makeRoom
    exact ⟨inv, unmatched, nofun, nofun⟩
  | succ rounds induction =>
    obtain ⟨found_free, oldest_unpinned⟩ := scan_finds free
    unfold Cache.makeRoom
    dsimp only
    split
    · next enough => exact ⟨inv, unmatched, found_free, fun _ => inv.limits_eq ▸ enough.2⟩
    split
    · exact ⟨inv, unmatched, nofun, nofun⟩
    next victim chosen =>
    have removed : CacheInv limits (cache.remove victim) ledger :=
      inv.remove (oldest_unpinned victim chosen)
    refine induction (removed.counters _ _) ?_ ?_
    · intro index
      change ((cache.remove victim).entries index).matchesKey key = false
      rw [remove_entries, Function.update_apply]
      split
      · rfl
      · exact unmatched index
    · intro index member
      change ((cache.remove victim).entries index).identity = 0
      rw [remove_entries, Function.update_apply]
      split
      · rfl
      · exact found_free index member

/-- The entries that may be evicted. -/
def evictable (cache : Cache) : Finset (Fin max_entries) :=
  Finset.univ.filter fun index => (cache.entries index).identity ≠ 0

theorem part_flatten (parts : List Bytes) (entry : Entry) (data : entry.data = parts.flatten)
    (ends : entry.ends = fun index => ((parts.take (index.val + 1)).map List.length).sum)
    (index : Fin 5) (inside : index.val < parts.length) : entry.part index = parts[index.val] := by
  have start : (if index = 0 then 0 else entry.ends (index - 1)) =
      ((parts.map List.length).take index).sum := by
    split
    · next first =>
        subst first
        rfl
    · next later =>
        have positive : 0 < index.val := by
          rw [Nat.pos_iff_ne_zero]
          exact fun zero => later (Fin.ext zero)
        have previous : (index - 1).val + 1 = index.val := by
          rw [Fin.val_sub_one_of_ne_zero later]
          omega
        rw [ends]
        dsimp only
        rw [previous, List.map_take]
  rw [Entry.part, start, data, ends]
  dsimp only
  rw [List.map_take]
  exact List.drop_take_succ_flatten_eq_getElem parts index inside

theorem SlotInv.forget (slot : SlotInv ledger index entry)
    (unmatched : entry.matchesKey key = false) (stored : Option Stored) :
    SlotInv { ledger with last := Function.update ledger.last key stored } index entry := by
  refine ⟨slot.blank, slot.pins, slot.held, fun other matched => ?_⟩
  have different : other ≠ key := by
    rintro rfl
    rw [unmatched] at matched
    cases matched
  dsimp only
  rw [Function.update_of_ne different]
  exact slot.latest other matched

theorem CacheInv.forget (inv : CacheInv limits cache ledger)
    (unmatched : ∀ index, (cache.entries index).matchesKey key = false) (stored : Option Stored) :
    CacheInv limits cache { ledger with last := Function.update ledger.last key stored } :=
  ⟨inv.limits_eq, fun index => (inv.slots index).forget (unmatched index) stored, inv.inside, inv.bytes,
    inv.budget, inv.unique, inv.named⟩

theorem advance_ne_zero (identity : Nat) : Cache.advance identity ≠ 0 := by
  unfold Cache.advance
  split
  · exact one_ne_zero
  · assumption

theorem newEntry_part (key : Key) (headers body : Bytes) (policy : Policy) (now : Clock)
    (identity token used : Nat) (index : Fin 5) :
    (Cache.newEntry (Cache.partsOf key headers body) policy now identity token used).part index =
      (Cache.partsOf key headers body).get index :=
  part_flatten (Cache.partsOf key headers body) _ rfl rfl index index.isLt

theorem fill_eq (slot : Fin max_entries) (parts : List Bytes) (policy : Policy) (now : Clock)
    (preserved_identity : Option Nat) :
    ∃ token serial next stats, next ≠ 0 ∧ (cache.fill slot parts policy now preserved_identity).2 =
      { cache with
        entries := Function.update cache.entries slot
          (Cache.newEntry parts policy now (preserved_identity.getD cache.next_identity) token serial)
        bytes := cache.bytes + parts.flatten.length
        serial
        next_identity := next
        stats } := by
  unfold Cache.fill
  cases preserved_identity with
  | none | some identity => exact ⟨_, _, _, _, advance_ne_zero _, rfl⟩

theorem newEntry_describes (allowed : stored.policy.allowed = true) (identity token used : Nat) :
    (Cache.newEntry (Cache.partsOf key stored.headers stored.body) stored.policy stored.now identity token
      used).Describes stored :=
  ⟨allowed, newEntry_part _ _ _ _ _ _ _ _ 3, newEntry_part _ _ _ _ _ _ _ _ 4, rfl, rfl, rfl, rfl⟩

theorem newEntry_matches {identity token used : Nat} {other : Key}
    (matched : (Cache.newEntry (Cache.partsOf key stored.headers stored.body) stored.policy stored.now
      identity token used).matchesKey other = true) : other = key := by
  obtain ⟨-, -, url, context, headers⟩ := matchesKey_iff.mp matched
  rw [newEntry_part] at url context headers
  cases other
  cases key
  simp only [Key.mk.injEq]
  exact ⟨url.symm, context.symm, headers.symm⟩

theorem CacheInv.fill {slot : Fin max_entries} {preserved_identity : Option Nat}
    (inv : CacheInv limits cache ledger)
    (unmatched : ∀ index, (cache.entries index).matchesKey key = false)
    (free : (cache.entries slot).identity = 0)
    (room : cache.bytes + (Cache.partsOf key stored.headers stored.body).flatten.length ≤
      limits.total_bytes)
    (allowed : stored.policy.allowed = true)
    (given : ∀ identity ∈ preserved_identity, identity ≠ 0) :
    CacheInv limits (cache.fill slot (Cache.partsOf key stored.headers stored.body) stored.policy
        stored.now preserved_identity).2
      { ledger with last := Function.update ledger.last key (some stored) } := by
  obtain ⟨token, serial, next, stats, next_ne, filled⟩ := @fill_eq cache slot
    (Cache.partsOf key stored.headers stored.body) stored.policy stored.now preserved_identity
  have identity : preserved_identity.getD cache.next_identity ≠ 0 := by
    cases preserved_identity with
    | none => exact inv.named
    | some identity => exact given identity rfl
  have blank := (inv.slots slot).blank free
  have unheld := (inv.slots slot).unheld (by rw [blank])
  have describes : (Cache.newEntry (Cache.partsOf key stored.headers stored.body) stored.policy
      stored.now (preserved_identity.getD cache.next_identity) token serial).Describes stored :=
    newEntry_describes allowed _ token serial
  rw [filled]
  refine ⟨inv.limits_eq, fun index => ?_, inv.inside, ?_, room, ?_, next_ne⟩
  · dsimp only
    rw [Function.update_apply]
    split
    · next same =>
        subst same
        refine ⟨fun zero => absurd zero identity, ?_, fun item member same =>
          absurd same (unheld item member), fun other matched => ?_⟩
        · exact (blank_slot unheld).pins
        · obtain rfl := newEntry_matches matched
          exact ⟨stored, Function.update_self _ _ _, describes⟩
    · exact (inv.slots index).forget (unmatched index) _
  · have sum := sum_setEntry cache.entries slot
      (Cache.newEntry (Cache.partsOf key stored.headers stored.body) stored.policy stored.now
        (preserved_identity.getD cache.next_identity) token serial)
    have nothing : (cache.entries slot).data.length = 0 := by rw [blank]; rfl
    have bytes := inv.bytes
    simp only [Cache.newEntry] at sum ⊢
    omega
  · have was (other : Fin max_entries) {found : Key}
        (matched : (Function.update cache.entries slot (Cache.newEntry
          (Cache.partsOf key stored.headers stored.body) stored.policy stored.now
          (preserved_identity.getD cache.next_identity) token serial) other).matchesKey found = true) :
        other = slot ∧ found = key ∨
          found ≠ key ∧ (cache.entries other).matchesKey found = true := by
      by_cases same : other = slot
      · subst same
        rw [Function.update_self] at matched
        exact .inl ⟨rfl, newEntry_matches matched⟩
      · rw [Function.update_of_ne same] at matched
        refine .inr ⟨?_, matched⟩
        rintro rfl
        rw [unmatched] at matched
        cases matched
    intro first second found first_found second_found
    rcases was first first_found with ⟨rfl, same⟩ | ⟨different, first_was⟩
    · rcases was second second_found with ⟨rfl, -⟩ | ⟨different, -⟩
      · rfl
      · exact absurd same different
    · rcases was second second_found with ⟨-, same⟩ | ⟨-, second_was⟩
      · exact absurd same different
      · exact inv.unique first second found first_was second_was

theorem CacheInv.store (inv : CacheInv limits cache ledger) (stored : Stored)
    {preserved_identity : Option Nat} (given : ∀ identity ∈ preserved_identity, identity ≠ 0)
    (allocated : Bool) :
    CacheInv limits (cache.store key stored.headers stored.body stored.now stored.request_started_ms
        preserved_identity allocated).2
      { ledger with last := Function.update ledger.last key (some stored) } := by
  have forgotten : CacheInv limits (cache.invalidate key) ledger := inv.retireWhere _
  have unmatched := invalidate_unmatched cache key
  unfold Cache.store
  dsimp only
  split
  · exact forgotten.forget unmatched _
  next usable =>
  split
  · exact forgotten.forget unmatched _
  next sized =>
  split
  · exact forgotten.forget unmatched _
  have roomy : Roomy limits ledger key (Cache.partsOf key stored.headers stored.body).flatten.length
      (Cache.makeRoom (Cache.partsOf key stored.headers stored.body).flatten.length
        (max_entries + 1) (cache.invalidate key) none) :=
    makeRoom_roomy forgotten unmatched nofun
  have allowed : stored.policy.allowed = true := by
    simp only [not_or, Bool.not_eq_true, Bool.not_eq_false'] at usable
    exact usable.1
  split
  · next left found =>
      rw [found] at roomy
      exact roomy.inv.forget roomy.unmatched _
  · next slot left found =>
      rw [found] at roomy
      have room : left.bytes ≤ limits.total_bytes -
          (Cache.partsOf key stored.headers stored.body).flatten.length := roomy.room rfl
      have left_inv : CacheInv limits left ledger := roomy.inv
      rw [forgotten.limits_eq] at sized
      exact left_inv.fill roomy.unmatched (roomy.free slot rfl) (by omega) allowed given

end Invariant

/-- What calls can rely on. -/
structure Sound (limits : Limits) (cache : Cache) (ledger : Ledger) : Prop where
  bytes : cache.bytes =
    ∑ index, if (cache.entries index).identity ≠ 0 then (cache.entries index).data.length else 0
  budget : cache.bytes ≤ limits.total_bytes
  unique : ∀ first second key, (cache.entries first).matchesKey key = true →
    (cache.entries second).matchesKey key = true → first = second
  held : ∀ handle origin, (handle, origin) ∈ ledger.held → ∃ stored, origin = some stored ∧
    ∀ now, ∃ view, cache.view handle now = some view ∧ view.headers = stored.headers ∧
      view.body = stored.body
  released : ∀ handle, (∀ origin, (handle, origin) ∉ ledger.held) → ∀ now, cache.view handle now = none
  fresh : ∀ key now, (cache.lookup key .normal now).1.action = .hit →
    ∃ stored, ledger.last key = some stored ∧ stored.policy.allowed = true ∧
      stored.policy.validate = false ∧
      addSaturating stored.policy.age_ms (now.monotonic_ms - stored.now.monotonic_ms) <
        stored.policy.lifetime_ms

section Soundness

variable {limits : Limits} {cache : Cache} {ledger : Ledger}

theorem step_inv {before after : Cache × Ledger} (step : Step before after)
    (inv : CacheInv limits before.1 before.2) : CacheInv limits after.1 after.2 := by
  cases step with
  | store cache ledger key stored preserved_identity allocated given =>
    exact CacheInv.store inv stored given allocated
  | lookup cache ledger key mode now => exact CacheInv.lookup inv mode now
  | view cache ledger handle now => exact inv
  | release cache ledger item held => exact CacheInv.release inv held
  | invalidate cache ledger key | invalidateUrl cache ledger url => exact CacheInv.retireWhere inv _

theorem reachable_inv (reachable : Reachable limits cache ledger) : CacheInv limits cache ledger := by
  have every (state : Cache × Ledger)
      (run : Relation.ReflTransGen Step (Cache.init limits, ⟨[], fun _ => none⟩) state) :
      CacheInv limits state.1 state.2 := by
    induction run with
    | refl => exact init_inv limits
    | tail _ step induction => exact step_inv step induction
  exact every _ reachable

theorem CacheInv.fresh (inv : CacheInv limits cache ledger) {key : Key} {now : Clock}
    (hit : (cache.lookup key .normal now).1.action = .hit) :
    ∃ stored, ledger.last key = some stored ∧ stored.policy.allowed = true ∧
      stored.policy.validate = false ∧
      addSaturating stored.policy.age_ms (now.monotonic_ms - stored.now.monotonic_ms) <
        stored.policy.lifetime_ms := by
  unfold Cache.lookup at hit
  dsimp only at hit
  split at hit
  · next index found =>
      rw [if_pos (by decide)] at found
      obtain ⟨stored, last, describes⟩ := (inv.slots index).latest key (findEntry_matches found)
      refine ⟨stored, last, describes.allowed, ?_⟩
      rw [← describes.validate, ← describes.age, ← describes.lifetime, ← describes.stored_ms]
      by_cases stale : ((cache.entries index).validate ||
          decide ((cache.entries index).lifetime_ms ≤ (cache.entries index).age now.monotonic_ms)) = true
      · rw [stale] at hit
        cases hit
      · rw [Bool.or_eq_true, not_or, decide_eq_true_eq, Nat.not_le] at stale
        exact ⟨Bool.eq_false_iff.mpr stale.1, stale.2⟩
  · cases hit

end Soundness

def sampleKey : Key := ⟨ascii "a", [], []⟩

/-- A response that stays fresh for ten seconds. -/
def sampleStored : Stored := ⟨ascii "Cache-Control: max-age=10", ascii "one", ⟨0, none⟩, 0⟩

/-- A cache with one response. -/
def sampleCache : Cache :=
  ((Cache.init {}).store sampleKey sampleStored.headers sampleStored.body sampleStored.now
    sampleStored.request_started_ms none true).2

def sampleFirst : Lookup × Cache := sampleCache.lookup sampleKey .normal ⟨0, none⟩

def sampleSecond : Lookup × Cache := sampleFirst.2.lookup sampleKey .normal ⟨0, none⟩

theorem sampleFirst_reachable : Reachable {} sampleFirst.2 (Ledger.note ⟨[], Function.update
    (fun _ => none) sampleKey (some sampleStored)⟩ sampleKey sampleFirst.1) :=
  (Relation.ReflTransGen.single (.store _ _ sampleKey sampleStored none true nofun)).tail
    (.lookup _ _ sampleKey .normal ⟨0, none⟩)

/-- A cache that was told to keep an identity of zero. -/
def sampleZero : Cache :=
  ((Cache.init {}).store sampleKey sampleStored.headers sampleStored.body sampleStored.now
    sampleStored.request_started_ms (some 0) true).2

end R4OS.WebCache
