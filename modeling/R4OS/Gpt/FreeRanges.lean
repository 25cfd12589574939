import R4OS.Gpt.Partitions
import R4OS.Numeric.Runs
import R4OS.Selection.Least

/-!
# Free sectors of partition plans

The editing tools list the gaps between the partitions from left to right and put a new partition
into the first gap that has room behind an aligned sector.  The gaps are the maximal runs of free
sectors, and the place is the lowest one.
-/

namespace R4OS.Gpt

open Block Text Numeric

variable {Digest : Type}

/-- The first partition from a sector on. -/
def Plan.nextEntry (plan : Plan Digest) (cursor : Nat) : Option Entry :=
  Selection.least (fun entry => entry.present && cursor ≤ entry.first)
    (fun entry other => decide (entry.first < other.first)) plan.used

section Next

variable {plan : Plan Digest} {cursor : Nat} {entry : Entry}

theorem nextEntry_spec (plan : Plan Digest) (cursor : Nat) :
    Selection.LeastOf (fun entry => entry.present && cursor ≤ entry.first)
      (fun entry other => decide (entry.first < other.first)) plan.used
      (plan.nextEntry cursor) := by
  refine Selection.least_spec (fun entry => ?_) (fun first second third below above => ?_) plan.used
  · exact decide_eq_false (Nat.lt_irrefl _)
  · rw [decide_eq_true_eq] at below above ⊢
    exact below.trans above

theorem Plan.Sound.nextEntry (sound : plan.Sound) (found : plan.nextEntry cursor = some entry) :
    cursor ≤ entry.first ∧ 0 < entry.count ∧ entry.first + entry.count ≤ plan.last_usable + 1 := by
  obtain ⟨member, admissible⟩ := (nextEntry_spec plan cursor).member entry found
  rw [Bool.and_eq_true, decide_eq_true_eq] at admissible
  have entry_sound := sound.entries entry member admissible.1
  exact ⟨admissible.2, entry_sound.sized, entry_sound.last⟩

end Next

/-- List the gaps from a sector on, as long as there is room for them. -/
def Plan.rangesFrom (plan : Plan Digest) (sound : plan.Sound) (out_len cursor : Nat)
    (out : List Range) : Except Fault (List Range) :=
  if cursor ≤ plan.last_usable then
    match found : plan.nextEntry cursor with
    | some entry =>
      if cursor < entry.first then
        if out.length = out_len then .error .Capacity
        else plan.rangesFrom sound out_len (entry.first + entry.count)
          (out ++ [{ first := cursor, count := entry.first - cursor }])
      else plan.rangesFrom sound out_len (entry.first + entry.count) out
    | none =>
      if cursor < plan.last_usable + 1 then
        if out.length = out_len then .error .Capacity
        else .ok (out ++ [{ first := cursor, count := plan.last_usable + 1 - cursor }])
      else .ok out
  else .ok out
termination_by plan.last_usable + 1 - cursor
decreasing_by
  · have advances := sound.nextEntry found
    omega
  · have advances := sound.nextEntry found
    omega

/-- The gaps of a plan. -/
def Plan.freeRanges (plan : Plan Digest) (out_len : Nat) : Except Fault (List Range) :=
  match checked : plan.validate with
  | .error fault => .error fault
  | .ok () => plan.rangesFrom (Plan.validate_eq_ok.mp checked) out_len plan.first_usable []

/-- The lowest aligned sector with a number of free sectors behind it. -/
def Plan.firstFit (plan : Plan Digest) (count : Nat) : Except Fault Nat :=
  if count = 0 then .error .Geometry
  else do
    let ranges ← plan.freeRanges (max_entries + 1)
    let fitting := ranges.findSome? fun range =>
      let first := alignForward alignment_sectors range.first
      let skipped := first - range.first
      if skipped ≤ range.count ∧ count ≤ range.count - skipped then some first else none
    fitting.elim (.error .NoSpace) .ok

/-- A usable sector that no partition takes. -/
def Plan.Free (plan : Plan Digest) (sector : Nat) : Prop :=
  plan.first_usable ≤ sector ∧ sector ≤ plan.last_usable ∧
    ∀ slot entry, plan.partition slot = some entry →
      ¬(entry.first ≤ sector ∧ sector < entry.first + entry.count)

/-- A sector that no partition crosses and no gap reaches from the left. -/
structure Plan.Boundary (plan : Plan Digest) (cursor : Nat) : Prop where
  usable : plan.first_usable ≤ cursor
  crossed : ∀ slot entry, plan.partition slot = some entry → entry.first < cursor →
    entry.first + entry.count ≤ cursor
  opens : ∀ place, place + 1 = cursor → ¬plan.Free place

/-- A range as its first sector and the sector behind it. -/
def Range.span (range : Range) : Nat × Nat := (range.first, range.first + range.count)

/-- The slots of the partitions from a sector on. -/
def Plan.slotsFrom (plan : Plan Digest) (cursor : Nat) : Finset (Fin max_entries) :=
  Finset.univ.filter fun slot => (plan.partition slot).any fun entry => cursor ≤ entry.first

section Gaps

variable {plan : Plan Digest} {cursor : Nat} {entry : Entry}

theorem nextEntry_some (sound : plan.Sound) (found : plan.nextEntry cursor = some entry) :
    ∃ slot, plan.partition slot = some entry ∧ cursor ≤ entry.first ∧
      ∀ place other, plan.partition place = some other → cursor ≤ other.first →
        entry.first ≤ other.first := by
  have spec := nextEntry_spec plan cursor
  obtain ⟨member, admissible⟩ := spec.member entry found
  rw [Bool.and_eq_true, decide_eq_true_eq] at admissible
  have below := (Plan.forall_used_iff sound.capacity).mp fun other member present =>
    fun behind : cursor ≤ other.first => Nat.le_of_not_lt (of_decide_eq_false
      (spec.below entry found other member
        (by rw [present, Bool.true_and]; exact decide_eq_true behind)))
  obtain ⟨slot, placed⟩ := Plan.exists_partition sound.capacity member admissible.1
  exact ⟨slot, placed, admissible.2, below⟩

theorem nextEntry_none (sound : plan.Sound) (missing : plan.nextEntry cursor = none) :
    ∀ slot other, plan.partition slot = some other → other.first < cursor :=
  (Plan.forall_used_iff sound.capacity).mp fun other member present => by
    have refused := (nextEntry_spec plan cursor).absent missing other member
    rw [present, Bool.true_and, decide_eq_false_iff_not] at refused
    exact Nat.lt_of_not_le refused

theorem Plan.Boundary.free (boundary : plan.Boundary cursor) {stop sector : Nat}
    (before : ∀ slot other, plan.partition slot = some other → cursor ≤ other.first →
      stop ≤ other.first) (last : stop ≤ plan.last_usable + 1) (above : cursor ≤ sector)
    (below : sector < stop) : plan.Free sector := by
  refine ⟨boundary.usable.trans above, by omega, fun slot other placed inside => ?_⟩
  rcases Nat.lt_or_ge other.first cursor with behind | ahead
  · have ends := boundary.crossed slot other placed behind
    omega
  · have starts := before slot other placed ahead
    omega

theorem Plan.Boundary.maximalRun (boundary : plan.Boundary cursor) {stop : Nat}
    (before : ∀ slot other, plan.partition slot = some other → cursor ≤ other.first →
      stop ≤ other.first) (last : stop ≤ plan.last_usable + 1) (gap : cursor < stop)
    (closes : ¬plan.Free stop) : MaximalRun plan.Free cursor stop :=
  ⟨gap, fun _ above below => boundary.free before last above below, boundary.opens, closes⟩

theorem Plan.Boundary.next {slot : Fin max_entries} (boundary : plan.Boundary cursor)
    (sound : plan.Sound) (placed : plan.partition slot = some entry) (ahead : cursor ≤ entry.first)
    (leftmost : ∀ place other, plan.partition place = some other → cursor ≤ other.first →
      entry.first ≤ other.first) : plan.Boundary (entry.first + entry.count) := by
  obtain ⟨-, -, -, -, each, pairs⟩ := Plan.sound_iff.mp sound
  refine ⟨(boundary.usable.trans ahead).trans (Nat.le_add_right _ _),
    fun place other other_placed before => ?_, fun sector last free => ?_⟩
  · rcases Nat.lt_or_ge other.first cursor with behind | beyond
    · have ends := boundary.crossed place other other_placed behind
      omega
    · have starts := leftmost place other other_placed beyond
      have sized := (each place other other_placed).sized
      rcases lt_trichotomy place slot with earlier | same | later
      · have apart := (pairs place slot earlier other entry other_placed placed).apart
        omega
      · rw [same, placed, Option.some.injEq] at other_placed
        rw [other_placed]
      · have apart := (pairs slot place later entry other placed other_placed).apart
        omega
  · have sized := (each slot entry placed).sized
    exact free.2.2 slot entry placed ⟨by omega, by omega⟩

theorem Plan.slotsFrom_lt {slot : Fin max_entries} {later : Nat}
    (placed : plan.partition slot = some entry) (ahead : cursor ≤ entry.first)
    (passed : entry.first < later) (advances : cursor ≤ later) :
    (plan.slotsFrom later).card < (plan.slotsFrom cursor).card := by
  refine Finset.card_lt_card ⟨fun place member => ?_, fun reversed => ?_⟩
  · rw [slotsFrom, Finset.mem_filter, Option.any_eq_true] at member ⊢
    obtain ⟨-, other, other_placed, beyond⟩ := member
    rw [decide_eq_true_eq] at beyond
    exact ⟨Finset.mem_univ _, other, other_placed, decide_eq_true (advances.trans beyond)⟩
  · have member : slot ∈ plan.slotsFrom cursor := by
      rw [slotsFrom, Finset.mem_filter, placed]
      exact ⟨Finset.mem_univ _, decide_eq_true ahead⟩
    have kept := reversed member
    rw [slotsFrom, Finset.mem_filter, placed, Option.any_some, decide_eq_true_eq] at kept
    omega

/-- What a scan from a sector on lists. -/
structure Plan.Gaps (plan : Plan Digest) (sound : plan.Sound) (cursor : Nat)
    (gaps : List Range) : Prop where
  runs : RunsFrom plan.Free cursor (gaps.map Range.span)
  length : gaps.length ≤ (plan.slotsFrom cursor).card + 1
  scanned : ∀ out_len out, out.length ≤ out_len → plan.rangesFrom sound out_len cursor out =
    if out.length + gaps.length ≤ out_len then .ok (out ++ gaps) else .error .Capacity

theorem not_free_beyond {sector : Nat} (beyond : plan.last_usable < sector) : ¬plan.Free sector :=
  fun free => absurd free.2.1 (Nat.not_le_of_lt beyond)

section

variable (sound : plan.Sound)

include sound

theorem gaps_beyond (beyond : plan.last_usable < cursor) :
    plan.Gaps sound cursor [] where
  runs := RunsFrom.nil fun _ above => not_free_beyond (beyond.trans_le above)
  length := Nat.zero_le _
  scanned out_len out room := by
    rw [Plan.rangesFrom, if_neg (Nat.not_le_of_lt beyond), if_pos (by simpa using room),
      List.append_nil]

theorem gaps_last (boundary : plan.Boundary cursor)
    (inside : cursor ≤ plan.last_usable) (missing : plan.nextEntry cursor = none) :
    plan.Gaps sound cursor [{ first := cursor, count := plan.last_usable + 1 - cursor }] where
  runs := by
    have whole : cursor + (plan.last_usable + 1 - cursor) = plan.last_usable + 1 := by omega
    rw [List.map_singleton, Range.span, whole]
    refine RunsFrom.cons (boundary.maximalRun (fun slot other placed ahead => ?_) le_rfl
      (Nat.lt_succ_of_le inside) (not_free_beyond (Nat.lt_succ_self _)))
      (RunsFrom.nil fun _ above => not_free_beyond above)
    exact absurd ahead (Nat.not_le_of_lt (nextEntry_none sound missing slot other placed))
  length := Nat.le_add_left _ _
  scanned out_len out room := by
    rw [Plan.rangesFrom, if_pos inside]
    split
    · next entry found => rw [missing] at found; cases found
    · rw [if_pos (Nat.lt_succ_of_le inside), List.length_singleton]
      split_ifs with full fits fits
      · omega
      · rfl
      · rfl
      · omega

theorem gaps_skip (found : plan.nextEntry cursor = some entry)
    (adjacent : entry.first ≤ cursor) {gaps : List Range}
    (later : plan.Gaps sound (entry.first + entry.count) gaps) : plan.Gaps sound cursor gaps := by
  obtain ⟨slot, placed, ahead, -⟩ := nextEntry_some sound found
  obtain ⟨-, sized, last⟩ := sound.nextEntry found
  refine ⟨later.runs.skip (by omega) fun sector above below free => ?_, ?_,
    fun out_len out room => ?_⟩
  · exact free.2.2 slot entry placed ⟨by omega, below⟩
  · have fewer := Plan.slotsFrom_lt placed ahead (Nat.lt_add_of_pos_right sized) (by omega)
    have bound := later.length
    omega
  · rw [Plan.rangesFrom, if_pos (by omega)]
    split
    · next next_entry next_found =>
      obtain rfl := Option.some.inj (found.symm.trans next_found)
      rw [if_neg (Nat.not_lt_of_le adjacent)]
      exact later.scanned out_len out room
    · next missing => rw [found] at missing; cases missing

theorem gaps_cons (boundary : plan.Boundary cursor)
    (found : plan.nextEntry cursor = some entry) (apart : cursor < entry.first) {gaps : List Range}
    (later : plan.Gaps sound (entry.first + entry.count) gaps) :
    plan.Gaps sound cursor ({ first := cursor, count := entry.first - cursor } :: gaps) := by
  obtain ⟨slot, placed, ahead, leftmost⟩ := nextEntry_some sound found
  obtain ⟨-, sized, last⟩ := sound.nextEntry found
  have taken : ∀ sector, entry.first ≤ sector → sector < entry.first + entry.count →
      ¬plan.Free sector :=
    fun sector above below free => free.2.2 slot entry placed ⟨above, below⟩
  refine ⟨?_, ?_, fun out_len out room => ?_⟩
  · have whole : cursor + (entry.first - cursor) = entry.first := by omega
    rw [List.map_cons, Range.span, whole]
    exact RunsFrom.cons (boundary.maximalRun leftmost (by omega) apart
      (taken _ le_rfl (Nat.lt_add_of_pos_right sized)))
      (later.runs.skip (Nat.le_add_right _ _) taken)
  · have fewer := Plan.slotsFrom_lt placed ahead (Nat.lt_add_of_pos_right sized) (by omega)
    have bound := later.length
    rw [List.length_cons]
    omega
  · rw [Plan.rangesFrom, if_pos (by omega)]
    split
    · next next_entry next_found =>
      obtain rfl := Option.some.inj (found.symm.trans next_found)
      rw [if_pos apart, List.length_cons]
      split_ifs with full fits fits
      · omega
      · rfl
      · rw [later.scanned out_len _ (by rw [List.length_append, List.length_singleton]; omega),
          if_pos (by rw [List.length_append, List.length_singleton]; omega), List.append_assoc]
        rfl
      · rw [later.scanned out_len _ (by rw [List.length_append, List.length_singleton]; omega),
          if_neg (by rw [List.length_append, List.length_singleton]; omega)]
    · next missing => rw [found] at missing; cases missing

theorem exists_gaps (room : Nat) : ∀ {cursor},
    plan.last_usable + 1 - cursor ≤ room → plan.Boundary cursor →
    ∃ gaps, plan.Gaps sound cursor gaps := by
  induction room with
  | zero =>
    intro cursor left boundary
    exact ⟨[], gaps_beyond sound (by omega)⟩
  | succ room induction =>
    intro cursor left boundary
    rcases Nat.lt_or_ge plan.last_usable cursor with beyond | inside
    · exact ⟨[], gaps_beyond sound beyond⟩
    cases found : plan.nextEntry cursor with
    | none => exact ⟨_, gaps_last sound boundary inside found⟩
    | some entry =>
      obtain ⟨slot, placed, ahead, leftmost⟩ := nextEntry_some sound found
      obtain ⟨-, sized, last⟩ := sound.nextEntry found
      obtain ⟨gaps, later⟩ := induction (by omega) (boundary.next sound placed ahead leftmost)
      rcases Nat.lt_or_ge cursor entry.first with apart | adjacent
      · exact ⟨_, gaps_cons sound boundary found apart later⟩
      · exact ⟨gaps, gaps_skip sound found adjacent later⟩

theorem boundary_first_usable : plan.Boundary plan.first_usable := by
  obtain ⟨-, -, -, -, each, -⟩ := Plan.sound_iff.mp sound
  refine ⟨le_rfl, fun slot entry placed before => ?_, fun place last free => ?_⟩
  · have starts := (each slot entry placed).first
    omega
  · have above := free.1
    omega

end

/-- A sector where a new partition may start: it is aligned, and its sectors are in one gap. -/
def Plan.Fits (plan : Plan Digest) (count start : Nat) : Prop :=
  alignment_sectors ∣ start ∧ ∃ first stop, MaximalRun plan.Free first stop ∧ first ≤ start ∧
    start + count ≤ stop

theorem findSome?_firstRoom (ranges : List Range) (count : Nat) :
    (ranges.findSome? fun range =>
      let first := alignForward alignment_sectors range.first
      let skipped := first - range.first
      if skipped ≤ range.count ∧ count ≤ range.count - skipped then some first else none) =
      firstRoom (ranges.map Range.span) alignment_sectors count := by
  rw [firstRoom, List.findSome?_map]
  congr 1
  funext range
  have above := @le_alignForward alignment_sectors (by decide) range.first
  refine if_congr ?_ rfl rfl
  dsimp [Range.span]
  omega

theorem mem_map_span {ranges : List Range} {range : Range} :
    range.span ∈ ranges.map Range.span ↔ range ∈ ranges := by
  refine List.mem_map_of_injective fun first second same => ?_
  obtain ⟨starts, ends⟩ := Prod.mk.inj same
  obtain ⟨first, count⟩ := first
  obtain ⟨other, other_count⟩ := second
  rw [Range.mk.injEq]
  exact ⟨starts, by dsimp only at starts ends; omega⟩

theorem fits_iff_room {ranges : List Range}
    (runs : RunsFrom plan.Free plan.first_usable (ranges.map Range.span)) {count start : Nat} :
    plan.Fits count start ↔ Room (ranges.map Range.span) alignment_sectors count start := by
  refine and_congr_right fun _ => ⟨fun fits => ?_, fun fits => ?_⟩
  · obtain ⟨first, stop, maximal, above, room⟩ := fits
    have usable := (maximal.inside first le_rfl maximal.nonempty).1
    exact ⟨(first, stop), (runs.complete _).mpr ⟨maximal, usable⟩, above, room⟩
  · obtain ⟨run, member, above, room⟩ := fits
    exact ⟨run.1, run.2, ((runs.complete run).mp member).1, above, room⟩

/-- The gaps are the maximal runs of free sectors in their order, and a new partition goes to the
lowest aligned sector with enough of them. -/
theorem freeRanges_firstFit (valid : plan.validate = .ok ()) :
    (∃ ranges : List Range,
      (∀ range, range ∈ ranges ↔
        MaximalRun plan.Free range.first (range.first + range.count)) ∧
      (ranges.Pairwise fun range later => range.first + range.count < later.first) ∧
      ranges.length ≤ max_entries + 1 ∧
      ∀ out_len, plan.freeRanges out_len =
        if ranges.length ≤ out_len then .ok ranges else .error .Capacity) ∧
    ∀ count, 0 < count →
      (∀ start, plan.firstFit count = .ok start ↔
        IsLeast { place | plan.Fits count place } start) ∧
      (plan.firstFit count = .error .NoSpace ↔ ∀ start, ¬plan.Fits count start) := by
  have sound := Plan.validate_eq_ok.mp valid
  obtain ⟨ranges, gaps⟩ := exists_gaps sound _ le_rfl (boundary_first_usable sound)
  have listed (out_len : Nat) : plan.freeRanges out_len =
      if ranges.length ≤ out_len then .ok ranges else .error .Capacity := by
    rw [Plan.freeRanges]
    split
    · next fault checked => rw [valid] at checked; cases checked
    · rw [gaps.scanned out_len [] (Nat.zero_le _), List.length_nil, Nat.zero_add, List.nil_append]
  have room : ranges.length ≤ max_entries + 1 :=
    gaps.length.trans (Nat.succ_le_succ ((Finset.card_le_univ _).trans_eq (Fintype.card_fin _)))
  refine ⟨⟨ranges, fun range => ?_, ?_, room, listed⟩, fun count positive => ?_⟩
  · rw [← mem_map_span, gaps.runs.complete]
    exact and_iff_left_of_imp fun maximal =>
      (maximal.inside range.first le_rfl maximal.nonempty).1
  · exact List.pairwise_map.mp gaps.runs.ordered
  · have search : plan.firstFit count =
        (firstRoom (ranges.map Range.span) alignment_sectors count).elim (.error .NoSpace) .ok := by
      rw [Plan.firstFit, if_neg positive.ne', listed, if_pos room, ← findSome?_firstRoom]
      rfl
    have least : alignment_sectors > 0 := by decide
    rw [search]
    simp only [fits_iff_room gaps.runs]
    cases found : firstRoom (ranges.map Range.span) alignment_sectors count with
    | none =>
      have nowhere := (firstRoom_eq_none least).mp found
      refine ⟨fun start => iff_of_false (by rintro ⟨⟩) fun lowest => ?_, iff_of_true rfl nowhere⟩
      exact nowhere start lowest.1
    | some first =>
      have lowest := firstRoom_isLeast least gaps.runs.ordered found
      refine ⟨fun start => ⟨fun same => ?_, fun other => ?_⟩, iff_of_false (by rintro ⟨⟩) ?_⟩
      · exact Except.ok.inj same ▸ lowest
      · exact congrArg Except.ok (lowest.unique other)
      · exact fun nowhere => nowhere first lowest.1

/-- A boot record with two partitions, the later one in the first slot. -/
def twoPartitions : Plan Unit where
  sectors := 100000
  kind := .mbr
  last_usable := 99999
  entry_count := 4
  entries := ((Vector.replicate max_entries {}).setIfInBounds 0
    { present := true, first := 8192, count := 4096, mbr_type := 7 }).setIfInBounds 2
    { present := true, first := 2048, count := 1000, mbr_type := 7 }

theorem freeRanges_firstFit_sample :
    (twoPartitions.firstFit 5000 = .ok 12288 ↔
      IsLeast { place | twoPartitions.Fits 5000 place } 12288) :=
  ((@freeRanges_firstFit _ twoPartitions (by decide +kernel)).2 5000 (by decide)).1 12288

/-- No place is looked up for a partition without sectors. -/
theorem firstFit_zero : twoPartitions.validate = .ok () ∧
    twoPartitions.firstFit 0 = .error .Geometry ∧
    twoPartitions.firstFit 0 ≠ .error .NoSpace ∧
    ∀ start, twoPartitions.firstFit 0 ≠ .ok start := by
  refine ⟨by decide +kernel, rfl, by rintro ⟨⟩, by rintro start ⟨⟩⟩

end Gaps

end R4OS.Gpt
