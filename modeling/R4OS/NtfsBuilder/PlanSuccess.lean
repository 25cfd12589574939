import R4OS.NtfsBuilder.UserRecords

/-!
# Prepared volumes

A tree that fits the volume is prepared exactly when every record of a user holds its name and its
content.
-/

namespace R4OS.NtfsBuilder

open Text Block NtfsFormat
open CLayout (alignUp)
open Update.Batch (eqlIgnoreCase)

/-- A segment within a volume. -/
structure Segment.Inside (bytes : Nat) (segment : Segment) : Prop where
  aligned : segment.offset % 512 = 0
  start : segment.offset < bytes
  stop : segment.offset + segment.data.length ≤ bytes

def Plan.holding (plan : Plan) (segments : List Segment) : Plan :=
  { plan with segments := segments }

section Segments

variable {plan : Plan} {segment : Segment} {held segments : List Segment}

theorem checkSegment_ok {offset length : Nat} (aligned : offset % 512 = 0)
    (start : offset < plan.bytes) (stop : offset + length ≤ plan.bytes) :
    plan.checkSegment offset length = .ok () := by
  rw [Plan.checkSegment, if_neg (by omega)]

theorem addAll_ok (inside : ∀ segment ∈ segments, segment.Inside plan.bytes) :
    (plan.holding held).addAll segments = .ok (plan.holding (held ++ segments)) := by
  induction segments generalizing held with
  | nil => rw [Plan.addAll, List.append_nil]
  | cons segment rest induction =>
    rw [List.forall_mem_cons] at inside
    have checked : (plan.holding held).checkSegment segment.offset segment.data.length = .ok () :=
      checkSegment_ok inside.1.aligned inside.1.start inside.1.stop
    rw [Plan.addAll, Plan.add, checked]
    have later := @induction (held ++ [segment]) inside.2
    rw [List.append_assoc] at later
    exact later

theorem checkSegments_ok (inside : ∀ segment ∈ segments, segment.Inside plan.bytes) :
    plan.checkSegments segments = .ok () := by
  induction segments with
  | nil => rfl
  | cons segment rest induction =>
    rw [List.forall_mem_cons] at inside
    rw [Plan.checkSegments, checkSegment_ok inside.1.aligned inside.1.start inside.1.stop]
    exact induction inside.2

theorem validate_ok (regular : plan.Regular)
    (inside : ∀ segment ∈ plan.segments, segment.Inside plan.bytes) : plan.validate = .ok () := by
  rw [Plan.validate, if_pos regular]
  exact checkSegments_ok inside

end Segments

section Templates

variable {record : Bytes}

theorem emitTemplateIndx_ok {plan : Plan} {held : List Segment} {lcn : Nat} {restored : Bytes}
    {owned : Bool} (applied : applyFixups record = .ok restored)
    (inside : Segment.Inside plan.bytes ⟨lcn * CLUSTER, record, owned⟩) :
    ∃ segment : Segment, emitTemplateIndx (plan.holding held) lcn record =
        .ok (plan.holding (held ++ [segment])) ∧ segment.Inside plan.bytes := by
  obtain ⟨header, length⟩ := applyFixups_header applied
  have checked : (plan.holding held).checkSegment (lcn * CLUSTER) record.length = .ok () :=
    checkSegment_ok inside.aligned inside.start inside.stop
  have admitted : ∃ sectors, fixupSectors record = .ok sectors := by
    unfold applyFixups at applied
    split at applied
    · cases applied
    · next sectors admitted => exact ⟨sectors, admitted⟩
  obtain ⟨sectors, admitted⟩ := admitted
  have whole := fixupSectors_ok admitted
  have long : 0x10 ≤ restored.length := by
    rw [length, whole.1]
    unfold SECTOR_SIZE
    omega
  have word : 0x08 + (leBytes 8 0).length ≤ restored.length := by
    rw [leBytes_length]
    exact long
  have cleared : fixupSectors (put restored 0x08 (leBytes 8 0)) = .ok sectors := by
    rw [← admitted, ← header]
    unfold fixupSectors usaCount usaOffset
    rw [put_length word, readLe_put_other word (.inl (by decide)),
      readLe_put_other word (.inl (by decide))]
  cases installed : installFixups (put restored 0x08 (leBytes 8 0)) 0 with
  | error error =>
    rw [installFixups, cleared] at installed
    cases installed
  | ok block =>
    have block_length : block.length = record.length :=
      (installFixups_length installed).trans ((put_length word).trans length)
    rw [emitTemplateIndx, checked, applied]
    dsimp only
    rw [installed]
    exact ⟨⟨lcn * CLUSTER, block, true⟩, rfl, inside.aligned, inside.start,
      block_length.symm ▸ inside.stop⟩

end Templates

/-- Templates of which the blocks have fixups and the records fit. -/
structure Builder.SystemFits (builder : Builder) : Prop where
  sdh : ∃ restored, applyFixups builder.info.sdh_alloc = .ok restored
  sii : ∃ restored, applyFixups builder.info.sii_alloc = .ok restored
  records : ∀ layout, builder.takeLayout = .ok layout →
    ∀ spec ∈ builder.systemRecords layout.system (rootIndex layout.nodes),
      ∃ bytes, spec.build = .ok bytes

/-- A builder with checked parameters, and a volume that has the clusters for its tree. -/
structure Builder.Accepts (builder : Builder) : Prop where
  parameters : builder.checkParameters = .ok ()
  large : 4096 ≤ builder.totalClusters
  few : builder.mftRecords ≤ 4096
  room : builder.neededClusters ≤ builder.totalClusters

structure Parameters (builder : Builder) : Prop where
  bytes : 16 * 1024 * 1024 ≤ builder.total_bytes
  sectors : builder.total_bytes % 512 = 0
  upcase : builder.info.upcase.length = UPCASE_BYTES
  attrdef : 0 < builder.info.attrdef.length ∧ builder.info.attrdef.length ≤ CLUSTER
  sds : 0 < builder.info.sds_prefix.length ∧ builder.info.sds_prefix.length ≤ 0x40000
  sdh : builder.info.sdh_alloc.length = INDEX_BLOCK
  sii : builder.info.sii_alloc.length = INDEX_BLOCK

section Volumes

variable {builder : Builder} {layout : Layout}

theorem parameters_of (checked : builder.checkParameters = .ok ()) : Parameters builder := by
  unfold Builder.checkParameters at checked
  split at checked
  · cases checked
  next geometry =>
  split at checked
  · cases checked
  split at checked
  · cases checked
  split at checked
  · cases checked
  next info =>
  unfold SECTOR at geometry
  simp only [not_or, not_not, Nat.not_lt] at geometry info
  obtain ⟨upcase, no_attrdef, attrdef, no_sds, sds, sdh, sii⟩ := info
  exact ⟨geometry.1, geometry.2, upcase, ⟨Nat.pos_of_ne_zero no_attrdef, attrdef⟩,
    ⟨Nat.pos_of_ne_zero no_sds, sds⟩, sdh, sii⟩

theorem totalClusters_bytes (parameters : Parameters builder) :
    builder.totalClusters * 4096 + 512 ≤ builder.total_bytes := by
  have large := parameters.bytes
  have sectors := parameters.sectors
  unfold Builder.totalClusters Builder.totalSectors SECTOR CLUSTER
  omega

theorem sum_take_le {sizes : List Nat} {place size : Nat} (found : sizes[place]? = some size) :
    (sizes.take place).sum + size ≤ sizes.sum := by
  induction sizes generalizing place with
  | nil => cases found
  | cons head rest induction =>
    cases place with
    | zero =>
      cases found
      rw [List.take_zero, List.sum_nil, List.sum_cons]
      omega
    | succ place =>
      have later := induction found
      rw [List.take_succ_cons, List.sum_cons, List.sum_cons]
      omega

theorem indexBlocksFrom_getElem? {nodes : List Node} {first place : Nat} {node : Node}
    (found : nodes[place]? = some node) :
    (builder.indexBlocksFrom first nodes)[place]? =
      some (builder.indexBlocks (first + place) node) := by
  induction nodes generalizing first place with
  | nil => cases found
  | cons head rest induction =>
    rw [Builder.indexBlocksFrom]
    cases place with
    | zero =>
      cases found
      rfl
    | succ place =>
      rw [List.getElem?_cons_succ, @induction (first + 1) place found]
      congr 2
      omega

theorem indexStart_le (room : builder.neededClusters ≤ builder.totalClusters) {place : Nat}
    {node : Node} (found : builder.nodes[place]? = some node) :
    builder.indexStart place + builder.indexBlocks place node ≤ builder.totalClusters := by
  have blocks := @indexBlocksFrom_getElem? builder _ 0 place node found
  rw [Nat.zero_add] at blocks
  have sum := sum_take_le blocks
  unfold Builder.neededClusters at room
  unfold Builder.indexStart
  omega

theorem LaidOut.node_of (laid : LaidOut builder layout) {place : Nat} {placed : Node}
    (found : layout.nodes[place]? = some placed) :
    ∃ node, builder.nodes[place]? = some node ∧ PlacedNode builder place node placed := by
  have inside := (List.getElem?_eq_some_iff.mp found).1
  rw [laid.length] at inside
  obtain ⟨other, other_found, at_place⟩ :=
    laid.nodes place _ (List.getElem?_eq_getElem inside)
  rw [found] at other_found
  cases other_found
  exact ⟨_, List.getElem?_eq_getElem inside, at_place⟩

/-- What fits clusters of a volume is within the volume. -/
theorem inside_of_clusters (parameters : Parameters builder) {lcn clusters : Nat} {data : Bytes}
    {owned : Bool} (fits : data.length ≤ clusters * 4096)
    (room : lcn + clusters ≤ builder.totalClusters) :
    Segment.Inside builder.total_bytes ⟨lcn * CLUSTER, data, owned⟩ := by
  have total := totalClusters_bytes parameters
  generalize builder.totalClusters = total_clusters at room total
  generalize builder.total_bytes = bytes at total ⊢
  have aligned : lcn * 4096 % 512 = 0 := by omega
  have stop : lcn * 4096 + data.length + 512 ≤ bytes := calc
    lcn * 4096 + data.length + 512 ≤ lcn * 4096 + clusters * 4096 + 512 :=
      Nat.add_le_add_right (Nat.add_le_add_left fits _) _
    _ = (lcn + clusters) * 4096 + 512 := by rw [Nat.add_mul]
    _ ≤ total_clusters * 4096 + 512 := Nat.add_le_add_right (Nat.mul_le_mul_right _ room) _
    _ ≤ bytes := total
  have start : lcn * 4096 < bytes := by omega
  exact ⟨aligned, start, (Nat.le_add_right _ 512).trans stop⟩

theorem dataSegments_inside (parameters : Parameters builder) (laid : LaidOut builder layout) :
    ∀ segment ∈ dataSegments layout.nodes.tail, segment.Inside builder.total_bytes := by
  intro segment member
  obtain ⟨placed, filtered, rfl⟩ := List.mem_map.mp member
  obtain ⟨inside, chosen⟩ := List.mem_filter.mp filtered
  simp only [Bool.and_eq_true, Bool.not_eq_true', bne_iff_ne, ne_eq] at chosen
  obtain ⟨place, found⟩ := List.mem_iff_getElem?.mp (List.mem_of_mem_tail inside)
  obtain ⟨node, original, at_place⟩ := laid.node_of found
  have same := at_place.same
  have clusters : placed.data_clusters = node.neededClusters := by rw [same]
  have data : placed.data = node.data := by rw [same]
  rw [clusters] at chosen
  have room := at_place.inside chosen.2
  have needed : node.data.length ≤ node.neededClusters * 4096 := by
    have some_needed := chosen.2
    unfold Node.neededClusters CLUSTER at some_needed ⊢
    split at some_needed
    · exact absurd rfl some_needed
    · next large =>
      rw [if_neg large]
      omega
  exact inside_of_clusters parameters (data ▸ needed) room

theorem indexSegments_inside (parameters : Parameters builder) (laid : LaidOut builder layout)
    (room : builder.neededClusters ≤ builder.totalClusters) :
    ∀ segment ∈ indexSegments layout.nodes, segment.Inside builder.total_bytes := by
  intro segment member
  obtain ⟨placed, filtered, rfl⟩ := List.mem_map.mp member
  obtain ⟨inside, chosen⟩ := List.mem_filter.mp filtered
  simp only [Bool.and_eq_true, bne_iff_ne, ne_eq] at chosen
  obtain ⟨place, found⟩ := List.mem_iff_getElem?.mp inside
  obtain ⟨node, original, at_place⟩ := laid.node_of found
  have same := at_place.same
  have directory : node.is_dir = true := by
    rw [← chosen.1, same]
  have index := at_place.index directory
  obtain ⟨-, lcn, length⟩ := index.blocks chosen.2
  have within := indexStart_le room original
  rw [Builder.indexBlocks, if_pos directory, ← index.count] at within
  have size : (placed.index.blocks.take (placed.index.block_count * INDEX_BLOCK)).length =
      placed.index.block_count * 4096 := by
    rw [List.length_take, length, Nat.min_self]
    rfl
  rw [lcn]
  exact inside_of_clusters parameters size.le within

theorem systemClusters_le (room : builder.neededClusters ≤ builder.totalClusters) :
    552 + builder.bitmapClusters + builder.sdsClusters + builder.mftClusters ≤
      builder.totalClusters := by
  unfold Builder.neededClusters Builder.systemClusters at room
  omega

theorem sdsClusters_cover (builder : Builder) :
    builder.info.sds_prefix.length + 64 * 4096 ≤ builder.sdsClusters * 4096 := by
  have aligned : builder.info.sds_prefix.length ≤ alignUp builder.info.sds_prefix.length 4 := by
    unfold alignUp
    omega
  unfold Builder.sdsClusters Builder.sdsData CLUSTER
  omega

theorem systemSegments_inside (parameters : Parameters builder)
    (room : builder.neededClusters ≤ builder.totalClusters)
    (system : layout.system = builder.systemLayout) :
    ∀ segment ∈ builder.systemSegments layout.system, segment.Inside builder.total_bytes := by
  have clusters := systemClusters_le room
  have cover := sdsClusters_cover builder
  have second : layout.system.lcn_sds * CLUSTER + 0x40000 =
      (layout.system.lcn_sds + 64) * CLUSTER := by
    rw [Nat.add_mul]
    rfl
  rw [Builder.systemSegments, second, system, List.forall_mem_cons, List.forall_mem_cons,
    List.forall_mem_cons, List.forall_mem_singleton]
  dsimp [Builder.systemLayout]
  refine ⟨?_, ?_, ?_, ?_⟩
  · exact @inside_of_clusters builder parameters _ 1 _ _ parameters.attrdef.2 (by omega)
  · exact @inside_of_clusters builder parameters _ 32 _ _ parameters.upcase.le (by omega)
  · exact @inside_of_clusters builder parameters _ builder.sdsClusters _ _ (by omega) (by omega)
  · exact @inside_of_clusters builder parameters _ (builder.sdsClusters - 64) _ _ (by omega)
      (by omega)

theorem addSegments_ok (parameters : Parameters builder)
    (room : builder.neededClusters ≤ builder.totalClusters) (fits : builder.SystemFits)
    (laid : LaidOut builder layout) :
    ∃ segments, builder.addSegments layout = .ok ((builder.emptyPlan layout).holding segments) ∧
      ∀ segment ∈ segments, segment.Inside builder.total_bytes := by
  have clusters := systemClusters_le room
  have system_inside := systemSegments_inside parameters room laid.system
  have data_inside := dataSegments_inside parameters laid
  have index_inside := indexSegments_inside parameters laid room
  obtain ⟨sdh_block, sdh⟩ := fits.sdh
  obtain ⟨sii_block, sii⟩ := fits.sii
  have sdh_room : Segment.Inside builder.total_bytes
      ⟨layout.system.lcn_sdh * CLUSTER, builder.info.sdh_alloc, true⟩ := by
    rw [laid.system]
    exact @inside_of_clusters builder parameters _ 1 _ _ parameters.sdh.le
      (by dsimp only [Builder.systemLayout]; omega)
  have sii_room : Segment.Inside builder.total_bytes
      ⟨layout.system.lcn_sii * CLUSTER, builder.info.sii_alloc, true⟩ := by
    rw [laid.system]
    exact @inside_of_clusters builder parameters _ 1 _ _ parameters.sii.le
      (by dsimp only [Builder.systemLayout]; omega)
  unfold Builder.addSegments
  simp only [bind, Except.bind]
  generalize builder.systemSegments layout.system = first at system_inside ⊢
  generalize dataSegments layout.nodes.tail = data at data_inside ⊢
  generalize indexSegments layout.nodes = indexes at index_inside ⊢
  have empty : builder.emptyPlan layout = (builder.emptyPlan layout).holding [] := rfl
  obtain ⟨sdh_segment, sdh_added, sdh_inside⟩ :=
    @emitTemplateIndx_ok _ (builder.emptyPlan layout) ([] ++ first) _ _ _ sdh sdh_room
  obtain ⟨sii_segment, sii_added, sii_inside⟩ :=
    @emitTemplateIndx_ok _ (builder.emptyPlan layout) ([] ++ first ++ [sdh_segment]) _ _ _ sii
      sii_room
  refine ⟨[] ++ first ++ [sdh_segment] ++ [sii_segment] ++ data ++ indexes, ?_, ?_⟩
  · rw [empty, addAll_ok system_inside]
    dsimp only
    rw [sdh_added]
    dsimp only
    rw [sii_added]
    dsimp only
    rw [addAll_ok data_inside]
    dsimp only
    rw [addAll_ok index_inside]
    rfl
  · rw [List.forall_mem_append, List.forall_mem_append, List.forall_mem_append,
      List.forall_mem_append, List.forall_mem_append, List.forall_mem_singleton,
      List.forall_mem_singleton]
    exact ⟨⟨⟨⟨⟨List.forall_mem_nil _, system_inside⟩, sdh_inside⟩, sii_inside⟩, data_inside⟩,
      index_inside⟩

end Volumes

section Records

variable {builder : Builder} {layout : Layout}

theorem buildRecords_iff {image : Bytes} {specs : List RecordSpec} :
    (∃ built, buildRecords image specs = .ok built) ↔
      ∀ spec ∈ specs, ∃ bytes, spec.build = .ok bytes := by
  induction specs generalizing image with
  | nil => exact iff_of_true ⟨image, rfl⟩ (List.forall_mem_nil _)
  | cons spec rest induction =>
    rw [buildRecords, List.forall_mem_cons]
    cases built : spec.build with
    | error error =>
      refine iff_of_false (fun ⟨_, done⟩ => ?_) fun ⟨⟨_, done⟩, _⟩ => ?_ <;> cases done
    | ok record =>
      rw [induction]
      exact (and_iff_right ⟨record, rfl⟩).symm

theorem buildRecords_length {image built : Bytes} {specs : List RecordSpec}
    (done : buildRecords image specs = .ok built)
    (placed : ∀ spec ∈ specs, (spec.number + 1) * RECORD ≤ image.length) :
    built.length = image.length := by
  induction specs generalizing image with
  | nil =>
    cases done
    rfl
  | cons spec rest induction =>
    rw [List.forall_mem_cons] at placed
    rw [buildRecords] at done
    split at done
    · cases done
    next record record_built =>
    have length := build_length record_built
    have inside : spec.number * RECORD + record.length ≤ image.length := by
      rw [length, ← Nat.succ_mul]
      exact placed.1
    have put_eq := put_length inside
    exact (induction done (by rw [put_eq]; exact placed.2)).trans put_eq

theorem neededRecords_le (builder : Builder) : builder.neededRecords ≤ builder.mftRecords :=
  le_growRecords _ _

theorem records_placed (laid : LaidOut builder layout) :
    ∀ spec ∈ builder.records layout, spec.number + 1 ≤ builder.mftRecords := by
  have needed := neededRecords_le builder
  unfold Builder.neededRecords FIRST_USER_RECORD at needed
  intro spec member
  rw [Builder.records, List.mem_append] at member
  obtain system | user := member
  · have small : spec.number ≤ 26 := by
      unfold Builder.systemRecords at system
      simp only [List.mem_cons, List.not_mem_nil, or_false] at system
      rcases system with rfl | rfl | rfl | rfl | rfl | rfl | rfl | rfl | rfl | rfl | rfl | rfl |
        rfl | rfl | rfl | rfl | rfl | rfl | rfl <;> exact Nat.le_of_ble_eq_true rfl
    omega
  · obtain ⟨placed, inside, rfl⟩ := List.mem_map.mp user
    obtain ⟨place, found⟩ := List.mem_iff_getElem?.mp inside
    rw [List.getElem?_tail] at found
    obtain ⟨node, original, at_place⟩ := laid.node_of found
    have bound := (List.getElem?_eq_some_iff.mp original).1
    have number := at_place.record (Nat.succ_pos place)
    unfold FIRST_USER_RECORD at number
    change placed.record + 1 ≤ _
    omega

theorem bootSector_name (builder : Builder) (mft_lcn mftmirr_lcn : Nat) :
    slice (builder.bootSector mft_lcn mftmirr_lcn) 3 8 = ascii "NTFS    " :=
  slice_field [0xEB, 0x52, 0x90] _ rfl rfl rfl

theorem bootSector_end (builder : Builder) (mft_lcn mftmirr_lcn : Nat) :
    (builder.bootSector mft_lcn mftmirr_lcn)[510]? = some 0x55 ∧
      (builder.bootSector mft_lcn mftmirr_lcn)[511]? = some 0xAA := by
  have split : ∃ front, builder.bootSector mft_lcn mftmirr_lcn = front ++ [0x55, 0xAA] ∧
      front.length = 510 := by
    refine ⟨[0xEB, 0x52, 0x90] ++ ascii "NTFS    " ++ leBytes 2 SECTOR ++
      leBytes 1 (CLUSTER / SECTOR) ++ zeros 7 ++ [0xF8] ++ zeros 2 ++ leBytes 2 63 ++
      leBytes 2 255 ++ leBytes 4 builder.partition_lba ++ zeros 4 ++ leBytes 4 0x00800080 ++
      leBytes 8 builder.totalSectors ++ leBytes 8 mft_lcn ++ leBytes 8 mftmirr_lcn ++ [0xF6] ++
      zeros 3 ++ [0x01] ++ zeros 3 ++ leBytes 8 builder.serial ++ zeros 0x1AE, ?_, ?_⟩
    · unfold Builder.bootSector
      simp
    · simp only [List.length_append, leBytes_length, zeros_length, List.length_cons,
        List.length_nil]
      rfl
  obtain ⟨front, boot_eq, length⟩ := split
  rw [boot_eq, List.getElem?_append_right (by omega), List.getElem?_append_right (by omega), length]
  exact ⟨rfl, rfl⟩

theorem plan_places {bitmap rest used total bytes : Nat} (used_eq : used = 552 + bitmap + rest)
    (fits : used ≤ total) (covered : total * 4096 + 512 ≤ bytes) :
    used ≠ 0 ∧ bitmap * 4096 % 512 = 0 ∧ 515 * 4096 < used * 4096 ∧
      bitmap * 4096 ≤ used * 4096 - 515 * 4096 ∧ 2 * 4096 < bytes ∧
      512 * 4096 ≤ bytes - 2 * 4096 := by
  omega

theorem finished_regular (parameters : Parameters builder)
    (room : builder.neededClusters ≤ builder.totalClusters) (laid : LaidOut builder layout)
    (segments : List Segment) (mft_lcn mftmirr_lcn : Nat) :
    Plan.Regular { (builder.emptyPlan layout).holding segments with
      boot := builder.bootSector mft_lcn mftmirr_lcn } := by
  have used : builder.neededClusters = 552 + builder.bitmapClusters + (builder.sdsClusters +
      builder.mftClusters + builder.dataClusters +
        (builder.indexBlocksFrom 0 builder.nodes).sum) := by
    unfold Builder.neededClusters Builder.systemClusters
    omega
  obtain ⟨some_used, aligned, bitmap_start, bitmap_stop, log_start, log_stop⟩ :=
    plan_places used room (totalClusters_bytes parameters)
  have covered : builder.bitmapData ≤ builder.bitmapClusters * 4096 := by
    unfold Builder.bitmapClusters CLUSTER
    omega
  have geometry : builder.totalClusters = (builder.total_bytes / 512 - 1) / 8 := by
    unfold Builder.totalClusters Builder.totalSectors SECTOR CLUSTER
    omega
  have bitmap : builder.bitmapData = alignUp ((builder.totalClusters + 7) / 8) 8 := rfl
  have log : LOGFILE_BYTES = 512 * 4096 := rfl
  unfold Plan.Regular Plan.holding Builder.emptyPlan
  dsimp only
  rw [laid.used, laid.system]
  dsimp [Builder.systemLayout]
  unfold CLUSTER
  rw [log]
  exact ⟨parameters.bytes, parameters.sectors, geometry, some_used, room, bitmap, covered, aligned,
    by decide, bitmap_start, bitmap_stop, by decide, by decide, log_start, log_stop,
    bootSector_name _ _ _, (bootSector_end _ _ _).1, (bootSector_end _ _ _).2⟩

theorem addRecords_iff (parameters : Parameters builder)
    (room : builder.neededClusters ≤ builder.totalClusters) (laid : LaidOut builder layout)
    {segments : List Segment} (inside : ∀ segment ∈ segments, segment.Inside builder.total_bytes) :
    (∃ plan, builder.addRecords layout ((builder.emptyPlan layout).holding segments) = .ok plan) ↔
      ∀ spec ∈ builder.records layout, ∃ bytes, spec.build = .ok bytes := by
  have clusters := systemClusters_le room
  have cover : builder.mftRecords * RECORD ≤ (builder.mftClusters + 1) * 4096 := by
    unfold Builder.mftClusters RECORD CLUSTER
    omega
  have table {data : Bytes} {owned : Bool} (length : data.length = builder.mftRecords * RECORD) :
      Segment.Inside builder.total_bytes ⟨layout.system.lcn_mft * CLUSTER, data, owned⟩ := by
    rw [laid.system]
    exact inside_of_clusters parameters (length.le.trans cover)
      (by dsimp only [Builder.systemLayout]; omega)
  have table_room := @table (zeros (builder.mftRecords * RECORD)) true (zeros_length _)
  have checked : ((builder.emptyPlan layout).holding segments).checkSegment
      (layout.system.lcn_mft * CLUSTER) (builder.mftRecords * RECORD) = .ok () := by
    have stop := table_room.stop
    dsimp only at stop
    rw [zeros_length] at stop
    exact checkSegment_ok table_room.aligned table_room.start stop
  rw [← @buildRecords_iff (zeros (builder.mftRecords * RECORD))]
  unfold Builder.addRecords
  simp only [bind, Except.bind, checked]
  cases built : buildRecords (zeros (builder.mftRecords * RECORD)) (builder.records layout) with
  | error error =>
    exact iff_of_false (fun ⟨_, done⟩ => by cases done) fun ⟨_, done⟩ => by cases done
  | ok image =>
    refine iff_of_true ?_ ⟨image, rfl⟩
    dsimp only
    have image_length : image.length = builder.mftRecords * RECORD := by
      refine (buildRecords_length built fun spec member => ?_).trans (zeros_length _)
      rw [zeros_length]
      exact Nat.mul_le_mul_right _ (records_placed laid spec member)
    have bitmap_room : Segment.Inside builder.total_bytes
        ⟨layout.system.lcn_mft_bitmap * CLUSTER,
          mftBitmap (FIRST_USER_RECORD + (builder.nodes.length - 1)), true⟩ := by
      have length : (mftBitmap (FIRST_USER_RECORD + (builder.nodes.length - 1))).length =
          2 * 4096 := by
        rw [mftBitmap, List.length_map, List.length_range]
        rfl
      rw [laid.system]
      exact inside_of_clusters parameters length.le
        (by dsimp only [Builder.systemLayout]; omega)
    have mirror_room : Segment.Inside builder.total_bytes
        ⟨layout.system.lcn_mftmirr * CLUSTER, image.take (4 * RECORD), false⟩ := by
      rw [laid.system]
      exact @inside_of_clusters builder parameters _ 1 _ _ (List.length_take_le _ _)
        (by dsimp only [Builder.systemLayout]; omega)
    have more : ∀ segment ∈ [(⟨layout.system.lcn_mft * CLUSTER, image, true⟩ : Segment),
        ⟨layout.system.lcn_mft_bitmap * CLUSTER,
          mftBitmap (FIRST_USER_RECORD + (builder.nodes.length - 1)), true⟩,
        ⟨layout.system.lcn_mftmirr * CLUSTER, image.take (4 * RECORD), false⟩],
        segment.Inside builder.total_bytes := by
      rw [List.forall_mem_cons, List.forall_mem_cons, List.forall_mem_singleton]
      exact ⟨table image_length, bitmap_room, mirror_room⟩
    have added := @addAll_ok (builder.emptyPlan layout) segments _ more
    rw [added]
    dsimp only
    have every : ∀ segment ∈ segments ++ [⟨layout.system.lcn_mft * CLUSTER, image, true⟩,
        ⟨layout.system.lcn_mft_bitmap * CLUSTER,
          mftBitmap (FIRST_USER_RECORD + (builder.nodes.length - 1)), true⟩,
        ⟨layout.system.lcn_mftmirr * CLUSTER, image.take (4 * RECORD), false⟩],
        segment.Inside builder.total_bytes := List.forall_mem_append.mpr ⟨inside, more⟩
    rw [validate_ok (finished_regular parameters room laid _ _ _) every]
    exact ⟨_, rfl⟩

end Records

theorem rootRecord_ok {builder : Builder} {layout : Layout} {root : Node}
    (laid : LaidOut builder layout) (found : builder.nodes[0]? = some root)
    (directory : root.is_dir = true)
    (small : residentLength (builder.directoryLengths 0 root) ≤ capacity)
    (short : builder.info.root_sd.length ≤ 256) :
    ∃ bytes, (builder.rootRecord (rootIndex layout.nodes)).build = .ok bytes := by
  obtain ⟨placed, present, at_place⟩ := laid.nodes 0 root found
  have index : rootIndex layout.nodes = placed.index := by
    rw [rootIndex, List.head?_eq_getElem?, present]
    rfl
  have sort : placed.is_dir = true := by rw [at_place.same, directory]
  have si_room : (si48 builder.timestamp 0x06).room = some ⟨72, 72⟩ := by
    rw [si48, unnamedAttr_room]
    simp only [List.length_append, times_length, leBytes_length, zeros_length]
    rfl
  have dot_room : (fileNameDot builder.timestamp).room = some ⟨96, 96⟩ :=
    fileNameValue_room _ _ _ _ _ _ _ _
  have sd_room := unnamedAttr_room .security_descriptor builder.info.root_sd 0
  have sd_short := alignUp_mono (show 0x18 + builder.info.root_sd.length ≤ 280 by omega)
  have sd_eq : alignUp 280 8 = 280 := rfl
  have record : RECORD = 1024 := rfl
  obtain ⟨-, room⟩ := contentRoom_small directory small
  obtain ⟨attrs, attrs_eq, fits⟩ := @content_fits _ _ _ _
    (224 + alignUp (0x18 + builder.info.root_sd.length) 8) (by omega) at_place
  rw [Node.contentAttrs, if_pos sort] at attrs_eq
  have spec_attrs : (builder.rootRecord (rootIndex layout.nodes)).attrs =
      .ok ([si48 builder.timestamp 0x06, fileNameDot builder.timestamp,
        securityDescriptor builder.info.root_sd] ++ attrs) := by
    rw [index]
    unfold Builder.rootRecord
    rw [attrs_eq]
  obtain ⟨bytes, built, -⟩ := build_ok spec_attrs (by
    rw [List.cons_append, List.cons_append, List.cons_append, List.nil_append,
      fitsFrom_append _ _ _ si_room (by decide), fitsFrom_append _ _ _ dot_room (by decide),
      securityDescriptor, fitsFrom_append _ _ _ sd_room (by dsimp only; omega)]
    exact fits.mpr (by omega))
  exact ⟨bytes, built⟩

section Preparing

variable {builder : Builder}

theorem userRecords_iff {layout : Layout} (tree : ValidTree builder)
    (laid : LaidOut builder layout) :
    (∀ node ∈ layout.nodes.tail, ∃ bytes,
      (builder.userRecord (parentRecord layout.nodes node) node).build = .ok bytes) ↔
      ∀ (place : Nat) (node : Node), 0 < place → builder.nodes[place]? = some node →
        builder.UserRecordFits place node := by
  obtain ⟨root, rest, nodes_eq, -, -, -, valid⟩ := tree.root
  have built {place : Nat} {node placed : Node} (positive : 0 < place)
      (original : builder.nodes[place]? = some node)
      (at_place : PlacedNode builder place node placed) :
      (∃ bytes, (builder.userRecord (parentRecord layout.nodes placed) placed).build = .ok bytes) ↔
        builder.UserRecordFits place node := by
    have named : validName node.name = true := by
      obtain ⟨before, rfl⟩ := Nat.exists_eq_succ_of_ne_zero (Nat.ne_of_gt positive)
      rw [nodes_eq, List.getElem?_cons_succ] at original
      exact (valid node (List.mem_of_getElem? original)).1
    have name : placed.name = node.name := by rw [at_place.same]
    obtain ⟨attrs, attrs_eq, fits⟩ := content_fits (nameEnd_le named) at_place
    have placed_named : validName placed.name = true := name.symm ▸ named
    have name_end : placed.nameEnd = node.nameEnd := by rw [Node.nameEnd, Node.nameEnd, name]
    have spec_attrs : ∃ file_attrs security_id, (builder.userRecord
        (parentRecord layout.nodes placed) placed).attrs =
        .ok ([si72 builder.timestamp file_attrs security_id,
          userFileName builder.timestamp placed (parentRecord layout.nodes placed)] ++ attrs) := by
      unfold Builder.userRecord
      dsimp only
      rw [attrs_eq]
      by_cases directory : placed.is_dir = true
      · rw [if_pos directory]
        exact ⟨_, _, rfl⟩
      · rw [if_neg directory]
        exact ⟨_, _, rfl⟩
    obtain ⟨file_attrs, security_id, spec_attrs⟩ := spec_attrs
    have whole := fitsFrom_named placed_named builder.timestamp file_attrs security_id
      (parentRecord layout.nodes placed) attrs
    rw [name_end] at whole
    rw [Builder.UserRecordFits, ← fits, ← whole]
    constructor
    · rintro ⟨bytes, done⟩
      by_contra exceeds
      rw [build_error spec_attrs (Bool.eq_false_of_not_eq_true exceeds)] at done
      cases done
    · intro room
      obtain ⟨bytes, done, -⟩ := build_ok spec_attrs room
      exact ⟨bytes, done⟩
  constructor
  · intro every place node positive original
    obtain ⟨placed, found, at_place⟩ := laid.nodes place node original
    obtain ⟨before, rfl⟩ := Nat.exists_eq_succ_of_ne_zero (Nat.ne_of_gt positive)
    rw [← List.getElem?_tail] at found
    exact (built positive original at_place).mp (every placed (List.mem_of_getElem? found))
  · intro every placed member
    obtain ⟨before, found⟩ := List.mem_iff_getElem?.mp member
    rw [List.getElem?_tail] at found
    obtain ⟨node, original, at_place⟩ := laid.node_of found
    exact (built (Nat.succ_pos before) original at_place).mpr
      (every _ node (Nat.succ_pos before) original)

theorem prepare_iff_records {layout : Layout} (tree : ValidTree builder) (accepts : builder.Accepts)
    (fits : builder.SystemFits) (taken : builder.takeLayout = .ok layout)
    (laid : LaidOut builder layout) :
    (∃ plan, builder.prepare = .ok plan) ↔
      ∀ spec ∈ builder.records layout, ∃ bytes, spec.build = .ok bytes := by
  have parameters := parameters_of accepts.parameters
  obtain ⟨segments, added, inside⟩ := addSegments_ok parameters accepts.room fits laid
  rw [← addRecords_iff parameters accepts.room laid inside]
  unfold Builder.prepare
  simp only [bind, Except.bind, tree.fresh, accepts.parameters, Nat.not_lt.mpr accepts.large,
    Nat.not_lt.mpr accepts.few, taken, added]
  rfl

theorem ValidTree.prepare_iff (tree : ValidTree builder) (accepts : builder.Accepts)
    (fits : builder.SystemFits) :
    (∃ plan, builder.prepare = .ok plan) ↔
      ∀ (place : Nat) (node : Node), 0 < place → builder.nodes[place]? = some node →
        builder.UserRecordFits place node := by
  obtain ⟨layout, taken, laid⟩ := takeLayout_ok tree accepts.few accepts.room
  rw [prepare_iff_records tree accepts fits taken laid, ← userRecords_iff tree laid,
    Builder.records, List.forall_mem_append, List.forall_mem_map]
  exact and_iff_right (fits.records layout taken)

end Preparing

def sampleIndx : Bytes :=
  leBytes 4 INDX_MAGIC ++ (leBytes 2 0x28 ++ (leBytes 2 9 ++ zeros 4088))

def sampleMeta : Meta where
  upcase := zeros UPCASE_BYTES
  upcase_info := []
  attrdef := zeros 1
  sds_prefix := zeros 1
  sdh_root := []
  sii_root := []
  sdh_alloc := sampleIndx
  sii_alloc := sampleIndx
  sdh_bitmap := []
  sii_bitmap := []
  objid_o_root := []
  quota_o_root := []
  quota_q_root := []
  reparse_r_root := []
  root_sd := []
  boot_sd := []

def sampleStart : Builder := .init (32 * 1024 * 1024) [] 0 sampleMeta 0 0

def sampleRoot : Node where
  name := []
  is_dir := true
  record := MFT_RECORD_ROOT
  children := [1]

def sampleFile (name : Bytes) : Node where
  name := name
  is_dir := false
  data := zeros 704
  depth := 1

/-- A new volume with a file of which the data stands in its record. -/
def sampleBuilder (name : Bytes) : Builder where
  __ := sampleStart
  nodes := [sampleRoot, sampleFile name]

section Samples

variable {name : Bytes}

theorem sampleBuilder_added (valid : validName name = true)
    (free : reservedNames.any (eqlIgnoreCase name) = false) :
    sampleStart.addAll [.file 0 name (zeros 704)] = .ok (sampleBuilder name) := by
  have checked : sampleStart.checkNewChild 0 name = .ok () := by
    unfold Builder.checkNewChild
    rw [if_neg (by decide)]
    change (if !true || !validName name then Except.error BuilderError.NameInvalid else
      if max_path_segments ≤ 0 then .error .PathTooDeep
      else if 0 = 0 ∧ reservedNames.any (eqlIgnoreCase name) then .error .NameInvalid
      else .ok ()) = .ok ()
    rw [valid, free, if_neg (by decide), if_neg (by decide), if_neg (by decide)]
  rw [Builder.addAll, Builder.add, Builder.addFile, checked]
  rfl

theorem checkParameters_sample : (sampleBuilder name).checkParameters = .ok () := by
  have upcase : (sampleBuilder name).info.upcase.length = UPCASE_BYTES := zeros_length _
  have block : sampleIndx.length = INDEX_BLOCK := by
    rw [sampleIndx, List.length_append, List.length_append, List.length_append, leBytes_length,
      leBytes_length, leBytes_length, zeros_length]
    rfl
  unfold Builder.checkParameters
  rw [if_neg, if_neg, if_neg, if_neg]
  · rintro (wrong | wrong | wrong | wrong | wrong | wrong | wrong)
    · exact wrong upcase
    · exact absurd wrong (show ¬(zeros 1).length = 0 by decide)
    · exact absurd wrong (show ¬CLUSTER < (zeros 1).length by decide)
    · exact absurd wrong (show ¬(zeros 1).length = 0 by decide)
    · exact absurd wrong (show ¬0x40000 < (zeros 1).length by decide)
    · exact wrong block
    · exact wrong block
  · exact Bool.false_ne_true
  · exact show ¬32 < 0 by decide
  · exact show ¬(32 * 1024 * 1024 < 16 * 1024 * 1024 ∨ 32 * 1024 * 1024 % SECTOR ≠ 0) by decide

theorem mftRecords_sample : (sampleBuilder name).mftRecords = MFT_INITIAL_RECORDS := by
  rw [Builder.mftRecords, growRecords]
  exact if_neg (show ¬45 > 512 by decide)

/-- The names in the root directory of the volume fit one block. -/
theorem rootLengths_sample (valid : validName name = true) :
    residentLength ((sampleBuilder name).directoryLengths 0 sampleRoot) ≤ capacity := by
  have length := (validName_length valid).2
  have system : valueLengths (sampleBuilder name).systemKeys =
      [82, 82, 80, 76, 80, 82, 74, 82, 80, 80, 80, 68] := by
    simp only [valueLengths, Builder.systemKeys, List.map_append, List.map_cons, List.map_nil,
      Builder.systemNames, makeFileNameKey_length]
    rfl
  have last : valueLengths (([1].filterMap ((sampleBuilder name).sizedNodes[·]?)).map
      (Node.key (sampleBuilder name).timestamp)) = [0x42 + name.length * 2] := by
    change [List.length (Node.key 0 _) - 8] = _
    rw [Node.key, makeFileNameKey_length, Nat.add_sub_cancel_left]
    rfl
  have lengths := congrArg₂ (· ++ ·) system last
  rw [valueLengths, valueLengths, ← List.map_append, ← valueLengths] at lengths
  have entry := @entryLength_le false _ (show 0x42 + name.length * 2 ≤ 0x42 + 510 by omega)
  have others : residentLength [82, 82, 80, 76, 80, 82, 74, 82, 80, 80, 80, 68] ≤ 1300 := by decide
  have room : capacity = 4008 := rfl
  rw [Builder.directoryLengths, Builder.directoryKeys, residentLength_sorted, if_pos rfl,
    sampleRoot, lengths, residentLength, List.map_append, List.sum_append, ← residentLength,
    List.map_singleton, List.sum_singleton]
  omega

theorem totalClusters_sample : (sampleBuilder name).totalClusters = 8191 :=
  show (sampleBuilder []).totalClusters = 8191 by decide

/-- The file is the only one that needs room. -/
theorem accepts_sample (valid : validName name = true) : (sampleBuilder name).Accepts := by
  obtain ⟨blocks, -⟩ := @contentRoom_small (sampleBuilder name) 0 sampleRoot rfl
    (rootLengths_sample valid)
  have data : (sampleBuilder name).dataClusters = 0 := by
    have small : (sampleFile name).neededClusters = 0 :=
      if_pos (.inr (zeros_length 704).le)
    change Node.neededClusters (sampleFile name) + 0 = 0
    rw [small]
  have system : (sampleBuilder name).systemClusters = 746 := by
    rw [Builder.systemClusters, Builder.mftClusters, mftRecords_sample]
    exact show 552 + (sampleBuilder []).bitmapClusters + (sampleBuilder []).sdsClusters +
      MFT_INITIAL_RECORDS * RECORD / CLUSTER = 746 by decide
  refine ⟨checkParameters_sample, ?_, ?_, ?_⟩
  · rw [totalClusters_sample]
    decide
  · rw [mftRecords_sample]
    decide
  · rw [Builder.neededClusters, totalClusters_sample, data, system]
    change 746 + 0 + (Builder.indexBlocks _ 0 _ + (0 + 0)) ≤ 8191
    exact show 746 + 0 + (Builder.indexBlocks (sampleBuilder name) 0 _ + (0 + 0)) ≤ 8191 by omega

theorem systemRecords_sample (layout : SystemLayout) (root_index : DirIndex) :
    (sampleBuilder name).systemRecords layout root_index =
      ((sampleBuilder []).systemRecords layout {}).set 5
        ((sampleBuilder name).rootRecord root_index) := rfl

theorem systemFits_sample (valid : validName name = true)
    (tree : ValidTree (sampleBuilder name)) : (sampleBuilder name).SystemFits := by
  have block : ∃ restored, applyFixups sampleIndx = .ok restored := by
    cases applied : applyFixups sampleIndx with
    | ok restored => exact ⟨restored, rfl⟩
    | error error =>
      have admitted : (applyFixups sampleIndx).isOk = true := by decide +kernel
      rw [applied] at admitted
      cases admitted
  have accepts := accepts_sample valid
  refine ⟨block, block, fun layout taken => ?_⟩
  obtain ⟨other, other_taken, laid⟩ := takeLayout_ok tree accepts.few accepts.room
  rw [taken] at other_taken
  cases other_taken
  rw [systemRecords_sample, laid.system]
  intro spec member
  rcases List.mem_or_eq_of_mem_set member with template | root
  · have fits : ∀ spec ∈ (sampleBuilder []).systemRecords (sampleBuilder []).systemLayout {},
        ∃ attrs, spec.attrs = .ok attrs ∧ fitsFrom 0x38 attrs = true := by
      have checked : ((sampleBuilder []).systemRecords (sampleBuilder []).systemLayout {}).all
          (fun spec => spec.attrs.toOption.any (fitsFrom 0x38)) = true := by decide +kernel
      intro spec member
      have fits := List.all_eq_true.mp checked spec member
      cases attrs_eq : spec.attrs with
      | error error =>
        rw [attrs_eq] at fits
        cases fits
      | ok attrs =>
        rw [attrs_eq] at fits
        exact ⟨attrs, rfl, fits⟩
    obtain ⟨attrs, attrs_eq, room⟩ := fits spec template
    obtain ⟨bytes, built, -⟩ := build_ok attrs_eq room
    exact ⟨bytes, built⟩
  · rw [root]
    exact rootRecord_ok laid rfl rfl (rootLengths_sample valid) (Nat.zero_le _)

theorem nodes_sample {place : Nat} {node : Node}
    (found : (sampleBuilder name).nodes[place]? = some node) :
    place = 0 ∧ node = sampleRoot ∨ place = 1 ∧ node = sampleFile name := by
  cases place with
  | zero =>
    cases found
    exact .inl ⟨rfl, rfl⟩
  | succ place =>
    cases place with
    | zero =>
      cases found
      exact .inr ⟨rfl, rfl⟩
    | succ place => cases found

theorem userRecordFits_sample : (∀ (place : Nat) (node : Node), 0 < place →
      (sampleBuilder name).nodes[place]? = some node →
        (sampleBuilder name).UserRecordFits place node) ↔
    0x98 + alignUp (0x18 + (0x42 + name.length * 2)) 8 + 728 + 8 ≤ RECORD := by
  have room : (sampleFile name).nameEnd + (sampleBuilder name).contentRoom 1 (sampleFile name) + 8 =
      0x98 + alignUp (0x18 + (0x42 + name.length * 2)) 8 + 728 + 8 := by
    have content : (sampleBuilder name).contentRoom 1 (sampleFile name) =
        alignUp (0x18 + (zeros 704).length) 8 := by
      rw [Builder.contentRoom,
        if_neg (show ¬(sampleFile name).is_dir = true from Bool.false_ne_true)]
      exact if_pos (zeros_length 704).le
    rw [content, zeros_length]
    rfl
  constructor
  · intro every
    rw [← room]
    exact every 1 _ Nat.one_pos rfl
  · intro fits place node positive found
    rcases nodes_sample found with ⟨rfl, -⟩ | ⟨rfl, rfl⟩
    · exact absurd positive (Nat.lt_irrefl 0)
    · exact room.le.trans fits

end Samples

/-- What was added to a new builder is prepared exactly when every record of a user holds its name
and its content. -/
theorem prepare_ok_iff {builder : Builder} {total_bytes partition_lba timestamp serial : Nat}
    {label : Bytes} {info : Meta} {additions : List Addition}
    (added : (Builder.init total_bytes label partition_lba info timestamp serial).addAll additions =
      .ok builder)
    (accepts : builder.Accepts) (fits : builder.SystemFits) :
    (∃ plan, builder.prepare = .ok plan) ↔
      ∀ (place : Nat) (node : Node), 0 < place → builder.nodes[place]? = some node →
        builder.UserRecordFits place node :=
  ((validTree_init total_bytes label partition_lba info timestamp serial).addAll
    added).prepare_iff accepts fits

/-- The data of a file with a short name stands in its record. -/
theorem prepare_ok_iff_sample : ∃ plan, (sampleBuilder (ascii "A")).prepare = .ok plan := by
  have valid : validName (ascii "A") = true := by decide
  have added := sampleBuilder_added valid (by decide)
  exact (prepare_ok_iff added (accepts_sample valid)
    (systemFits_sample valid ((validTree_init _ _ _ _ _ _).addAll added))).mpr
      (userRecordFits_sample.mpr (by decide))

/-- The data of a file with a long name does not fit behind it, although the tree was accepted and
its volume has room. -/
theorem prepare_long_name : ∃ (additions : List Addition) (builder : Builder),
    sampleStart.addAll additions = .ok builder ∧ builder.Accepts ∧ builder.SystemFits ∧
      (∀ (place : Nat) (node : Node), builder.nodes[place]? = some node →
        builder.indexBlocks place node ≤ MAX_INDEX_BLOCKS) ∧
      ¬∃ plan, builder.prepare = .ok plan := by
  have valid : validName (ascii "a name of 24 characters.") = true := by decide
  have added := sampleBuilder_added valid (by decide)
  have tree := (validTree_init _ _ _ _ _ _).addAll added
  have fits := systemFits_sample valid tree
  refine ⟨_, _, added, accepts_sample valid, fits, ?_, fun done => ?_⟩
  · intro place node found
    rcases nodes_sample found with ⟨rfl, rfl⟩ | ⟨rfl, rfl⟩
    · exact (contentRoom_small rfl (rootLengths_sample valid)).1.trans (by decide)
    · exact Nat.zero_le _
  · have every := (tree.prepare_iff (accepts_sample valid) fits).mp done
    exact absurd (userRecordFits_sample.mp every) (by decide)

end R4OS.NtfsBuilder
