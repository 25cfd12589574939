import R4OS.Gpt.Encoding

/-!
# Rules for committing

What a commit writes, and what it leaves on the device when it returns.
-/

namespace R4OS.Gpt

open Block Crash Text

section Copies

variable {tears : Disk → Nat → Bytes → Disk → Prop} {always : BlockWorld → Prop}
  {world : BlockWorld} {device : BlockDevice} {array_lba header_lba : Nat} {array header : Bytes}

/-- A world after one more write. -/
def wrote (world : BlockWorld) (lba : Nat) (data : Bytes) : BlockWorld :=
  ⟨world.disk.write lba data, world.written ++ [(lba, data.length / sector_size)]⟩

/-- A world after a write that was cut. -/
def torn (world : BlockWorld) (lba : Nat) (data : Bytes) (left : Disk) : BlockWorld :=
  ⟨left, world.written ++ [(lba, data.length / sector_size)]⟩

theorem write_wrote (always_now : always world) (small : array.length ≤ max_transfer_bytes)
    (done : always (wrote world array_lba array))
    (cut : ∀ left, tears world.disk array_lba array left → always (torn world array_lba array left)) :
    Keeps (blockDevice tears) always (fun _ after => after = wrote world array_lba array)
      (device.write array_lba array) world :=
  BlockDevice.write_keeps always_now small ⟨done, rfl⟩ cut

theorem writeCopy_keeps (always_now : always world)
    (array_small : array.length ≤ max_transfer_bytes)
    (header_small : header.length ≤ max_transfer_bytes)
    (array_done : always (wrote world array_lba array))
    (array_cut : ∀ left, tears world.disk array_lba array left →
      always (torn world array_lba array left))
    (header_done : always (wrote (wrote world array_lba array) header_lba header))
    (header_cut : ∀ left, tears (world.disk.write array_lba array) header_lba header left →
      always (torn (wrote world array_lba array) header_lba header left)) :
    Keeps (blockDevice tears) always
      (fun _ after => after = wrote (wrote world array_lba array) header_lba header)
      (Plan.writeCopy device array_lba array header_lba header) world := by
  refine .bind (write_wrote always_now array_small array_done array_cut) ?_
  rintro - _ - rfl
  refine .bind (write_wrote array_done header_small header_done header_cut) ?_
  rintro - _ - rfl
  refine .bind_same (BlockDevice.flush_keeps header_done) fun _ _ => ?_
  refine .bind_same (BlockDevice.verify_keeps header_done) fun _ _ => ?_
  refine (BlockDevice.verify_keeps header_done).mono fun _ _ _ finished => ?_
  exact finished.1

end Copies

section Spans

variable {tears : Disk → Nat → Bytes → Disk → Prop} {always : BlockWorld → Prop}
  {world : BlockWorld} {device : BlockDevice} {buffer : Nat}

theorem readSpan_keeps (always_now : always world) (rounds first count : Nat) :
    Keeps (blockDevice tears) always (fun _ after => after = world ∧ True)
      (readSpan device buffer rounds first count) world := by
  induction rounds generalizing first count with
  | zero => exact .pure always_now ⟨rfl, trivial⟩
  | succ rounds induction =>
    unfold readSpan
    split
    · exact .pure always_now ⟨rfl, trivial⟩
    · refine .bind_same (BlockDevice.read_keeps always_now) fun _ _ => ?_
      refine .bind_same (induction _ _) fun _ _ => ?_
      exact .pure always_now ⟨rfl, trivial⟩

theorem readSpans_keeps (always_now : always world) (spans : List Range) :
    Keeps (blockDevice tears) always (fun _ after => after = world ∧ True)
      (readSpans device buffer spans) world := by
  induction spans with
  | nil => exact .pure always_now ⟨rfl, trivial⟩
  | cons span spans induction =>
    refine .bind_same (readSpan_keeps always_now _ _ _) fun _ _ => ?_
    refine .bind_same induction fun _ _ => ?_
    exact .pure always_now ⟨rfl, trivial⟩

theorem Source.hash_keeps {Digest : Type} {sha256 : Bytes → Digest} {source : Source Digest}
    {scratch : Nat} (always_now : always world) :
    Keeps (blockDevice tears) always (fun _ after => after = world ∧ True)
      (source.hash sha256 device scratch) world := by
  refine .require_bind always_now fun _ => ?_
  refine .bind_same (readSpans_keeps always_now _) fun _ _ => ?_
  exact .pure always_now ⟨rfl, trivial⟩

def spanBytes (disk : Disk) (spans : List Range) : Bytes :=
  spans.flatMap fun span => disk.read span.first span.count

variable (valid : device.validate = .ok ())

include valid

theorem readSpan_returns (some_buffer : 0 < buffer)
    {rounds first count : Nat} (enough : count ≤ rounds) (inside : first + count ≤ device.sectors)
    (world : BlockWorld) :
    Returns (readSpan device buffer rounds first count) world (.ok (world.disk.read first count))
      world := by
  induction rounds generalizing first count with
  | zero =>
    obtain rfl := Nat.le_zero.mp enough
    rw [Disk.read_zero]
    exact .pure [] world
  | succ rounds induction =>
    unfold readSpan
    split
    · next empty =>
        subst empty
        rw [Disk.read_zero]
        exact .pure [] world
    next some_left =>
    have whole : count = min count buffer + (count - min count buffer) := by omega
    have joined : world.disk.read first count = world.disk.read first (min count buffer) ++
        world.disk.read (first + min count buffer) (count - min count buffer) := by
      rw [← Disk.read_add, ← whole]
    rw [joined]
    refine .bind (BlockDevice.read_returns valid (by omega) (by omega) world) ?_
    exact .bind (induction (by omega) (by omega)) (.pure _ world)

theorem readSpans_returns (some_buffer : 0 < buffer)
    {spans : List Range} (inside : ∀ span ∈ spans, span.first + span.count ≤ device.sectors)
    (world : BlockWorld) :
    Returns (readSpans device buffer spans) world (.ok (spanBytes world.disk spans)) world := by
  induction spans with
  | nil => exact .pure [] world
  | cons span spans induction =>
    obtain ⟨first, others⟩ := List.forall_mem_cons.mp inside
    refine .bind (readSpan_returns valid some_buffer le_rfl first world) ?_
    exact .bind (induction others) (.pure _ world)

theorem Source.hash_returns {Digest : Type} {sha256 : Bytes → Digest} {source : Source Digest}
    {scratch : Nat} (room : sector_size ≤ scratch) (aligned : scratch % sector_size = 0)
    (inside : ∀ span ∈ source.spans, span.first + span.count ≤ device.sectors) (world : BlockWorld) :
    Returns (source.hash sha256 device scratch) world
      (.ok (sha256 (spanBytes world.disk source.spans))) world := by
  have some_buffer : 0 < scratch / sector_size := Nat.div_pos room (by decide)
  refine .bind (.require (by simp [room, aligned]) world) ?_
  exact .bind (readSpans_returns valid some_buffer inside world) (.pure _ world)

end Spans

section Writes

variable {tears : Disk → Nat → Bytes → Disk → Prop} {world after : BlockWorld}
  {writes : List (Nat × Bytes)}

def wroteAll (world : BlockWorld) (writes : List (Nat × Bytes)) : BlockWorld :=
  writes.foldl (fun world write => wrote world write.1 write.2) world

/-- What writes leave behind wherever they stop. -/
inductive Interrupted (tears : Disk → Nat → Bytes → Disk → Prop) (writes : List (Nat × Bytes))
    (world : BlockWorld) : BlockWorld → Prop
  | between (front rest : List (Nat × Bytes)) (split : writes = front ++ rest) :
      Interrupted tears writes world (wroteAll world front)
  | within (front rest : List (Nat × Bytes)) (write : Nat × Bytes) (left : Disk)
      (split : writes = front ++ write :: rest)
      (cut : tears (wroteAll world front).disk write.1 write.2 left) :
      Interrupted tears writes world (torn (wroteAll world front) write.1 write.2 left)

theorem wroteAll_append (world : BlockWorld) (first second : List (Nat × Bytes)) :
    wroteAll world (first ++ second) = wroteAll (wroteAll world first) second :=
  List.foldl_append

theorem Interrupted.split {first second : List (Nat × Bytes)}
    (stopped : Interrupted tears (first ++ second) world after) :
    Interrupted tears first world after ∨ Interrupted tears second (wroteAll world first) after := by
  cases stopped with
  | between front rest split =>
    obtain ⟨more, rfl, -⟩ | ⟨more, rfl, -⟩ := List.append_eq_append_iff.mp split
    · refine .inr ?_
      rw [wroteAll_append]
      exact .between more rest (by simpa using split)
    · exact .inl (.between front more rfl)
  | within front rest write left split cut =>
    obtain ⟨more, rfl, -⟩ | ⟨more, first_eq, rest_eq⟩ := List.append_eq_append_iff.mp split
    · refine .inr ?_
      rw [wroteAll_append] at cut ⊢
      exact .within more rest write left (by simpa using split) cut
    · cases more with
      | nil =>
        rw [List.append_nil] at first_eq
        subst first_eq
        exact .inr (.within [] rest write left (by simpa using rest_eq.symm) cut)
      | cons next more =>
        obtain ⟨rfl, -⟩ := List.cons.inj rest_eq
        exact .inl (.within front more write left first_eq cut)

theorem Interrupted.written (stopped : Interrupted tears writes world after) :
    ∃ log, after.written = world.written ++ log ∧
      ∀ entry ∈ log, ∃ write ∈ writes, entry = (write.1, write.2.length / sector_size) := by
  have logged (front : List (Nat × Bytes)) : (wroteAll world front).written = world.written ++
      front.map fun write => (write.1, write.2.length / sector_size) := by
    induction front using List.reverseRecOn with
    | nil => simp [wroteAll]
    | append_singleton front write induction =>
      rw [wroteAll_append, List.map_append, ← List.append_assoc, ← induction]
      rfl
  cases stopped with
  | between front rest split =>
    refine ⟨_, logged front, fun entry member => ?_⟩
    obtain ⟨write, inside, rfl⟩ := List.mem_map.mp member
    exact ⟨write, split ▸ List.mem_append_left rest inside, rfl⟩
  | within front rest write left split cut =>
    refine ⟨_, (congrArg (· ++ [_]) (logged front)).trans (List.append_assoc _ _ _), ?_⟩
    intro entry member
    rcases List.mem_append.mp member with inside | last
    · obtain ⟨earlier, earlier_mem, rfl⟩ := List.mem_map.mp inside
      exact ⟨earlier, split ▸ List.mem_append_left _ earlier_mem, rfl⟩
    · obtain rfl := List.mem_singleton.mp last
      exact ⟨write, split ▸ List.mem_append_right _ (.head _), rfl⟩

/-- A write that a failure may cut leaves anything in the sectors that it was about. -/
def cutAnywhere (disk : Disk) (lba : Nat) (data : Bytes) (left : Disk) : Prop :=
  disk.SameBeside left lba (data.length / sector_size)

/-- Writes that are whole sectors beside a range. -/
def WritesBeside (writes : List (Nat × Bytes)) (lba count : Nat) : Prop :=
  ∀ write ∈ writes, ∃ size, write.2.length = sector_size * size ∧
    (lba + count ≤ write.1 ∨ write.1 + size ≤ lba)

theorem wroteAll_sameOn {lba count : Nat} (beside : WritesBeside writes lba count) :
    world.disk.SameOn (wroteAll world writes).disk lba count := by
  induction writes generalizing world with
  | nil => exact Disk.SameOn.refl _ _ _
  | cons write rest induction =>
    obtain ⟨⟨size, sized, apart⟩, others⟩ := List.forall_mem_cons.mp beside
    have first : world.disk.SameOn (wrote world write.1 write.2).disk lba count :=
      (Disk.write_sameBeside world.disk write.1 sized).sameOn apart
    have rest_same := @induction (wrote world write.1 write.2) others
    exact first.trans rest_same

theorem Interrupted.sameOn {lba count : Nat} (stopped : Interrupted cutAnywhere writes world after)
    (beside : WritesBeside writes lba count) : world.disk.SameOn after.disk lba count := by
  cases stopped with
  | between front rest split =>
    refine wroteAll_sameOn fun write member => beside write ?_
    exact split ▸ List.mem_append_left rest member
  | within front rest write left split cut =>
    have kept : world.disk.SameOn (wroteAll world front).disk lba count := by
      refine wroteAll_sameOn fun earlier member => beside earlier ?_
      exact split ▸ List.mem_append_left _ member
    obtain ⟨size, sized, apart⟩ :=
      beside write (split ▸ List.mem_append_right front (.head _))
    have cut_beside : (wroteAll world front).disk.SameBeside left write.1 size := by
      rw [cutAnywhere, sized, Nat.mul_div_cancel_left _ (by decide)] at cut
      exact cut
    exact kept.trans (cut_beside.sameOn apart)

end Writes

section Commits

variable {Digest : Type} {plan : Plan Digest} {device : BlockDevice} {work : Nat} {world : BlockWorld}
  {tears : Disk → Nat → Bytes → Disk → Prop} {sha256 : Bytes → Digest}

/-- The writes that commit a GUID table. -/
def Plan.writes (plan : Plan Digest) : List (Nat × Bytes) :=
  [(plan.backup_array, plan.arrayBytes), (plan.sectors - 1, plan.backupHeader),
    (plan.primary_array, plan.arrayBytes), (1, plan.primaryHeader), (0, plan.mbrBytes)]

/-- What a commit checks before it writes. -/
structure Committable (plan : Plan Digest) (device : BlockDevice) : Prop where
  sound : plan.Sound
  valid : device.validate = .ok ()
  sectors : device.sectors = plan.sectors
  kind : plan.kind ≠ .none

theorem requireExclusive_eq_ok :
    device.requireExclusive = .ok () ↔ device.validate = .ok () ∧ device.exclusive = true := by
  unfold BlockDevice.requireExclusive
  cases device.validate with
  | error fault => simp [bind, Except.bind]
  | ok valid => simp [ok_bind]

theorem arrayBytes_small (sound : plan.Sound) : plan.arrayBytes.length ≤ max_transfer_bytes := by
  have capacity : plan.entry_count ≤ 128 := sound.capacity
  have array : arraySectors plan.entry_count ≤ 32 := by
    unfold arraySectors
    omega
  rw [arrayBytes_length sound.capacity]
  exact (Nat.mul_le_mul_left _ array).trans (by decide)

theorem header_small {current other entries checksum : Nat} :
    (plan.header current other entries checksum).length ≤ max_transfer_bytes := by
  rw [header_length]
  decide

theorem publish_keeps {always : BlockWorld → Prop} (kind : plan.kind ≠ .mbr)
    (array : plan.arrayBytes.length ≤ max_transfer_bytes)
    (between : ∀ front rest, plan.writes = front ++ rest → always (wroteAll world front))
    (within : ∀ front write rest left, plan.writes = front ++ write :: rest →
      tears (wroteAll world front).disk write.1 write.2 left →
      always (torn (wroteAll world front) write.1 write.2 left)) :
    Keeps (blockDevice tears) always (fun _ after => after = wroteAll world plan.writes)
      (do
        plan.writeCopies device
        device.write 0 plan.mbrBytes
        device.flush
        device.verify 0 plan.mbrBytes work) world := by
  have mbr : plan.mbrBytes.length ≤ max_transfer_bytes := by
    rw [mbrBytes_length]
    decide
  have copies : Keeps (blockDevice tears) always
      (fun _ after => after = wroteAll world (plan.writes.take 4)) (plan.writeCopies device) world := by
    rw [Plan.writeCopies, if_neg kind]
    refine .bind (writeCopy_keeps (between [] _ rfl) array header_small
      (between (plan.writes.take 1) _ rfl) (fun left cut => within [] _ _ left rfl cut)
      (between (plan.writes.take 2) _ rfl)
      fun left cut => within (plan.writes.take 1) _ _ left rfl cut) ?_
    rintro - _ - rfl
    exact writeCopy_keeps (between (plan.writes.take 2) _ rfl) array header_small
      (between (plan.writes.take 3) _ rfl)
      (fun left cut => within (plan.writes.take 2) _ _ left rfl cut)
      (between (plan.writes.take 4) _ rfl)
      fun left cut => within (plan.writes.take 3) _ _ left rfl cut
  refine .bind copies ?_
  rintro - _ - rfl
  refine .bind (write_wrote (between (plan.writes.take 4) _ rfl) mbr
    (between plan.writes [] rfl) fun left cut => within (plan.writes.take 4) _ _ left rfl cut) ?_
  rintro - _ - rfl
  refine .bind_same (BlockDevice.flush_keeps (between plan.writes [] rfl)) fun _ _ => ?_
  refine (BlockDevice.verify_keeps (between plan.writes [] rfl)).mono fun _ _ _ finished => ?_
  exact finished.1

variable [DecidableEq Digest]

theorem commit_keeps_gpt (kind : plan.kind = .gpt) :
    Keeps (blockDevice tears)
      (fun after => after = world ∨
        Committable plan device ∧ Interrupted tears plan.writes world after)
      (fun _ after => Committable plan device ∧ after = wroteAll world plan.writes)
      (plan.commit sha256 device work) world := by
  refine .computed_bind (.inl rfl) fun _ validated => ?_
  refine .computed_bind (.inl rfl) fun _ exclusive => ?_
  refine .require_bind (.inl rfl) fun geometry => ?_
  refine .require_bind (.inl rfl) fun erasing => ?_
  refine .bind_same (Source.hash_keeps (.inl rfl)) fun digest _ => ?_
  refine .require_bind (.inl rfl) fun _ => ?_
  have keeps_source : plan.erase_source_gpt = false := by simpa [kind] using erasing
  simp only [Bool.and_eq_true, decide_eq_true_eq] at geometry
  obtain ⟨⟨⟨⟨sectors, some_kind⟩, -⟩, -⟩, -⟩ := geometry
  have committable : Committable plan device :=
    ⟨Plan.validate_eq_ok.mp validated, (requireExclusive_eq_ok.mp exclusive).1, sectors, some_kind⟩
  rw [Plan.eraseSource, if_neg (by simp [keeps_source])]
  refine (publish_keeps (by simp [kind]) (arrayBytes_small committable.sound) ?_ ?_).mono
    fun _ _ _ finished => ⟨committable, finished⟩
  · intro front rest split
    exact .inr ⟨committable, .between front rest split⟩
  · intro front write rest left split cut
    exact .inr ⟨committable, .within front rest write left split cut⟩

theorem keeps_trivially {Result : Type} (program : Action Result) :
    Keeps (blockDevice tears) (fun _ => True) (fun _ _ => True) program world := by
  refine Ensures.mono (Ensures.of_invariant program.run ?_ trivial) (fun _ kept => kept) ?_
  · exact fun _ _ _ _ _ _ => trivial
  · exact fun _ _ _ _ _ _ => trivial

theorem commit_keeps_boot :
    Keeps (blockDevice tears) (fun _ => True)
      (fun _ after => Committable plan device ∧
        ∃ before : Disk, after.disk = before.write 0 plan.mbrBytes)
      (plan.commit sha256 device work) world := by
  have mbr : plan.mbrBytes.length ≤ max_transfer_bytes := by
    rw [mbrBytes_length]
    decide
  refine .computed_bind trivial fun _ validated => ?_
  refine .computed_bind trivial fun _ exclusive => ?_
  refine .require_bind trivial fun geometry => ?_
  refine .require_bind trivial fun _ => ?_
  refine .bind_same (Source.hash_keeps trivial) fun digest _ => ?_
  refine .require_bind trivial fun _ => ?_
  simp only [Bool.and_eq_true, decide_eq_true_eq] at geometry
  obtain ⟨⟨⟨⟨sectors, some_kind⟩, -⟩, -⟩, -⟩ := geometry
  have committable : Committable plan device :=
    ⟨Plan.validate_eq_ok.mp validated, (requireExclusive_eq_ok.mp exclusive).1, sectors, some_kind⟩
  refine .bind (keeps_trivially _) fun _ erased _ _ => ?_
  refine .bind (keeps_trivially _) fun _ before _ _ => ?_
  refine .bind (write_wrote trivial mbr trivial fun _ _ => trivial) ?_
  rintro - _ - rfl
  refine .bind_same (BlockDevice.flush_keeps trivial) fun _ _ => ?_
  refine (BlockDevice.verify_keeps trivial).mono fun _ after _ finished => ?_
  exact ⟨committable, before.disk, congrArg BlockWorld.disk finished.1⟩

omit [DecidableEq Digest] in
theorem writeCopy_returns {array_lba header_lba count : Nat} {array header : Bytes}
    (valid : device.validate = .ok ()) (exclusive : device.exclusive = true)
    (array_sized : array.length = sector_size * count) (header_sized : header.length = sector_size * 1)
    (some_sectors : 0 < count) (small : array.length ≤ max_transfer_bytes)
    (array_inside : array_lba + count ≤ device.sectors) (header_inside : header_lba < device.sectors)
    (apart : array_lba + count ≤ header_lba ∨ header_lba + 1 ≤ array_lba) :
    Returns (Plan.writeCopy device array_lba array header_lba header) world (.ok ())
      (wrote (wrote world array_lba array) header_lba header) := by
  have header_small : header.length ≤ max_transfer_bytes := by
    rw [header_sized]
    decide
  have array_held : (wrote (wrote world array_lba array) header_lba header).disk.read array_lba count =
      array := by
    refine (Disk.write_read_other header_sized apart).trans ?_
    exact Disk.write_read _ _ array_sized
  have header_held : (wrote (wrote world array_lba array) header_lba header).disk.read header_lba 1 =
      header := Disk.write_read _ _ header_sized
  refine .bind (BlockDevice.write_returns valid exclusive array_sized some_sectors small
    array_inside world) ?_
  refine .bind (BlockDevice.write_returns valid exclusive header_sized one_pos header_small
    header_inside _) ?_
  refine .bind (BlockDevice.flush_returns valid exclusive _) ?_
  refine .bind (BlockDevice.verify_returns valid (by decide) (by decide) some_sectors
    array_held array_inside) ?_
  exact BlockDevice.verify_returns valid (by decide) (by decide) one_pos header_held header_inside

theorem commit_returns (committable : Committable plan device) (exclusive : device.exclusive = true)
    (kind : plan.kind = .gpt) (keeps_source : plan.erase_source_gpt = false)
    (some_spans : plan.source.spans ≠ [])
    (inside : ∀ span ∈ plan.source.spans, span.first + span.count ≤ device.sectors)
    (fresh : plan.source.digest = some (sha256 (spanBytes world.disk plan.source.spans)))
    (room : max_array_bytes * 2 ≤ work) (aligned : work % sector_size = 0) :
    Returns (plan.commit sha256 device work) world (.ok ()) (wroteAll world plan.writes) := by
  obtain ⟨sound, valid, sectors, some_kind⟩ := committable
  obtain ⟨-, some_entries, after_header, before_usable, behind_usable, before_header⟩ :=
    sound.kind.gpt kind
  have usable := sound.usable
  have array_pos := arraySectors_pos some_entries
  have array := arrayBytes_length sound.capacity
  have small := arrayBytes_small sound
  have space : sector_size ≤ work := le_trans (by decide) room
  refine .bind (.computed (Plan.validate_eq_ok.mpr sound) world) ?_
  refine .bind (.computed (requireExclusive_eq_ok.mpr ⟨valid, exclusive⟩) world) ?_
  refine .bind (.require (by simp [sectors, kind, some_spans, room, aligned]) world) ?_
  refine .bind (.require (by simp [keeps_source]) world) ?_
  refine .bind (Source.hash_returns valid space aligned inside world) ?_
  refine .bind (.require (decide_eq_true fresh) world) ?_
  rw [Plan.eraseSource, if_neg (by simp [keeps_source]), Plan.writeCopies, if_neg (by simp [kind])]
  refine .bind (.pure () world) ?_
  have backup := @writeCopy_returns device world plan.backup_array (plan.sectors - 1) _ _
    plan.backupHeader valid exclusive array header_length array_pos small (by omega) (by omega)
    (by omega)
  refine .bind (.bind backup (writeCopy_returns valid exclusive array header_length
    array_pos small (by omega) (by omega) (by omega))) ?_
  refine .bind (BlockDevice.write_returns valid exclusive mbrBytes_length one_pos
    (by rw [mbrBytes_length]; decide) (by omega) _) ?_
  refine .bind (BlockDevice.flush_returns valid exclusive _) ?_
  exact BlockDevice.verify_returns valid space aligned one_pos
    (Disk.write_read _ _ mbrBytes_length) (by omega)

end Commits

end R4OS.Gpt
