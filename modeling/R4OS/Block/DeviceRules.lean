import R4OS.Block.Device

/-!
# Rules for programs over devices

What reading, writing and comparing sectors establishes on every device, and what they return on a
device that answers every call.
-/

namespace R4OS.Block

open Crash Text

section Keeps

variable {tears : Disk → Nat → Bytes → Disk → Prop} {always : BlockWorld → Prop}
  {world : BlockWorld} {device : BlockDevice} {lba count scratch : Nat} {data expected : Bytes}

variable (always_now : always world)

include always_now

theorem block_quiet {operation : BlockCall} {fact : operation.Value → Prop}
    (quiet : ∀ reply after, blockDevice tears operation world reply after →
      after = world ∧ ∀ value, reply = .ok value → fact value) :
    Keeps (blockDevice tears) always (fun value after => after = world ∧ fact value)
      (block operation) world := by
  refine .call always_now fun reply after transition => ?_
  obtain ⟨rfl, facts⟩ := quiet reply after transition
  exact ⟨always_now, fun value answered => ⟨rfl, facts value answered⟩⟩

theorem checkpoint_keeps :
    Keeps (blockDevice tears) always (fun _ after => after = world ∧ True) (block .checkpoint)
      world :=
  block_quiet always_now fun _ _ transition => ⟨transition.1, fun _ _ => trivial⟩

theorem readTransfers_keeps {rounds : Nat} (enough : count ≤ rounds) :
    Keeps (blockDevice tears) always
      (fun bytes after => after = world ∧ bytes = world.disk.read lba count)
      (BlockDevice.readTransfers rounds lba count) world := by
  induction rounds generalizing lba count with
  | zero =>
    obtain rfl := Nat.le_zero.mp enough
    exact .pure always_now ⟨rfl, (Disk.read_zero _ _).symm⟩
  | succ rounds induction =>
    unfold BlockDevice.readTransfers
    split
    · next empty =>
        subst empty
        exact .pure always_now ⟨rfl, (Disk.read_zero _ _).symm⟩
    next some_left =>
    have transfer_pos : 0 < BlockDevice.transfer_sectors := by decide
    refine .bind_same (checkpoint_keeps always_now) fun _ _ => ?_
    have transfer : Keeps (blockDevice tears) always
        (fun (bytes : Bytes) after => after = world ∧
          bytes = world.disk.read lba (min count BlockDevice.transfer_sectors))
        (block (.read lba (min count BlockDevice.transfer_sectors))) world := by
      refine block_quiet always_now fun reply after transition => ⟨transition.1, ?_⟩
      rintro value rfl
      exact transition.2.elim Except.ok.inj nofun
    refine .bind_same transfer fun bytes bytes_eq => ?_
    refine .bind_same (induction (by omega)) fun rest rest_eq => ?_
    refine .pure always_now ⟨rfl, ?_⟩
    rw [bytes_eq, rest_eq, ← Disk.read_add, Nat.add_sub_cancel' (min_le_left _ _)]

theorem BlockDevice.read_keeps :
    Keeps (blockDevice tears) always
      (fun bytes after => after = world ∧ bytes = world.disk.read lba count)
      (device.read lba count) world := by
  refine .require_bind always_now fun _ => ?_
  exact .computed_bind always_now fun _ _ => readTransfers_keeps always_now le_rfl

theorem BlockDevice.flush_keeps :
    Keeps (blockDevice tears) always (fun _ after => after = world ∧ True) device.flush world := by
  refine .computed_bind always_now fun _ _ => ?_
  exact block_quiet always_now fun _ _ transition => ⟨transition.1, fun _ _ => trivial⟩

/-- A comparison that returns has found what was expected. -/
theorem verifyRounds_keeps {rounds : Nat}
    (aligned : scratch % sector_size = 0) (room : sector_size ≤ scratch)
    (sized : expected.length = sector_size * count) (enough : expected.length ≤ rounds) :
    Keeps (blockDevice tears) always
      (fun _ after => after = world ∧ world.disk.read lba count = expected)
      (device.verifyRounds scratch rounds lba expected) world := by
  have positive : 0 < sector_size := by decide
  induction rounds generalizing lba expected count with
  | zero =>
    obtain rfl := List.length_eq_zero_iff.mp (Nat.le_zero.mp enough)
    obtain rfl : count = 0 := by
      rcases Nat.mul_eq_zero.mp sized.symm with zero | zero
      · exact absurd zero (by decide)
      · exact zero
    exact .pure always_now ⟨rfl, Disk.read_zero _ _⟩
  | succ rounds induction =>
    unfold BlockDevice.verifyRounds
    split
    · next empty =>
        subst empty
        obtain rfl : count = 0 := by
          rcases Nat.mul_eq_zero.mp sized.symm with zero | zero
          · exact absurd zero (by decide)
          · exact zero
        exact .pure always_now ⟨rfl, Disk.read_zero _ _⟩
    next some_left =>
    have some_bytes := List.length_pos_of_ne_nil some_left
    obtain ⟨buffer, rfl⟩ : ∃ buffer, scratch = sector_size * buffer :=
      ⟨scratch / sector_size, (Nat.mul_div_cancel' (Nat.dvd_of_mod_eq_zero aligned)).symm⟩
    have buffer_pos : 0 < buffer := Nat.pos_of_ne_zero (by rintro rfl; omega)
    have part : (expected.take (sector_size * buffer)).length / sector_size = min buffer count := by
      rw [List.length_take, sized, Nat.mul_min_mul_left, Nat.mul_div_cancel_left _ positive]
    rw [part]
    refine .bind_same (BlockDevice.read_keeps always_now) fun found found_eq => ?_
    refine .require_bind always_now fun same => ?_
    have rest_sized : (expected.drop (sector_size * buffer)).length =
        sector_size * (count - min buffer count) := by
      rw [List.length_drop, sized, ← Nat.mul_sub]
      congr 1
      omega
    have smaller : (expected.drop (sector_size * buffer)).length ≤ rounds := by
      rw [List.length_drop]
      have := Nat.mul_pos positive buffer_pos
      omega
    refine (induction rest_sized smaller).mono fun _ after _ finished => ?_
    obtain ⟨after_eq, rest_eq⟩ := finished
    refine ⟨after_eq, ?_⟩
    have front_eq : world.disk.read lba (min buffer count) = expected.take (sector_size * buffer) :=
      found_eq.symm.trans (beq_iff_eq.mp same)
    have whole : count = min buffer count + (count - min buffer count) := by omega
    calc world.disk.read lba count
        = world.disk.read lba (min buffer count + (count - min buffer count)) := by rw [← whole]
      _ = expected.take (sector_size * buffer) ++ expected.drop (sector_size * buffer) := by
          rw [Disk.read_add, front_eq, rest_eq]
      _ = expected := List.take_append_drop _ _

theorem BlockDevice.verify_keeps :
    Keeps (blockDevice tears) always
      (fun _ after => after = world ∧ world.disk.read lba (expected.length / sector_size) = expected)
      (device.verify lba expected scratch) world := by
  refine .require_bind always_now fun sized => ?_
  simp only [Bool.and_eq_true, decide_eq_true_eq] at sized
  obtain ⟨⟨⟨room, aligned⟩, -⟩, whole⟩ := sized
  refine .computed_bind always_now fun _ _ => ?_
  exact verifyRounds_keeps always_now aligned room
    (Nat.mul_div_cancel' (Nat.dvd_of_mod_eq_zero whole)).symm le_rfl

theorem BlockDevice.write_keeps {post : BlockWorld → Prop}
    (small : data.length ≤ max_transfer_bytes) (done : always ⟨world.disk.write lba data,
        world.written ++ [(lba, data.length / sector_size)]⟩ ∧
      post ⟨world.disk.write lba data, world.written ++ [(lba, data.length / sector_size)]⟩)
    (cut : ∀ left, tears world.disk lba data left →
      always ⟨left, world.written ++ [(lba, data.length / sector_size)]⟩) :
    Keeps (blockDevice tears) always (fun _ after => post after) (device.write lba data) world := by
  refine .computed_bind always_now fun _ _ => ?_
  refine .require_bind always_now fun sized => ?_
  refine .computed_bind always_now fun _ _ => ?_
  simp only [Bool.and_eq_true, decide_eq_true_eq] at sized
  obtain ⟨rounds, rounds_eq⟩ := Nat.exists_eq_succ_of_ne_zero sized.1
  rw [rounds_eq]
  unfold BlockDevice.writeTransfers
  rw [if_neg (by rintro rfl; exact sized.1 rfl), List.take_of_length_le small,
    List.drop_eq_nil_of_le small]
  refine .bind_same (checkpoint_keeps always_now) fun _ _ => ?_
  have transfer : Keeps (blockDevice tears) always (fun _ after => post after)
      (block (.write lba data)) world := by
    refine .call always_now ?_
    rintro reply ⟨disk, written⟩ ⟨rfl, ⟨rfl, rfl⟩ | ⟨rfl, torn⟩⟩
    · exact ⟨done.1, fun _ _ => done.2⟩
    · exact ⟨cut disk torn, nofun⟩
  refine .bind transfer fun _ after kept finished => ?_
  cases rounds with
  | zero | succ rounds => exact .pure kept finished

end Keeps

/-- What a program returns on a device that answers every call. -/
def Returns {Result : Type} (program : Action Result) (world : BlockWorld) (result : Except Fault Result)
    (after : BlockWorld) : Prop :=
  program.run.run idealDisk world = (result, after)

section Returns

variable {First Second : Type} {world after last : BlockWorld} {device : BlockDevice}
  {lba count scratch : Nat} {data expected : Bytes}

theorem Returns.execution {program : Action First} {result : Except Fault First}
    (returns : Returns program world result after) (tears : Disk → Nat → Bytes → Disk → Prop) :
    Execution (blockDevice tears) program.run world (some result) after := by
  have run := Program.run_execution (idealDisk_device tears) program.run world
  rwa [show program.run.run idealDisk world = (result, after) from returns] at run

theorem Returns.pure (value : First) (world : BlockWorld) :
    Returns (pure value) world (.ok value) world := rfl

theorem Returns.bind {program : Action First} {rest : First → Action Second} {value : First}
    {result : Except Fault Second} (first : Returns program world (.ok value) after)
    (second : Returns (rest value) after result last) :
    Returns (program >>= rest) world result last := by
  have run := @Program.run_bind _ _ _ _ _ idealDisk program.run (ExceptT.bindCont rest) world
  rw [show program.run.run idealDisk world = (.ok value, after) from first] at run
  exact run.trans second

theorem Returns.computed {result computation : Except Fault First} (same : computation = result)
    (world : BlockWorld) : Returns (computed computation) world result world := by
  rw [same]
  rfl

theorem Returns.require {condition : Bool} {fault : Fault} (holds : condition = true)
    (world : BlockWorld) : Returns (require condition fault) world (.ok ()) world := by
  rw [Crash.require, if_pos holds]
  rfl

theorem block_returns (operation : BlockCall) {value : operation.Value}
    (answered : (idealDisk operation world).1 = .ok value)
    (left : (idealDisk operation world).2 = after) :
    Returns (block operation) world (.ok value) after :=
  Prod.ext answered left

theorem BlockDevice.checkRange_eq_ok :
    device.checkRange lba count = .ok () ↔
      device.validate = .ok () ∧ 0 < count ∧ lba + count ≤ device.sectors := by
  unfold BlockDevice.checkRange
  cases device.validate with
  | error fault => simp [bind, Except.bind]
  | ok valid =>
    refine refuse_eq_ok.trans ?_
    simp
    omega

theorem readTransfers_returns {rounds : Nat} (enough : count ≤ rounds) (world : BlockWorld) :
    Returns (BlockDevice.readTransfers rounds lba count) world (.ok (world.disk.read lba count))
      world := by
  induction rounds generalizing lba count with
  | zero =>
    obtain rfl := Nat.le_zero.mp enough
    rw [Disk.read_zero]
    exact .pure [] world
  | succ rounds induction =>
    unfold BlockDevice.readTransfers
    split
    · next empty =>
        subst empty
        rw [Disk.read_zero]
        exact .pure [] world
    next some_left =>
    have transfer_pos : 0 < BlockDevice.transfer_sectors := by decide
    have whole : count = min count BlockDevice.transfer_sectors +
        (count - min count BlockDevice.transfer_sectors) := by omega
    have joined : world.disk.read lba count =
        world.disk.read lba (min count BlockDevice.transfer_sectors) ++
          world.disk.read (lba + min count BlockDevice.transfer_sectors)
            (count - min count BlockDevice.transfer_sectors) := by
      rw [← Disk.read_add, ← whole]
    rw [joined]
    refine .bind (block_returns .checkpoint rfl rfl) ?_
    refine .bind (block_returns (.read lba _) rfl rfl) ?_
    exact .bind (induction (by omega)) (.pure _ world)

theorem BlockDevice.read_returns (valid : device.validate = .ok ()) (some_sectors : 0 < count)
    (inside : lba + count ≤ device.sectors) (world : BlockWorld) :
    Returns (device.read lba count) world (.ok (world.disk.read lba count)) world := by
  refine .bind (.require (by simpa using some_sectors.ne') world) ?_
  have range := BlockDevice.checkRange_eq_ok.mpr ⟨valid, some_sectors, inside⟩
  exact .bind (.computed range world)
    (readTransfers_returns le_rfl world)

theorem writeTransfers_returns {rounds : Nat} (some_left : data ≠ [])
    (small : data.length ≤ max_transfer_bytes) (world : BlockWorld) :
    Returns (BlockDevice.writeTransfers (rounds + 1) lba data) world (.ok ())
      ⟨world.disk.write lba data, world.written ++ [(lba, data.length / sector_size)]⟩ := by
  unfold BlockDevice.writeTransfers
  rw [if_neg some_left, List.take_of_length_le small, List.drop_eq_nil_of_le small]
  refine .bind (block_returns .checkpoint rfl rfl) ?_
  refine .bind (block_returns (.write lba data) rfl rfl) ?_
  cases rounds with
  | zero | succ rounds => exact .pure () _

variable (valid : device.validate = .ok ())

include valid

theorem BlockDevice.write_returns (exclusive : device.exclusive = true)
    (sized : data.length = sector_size * count) (some_sectors : 0 < count)
    (small : data.length ≤ max_transfer_bytes) (inside : lba + count ≤ device.sectors)
    (world : BlockWorld) :
    Returns (device.write lba data) world (.ok ())
      ⟨world.disk.write lba data, world.written ++ [(lba, data.length / sector_size)]⟩ := by
  have positive : 0 < sector_size := by decide
  have some_bytes : 0 < data.length := by
    rw [sized]
    exact Nat.mul_pos positive some_sectors
  have counted : data.length / sector_size = count := by
    rw [sized, Nat.mul_div_cancel_left _ positive]
  have whole : data.length % sector_size = 0 := by rw [sized, Nat.mul_mod_right]
  have allowed : device.requireExclusive = .ok () := by
    rw [BlockDevice.requireExclusive, valid]
    simp [exclusive, bind, Except.bind]
  have range : device.checkRange lba (data.length / sector_size) = .ok () := by
    rw [counted]
    exact BlockDevice.checkRange_eq_ok.mpr ⟨valid, some_sectors, inside⟩
  refine .bind (.computed allowed world) ?_
  refine .bind (.require (by simp [whole, some_bytes.ne']) world) ?_
  refine .bind (.computed range world) ?_
  obtain ⟨rounds, rounds_eq⟩ := Nat.exists_eq_add_one_of_ne_zero some_bytes.ne'
  have transfers := @writeTransfers_returns lba data rounds
    (List.ne_nil_of_length_pos some_bytes) small world
  rwa [← rounds_eq] at transfers

theorem BlockDevice.flush_returns (exclusive : device.exclusive = true)
    (world : BlockWorld) : Returns device.flush world (.ok ()) world := by
  have allowed : device.requireExclusive = .ok () := by
    rw [BlockDevice.requireExclusive, valid]
    simp [exclusive, bind, Except.bind]
  exact .bind (.computed allowed world) (block_returns .flush rfl rfl)

theorem verifyRounds_returns {buffer : Nat} (some_buffer : 0 < buffer)
    {rounds : Nat} (holds : world.disk.read lba count = expected)
    (inside : lba + count ≤ device.sectors) (enough : expected.length ≤ rounds) :
    Returns (device.verifyRounds (sector_size * buffer) rounds lba expected) world (.ok ()) world := by
  have positive : 0 < sector_size := by decide
  induction rounds generalizing lba expected count with
  | zero => exact .pure () world
  | succ rounds induction =>
    unfold BlockDevice.verifyRounds
    split
    · exact .pure () world
    next some_left =>
    have sized : expected.length = sector_size * count := by rw [← holds, Disk.read_length]
    have some_bytes := List.length_pos_of_ne_nil some_left
    have some_sectors : 0 < count := Nat.pos_of_ne_zero (by rintro rfl; omega)
    have part : (expected.take (sector_size * buffer)).length / sector_size = min buffer count := by
      rw [List.length_take, sized, Nat.mul_min_mul_left, Nat.mul_div_cancel_left _ positive]
    have whole : count = min buffer count + (count - min buffer count) := by omega
    have joined : world.disk.read lba (min buffer count) ++
        world.disk.read (lba + min buffer count) (count - min buffer count) = expected := by
      rw [← Disk.read_add, ← whole, holds]
    have front_length : (world.disk.read lba (min buffer count)).length =
        sector_size * min buffer count := Disk.read_length _ _ _
    have front : world.disk.read lba (min buffer count) = expected.take (sector_size * buffer) := by
      rcases Nat.le_total buffer count with less | more
      · rw [Nat.min_eq_left less] at joined front_length ⊢
        rw [← joined, ← front_length, List.take_left]
      · rw [Nat.min_eq_right more, holds, List.take_of_length_le]
        rw [sized]
        exact Nat.mul_le_mul_left _ more
    have rest : world.disk.read (lba + min buffer count) (count - min buffer count) =
        expected.drop (sector_size * buffer) := by
      have split := joined.trans (List.take_append_drop (sector_size * buffer) expected).symm
      rw [front] at split
      exact List.append_cancel_left split
    rw [part]
    refine .bind (BlockDevice.read_returns valid (by omega) (by omega) world) ?_
    refine .bind (.require (by rw [front]; exact beq_self_eq_true _) world) ?_
    refine induction rest (by omega) ?_
    rw [List.length_drop]
    have := Nat.mul_pos positive some_buffer
    omega

theorem BlockDevice.verify_returns
    (room : sector_size ≤ scratch) (aligned : scratch % sector_size = 0) (some_sectors : 0 < count)
    (holds : world.disk.read lba count = expected) (inside : lba + count ≤ device.sectors) :
    Returns (device.verify lba expected scratch) world (.ok ()) world := by
  have positive : 0 < sector_size := by decide
  have sized : expected.length = sector_size * count := by rw [← holds, Disk.read_length]
  have some_bytes : 0 < expected.length := by
    rw [sized]
    exact Nat.mul_pos positive some_sectors
  have counted : expected.length / sector_size = count := by
    rw [sized, Nat.mul_div_cancel_left _ positive]
  have whole : expected.length % sector_size = 0 := by rw [sized, Nat.mul_mod_right]
  have range : device.checkRange lba (expected.length / sector_size) = .ok () := by
    rw [counted]
    exact BlockDevice.checkRange_eq_ok.mpr ⟨valid, some_sectors, inside⟩
  obtain ⟨buffer, rfl⟩ : ∃ buffer, scratch = sector_size * buffer :=
    ⟨scratch / sector_size, (Nat.mul_div_cancel' (Nat.dvd_of_mod_eq_zero aligned)).symm⟩
  have some_buffer : 0 < buffer := Nat.pos_of_ne_zero (by rintro rfl; omega)
  refine .bind (.require (by simp [room, aligned, whole, some_bytes.ne']) world) ?_
  refine .bind (.computed range world) ?_
  exact verifyRounds_returns valid some_buffer holds inside le_rfl

end Returns

end R4OS.Block
