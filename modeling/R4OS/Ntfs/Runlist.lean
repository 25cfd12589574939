import R4OS.Text.Bytes
import Mathlib.Tactic.Ring

/-!
# Run lists of NTFS attributes

A non-resident attribute stores its extents as mapping pairs: a header byte with two field widths,
the length and the signed distance from the previous extent.  Reading the pairs that were written
for a run list gives the run list back.
-/

namespace R4OS.Ntfs

open Text

variable {rounds capacity : Nat} {run : Run} {previous : Int} {runs : List Run} {pairs : Bytes}

/-- An extent of an attribute.  An extent without a location is a hole. -/
structure Run where
  length_clusters : Nat
  lcn : Option Nat

/-- Addition of machine words that refuses to wrap. -/
def checkedAddU64 (a b : Nat) : Option Nat := if a + b < 2 ^ 64 then some (a + b) else none

/-- Multiplication of machine words that refuses to wrap. -/
def checkedMulU64 (a b : Nat) : Option Nat := if a * b < 2 ^ 64 then some (a * b) else none

theorem checkedAddU64_eq_some {a b sum : Nat} :
    checkedAddU64 a b = some sum ↔ a + b < 2 ^ 64 ∧ sum = a + b := by
  simp [checkedAddU64, eq_comm]

theorem checkedMulU64_eq_some {a b product : Nat} :
    checkedMulU64 a b = some product ↔ a * b < 2 ^ 64 ∧ product = a * b := by
  simp [checkedMulU64, eq_comm]

/-- The low bytes of a number, least significant byte first. -/
def littleEndian : (width value : Nat) → Bytes
  | 0, _ => []
  | width + 1, value => UInt8.ofNat (value % 256) :: littleEndian width (value / 256)

/-- The number with the given bytes, least significant byte first. -/
def fromLittleEndian : Bytes → Nat
  | [] => 0
  | byte :: rest => byte.toNat + 256 * fromLittleEndian rest

@[simp] theorem littleEndian_length (width value : Nat) :
    (littleEndian width value).length = width := by
  induction width generalizing value with
  | zero => rfl
  | succ width induction => simp [littleEndian, induction]

theorem fromLittleEndian_littleEndian (width value : Nat) :
    fromLittleEndian (littleEndian width value) = value % 256 ^ width := by
  induction width generalizing value with
  | zero => simp [littleEndian, fromLittleEndian, Nat.mod_one]
  | succ width induction =>
    have low : (UInt8.ofNat (value % 256)).toNat = value % 256 := by
      rw [UInt8.toNat_ofNat']
      omega
    rw [littleEndian, fromLittleEndian, induction, low, Nat.pow_succ', Nat.mod_mul]

/-- The signed number whose two's complement of the given width is the given number. -/
def signExtend (width raw : Nat) : Int :=
  if raw < 2 ^ (8 * width - 1) then raw else (raw : Int) - 2 ^ (8 * width)

theorem signExtend_emod (width : Nat) (value : Int) (width_pos : 0 < width)
    (lower : -2 ^ (8 * width - 1) ≤ value) (upper : value < 2 ^ (8 * width - 1)) :
    signExtend width (value % 2 ^ (8 * width)).toNat = value := by
  have double : (2 : Int) ^ (8 * width) = 2 * 2 ^ (8 * width - 1) := by
    rw [← Int.pow_succ']
    congr 1
    omega
  have positive : (0 : Int) < 2 ^ (8 * width - 1) := by positivity
  unfold signExtend
  by_cases sign : 0 ≤ value
  · have raw : value % 2 ^ (8 * width) = value := Int.emod_eq_of_lt sign (by omega)
    have small : value.toNat < 2 ^ (8 * width - 1) := by
      zify
      omega
    rw [raw, if_pos small]
    omega
  · have raw : value % 2 ^ (8 * width) = value + 2 ^ (8 * width) := by
      rw [← Int.add_emod_right]
      exact Int.emod_eq_of_lt (by omega) (by omega)
    have large : ¬(value + 2 ^ (8 * width)).toNat < 2 ^ (8 * width - 1) := by
      zify
      omega
    rw [raw, if_neg large]
    omega

/-- Bytes that a number needs, counted in at most the given number of rounds. -/
def byteCount : (rounds value : Nat) → Nat
  | 0, _ => 0
  | rounds + 1, value => if value = 0 then 0 else byteCount rounds (value / 256) + 1

/-- Width of the length field.  A set top bit is padded with a zero byte. -/
def lengthSize (length_clusters : Nat) : Nat :=
  let size := byteCount 8 length_clusters
  if size < 8 ∧ length_clusters / 2 ^ (8 * size - 1) % 2 = 1 then size + 1 else size

/-- Whether a distance fits a signed field of the given width. -/
def fitsSigned (width : Nat) (delta : Int) : Bool :=
  -2 ^ (8 * width - 1) ≤ delta && delta ≤ 2 ^ (8 * width - 1) - 1

/-- Width of the distance field, from the given width on. -/
def offsetSizeFrom (delta : Int) : (rounds width : Nat) → Nat
  | 0, width => width
  | rounds + 1, width =>
    if fitsSigned width delta then width else offsetSizeFrom delta rounds (width + 1)

/-- Width of the distance field.  A hole has none. -/
def offsetSize : Option Int → Nat
  | none => 0
  | some delta => offsetSizeFrom delta 7 1

/-- One mapping pair, unless the buffer is too small. -/
def encodeRun (capacity length_clusters : Nat) (lcn_delta : Option Int) : Option Bytes :=
  if length_clusters = 0 then none
  else
    let length_size := lengthSize length_clusters
    let offset_size := offsetSize lcn_delta
    if capacity < 1 + length_size + offset_size then none
    else
      let raw := match lcn_delta with
        | none => 0
        | some delta => (delta % 2 ^ 64).toNat
      some (UInt8.ofNat (offset_size * 16 + length_size) ::
        (littleEndian length_size length_clusters ++ littleEndian offset_size raw))

/-- Signed distance of a run from the previous extent. -/
def Run.delta (run : Run) (previous : Int) : Option Int :=
  run.lcn.map fun (lcn : Nat) => (lcn : Int) - previous

/-- The location that the next distance is relative to. -/
def Run.next (run : Run) (previous : Int) : Int := (run.lcn.map Int.ofNat).getD previous

/-- Mapping pairs of a run list behind an extent that started at `previous`. -/
def encodeRuns (capacity : Nat) (previous : Int) : List Run → Option Bytes
  | [] => if capacity = 0 then none else some [0]
  | run :: rest =>
    if capacity = 0 ∨ 0x7FFFFFFFFFFFFFFF < run.lcn.getD 0 then none
    else do
      let pair ← encodeRun capacity run.length_clusters (run.delta previous)
      let pairs ← encodeRuns (capacity - pair.length) (run.next previous) rest
      return pair ++ pairs

/-- The distance field of a mapping pair.  A field without bytes belongs to a hole. -/
def readDelta (current : Int) (field : Bytes) : Option (Option Nat × Int) :=
  if field = [] then some (none, current)
  else
    let delta := signExtend field.length (fromLittleEndian field)
    if current + delta < 0 ∨ 2 ^ 63 ≤ current + delta then none
    else some (some (current + delta).toNat, current + delta)

/-- The runs of mapping pairs that end with a zero header. -/
def decodeRuns : (rounds : Nat) → (current : Int) → Bytes → Option (List Run)
  | 0, _, _ => none
  | _ + 1, _, [] => none
  | rounds + 1, current, header :: rest =>
    let length_size := header.toNat % 16
    let offset_size := header.toNat / 16
    if header = 0 then some []
    else if length_size = 0 ∨ 8 < length_size ∨ 8 < offset_size then none
    else if rest.length < length_size + offset_size then none
    else if fromLittleEndian (rest.take length_size) = 0 then none
    else do
      let (lcn, next) ← readDelta current ((rest.drop length_size).take offset_size)
      let runs ← decodeRuns rounds next (rest.drop (length_size + offset_size))
      return { length_clusters := fromLittleEndian (rest.take length_size), lcn := lcn } :: runs

def readMappingPairs (mapping : Bytes) : Option (List Run) :=
  decodeRuns (mapping.length + 1) 0 mapping

/-- Runs that mapping pairs can represent. -/
def Run.Encodable (run : Run) : Prop :=
  0 < run.length_clusters ∧ run.length_clusters < 2 ^ 64 ∧ ∀ lcn, run.lcn = some lcn → lcn < 2 ^ 63

theorem byteCount_le (rounds value : Nat) : byteCount rounds value ≤ rounds := by
  induction rounds generalizing value with
  | zero => simp [byteCount]
  | succ rounds induction =>
    unfold byteCount
    split
    · omega
    · have := induction (value / 256)
      omega

theorem byteCount_pos {value : Nat} (value_pos : 0 < value) :
    0 < byteCount (rounds + 1) value := by
  simp [byteCount, Nat.ne_of_gt value_pos]

theorem lt_pow_byteCount {value : Nat} (bound : value < 256 ^ rounds) :
    value < 256 ^ byteCount rounds value := by
  induction rounds generalizing value with
  | zero => simpa [byteCount] using bound
  | succ rounds induction =>
    unfold byteCount
    split
    · simp_all
    · have smaller : value / 256 < 256 ^ byteCount rounds (value / 256) :=
        induction (Nat.div_lt_of_lt_mul (by rwa [← Nat.pow_succ']))
      rw [Nat.pow_succ']
      omega

theorem lengthSize_pos {length : Nat} (length_pos : 0 < length) : 0 < lengthSize length := by
  have := @byteCount_pos 7 _ length_pos
  unfold lengthSize
  simp only
  split <;> omega

theorem lengthSize_le (length : Nat) : lengthSize length ≤ 8 := by
  have := byteCount_le 8 length
  unfold lengthSize
  simp only
  split <;> omega

theorem lt_pow_lengthSize {length : Nat} (bound : length < 2 ^ 64) :
    length < 256 ^ lengthSize length := by
  have minimal : length < 256 ^ byteCount 8 length :=
    lt_pow_byteCount (bound.trans_le (by norm_num))
  refine minimal.trans_le (Nat.pow_le_pow_right (by omega) ?_)
  unfold lengthSize
  simp only
  split <;> omega

theorem offsetSizeFrom_spec (delta : Int) (rounds width : Nat)
    (widest : fitsSigned (rounds + width) delta = true) :
    width ≤ offsetSizeFrom delta rounds width ∧
      offsetSizeFrom delta rounds width ≤ rounds + width ∧
      fitsSigned (offsetSizeFrom delta rounds width) delta = true := by
  induction rounds generalizing width with
  | zero => simpa [offsetSizeFrom] using widest
  | succ rounds induction =>
    unfold offsetSizeFrom
    split
    · rename_i narrow
      exact ⟨le_rfl, by omega, narrow⟩
    · obtain ⟨lower, upper, fits⟩ := induction (width + 1) (by
        rwa [show rounds + (width + 1) = rounds + 1 + width by omega])
      exact ⟨by omega, by omega, fits⟩

theorem offsetSize_le {delta : Int} (widest : fitsSigned 8 delta = true) :
    offsetSize (some delta) ≤ 8 :=
  (offsetSizeFrom_spec delta 7 1 widest).2.1

theorem offsetSize_pos {delta : Int} (widest : fitsSigned 8 delta = true) :
    0 < offsetSize (some delta) :=
  (offsetSizeFrom_spec delta 7 1 widest).1

theorem signExtend_offsetSize {delta : Int} (widest : fitsSigned 8 delta = true) :
    signExtend (offsetSize (some delta)) (fromLittleEndian
      (littleEndian (offsetSize (some delta)) (delta % 2 ^ 64).toNat)) = delta := by
  obtain ⟨size_pos, size_le, fits⟩ := offsetSizeFrom_spec delta 7 1 widest
  change 1 ≤ offsetSize (some delta) at size_pos
  change offsetSize (some delta) ≤ 8 at size_le
  change fitsSigned (offsetSize (some delta)) delta = true at fits
  generalize offsetSize (some delta) = size at size_pos size_le fits
  simp only [fitsSigned, Bool.and_eq_true, decide_eq_true_eq] at fits
  have width : (256 : Nat) ^ size = 2 ^ (8 * size) := by rw [Nat.pow_mul]
  have truncated : (delta % 2 ^ 64).toNat % 256 ^ size = (delta % 2 ^ (8 * size)).toNat := by
    have divides : ((2 : Int) ^ (8 * size)) ∣ 2 ^ 64 := pow_dvd_pow 2 (by omega)
    have nonneg : 0 ≤ delta % 2 ^ 64 := Int.emod_nonneg _ (by positivity)
    rw [width]
    zify
    rw [Int.toNat_of_nonneg nonneg, Int.emod_emod_of_dvd _ divides,
      Int.toNat_of_nonneg (Int.emod_nonneg _ (by positivity))]
  rw [fromLittleEndian_littleEndian, truncated]
  exact signExtend_emod size delta (by omega) fits.1 (by omega)

theorem Run.Encodable.fitsSigned {lcn : Nat}
    (encodable : run.Encodable) (previous_nonneg : 0 ≤ previous) (previous_lt : previous < 2 ^ 63)
    (located : run.lcn = some lcn) : fitsSigned 8 ((lcn : Int) - previous) = true := by
  have lcn_lt : lcn < 2 ^ 63 := encodable.2.2 lcn located
  simp only [Ntfs.fitsSigned, Bool.and_eq_true, decide_eq_true_eq]
  omega

theorem Run.Encodable.next_bounds (encodable : run.Encodable) (previous_nonneg : 0 ≤ previous)
    (previous_lt : previous < 2 ^ 63) : 0 ≤ run.next previous ∧ run.next previous < 2 ^ 63 := by
  unfold Run.next
  cases located : run.lcn with
  | none => exact ⟨previous_nonneg, previous_lt⟩
  | some lcn =>
    have := encodable.2.2 lcn located
    simp only [Option.map_some, Option.getD_some, Int.ofNat_eq_natCast]
    omega

theorem readDelta_littleEndian (encodable : run.Encodable)
    (previous_nonneg : 0 ≤ previous) (previous_lt : previous < 2 ^ 63) :
    readDelta previous (littleEndian (offsetSize (run.delta previous))
      (match run.delta previous with
        | none => 0
        | some delta => (delta % 2 ^ 64).toNat)) = some (run.lcn, run.next previous) := by
  obtain ⟨length_clusters, lcn⟩ := run
  cases lcn with
  | none => rfl
  | some lcn =>
    have widest := encodable.fitsSigned previous_nonneg previous_lt rfl
    have field_ne : littleEndian (offsetSize (some ((lcn : Int) - previous)))
        (((lcn : Int) - previous) % 2 ^ 64).toNat ≠ [] := by
      rw [← List.length_pos_iff, littleEndian_length]
      exact offsetSize_pos widest
    simp only [Run.delta, Option.map_some]
    rw [readDelta, if_neg field_ne, littleEndian_length, signExtend_offsetSize widest]
    have lcn_lt : lcn < 2 ^ 63 := encodable.2.2 lcn rfl
    simp only [add_sub_cancel]
    rw [if_neg (by omega)]
    simp [Run.next]

theorem decodeRuns_encodeRun {pair : Bytes}
    (encodable : run.Encodable) (previous_nonneg : 0 ≤ previous) (previous_lt : previous < 2 ^ 63)
    (encoded : encodeRun capacity run.length_clusters (run.delta previous) = some pair)
    (tail : Bytes) :
    decodeRuns (rounds + 1) previous (pair ++ tail) =
      (decodeRuns rounds (run.next previous) tail).map (run :: ·) := by
  have length_pos := encodable.1
  have length_lt := encodable.2.1
  have delta_eq := readDelta_littleEndian encodable previous_nonneg previous_lt
  have offset_le : offsetSize (run.delta previous) ≤ 8 := by
    cases located : run.lcn with
    | none => simp [Run.delta, located, offsetSize]
    | some lcn =>
      have widest := encodable.fitsSigned previous_nonneg previous_lt located
      simpa [Run.delta, located] using offsetSize_le widest
  generalize run.delta previous = delta at *
  have size_pos := lengthSize_pos length_pos
  have size_le := lengthSize_le run.length_clusters
  have length_eq : fromLittleEndian (littleEndian (lengthSize run.length_clusters)
      run.length_clusters) = run.length_clusters := by
    rw [fromLittleEndian_littleEndian, Nat.mod_eq_of_lt (lt_pow_lengthSize length_lt)]
  unfold encodeRun at encoded
  rw [if_neg (Nat.ne_of_gt length_pos)] at encoded
  simp only at encoded
  split at encoded
  · cases encoded
  · cases encoded
    generalize lengthSize run.length_clusters = size at *
    generalize offsetSize delta = offset at *
    generalize field_eq : littleEndian offset _ = field at *
    have field_length : field.length = offset := by rw [← field_eq, littleEndian_length]
    have header_eq : (UInt8.ofNat (offset * 16 + size)).toNat = offset * 16 + size := by
      rw [UInt8.toNat_ofNat']
      omega
    have header_ne : UInt8.ofNat (offset * 16 + size) ≠ 0 := by
      intro zero
      rw [zero] at header_eq
      simp at header_eq
      omega
    have size_eq : (offset * 16 + size) % 16 = size := by omega
    have offset_eq : (offset * 16 + size) / 16 = offset := by omega
    rw [List.cons_append, decodeRuns]
    simp only [header_eq, size_eq, offset_eq]
    rw [if_neg header_ne, if_neg (by omega), List.append_assoc, if_neg (by simp [field_length])]
    rw [List.take_left' (by simp), length_eq, if_neg (by omega), List.drop_left' (by simp),
      List.take_left' field_length, delta_eq]
    rw [← List.append_assoc, List.drop_left' (by simp [field_length])]
    simp only [Option.bind_eq_bind, Option.bind_some]
    cases decodeRuns rounds (run.next previous) tail <;> rfl

theorem decodeRuns_encodeRuns
    (encodable : ∀ run ∈ runs, run.Encodable) (previous_nonneg : 0 ≤ previous)
    (previous_lt : previous < 2 ^ 63) (encoded : encodeRuns capacity previous runs = some pairs)
    (enough : runs.length < rounds) (tail : Bytes) :
    decodeRuns rounds previous (pairs ++ tail) = some runs := by
  induction runs generalizing previous capacity pairs rounds with
  | nil =>
    obtain ⟨rounds, rfl⟩ : ∃ smaller, rounds = smaller + 1 := ⟨rounds - 1, by simp at enough; omega⟩
    unfold encodeRuns at encoded
    split at encoded
    · cases encoded
    · cases encoded
      rfl
  | cons run rest induction =>
    obtain ⟨rounds, rfl⟩ : ∃ smaller, rounds = smaller + 1 := ⟨rounds - 1, by simp at enough; omega⟩
    have run_encodable := encodable run (.head _)
    unfold encodeRuns at encoded
    split at encoded
    · cases encoded
    obtain ⟨pair, pair_eq, encoded⟩ := Option.bind_eq_some_iff.mp encoded
    obtain ⟨pairs', pairs_eq, encoded⟩ := Option.bind_eq_some_iff.mp encoded
    cases encoded
    have next_bounds := run_encodable.next_bounds previous_nonneg previous_lt
    rw [List.append_assoc, decodeRuns_encodeRun run_encodable previous_nonneg previous_lt pair_eq,
      induction (fun run member => encodable run (.tail _ member)) next_bounds.1
        next_bounds.2 pairs_eq (by simp at enough; omega)]
    rfl

theorem length_le_encodeRuns
    (encoded : encodeRuns capacity previous runs = some pairs) : runs.length < pairs.length := by
  induction runs generalizing previous capacity pairs with
  | nil =>
    unfold encodeRuns at encoded
    split at encoded
    · cases encoded
    · cases encoded
      simp
  | cons run rest induction =>
    unfold encodeRuns at encoded
    split at encoded
    · cases encoded
    obtain ⟨pair, pair_eq, encoded⟩ := Option.bind_eq_some_iff.mp encoded
    obtain ⟨pairs', pairs_eq, encoded⟩ := Option.bind_eq_some_iff.mp encoded
    cases encoded
    have pair_pos : 0 < pair.length := by
      unfold encodeRun at pair_eq
      split at pair_eq
      · cases pair_eq
      simp only at pair_eq
      split at pair_eq
      · cases pair_eq
      · cases pair_eq
        simp
    have := induction pairs_eq
    simp only [List.length_cons, List.length_append]
    omega

theorem readMappingPairs_encodeRuns (encodable : ∀ run ∈ runs, run.Encodable)
    (encoded : encodeRuns capacity 0 runs = some pairs) : readMappingPairs pairs = some runs := by
  have decoded := decodeRuns_encodeRuns encodable le_rfl (by norm_num) encoded
    (Nat.lt_succ_of_lt (length_le_encodeRuns encoded)) []
  rwa [List.append_nil] at decoded

end R4OS.Ntfs
