import R4OS.Text.Reader
import Mathlib.Data.Option.Basic

/-!
# Upload publish claims

The persistent claim of a create-only upload publish: its validity rules, its text and the parser
of that text.  Every field is one line of the text, in a fixed order, and the last line has the
checksum of those before it.
-/

namespace R4OS.Upload

open Text

variable {key : Bytes} {claim : Claim}

def claim_magic : Bytes := ascii "R4U_CLAIM=1"

def max_path : Nat := 1024

def max_name : Nat := 768

def claim_max : Nat := 4096

/-- What the protocol layer asked for. -/
inductive Protocol
  | sftp
  | scp
  | ftp
  | storage
  deriving DecidableEq

def Protocol.text : Protocol → Bytes
  | .sftp => ascii "sftp"
  | .scp => ascii "scp"
  | .ftp => ascii "ftp"
  | .storage => ascii "storage"

/-- The protocol of a text. -/
def Protocol.parse (value : Bytes) : Option Protocol :=
  if value = ascii "sftp" then some .sftp
  else if value = ascii "scp" then some .scp
  else if value = ascii "ftp" then some .ftp
  else if value = ascii "storage" then some .storage
  else none

@[simp] theorem Protocol.parse_text (protocol : Protocol) :
    Protocol.parse protocol.text = some protocol := by
  cases protocol <;> decide

/-- Backend-neutral file identity. -/
structure FileIdentity where
  node : UInt64
  generation : UInt16
  size : UInt64
  deriving DecidableEq

/-- One create-only publish in flight. -/
structure Claim where
  generation : UInt64
  /-- Token of the mounted volume. -/
  volume : UInt64
  parent_path : Bounded max_path
  stage_name : Bounded max_name
  target_name : Bounded max_name
  /-- Empty without a backup. -/
  backup_name : Bounded max_name
  identity : FileIdentity
  protocol : Protocol
  deriving DecidableEq

/-- A claim name is a single path component. -/
def nameValid (value : Bytes) : Bool :=
  value.length ≠ 0 && value.length ≤ max_name && value ≠ ascii "." && value ≠ ascii ".." &&
    value.all fun c => c ≠ chr '\\' && c ≠ chr '/' && c ≠ chr ':' && c ≠ 0

/-- Whether a marker occurs in a text. -/
def contains (value marker : Bytes) : Bool := value.tails.any (startsWith · marker)

/-- The parent is an absolute path below a drive, without traversal. -/
def parentValid (value : Bytes) : Bool :=
  value.length ≠ 0 && value.length ≤ max_path && 3 ≤ value.length && value[1]? = some (chr ':') &&
    value[2]? = some (chr '\\') && !contains value (ascii "..") &&
    value.all fun c => c ≠ 0 && c ≠ chr '/'

/-- ASCII lower case of one byte. -/
def toLower (byte : UInt8) : UInt8 :=
  if chr 'A' ≤ byte ∧ byte ≤ chr 'Z' then byte + 32 else byte

def eqlIgnoreAsciiCase (a b : Bytes) : Bool := a.map toLower = b.map toLower

/-- The validity rules of a claim. -/
def claimValid (claim : Claim) : Bool :=
  claim.generation ≠ 0 && parentValid claim.parent_path.bytes &&
    nameValid claim.stage_name.bytes && nameValid claim.target_name.bytes &&
    (claim.backup_name.bytes = [] || nameValid claim.backup_name.bytes) &&
    !eqlIgnoreAsciiCase claim.stage_name.bytes claim.target_name.bytes &&
    (claim.backup_name.bytes = [] ||
      !eqlIgnoreAsciiCase claim.backup_name.bytes claim.stage_name.bytes &&
        !eqlIgnoreAsciiCase claim.backup_name.bytes claim.target_name.bytes)

def checksum_seed : UInt32 := 2166136261

/-- The checksum of a body. -/
def checksum (data : Bytes) : UInt32 :=
  data.foldl (fun hash byte => (hash ^^^ byte.toUInt32) * 16777619) checksum_seed

/-- The line of a field, with its separator. -/
def fieldText (field : Bytes × Bytes) : Bytes := field.1 ++ chr '=' :: (field.2 ++ [newline])

def appendLine (capacity : Nat) (out : Bytes) (field : Bytes × Bytes) : Option Bytes :=
  if out.length + (field.1.length + 1 + field.2.length + 1) ≤ capacity then
    some (out ++ fieldText field)
  else none

def claimFields (claim : Claim) : List (Bytes × Bytes) :=
  [ (ascii "magic", claim_magic),
    (ascii "generation", decimal claim.generation.toNat),
    (ascii "volume", decimal claim.volume.toNat),
    (ascii "parent", claim.parent_path.bytes),
    (ascii "stage", claim.stage_name.bytes),
    (ascii "target", claim.target_name.bytes),
    (ascii "backup", claim.backup_name.bytes),
    (ascii "node", decimal claim.identity.node.toNat),
    (ascii "nodegen", decimal claim.identity.generation.toNat),
    (ascii "size", decimal claim.identity.size.toNat),
    (ascii "protocol", claim.protocol.text) ]

def checksumField (body : Bytes) : Bytes × Bytes :=
  (ascii "checksum", decimal (checksum body).toNat)

def serialize (claim : Claim) (capacity : Nat) : Option Bytes := do
  guard (claimValid claim)
  let body ← (claimFields claim).foldlM (appendLine capacity) []
  appendLine capacity body (checksumField body)

/-- What follows a key and the equals sign. -/
def splitField (line key : Bytes) : Option Bytes :=
  if startsWith line (key ++ [chr '=']) then some (line.drop (key.length + 1)) else none

/-- Read one more digit of a number, refusing overflow. -/
def numberDigit (result : Nat) (c : UInt8) : Option Nat :=
  if isDigit c then
    if (2 ^ 64 - 1 - digitValue c) / 10 < result then none else some (result * 10 + digitValue c)
  else none

def parseNumber (value : Bytes) : Option Nat :=
  if value.length = 0 ∨ 20 < value.length then none else value.foldlM numberDigit 0

/-- Copy a text into a field of fixed capacity. -/
def setField (capacity : Nat) (value : Bytes) : Option (Bounded capacity) :=
  if fits : value.length ≤ capacity then some ⟨value, fits⟩ else none

def readField (key : Bytes) : Reader Bytes := do
  let line ← nextLine
  splitField line key

def readNumber (key : Bytes) : Reader Nat := do
  let value ← readField key
  parseNumber value

def readText (key : Bytes) (capacity : Nat) : Reader (Bounded capacity) := do
  let value ← readField key
  setField capacity value

def readClaim : Reader Claim := do
  let magic ← readField (ascii "magic")
  guard (magic = claim_magic)
  let generation ← readNumber (ascii "generation")
  let volume ← readNumber (ascii "volume")
  let parent_path ← readText (ascii "parent") max_path
  let stage_name ← readText (ascii "stage") max_name
  let target_name ← readText (ascii "target") max_name
  let backup_name ← readText (ascii "backup") max_name
  let node ← readNumber (ascii "node")
  let nodegen ← readNumber (ascii "nodegen")
  guard (nodegen ≤ 2 ^ 16 - 1)
  let size ← readNumber (ascii "size")
  let protocol ← Protocol.parse (← readField (ascii "protocol"))
  return {
    generation := .ofNat generation
    volume := .ofNat volume
    parent_path, stage_name, target_name, backup_name
    identity := { node := .ofNat node, generation := .ofNat nodegen, size := .ofNat size }
    protocol }

/-- Parse the text of a claim.  Nothing may follow the checksum line. -/
def parse (data : Bytes) : Option Claim := do
  guard (data.length ≤ claim_max)
  let (claim, tail) ← readClaim.run data
  let (want, rest) ← (readNumber (ascii "checksum")).run tail
  guard (want ≤ 2 ^ 32 - 1)
  guard (checksum (data.take (data.length - tail.length)) = .ofNat want)
  guard (rest = [])
  guard (claimValid claim)
  return claim

theorem fieldText_eq (key value : Bytes) :
    fieldText (key, value) = (key ++ [chr '='] ++ value) ++ [newline] := by
  simp [fieldText]

theorem readField_reads {value : Bytes} (key_unbroken : newline ∉ key)
    (value_unbroken : newline ∉ value) :
    Reads (readField key) (fieldText (key, value)) value := by
  have unbroken : newline ∉ key ++ [chr '='] ++ value := by
    simp only [List.mem_append, List.mem_singleton, not_or]
    exact ⟨⟨key_unbroken, by decide⟩, value_unbroken⟩
  have split : splitField (key ++ [chr '='] ++ value) key = some value := by
    have length : key.length + 1 = (key ++ [chr '=']).length := by simp
    rw [splitField, if_pos (startsWith_append _ _), length, List.drop_left]
  rw [fieldText_eq, ← List.append_nil (_ ++ [newline])]
  exact (nextLine_reads unbroken).bind (.lift split)

theorem readField_consumes (key : Bytes) : Consumes (readField key) 1 :=
  nextLine_consumes.bind fun line => Consumes.lift (splitField line key)

theorem decimal_unbroken (value : Nat) : newline ∉ decimal value := fun member =>
  absurd (decimal_isDigit member) (by decide)

theorem numberDigit_eq (result : Nat) (c : UInt8) :
    numberDigit result c = appendDigit (2 ^ 64 - 1) result c := by
  unfold numberDigit appendDigit
  by_cases digit : isDigit c = true
  · have small : digitValue c ≤ 9 := by
      simp only [isDigit, Bool.and_eq_true, decide_eq_true_eq] at digit
      have bound := UInt8.le_iff_toNat_le.mp digit.2
      have nine : (chr '9').toNat = 57 := by decide
      simp only [digitValue]
      omega
    simp only [digit, if_true]
    split_ifs <;> first | rfl | omega
  · simp [digit]

theorem parseNumber_decimal {value : Nat} (bounded : value < 2 ^ 64) :
    parseNumber (decimal value) = some value := by
  have nonempty : (decimal value).length ≠ 0 := by simpa using decimal_ne_nil value
  have short : (decimal value).length ≤ 20 := decimal_length_le (by omega) (by omega)
  have step : numberDigit = appendDigit (2 ^ 64 - 1) := by
    funext result c
    exact numberDigit_eq result c
  have parsed := parseDecimal_decimal (Nat.le_sub_one_of_lt bounded)
  rw [parseDecimal, if_neg (decimal_ne_nil value)] at parsed
  rw [parseNumber, if_neg (by omega), step, parsed]

theorem readNumber_reads (key_unbroken : newline ∉ key) {value : Nat} (bounded : value < 2 ^ 64) :
    Reads (readNumber key) (fieldText (key, decimal value)) value := by
  rw [← List.append_nil (fieldText _)]
  exact (readField_reads key_unbroken (decimal_unbroken value)).bind
    (.lift (parseNumber_decimal bounded))

theorem readNumber_consumes (key : Bytes) : Consumes (readNumber key) 1 :=
  (readField_consumes key).bind fun value => Consumes.lift (parseNumber value)

theorem readText_reads (key_unbroken : newline ∉ key) {capacity : Nat}
    {text : Bounded capacity} (text_unbroken : newline ∉ text.bytes) :
    Reads (readText key capacity) (fieldText (key, text.bytes)) text := by
  have copied : setField capacity text.bytes = some text := by
    simp [setField, text.fits]
  rw [← List.append_nil (fieldText _)]
  exact (readField_reads key_unbroken text_unbroken).bind (.lift copied)

theorem readText_consumes (key : Bytes) (capacity : Nat) : Consumes (readText key capacity) 1 :=
  (readField_consumes key).bind fun value => Consumes.lift (setField capacity value)

def claimBody (claim : Claim) : Bytes := (claimFields claim).flatMap fieldText

def claimText (claim : Claim) : Bytes :=
  claimBody claim ++ fieldText (checksumField (claimBody claim))

theorem fieldText_length (field : Bytes × Bytes) :
    (fieldText field).length = field.1.length + 1 + field.2.length + 1 := by
  simp only [fieldText, List.length_append, List.length_cons, List.length_nil]
  omega

theorem foldlM_appendLine {capacity : Nat} {out : Bytes} (fields : List (Bytes × Bytes))
    (room : out.length + (fields.flatMap fieldText).length ≤ capacity) :
    fields.foldlM (appendLine capacity) out = some (out ++ fields.flatMap fieldText) := by
  induction fields generalizing out with
  | nil => simp
  | cons field fields induction =>
    rw [List.flatMap_cons, List.length_append, fieldText_length] at room
    have appended : appendLine capacity out field = some (out ++ fieldText field) := by
      rw [appendLine, if_pos (by omega)]
    have next : (out ++ fieldText field).length + (fields.flatMap fieldText).length ≤
        capacity := by
      rw [List.length_append, fieldText_length]
      omega
    rw [List.foldlM_cons, appended]
    simp [induction next]

theorem Protocol.text_length_le (protocol : Protocol) : protocol.text.length ≤ 7 := by
  cases protocol <;> decide

/-- The text of every claim fits into the buffer that callers use. -/
theorem claimText_length_le (claim : Claim) : (claimText claim).length ≤ claim_max := by
  have number : ∀ value : UInt64, (decimal value.toNat).length ≤ 20 := fun value =>
    decimal_length_le (Nat.lt_trans value.toNat_lt (by norm_num)) (by omega)
  have node_generation : (decimal claim.identity.generation.toNat).length ≤ 20 :=
    decimal_length_le (Nat.lt_trans claim.identity.generation.toNat_lt (by norm_num)) (by omega)
  have sum : (decimal (checksum (claimBody claim)).toNat).length ≤ 20 :=
    decimal_length_le (Nat.lt_trans (checksum (claimBody claim)).toNat_lt (by norm_num)) (by omega)
  have generation := number claim.generation
  have volume := number claim.volume
  have node := number claim.identity.node
  have size := number claim.identity.size
  have parent := claim.parent_path.fits
  have stage := claim.stage_name.fits
  have target := claim.target_name.fits
  have backup := claim.backup_name.fits
  have protocol := claim.protocol.text_length_le
  simp only [max_path, max_name] at parent stage target backup
  have keys : (ascii "magic").length = 5 ∧ (ascii "generation").length = 10 ∧
      (ascii "volume").length = 6 ∧ (ascii "parent").length = 6 ∧ (ascii "stage").length = 5 ∧
      (ascii "target").length = 6 ∧ (ascii "backup").length = 6 ∧ (ascii "node").length = 4 ∧
      (ascii "nodegen").length = 7 ∧ (ascii "size").length = 4 ∧ (ascii "protocol").length = 8 ∧
      (ascii "checksum").length = 8 ∧ claim_magic.length = 11 := by decide
  rw [claimText, List.length_append, fieldText_length, checksumField]
  rw [claimBody, claimFields] at sum ⊢
  simp only [List.flatMap_cons, List.flatMap_nil, List.length_append, fieldText_length,
    List.length_nil, claim_max] at sum ⊢
  omega

theorem serialize_claimText (valid : claimValid claim = true) :
    serialize claim claim_max = some (claimText claim) := by
  have room := claimText_length_le claim
  have body_room : ([] : Bytes).length + ((claimFields claim).flatMap fieldText).length ≤
      claim_max := by
    rw [claimText, List.length_append, claimBody] at room
    simp only [List.length_nil]
    omega
  have body := foldlM_appendLine (claimFields claim) body_room
  have last : appendLine claim_max (claimBody claim) (checksumField (claimBody claim)) =
      some (claimText claim) := by
    rw [claimText, List.length_append, fieldText_length] at room
    rw [appendLine, if_pos room, claimText]
  rw [List.nil_append] at body
  simpa [serialize, valid, body, claimBody] using last

/-- No text of the claim has a line separator. -/
structure Claim.Unbroken (claim : Claim) : Prop where
  parent : newline ∉ claim.parent_path.bytes
  stage : newline ∉ claim.stage_name.bytes
  target : newline ∉ claim.target_name.bytes
  backup : newline ∉ claim.backup_name.bytes

theorem readClaim_reads (unbroken : claim.Unbroken) :
    Reads readClaim (claimBody claim) claim := by
  have nodegen : claim.identity.generation.toNat ≤ 2 ^ 16 - 1 :=
    Nat.le_sub_one_of_lt claim.identity.generation.toNat_lt
  have protocol_unbroken : newline ∉ claim.protocol.text := by
    cases claim.protocol <;> decide
  apply (readField_reads (by decide) (by decide)).bind
  apply (Reads.guard rfl).silent
  apply (readNumber_reads (by decide) claim.generation.toNat_lt).bind
  apply (readNumber_reads (by decide) claim.volume.toNat_lt).bind
  apply (readText_reads (by decide) unbroken.parent).bind
  apply (readText_reads (by decide) unbroken.stage).bind
  apply (readText_reads (by decide) unbroken.target).bind
  apply (readText_reads (by decide) unbroken.backup).bind
  apply (readNumber_reads (by decide) claim.identity.node.toNat_lt).bind
  apply (readNumber_reads (by decide) (Nat.lt_of_le_of_lt nodegen (by norm_num))).bind
  apply (Reads.guard nodegen).silent
  apply (readNumber_reads (by decide) claim.identity.size.toNat_lt).bind
  apply (readField_reads (by decide) protocol_unbroken).bind
  apply (Reads.lift claim.protocol.parse_text).silent
  simpa using Reads.pure claim

theorem readClaim_consumes : Consumes readClaim 11 :=
  (readField_consumes _).bind fun _ => Consumes.guard.bind fun _ =>
    (readNumber_consumes _).bind fun _ => (readNumber_consumes _).bind fun _ =>
    (readText_consumes _ _).bind fun _ => (readText_consumes _ _).bind fun _ =>
    (readText_consumes _ _).bind fun _ => (readText_consumes _ _).bind fun _ =>
    (readNumber_consumes _).bind fun _ => (readNumber_consumes _).bind fun _ =>
    Consumes.guard.bind fun _ => (readNumber_consumes _).bind fun _ =>
    (readField_consumes _).bind fun _ => (Consumes.lift _).bind fun _ => Consumes.pure _

theorem parse_eq_some {data : Bytes} :
    parse data = some claim ↔ data.length ≤ claim_max ∧ ∃ tail want,
      readClaim.run data = some (claim, tail) ∧
      (readNumber (ascii "checksum")).run tail = some (want, []) ∧ want ≤ 2 ^ 32 - 1 ∧
      checksum (data.take (data.length - tail.length)) = .ofNat want ∧
      claimValid claim = true := by
  simp only [parse, Option.bind_eq_bind, Option.bind_eq_some_iff, Option.guard_eq_some',
    exists_const, Option.pure_def, Option.some.injEq, Prod.exists]
  constructor
  · rintro ⟨room, claim', tail, claim_read, want, rest, want_read, small, sum, rfl, valid, rfl⟩
    exact ⟨room, tail, want, claim_read, want_read, small, sum, valid⟩
  · rintro ⟨room, tail, want, claim_read, want_read, small, sum, valid⟩
    exact ⟨room, claim, tail, claim_read, want, [], want_read, small, sum, rfl, valid, rfl⟩

theorem parse_count {data : Bytes} (parsed : parse data = some claim) :
    data.count newline = 12 := by
  obtain ⟨-, tail, want, claim_read, want_read, -⟩ := parse_eq_some.mp parsed
  obtain ⟨body, rfl, body_count⟩ := readClaim_consumes _ _ _ claim_read
  obtain ⟨last, rfl, last_count⟩ := readNumber_consumes _ _ _ _ want_read
  rw [List.append_nil, List.count_append, body_count, last_count]

/-- Every valid claim whose texts have no line separator is read back. -/
theorem parse_claimText (valid : claimValid claim = true)
    (unbroken : claim.Unbroken) : parse (claimText claim) = some claim := by
  have body := readClaim_reads unbroken (fieldText (checksumField (claimBody claim)))
  have small : (checksum (claimBody claim)).toNat < 2 ^ 32 := (checksum _).toNat_lt
  have sum_reads : Reads (readNumber (ascii "checksum"))
      (fieldText (checksumField (claimBody claim))) (checksum (claimBody claim)).toNat :=
    readNumber_reads (by decide) (Nat.lt_trans small (by norm_num))
  have last := sum_reads []
  rw [List.append_nil] at last
  have taken : (claimText claim).take ((claimText claim).length -
      (fieldText (checksumField (claimBody claim))).length) = claimBody claim := by
    rw [claimText, List.length_append, Nat.add_sub_cancel, List.take_left]
  exact parse_eq_some.mpr ⟨claimText_length_le claim, fieldText (checksumField (claimBody claim)), _,
    body, last, Nat.le_sub_one_of_lt small, by rw [taken, UInt32.ofNat_toNat], valid⟩

theorem fieldText_count (field : Bytes × Bytes) : (fieldText field).count newline =
    field.1.count newline + field.2.count newline + 1 := by
  have equals : (chr '=' :: (field.2 ++ [newline])).count newline = field.2.count newline + 1 := by
    rw [List.count_cons_of_ne (by decide), List.count_append, List.count_singleton_self]
  rw [fieldText, List.count_append, equals, Nat.add_assoc]

theorem claimText_count (claim : Claim) : (claimText claim).count newline =
    12 + (claim.parent_path.bytes.count newline + claim.stage_name.bytes.count newline +
      claim.target_name.bytes.count newline + claim.backup_name.bytes.count newline) := by
  have keys : (ascii "magic").count newline = 0 ∧ (ascii "generation").count newline = 0 ∧
      (ascii "volume").count newline = 0 ∧ (ascii "parent").count newline = 0 ∧
      (ascii "stage").count newline = 0 ∧ (ascii "target").count newline = 0 ∧
      (ascii "backup").count newline = 0 ∧ (ascii "node").count newline = 0 ∧
      (ascii "nodegen").count newline = 0 ∧ (ascii "size").count newline = 0 ∧
      (ascii "protocol").count newline = 0 ∧ (ascii "checksum").count newline = 0 ∧
      claim_magic.count newline = 0 := by decide
  have number : ∀ value, (decimal value).count newline = 0 := fun value =>
    List.count_eq_zero_of_not_mem (decimal_unbroken value)
  have protocol : claim.protocol.text.count newline = 0 := by
    cases claim.protocol <;> decide
  rw [claimText, claimBody, List.count_append, fieldText_count, checksumField, number]
  simp only [claimFields, List.flatMap_cons, List.flatMap_nil, List.count_append, fieldText_count,
    number, protocol, List.count_nil]
  omega

theorem claimText_getLast (claim : Claim) : ∃ front, claimText claim = front ++ [newline] :=
  ⟨claimBody claim ++ (ascii "checksum" ++ chr '=' :: decimal (checksum (claimBody claim)).toNat),
    by simp [claimText, fieldText, checksumField]⟩

/-- No proper prefix of a text with twelve lines parses. -/
theorem parse_cut {front cut : Bytes} (count : (front ++ [newline]).count newline = 12)
    (torn : cut <+: front ++ [newline]) (proper : cut ≠ front ++ [newline]) : parse cut = none := by
  rcases List.prefix_concat_iff.mp torn with whole | inside
  · exact absurd whole proper
  · cases parsed : parse cut with
    | none => rfl
    | some claim =>
      have cut_count := parse_count parsed
      have fewer := inside.sublist.count_le newline
      rw [List.count_append, List.count_singleton_self] at count
      omega

/-- A claim is read back from its text, and no torn part of the text parses. -/
def Survives (claim : Claim) : Prop :=
  ∃ text, serialize claim claim_max = some text ∧ parse text = some claim ∧
    ∀ cut, cut <+: text → cut ≠ text → parse cut = none

/-- Exactly the claims without a line separator in their texts survive. -/
theorem survives_iff (valid : claimValid claim = true) :
    Survives claim ↔ claim.Unbroken := by
  have serialized := serialize_claimText valid
  have count := claimText_count claim
  constructor
  · rintro ⟨text, serialized', parsed, -⟩
    rw [serialized] at serialized'
    cases serialized'
    rw [parse_count parsed] at count
    have absent : ∀ value : Bytes, value.count newline = 0 → newline ∉ value := fun value =>
      List.count_eq_zero.mp
    exact ⟨absent _ (by omega), absent _ (by omega), absent _ (by omega), absent _ (by omega)⟩
  · intro unbroken
    rw [List.count_eq_zero_of_not_mem unbroken.parent, List.count_eq_zero_of_not_mem unbroken.stage,
      List.count_eq_zero_of_not_mem unbroken.target,
      List.count_eq_zero_of_not_mem unbroken.backup] at count
    refine ⟨claimText claim, serialized, parse_claimText valid unbroken, ?_⟩
    obtain ⟨front, text⟩ := claimText_getLast claim
    rw [text] at count ⊢
    exact fun cut torn proper => parse_cut count torn proper

def sampleClaim : Claim where
  generation := 7
  volume := 0x1234
  parent_path := ⟨ascii "C:\\R4OS\\UPDATE\\INBOX", by decide⟩
  stage_name := ⟨ascii "UPLOAD.STG", by decide⟩
  target_name := ⟨ascii "PACKAGE.R4U", by decide⟩
  backup_name := ⟨ascii "PACKAGE.BAK", by decide⟩
  identity := { node := 42, generation := 3, size := 8388608 }
  protocol := .sftp

theorem survives_iff_sample : Survives sampleClaim :=
  (survives_iff (by decide)).mpr ⟨by decide, by decide, by decide, by decide⟩

/-- The claim of an upload whose stage name imitates the fields behind it. -/
def imitatingClaim : Claim :=
  { sampleClaim with
    stage_name := ⟨ascii ("A\ntarget=B\nbackup=\nnode=0\nnodegen=0\nsize=0\nprotocol=ftp\n" ++
      "checksum=1539491931\nC"), by decide⟩ }

/-- A valid claim that is not read back, and a torn part of its text that parses. -/
theorem imitatingClaim_torn : claimValid imitatingClaim = true ∧ ¬Survives imitatingClaim ∧
    ∃ cut, cut <+: claimText imitatingClaim ∧ cut ≠ claimText imitatingClaim ∧
      parse cut ≠ none := by
  have valid : claimValid imitatingClaim = true := by decide
  refine ⟨valid, ?_, (claimText imitatingClaim).take 153, List.take_prefix _ _, ?_, ?_⟩
  · rintro ⟨text, serialized, parsed, -⟩
    rw [serialize_claimText valid] at serialized
    cases serialized
    revert parsed
    decide +kernel
  · decide +kernel
  · decide +kernel

end R4OS.Upload
