import R4OS.Update.SlotStoreCrash

/-!
# Histories of the two-slot store

Along any history of writes, failures and crashes, the newest valid journal is the last acknowledged
one or one that was issued after it.
-/

namespace R4OS.Update

open Crash Text

section Calls

variable {Journal : Type} {format : JournalFormat Journal} {disk after : SlotDisk}
  {journal : Journal}

variable {last : Journal}

/-- A cut or failed write may leave any bytes that are not parsed. -/
def torn (format : JournalFormat Journal) (_ : SlotDisk) (slot : Fin 2) (_ left : Bytes) : Prop :=
  format.parseJournalInto left slot = none

/-- The journal that a call issues, as its text is read back. -/
def issued (format : JournalFormat Journal) (disk : SlotDisk) (journal : Journal) :
    Option Journal := do
  let place ← nextStamp format disk
  let encoded ← format.serializeJournal (format.stamp journal place.1 place.2) format.journal_max
  format.parseJournalInto encoded place.1

theorem issued_eq {place : Fin 2 × UInt64} {encoded : Bytes}
    (next : nextStamp format disk = some place)
    (serialized : format.serializeJournal (format.stamp journal place.1 place.2)
      format.journal_max = some encoded) :
    issued format disk journal = format.parseJournalInto encoded place.1 := by
  simp [issued, next, serialized]

theorem issued_generation (lawful : LawfulFormat format) {place : Fin 2 × UInt64}
    {issue : Journal} (next : nextStamp format disk = some place)
    (issue_eq : issued format disk journal = some issue) :
    format.journal_generation issue = place.2 := by
  cases serialized : format.serializeJournal (format.stamp journal place.1 place.2)
      format.journal_max with
  | none => simp [issued, next, serialized] at issue_eq
  | some encoded =>
    rw [issued_eq next serialized] at issue_eq
    exact lawful.reads_generation journal place.1 place.2 _ encoded issue serialized issue_eq

theorem Reached.other (reached : Reached format (torn format) disk journal after) {slot : Fin 2}
    (apart : ∀ place, nextStamp format disk = some place → slot ≠ place.1) :
    after slot = disk slot := by
  rcases reached with rfl | ⟨place, next, rfl | ⟨encoded, left, -, -, rfl⟩⟩
  · rfl
  · rfl
  · exact write_other (apart place next) left

theorem Reached.newest_slot (reached : Reached format (torn format) disk journal after)
    (found : newest format disk = .found last) {slot : Fin 2} (active : format.slot last = slot) :
    after slot = disk slot := by
  refine reached.other fun place next => ?_
  simp only [nextStamp, found] at next
  split at next
  · cases next
  · cases next
    exact (inactiveSlot_ne active).symm

theorem Reached.newest_cases (lawful : LawfulFormat format)
    (reached : Reached format (torn format) disk journal after)
    (found : newest format after = .found last) :
    newest format disk = .found last ∨ issued format disk journal = some last := by
  rcases reached with rfl | ⟨place, next, rfl | ⟨encoded, left, serialized, kind, rfl⟩⟩
  · exact .inl found
  · exact .inl found
  · by_cases blocked : disk place.1 = .directory
    · rw [write_directory blocked] at found
      exact .inl found
    obtain ⟨slot, active, holds, -⟩ := newest_found lawful found
    by_cases same : slot = place.1
    · subst same
      have parsed := (holds_write_same blocked).mp holds
      rcases kind with rfl | rejected
      · exact .inr ((issued_eq next serialized).trans parsed)
      · rw [torn, parsed] at rejected
        cases rejected
    · have held := (holds_write_other same).mp holds
      left
      unfold nextStamp at next
      split at next
      · cases next
      · rename_i empty
        obtain ⟨data, present, -⟩ := held
        rw [(newest_not_found lawful).mp empty slot] at present
        cases present
      · rename_i former former_found
        split at next
        · cases next
        cases next
        obtain ⟨former_slot, former_active, ⟨data, present, parsed⟩, -⟩ :=
          newest_found lawful former_found
        have slot_eq : slot = former_slot := by
          by_contra distinct
          exact same (eq_inactiveSlot former_active distinct)
        subst slot_eq
        obtain ⟨other, other_present, other_parsed⟩ := held
        rw [present] at other_present
        obtain rfl := SlotFile.file.inj other_present
        obtain rfl : former = last := Option.some.inj (parsed.symm.trans other_parsed)
        exact former_found

/-- A store with a newest journal keeps having one. -/
theorem Reached.newest_survives (lawful : LawfulFormat format)
    (reached : Reached format (torn format) disk journal after)
    (found : newest format disk = .found last) : ∃ next, newest format after = .found next := by
  rcases reached with rfl | ⟨place, next, rfl | ⟨encoded, left, serialized, kind, rfl⟩⟩
  · exact ⟨last, found⟩
  · exact ⟨last, found⟩
  · by_cases blocked : disk place.1 = .directory
    · rw [write_directory blocked]
      exact ⟨last, found⟩
    cases parsed : format.parseJournalInto left place.1 with
    | some issue =>
      rcases kind with rfl | rejected
      · have generation := issued_generation lawful next
          ((issued_eq next serialized).trans parsed)
        exact ⟨issue, newest_write_next lawful next blocked parsed generation⟩
      · rw [torn, parsed] at rejected
        cases rejected
    | none =>
      have place_eq : place.1 = inactiveSlot format last := by
        simp only [nextStamp, found] at next
        split at next
        · cases next
        · rw [← Option.some.inj next]
      rw [place_eq] at parsed ⊢
      exact ⟨last, newest_write_rejected lawful found parsed⟩

end Calls

/-- What the callers of the store know: the acknowledged journals, last one first, and the journals
issued since without an acknowledgement. -/
structure Ledger (Journal : Type) where
  acknowledged : List Journal := []
  pending : List Journal := []

/-- Record the outcome of a call; a cut call has none. -/
def Ledger.record {Journal : Type} (ledger : Ledger Journal) (issue : Option Journal) :
    (outcome : Option (Bool × Journal)) → Ledger Journal
  | some (true, _) => { acknowledged := issue.toList ++ ledger.acknowledged, pending := [] }
  | some (false, _) | none => { ledger with pending := issue.toList ++ ledger.pending }

/-- The slot files and what the callers know about them. -/
structure StoreState (Journal : Type) where
  disk : SlotDisk
  ledger : Ledger Journal

section Ledger

variable {Journal : Type} {format : JournalFormat Journal}

variable {disk after : SlotDisk} {journal : Journal} {place : Fin 2 × UInt64}
  {state : StoreState Journal}

/-- The state in which a history starts: a journal found there counts as acknowledged. -/
def StoreState.start (format : JournalFormat Journal) (disk : SlotDisk) : StoreState Journal where
  disk := disk
  ledger :=
    match newest format disk with
    | .found journal => { acknowledged := [journal] }
    | .not_found | .io => {}

/-- One call, which may fail or be cut at any point. -/
structure WriteCall (format : JournalFormat Journal) (journal : Journal)
    (before after : StoreState Journal) : Prop where
  recorded : ∃ outcome,
    Execution (slotDevice false (torn format)) (writeInactive format journal) before.disk outcome
        after.disk ∧
      after.ledger = before.ledger.record (issued format before.disk journal) outcome

/-- The written slot holds the complete text of the journal followed by more bytes. -/
def LeavesTail (format : JournalFormat Journal) (journal : Journal) (before after : SlotDisk) :
    Prop :=
  ∃ place encoded rest, nextStamp format before = some place ∧
    format.serializeJournal (format.stamp journal place.1 place.2) format.journal_max =
      some encoded ∧ rest ≠ [] ∧ after place.1 = .file (encoded ++ rest)

/-- A call that leaves no tail of former bytes behind the text of its journal. -/
def CleanCall (format : JournalFormat Journal) (before after : StoreState Journal) : Prop :=
  ∃ journal, WriteCall format journal before after ∧
    ¬LeavesTail format journal before.disk after.disk

theorem not_leavesTail_write {encoded : Bytes} (usable : disk place.1 ≠ .directory)
    (next : nextStamp format disk = some place)
    (serialized : format.serializeJournal (format.stamp journal place.1 place.2)
      format.journal_max = some encoded) :
    ¬LeavesTail format journal disk (disk.write place.1 encoded) := by
  rintro ⟨other, text, rest, other_next, text_eq, nonempty, file⟩
  obtain rfl : place = other := Option.some.inj (next.symm.trans other_next)
  obtain rfl : encoded = text := Option.some.inj (serialized.symm.trans text_eq)
  rw [write_same usable] at file
  exact nonempty (List.self_eq_append_right.mp (SlotFile.file.inj file))

theorem not_leavesTail_byte (lawful : LawfulFormat format) (byte : UInt8) (usable : disk place.1 ≠ .directory)
    (next : nextStamp format disk = some place) :
    ¬LeavesTail format journal disk (disk.write place.1 [byte]) := by
  rintro ⟨other, text, rest, other_next, text_eq, nonempty, file⟩
  obtain rfl : place = other := Option.some.inj (next.symm.trans other_next)
  rw [write_same usable] at file
  have total := congrArg List.length (SlotFile.file.inj file)
  have text_pos := List.length_pos_of_ne_nil (lawful.serialize_size _ _ _ text_eq).1
  have rest_pos := List.length_pos_of_ne_nil nonempty
  rw [List.length_append, List.length_singleton] at total
  omega

/-- What the ledger says about the newest journal. -/
structure LedgerInvariant (format : JournalFormat Journal) (state : StoreState Journal) : Prop where
  known : ∀ journal, newest format state.disk = .found journal →
    state.ledger.acknowledged.head? = some journal ∨ journal ∈ state.ledger.pending
  newer : ∀ journal, newest format state.disk = .found journal →
    ∀ last ∈ state.ledger.acknowledged,
      format.journal_generation last ≤ format.journal_generation journal
  empty : newest format state.disk = .not_found → state.ledger.acknowledged = []
  increasing : state.ledger.acknowledged.Pairwise fun later earlier =>
    format.journal_generation earlier < format.journal_generation later

theorem empty_usable (slot : Fin 2) : SlotDisk.empty slot ≠ .directory := nofun

theorem newest_empty (lawful : LawfulFormat format) : newest format .empty = .not_found :=
  (newest_not_found lawful).mpr fun _ => rfl

theorem start_empty (lawful : LawfulFormat format) :
    StoreState.start format .empty = { disk := .empty, ledger := {} } := by
  rw [StoreState.start, newest_empty lawful]

theorem LedgerInvariant.start (disk : SlotDisk) :
    LedgerInvariant format (StoreState.start format disk) := by
  unfold StoreState.start
  cases found : newest format disk with
  | found journal =>
    refine ⟨?_, ?_, ?_, List.pairwise_singleton _ _⟩
    · intro other other_found
      rw [found] at other_found
      exact .inl (congrArg some (JournalLookup.found.inj other_found))
    · intro other other_found last member
      rw [found] at other_found
      rw [List.mem_singleton.mp member, JournalLookup.found.inj other_found]
      exact UInt64.le_refl _
    · intro nothing
      rw [found] at nothing
      cases nothing
  | not_found | io => exact ⟨by simp [found], by simp, fun _ => rfl, .nil⟩

section

variable (lawful : LawfulFormat format)

include lawful

theorem WriteAnswer.newest_issued {working : Bool} {answer : Bool × Journal}
    (next : nextStamp format disk = some place)
    (answers : WriteAnswer format working disk journal (format.stamp journal place.1 place.2)
      place.1 answer after)
    (reached : Reached format (torn format) disk journal after) (durable : answer.1 = true)
    (clean : ¬LeavesTail format journal disk after) :
    ∃ issue, issued format disk journal = some issue ∧ newest format after = .found issue := by
  obtain ⟨-, encoded, verified, serialized, begins, parsed⟩ := answers.durable durable
  have issue_eq : issued format disk journal = some verified :=
    (issued_eq next serialized).trans parsed
  have generation := issued_generation lawful next issue_eq
  have present : after place.1 = .file encoded := by
    have nonempty := (lawful.serialize_size _ _ _ serialized).1
    cases file : after place.1 with
    | file data =>
      rw [file] at begins
      obtain ⟨rest, rfl⟩ := begins
      by_cases whole : rest = []
      · rw [whole, List.append_nil]
      · exact absurd ⟨place, encoded, rest, next, serialized, whole, file⟩ clean
    | absent | directory =>
      rw [file] at begins
      exact absurd (List.prefix_nil.mp begins) nonempty
  refine ⟨verified, issue_eq, newest_of_holds lawful ⟨encoded, present, parsed⟩ ?_⟩
  intro other older distinct holds
  have kept : after other = disk other := by
    refine reached.other fun other_place other_next => ?_
    obtain rfl : place = other_place := Option.some.inj (next.symm.trans other_next)
    exact distinct
  obtain ⟨data, other_present, other_parsed⟩ := holds
  rw [generation]
  exact holds_lt_next lawful next ⟨data, kept ▸ other_present, other_parsed⟩

theorem reached_of_execution {outcome : Option (Bool × Journal)}
    (execution : Execution (slotDevice false (torn format)) (writeInactive format journal) disk
      outcome after) :
    Reached format (torn format) disk journal after ∧
      ∀ answer, outcome = some answer → StoreAnswer format false disk journal answer after :=
  (writeInactive_ensures lawful journal).sound execution

theorem LedgerInvariant.issued_newer (invariant : LedgerInvariant format state) {issue : Journal}
    (issue_eq : issued format state.disk journal = some issue) :
    ∀ last ∈ state.ledger.acknowledged,
      format.journal_generation last < format.journal_generation issue := by
  intro last member
  cases found : newest format state.disk with
  | io => simp [issued, nextStamp, found] at issue_eq
  | not_found =>
    rw [invariant.empty found] at member
    cases member
  | found former =>
    cases next : nextStamp format state.disk with
    | none => simp [issued, next] at issue_eq
    | some place =>
      obtain ⟨slot, -, holds, -⟩ := newest_found lawful found
      rw [issued_generation lawful next issue_eq]
      exact UInt64.lt_of_le_of_lt (invariant.newer former found last member)
        (holds_lt_next lawful next holds)

/-- An empty store stays known as empty when a call does not write. -/
theorem Reached.empty (reached : Reached format (torn format) disk journal after)
    (nothing : newest format after = .not_found) : after = disk := by
  rcases reached with same | ⟨place, -, same | ⟨encoded, left, -, -, rfl⟩⟩
  · exact same
  · exact same
  · by_cases blocked : disk place.1 = .directory
    · exact write_directory blocked left
    · have absent := (newest_not_found lawful).mp nothing place.1
      rw [write_same blocked] at absent
      cases absent

theorem LedgerInvariant.unacknowledged (invariant : LedgerInvariant format state)
    (reached : Reached format (torn format) state.disk journal after) :
    LedgerInvariant format
      { disk := after
        ledger := { state.ledger with
          pending := (issued format state.disk journal).toList ++ state.ledger.pending } } where
  known := by
    intro last found
    rcases reached.newest_cases lawful found with former | issue_eq
    · exact (invariant.known last former).imp id fun member => List.mem_append_right _ member
    · exact .inr (List.mem_append_left _ (by simp [issue_eq]))
  newer := by
    intro last found earlier member
    rcases reached.newest_cases lawful found with former | issue_eq
    · exact invariant.newer last former earlier member
    · exact UInt64.le_of_lt (invariant.issued_newer lawful issue_eq earlier member)
  empty := by
    intro nothing
    have same := reached.empty lawful nothing
    exact invariant.empty (same ▸ nothing)
  increasing := invariant.increasing

theorem LedgerInvariant.acknowledged {issue : Journal} (invariant : LedgerInvariant format state)
    (issue_eq : issued format state.disk journal = some issue)
    (durable : newest format after = .found issue) :
    LedgerInvariant format
      { disk := after
        ledger := {
          acknowledged := (issued format state.disk journal).toList ++ state.ledger.acknowledged
          pending := [] } } where
  known := by
    intro last found
    rw [durable] at found
    rw [issue_eq]
    exact .inl (congrArg some (JournalLookup.found.inj found))
  newer := by
    intro last found earlier member
    rw [durable] at found
    obtain rfl := JournalLookup.found.inj found
    rw [issue_eq] at member
    rcases List.mem_cons.mp member with rfl | member
    · exact UInt64.le_refl _
    · exact UInt64.le_of_lt (invariant.issued_newer lawful issue_eq earlier member)
  empty := by
    intro nothing
    rw [durable] at nothing
    cases nothing
  increasing := by
    rw [issue_eq]
    exact .cons (invariant.issued_newer lawful issue_eq) invariant.increasing

theorem LedgerInvariant.step {before after : StoreState Journal}
    (invariant : LedgerInvariant format before) (call : CleanCall format before after) :
    LedgerInvariant format after := by
  obtain ⟨journal, ⟨outcome, execution, recorded⟩, clean⟩ := call
  obtain ⟨reached, answers⟩ := reached_of_execution lawful execution
  obtain ⟨disk, ledger⟩ := after
  simp only at recorded reached answers clean
  subst recorded
  match outcome, answers with
  | none, _ => exact invariant.unacknowledged lawful reached
  | some (false, _), _ => exact invariant.unacknowledged lawful reached
  | some (true, stamped), answers =>
    rcases answers _ rfl with ⟨refused, -⟩ | ⟨place, next, written⟩
    · cases refused
    · obtain ⟨issue, issue_eq, durable⟩ :=
        written.newest_issued lawful next reached rfl clean
      exact invariant.acknowledged lawful issue_eq durable

end

theorem LedgerInvariant.run (lawful : LawfulFormat format) {start : SlotDisk}
    {state : StoreState Journal}
    (history : Relation.ReflTransGen (CleanCall format) (StoreState.start format start) state) :
    LedgerInvariant format state := by
  induction history with
  | refl => exact .start start
  | tail _ call induction => exact induction.step lawful call

/-- Every completed lookup that finds a journal finds the newest one. -/
theorem newest_of_execution (lawful : LawfulFormat format) {working : Bool}
    {damage : SlotDisk → Fin 2 → Bytes → Bytes → Prop}
    (execution : Execution (slotDevice working damage) (readNewestValid format) disk
      (some (.found journal)) after) : newest format disk = .found journal := by
  rcases ((readNewestValid_ensures lawful.small).sound execution).2 _ rfl with answer | ⟨answer, -⟩
  · exact answer.symm
  · cases answer

end Ledger

section Working

variable {Journal : Type} {format : JournalFormat Journal}
  {damage : SlotDisk → Fin 2 → Bytes → Bytes → Prop} {disk : SlotDisk} {journal : Journal}

variable {encoded left : Bytes}

theorem SlotFile.exists_describes (file : SlotFile) :
    ∃ info : FileInfo, 0 ≤ info.rc ∧ file.describes info := by
  cases file with
  | absent => exact ⟨⟨0, false, false, 0⟩, by decide, by simp [SlotFile.describes, FileInfo.found]⟩
  | file data =>
    exact ⟨⟨1, true, false, data.length⟩, Int.le_of_lt Int.one_pos, ⟨Int.one_pos, rfl⟩, rfl, rfl⟩
  | directory => exact ⟨⟨1, true, true, 0⟩, by decide, by decide, rfl⟩

theorem slotDevice_total : Device.Total (slotDevice true damage) := by
  intro call before
  match call with
  | .dirCreate _ => exact ⟨(0 : Int), before, rfl, fun _ => Int.le_refl 0⟩
  | .fileInfoRaw (.directory _) =>
    exact ⟨(⟨1, true, true, 0⟩ : FileInfo), before, rfl, fun _ => ⟨by decide, rfl⟩⟩
  | .fileInfoRaw (.slot slot) =>
    obtain ⟨info, nonnegative, describes⟩ := (before slot).exists_describes
    exact ⟨info, before, rfl, .inl ⟨nonnegative, describes⟩⟩
  | .fileReadAt slot offset length =>
    exact ⟨(before slot).window offset length, before, rfl, List.prefix_rfl, fun _ empty => empty⟩
  | .fileWrite slot data => exact ⟨(0 : Int), before.write slot data, .inl rfl⟩
  | .sleepTicks => exact ⟨(), before, rfl⟩

theorem slotDevice_weaker (call : SlotCall) (before : SlotDisk) (answer : call.Answer)
    (after : SlotDisk) (transition : slotDevice true damage call before answer after) :
    slotDevice false damage call before answer after := by
  match call with
  | .dirCreate _ => exact ⟨transition.1, nofun⟩
  | .fileInfoRaw (.directory _) => exact ⟨transition.1, nofun⟩
  | .fileInfoRaw (.slot _) =>
    exact ⟨transition.1, transition.2.imp id fun broken => nomatch broken.2⟩
  | .fileReadAt _ _ _ => exact ⟨transition.1, transition.2.1, nofun⟩
  | .fileWrite _ _ => exact transition.imp id fun broken => nomatch broken.1
  | .sleepTicks => exact transition

/-- A lookup with working input finds the newest valid journal. -/
theorem readNewestValid_completes (lawful : LawfulFormat format) :
    Completes (slotDevice true damage)
      (fun answer after => answer = newest format disk ∧ after = disk) (readNewestValid format)
      disk := by
  refine ((readNewestValid_ensures lawful.small).mono (fun _ same => same) ?_).completes
    slotDevice_total
  rintro answer after rfl (rfl | ⟨-, broken⟩)
  · exact ⟨rfl, rfl⟩
  · cases broken

/-- With working input and output a call under a next stamp succeeds, and its journal is the newest
one afterwards. -/
theorem writeInactive_completes (lawful : LawfulFormat format)
    (usable : ∀ slot, disk slot ≠ .directory) {place : Fin 2 × UInt64}
    {verified : Journal} (next : nextStamp format disk = some place)
    (serialized : format.serializeJournal (format.stamp journal place.1 place.2)
      format.journal_max = some encoded)
    (parsed : format.parseJournalInto encoded place.1 = some verified)
    (confirmed : format.confirms verified (format.stamp journal place.1 place.2) = true) :
    Completes (slotDevice true damage)
      (fun answer after => answer = (true, format.stamp journal place.1 place.2) ∧
        after = disk.write place.1 encoded ∧ newest format after = .found verified)
      (writeInactive format journal) disk := by
  refine ((writeInactive_ensures lawful journal).mono (fun _ reached => reached) ?_).completes
    slotDevice_total
  rintro ⟨durable, stamped⟩ after - (⟨-, refused⟩ | ⟨other, other_next, answers⟩)
  · rw [refused rfl] at next
    cases next
  · obtain rfl : place = other := Option.some.inj (next.symm.trans other_next)
    obtain ⟨durable_eq, after_eq⟩ :=
      answers.works rfl (usable place.1) encoded verified serialized parsed confirmed
    have generation := lawful.reads_generation journal place.1 place.2 _ encoded verified serialized
      parsed
    have stamped_eq := (answers.durable durable_eq).1
    simp only at durable_eq stamped_eq
    subst durable_eq stamped_eq after_eq
    exact ⟨rfl, rfl, newest_write_next lawful next (usable place.1) parsed generation⟩

/-- A lookup may complete although the file system fails at times. -/
theorem readNewestValid_may (lawful : LawfulFormat format) :
    Execution (slotDevice false damage) (readNewestValid format) disk
      (some (newest format disk)) disk := by
  obtain ⟨answer, after, execution, rfl, rfl⟩ := (readNewestValid_completes lawful).exists
  exact execution.mono slotDevice_weaker

theorem ensureUpdateDirectories_may :
    Execution (slotDevice false damage) ensureUpdateDirectories disk (some true) disk := by
  have ensures : Ensures (slotDevice true damage) (fun after => after = disk)
      (fun ensured after => after = disk ∧ ensured = true) ensureUpdateDirectories disk :=
    ensureUpdateDirectories_ensures.mono (fun _ same => same) fun _ _ same works =>
      ⟨same, works rfl⟩
  obtain ⟨ensured, after, execution, rfl, rfl⟩ := (ensures.completes slotDevice_total).exists
  exact execution.mono slotDevice_weaker

theorem writeSlot_may_be_cut {slot : Fin 2} {generation : UInt64}
    (serialized : format.serializeJournal (format.stamp journal slot generation)
      format.journal_max = some encoded)
    (kind : left = encoded ∨ damage disk slot encoded left) :
    Execution (slotDevice false damage) (writeSlot format journal slot generation) disk none
      (disk.write slot left) := by
  have transition : slotDevice false damage (.fileWrite slot encoded) disk (0 : Int)
      (disk.write slot left) := by
    rcases kind with rfl | damaged
    · exact .inl rfl
    · exact .inr ⟨rfl, .inr ⟨left, damaged, rfl⟩⟩
  simp only [writeSlot, serialized]
  exact .call transition (.crash _ _)

/-- A call may be cut after its write left the complete text or damaged bytes. -/
theorem writeInactive_may_be_cut (lawful : LawfulFormat format) {place : Fin 2 × UInt64} (next : nextStamp format disk = some place)
    (serialized : format.serializeJournal (format.stamp journal place.1 place.2)
      format.journal_max = some encoded)
    (kind : left = encoded ∨ damage disk place.1 encoded left) :
    Execution (slotDevice false damage) (writeInactive format journal) disk none
      (disk.write place.1 left) := by
  have written := writeSlot_may_be_cut serialized kind
  refine ensureUpdateDirectories_may.andThen ((readNewestValid_may lawful).andThen ?_)
  unfold nextStamp at next
  split at next
  · cases next
  · cases next
    exact written
  · split at next
    · cases next
    · rename_i below
      rw [if_neg below]
      cases next
      exact written

/-- A call that leaves no unreadable file behind when it finds the store empty. -/
def SoundFirstCall (format : JournalFormat Journal) (before after : StoreState Journal) : Prop :=
  ∃ journal, WriteCall format journal before after ∧
    (newest format before.disk = .not_found →
      ∀ data, after.disk 0 = .file data → format.parseJournalInto data 0 ≠ none)

/-- A store that the next call can write to. -/
structure Open (format : JournalFormat Journal) (disk : SlotDisk) : Prop where
  usable : ∀ slot, disk slot ≠ .directory
  readable : newest format disk ≠ .io

theorem Open.empty (lawful : LawfulFormat format) : Open format .empty where
  usable := empty_usable
  readable := by
    rw [newest_empty lawful]
    exact nofun

theorem Reached.usable {after : SlotDisk} (reached : Reached format (torn format) disk journal after)
    (usable : ∀ slot, disk slot ≠ .directory) (slot : Fin 2) : after slot ≠ .directory := by
  rcases reached with rfl | ⟨place, -, rfl | ⟨encoded, left, -, -, rfl⟩⟩
  · exact usable slot
  · exact usable slot
  · by_cases same : slot = place.1
    · subst same
      rw [write_same (usable place.1)]
      exact nofun
    · rw [write_other same]
      exact usable slot

theorem Open.step (lawful : LawfulFormat format) {before after : StoreState Journal}
    (opened : Open format before.disk) (call : SoundFirstCall format before after) :
    Open format after.disk := by
  obtain ⟨journal, ⟨outcome, execution, -⟩, first⟩ := call
  have reached := (reached_of_execution lawful execution).1
  refine ⟨reached.usable opened.usable, ?_⟩
  cases found : newest format before.disk with
  | io => exact absurd found opened.readable
  | found last =>
    obtain ⟨next, survives⟩ := reached.newest_survives lawful found
    rw [survives]
    exact nofun
  | not_found =>
    rcases reached with same | ⟨place, next, same | ⟨encoded, left, serialized, kind, written⟩⟩
    · rw [same, found]
      exact nofun
    · rw [same, found]
      exact nofun
    · obtain rfl : (0, 1) = place := by
        simpa [nextStamp, found] using next
      have readable := first found left (by rw [written, write_same (opened.usable 0)])
      obtain ⟨issue, parsed⟩ := Option.ne_none_iff_exists'.mp readable
      rcases kind with rfl | rejected
      · have generation := issued_generation lawful next
          ((issued_eq next serialized).trans parsed)
        rw [written, newest_write_next lawful next (opened.usable 0) parsed generation]
        exact nofun
      · exact absurd rejected readable

theorem Open.run (lawful : LawfulFormat format) {state : StoreState Journal}
    (history : Relation.ReflTransGen (SoundFirstCall format) (StoreState.start format .empty)
      state) : Open format state.disk := by
  induction history with
  | refl => exact .empty lawful
  | tail _ call induction => exact induction.step lawful call

theorem Open.next (opened : Open format disk) (below : ∀ last, newest format disk = .found last →
      format.journal_generation last ≠ UInt64.ofNat (2 ^ 64 - 1)) :
    ∃ place, nextStamp format disk = some place ∧ place.2 ≠ 0 := by
  cases found : newest format disk with
  | io => exact absurd found opened.readable
  | not_found => exact ⟨(0, 1), by simp [nextStamp, found], by decide⟩
  | found last =>
    refine ⟨(inactiveSlot format last, format.journal_generation last + 1), ?_, ?_⟩
    · simp only [nextStamp, found, if_neg (below last found)]
    · have order := lt_next_generation (below last found)
      intro zero
      simp only at zero
      rw [zero] at order
      exact absurd order UInt64.not_lt_zero

/-- On an open store the next write of a journal that is read back succeeds, and the next lookup
finds it. -/
theorem Open.completes (lawful : LawfulFormat format) (opened : Open format disk)
    (below : ∀ last, newest format disk = .found last →
      format.journal_generation last ≠ UInt64.ofNat (2 ^ 64 - 1))
    {readback : Fin 2 → UInt64 → Journal}
    (stored : ∀ (slot : Fin 2) (generation : UInt64), generation ≠ 0 → ∃ encoded,
      format.serializeJournal (format.stamp journal slot generation) format.journal_max =
          some encoded ∧
        format.parseJournalInto encoded slot = some (readback slot generation) ∧
        format.confirms (readback slot generation) (format.stamp journal slot generation) = true) :
    Completes (slotDevice true damage)
      (fun answer after => ∃ (slot : Fin 2) (generation : UInt64),
        answer = (true, format.stamp journal slot generation) ∧
          Completes (slotDevice true damage)
            (fun lookup _ => lookup = .found (readback slot generation)) (readNewestValid format)
            after)
      (writeInactive format journal) disk := by
  obtain ⟨place, next, nonzero⟩ := opened.next below
  obtain ⟨encoded, serialized, parsed, confirmed⟩ := stored place.1 place.2 nonzero
  refine (writeInactive_completes lawful opened.usable next serialized parsed confirmed).mono ?_
  rintro answer after ⟨answer_eq, -, found⟩
  refine ⟨place.1, place.2, answer_eq, (readNewestValid_completes lawful).mono ?_⟩
  rintro lookup _ ⟨rfl, -⟩
  exact found

/-- Any call, without a condition on what its write leaves behind. -/
def AnyCall (format : JournalFormat Journal) (before after : StoreState Journal) : Prop :=
  ∃ journal, WriteCall format journal before after

/-- After every history of the given calls from a store without slot files, once input and output
work and the generations are not exhausted, the next write of a storable journal succeeds and the
next lookup finds it. -/
def Progresses (format : JournalFormat Journal) (storable : Journal → Prop)
    (readback : Journal → Fin 2 → UInt64 → Journal)
    (call : StoreState Journal → StoreState Journal → Prop) : Prop :=
  ∀ state, Relation.ReflTransGen call (StoreState.start format .empty) state →
    ∀ journal, storable journal →
      (∀ last, newest format state.disk = .found last →
        format.journal_generation last ≠ UInt64.ofNat (2 ^ 64 - 1)) →
      Completes (slotDevice true (torn format))
        (fun answer after => ∃ (slot : Fin 2) (generation : UInt64),
          answer = (true, format.stamp journal slot generation) ∧
            Completes (slotDevice true (torn format))
              (fun lookup _ => lookup = .found (readback journal slot generation))
              (readNewestValid format) after)
        (writeInactive format journal) state.disk

theorem progresses (lawful : LawfulFormat format) {storable : Journal → Prop}
    {readback : Journal → Fin 2 → UInt64 → Journal}
    (stored : ∀ journal, storable journal → ∀ (slot : Fin 2) (generation : UInt64),
      generation ≠ 0 → ∃ encoded,
        format.serializeJournal (format.stamp journal slot generation) format.journal_max =
            some encoded ∧
          format.parseJournalInto encoded slot = some (readback journal slot generation) ∧
          format.confirms (readback journal slot generation)
            (format.stamp journal slot generation) = true) :
    Progresses format storable readback (SoundFirstCall format) :=
  fun _ history journal storable_journal below =>
    (Open.run lawful history).completes lawful below (stored journal storable_journal)

theorem newest_unreadable (lawful : LawfulFormat format) {slot : Fin 2}
    (present : disk slot ≠ .absent)
    (unreadable : ∀ slot journal, ¬Holds format disk slot journal) : newest format disk = .io := by
  cases found : newest format disk with
  | io => rfl
  | not_found => exact absurd ((newest_not_found lawful).mp found slot) present
  | found journal =>
    obtain ⟨slot, -, holds, -⟩ := newest_found lawful found
    exact absurd holds (unreadable slot journal)

/-- A torn first write blocks the store for good. -/
theorem not_progresses (lawful : LawfulFormat format) {storable : Journal → Prop}
    {readback : Journal → Fin 2 → UInt64 → Journal} (storable_journal : storable journal)
    (serialized : format.serializeJournal (format.stamp journal (0 : Fin 2) 1) format.journal_max =
      some encoded)
    (rejected : format.parseJournalInto left (0 : Fin 2) = none) :
    ¬Progresses format storable readback (AnyCall format) := by
  intro claim
  have next : nextStamp format .empty = some (0, 1) := by simp [nextStamp, newest_empty lawful]
  have cut : Execution (slotDevice false (torn format)) (writeInactive format journal) .empty none
      (SlotDisk.empty.write 0 left) :=
    writeInactive_may_be_cut lawful next serialized (.inr rejected)
  have blocked : newest format (SlotDisk.empty.write 0 left) = .io := by
    have written : SlotDisk.empty.write 0 left 0 = .file left := write_same (empty_usable 0) left
    refine newest_unreadable lawful (by rw [written]; intro missing; cases missing) ?_
    rintro slot other ⟨data, present, parsed⟩
    by_cases first : slot = 0
    · subst first
      rw [written] at present
      obtain rfl := SlotFile.file.inj present
      rw [rejected] at parsed
      cases parsed
    · rw [write_other first] at present
      cases present
  have call : AnyCall format (StoreState.start format .empty)
      { disk := SlotDisk.empty.write 0 left
        ledger := (StoreState.start format .empty).ledger.record
          (issued format .empty journal) none } :=
    ⟨journal, none, cut, rfl⟩
  have progress := claim _ (.single call) journal storable_journal fun last found => by
    rw [blocked] at found
    cases found
  obtain ⟨answer, after, execution, slot, generation, rfl, -⟩ := progress.exists
  rcases ((writeInactive_ensures lawful journal).sound execution).2 _ rfl with
    ⟨refused, -⟩ | ⟨place, other_next, -⟩
  · cases refused
  · simp [nextStamp, blocked] at other_next

end Working

end R4OS.Update
