import R4OS.Resources.Scheduler

/-!
# Order and progress of dispatch

Over every run of a document an entry is handed out once at most, after its content became ready and
in the turn of its kind.  Conversely a dispatch that hands out nothing leaves no entry in its turn.
-/

namespace R4OS.Resources

def TerminalBefore (scheduler : Scheduler) (index : Nat) (ofClass : Entry → Bool) : Prop :=
  ∀ earlier entry, earlier < index → scheduler.entries[earlier]? = some entry →
    ofClass entry = true → entry.state.terminal = true

def AllTerminal (scheduler : Scheduler) (ofClass : Entry → Bool) : Prop :=
  ∀ entry ∈ scheduler.entries, ofClass entry = true → entry.state.terminal = true

/-- Style sheets. -/
def Entry.isStylesheet (entry : Entry) : Bool := entry.kind == .stylesheet

/-- An entry that is ready in the turn of its kind. -/
structure Eligible (scheduler : Scheduler) (index : Nat) (entry : Entry) : Prop where
  found : scheduler.entries[index]? = some entry
  ready : entry.state = .ready
  blocking : entry.isScript .parser_blocking = true →
    TerminalBefore scheduler index (·.isScript .parser_blocking)
  deferred : entry.isScript .defer_mode = true →
    scheduler.parsing_complete = true ∧ AllTerminal scheduler (·.isScript .parser_blocking) ∧
      TerminalBefore scheduler index (·.isScript .defer_mode)
  stylesheet : entry.isStylesheet = true → TerminalBefore scheduler index Entry.isStylesheet

/-- Scripts have a mode, other resources have none. -/
def Entry.WellFormed (entry : Entry) : Prop := entry.kind = .script ↔ entry.script_mode ≠ .none

section Take

variable {scheduler : Scheduler} {index : Nat} {entry : Entry} {mode : ScriptMode}

theorem takeReadyMode_some (found : scheduler.takeReadyMode mode = some index) :
    ∃ entry, scheduler.entries[index]? = some entry ∧ entry.isScript mode = true ∧
      entry.state = .ready := by
  obtain ⟨inside, holds, -⟩ := List.findIdx?_eq_some_iff_getElem.mp found
  simp only [Bool.and_eq_true, beq_iff_eq] at holds
  exact ⟨_, List.getElem?_eq_getElem inside, holds.1, holds.2⟩

theorem takeReadyMode_none (absent : scheduler.takeReadyMode mode = none)
    (found : scheduler.entries[index]? = some entry) (is_script : entry.isScript mode = true) :
    entry.state ≠ .ready := by
  intro ready
  have refused := List.findIdx?_eq_none_iff.mp absent entry (List.mem_of_getElem? found)
  simp [is_script, ready] at refused

theorem firstPending_some (found : scheduler.firstPending mode = some (entry, index)) :
    scheduler.entries[index]? = some entry ∧ entry.isScript mode = true ∧
      entry.state.terminal = false ∧ TerminalBefore scheduler index (·.isScript mode) := by
  obtain ⟨holds, position, position_lt, position_eq, before⟩ :=
    List.find?_eq_some_iff_getElem.mp found
  rw [List.getElem_zipIdx, Prod.mk.injEq, Nat.zero_add] at position_eq
  obtain ⟨rfl, rfl⟩ := position_eq
  rw [List.length_zipIdx] at position_lt
  simp only [Bool.and_eq_true, Bool.not_eq_true'] at holds
  refine ⟨List.getElem?_eq_getElem position_lt, holds.1, holds.2, ?_⟩
  intro earlier other earlier_lt other_found is_script
  obtain ⟨inside, rfl⟩ := List.getElem?_eq_some_iff.mp other_found
  have skipped := before earlier earlier_lt
  rw [List.getElem_zipIdx] at skipped
  cases terminal : (scheduler.entries[earlier]).state.terminal with
  | true => rfl
  | false => simp [is_script, terminal] at skipped

theorem firstPending_none :
    scheduler.firstPending mode = none ↔ AllTerminal scheduler (·.isScript mode) := by
  unfold Scheduler.firstPending AllTerminal
  rw [List.find?_eq_none]
  constructor
  · intro none_pending entry member is_script
    obtain ⟨index, slot⟩ := List.mem_iff_getElem?.mp member
    have refused := none_pending (entry, index) (List.mem_zipIdx_iff_getElem?.mpr slot)
    cases terminal : entry.state.terminal with
    | true => rfl
    | false => simp [is_script, terminal] at refused
  · rintro all_terminal ⟨entry, index⟩ member
    have inside := List.mem_of_getElem? (List.mem_zipIdx_iff_getElem?.mp member)
    cases is_script : entry.isScript mode with
    | false => simp
    | true => simp [all_terminal entry inside is_script]

theorem takePending_some (found : scheduler.takePending mode = some index) :
    ∃ entry, scheduler.entries[index]? = some entry ∧ entry.isScript mode = true ∧
      entry.state = .ready ∧ TerminalBefore scheduler index (·.isScript mode) := by
  unfold Scheduler.takePending at found
  split at found
  · cases found
  · rename_i entry first first_found
    split at found
    · rename_i ready
      cases found
      obtain ⟨slot, is_script, -, before⟩ := firstPending_some first_found
      exact ⟨entry, slot, is_script, by simpa using ready, before⟩
    · cases found

theorem takePending_none (absent : scheduler.takePending mode = none)
    (found : scheduler.entries[index]? = some entry) (is_script : entry.isScript mode = true)
    (ready : entry.state = .ready) (before : TerminalBefore scheduler index (·.isScript mode)) :
    False := by
  unfold Scheduler.takePending at absent
  cases pending : scheduler.firstPending mode with
  | none =>
    have terminal := firstPending_none.mp pending entry (List.mem_of_getElem? found) is_script
    rw [ready] at terminal
    cases terminal
  | some first =>
    obtain ⟨first_entry, first_index⟩ := first
    obtain ⟨slot, first_script, first_terminal, first_before⟩ := firstPending_some pending
    rw [pending] at absent
    rcases Nat.lt_trichotomy first_index index with less | equal | greater
    · rw [before first_index first_entry less slot first_script] at first_terminal
      cases first_terminal
    · subst equal
      obtain rfl := Option.some.inj (slot.symm.trans found)
      simp [ready] at absent
    · have terminal := first_before index entry greater found is_script
      rw [ready] at terminal
      cases terminal

theorem takeDeferred_some (found : scheduler.takeDeferred = some index) :
    scheduler.parsing_complete = true ∧ AllTerminal scheduler (·.isScript .parser_blocking) ∧
      scheduler.takePending .defer_mode = some index := by
  unfold Scheduler.takeDeferred at found
  split at found
  · rename_i admitted
    simp only [Bool.and_eq_true, Option.isNone_iff_eq_none] at admitted
    exact ⟨admitted.1, firstPending_none.mp admitted.2, found⟩
  · cases found

theorem blockedStylesheet_eq_false : scheduler.blockedStylesheet index = false ↔
    TerminalBefore scheduler index Entry.isStylesheet := by
  unfold Scheduler.blockedStylesheet TerminalBefore
  rw [List.any_eq_false]
  constructor
  · intro none_blocks earlier entry earlier_lt found is_sheet
    have slot : (scheduler.entries.take index)[earlier]? = some entry := by
      rw [List.getElem?_take, if_pos earlier_lt]
      exact found
    have member := List.mem_of_getElem? slot
    have kind : entry.kind = .stylesheet := by simpa [Entry.isStylesheet] using is_sheet
    simpa [kind] using none_blocks entry member
  · intro before entry member
    obtain ⟨earlier, slot⟩ := List.mem_iff_getElem?.mp member
    rw [List.getElem?_take] at slot
    split at slot
    · rename_i earlier_lt
      cases is_sheet : entry.kind == .stylesheet with
      | false => simp
      | true => simp [before earlier entry earlier_lt slot is_sheet]
    · cases slot

theorem resourceRunnable_iff : scheduler.resourceRunnable index = true ↔
    ∃ entry, scheduler.entries[index]? = some entry ∧ entry.kind ≠ .script ∧
      entry.state = .ready ∧
      (entry.isStylesheet = true → TerminalBefore scheduler index Entry.isStylesheet) := by
  unfold Scheduler.resourceRunnable
  cases slot : scheduler.entries[index]? with
  | none => simp
  | some entry =>
    simp only [Bool.and_eq_true, bne_iff_ne, beq_iff_eq, Bool.not_eq_true',
      Bool.and_eq_false_imp, blockedStylesheet_eq_false, Option.some.injEq, exists_eq_left',
      and_assoc, Entry.isStylesheet]

theorem takeReadyResource_some (found : scheduler.takeReadyResource = some index) :
    scheduler.resourceRunnable index = true :=
  List.find?_some found

theorem takeReadyResource_none (absent : scheduler.takeReadyResource = none)
    (inside : index < scheduler.count) : scheduler.resourceRunnable index = false := by
  unfold Scheduler.takeReadyResource at absent
  rw [List.find?_eq_none] at absent
  have visited : index ∈ (List.range scheduler.count).map fun checked =>
      (scheduler.ready_cursor + checked) % scheduler.count := by
    have cursor_lt := Nat.mod_lt scheduler.ready_cursor (Nat.zero_lt_of_lt inside)
    refine List.mem_map.mpr
      ⟨(index + (scheduler.count - scheduler.ready_cursor % scheduler.count)) % scheduler.count,
        List.mem_range.mpr (Nat.mod_lt _ (Nat.zero_lt_of_lt inside)), ?_⟩
    rw [Nat.add_mod, Nat.mod_mod, ← Nat.add_mod, ← Nat.mod_add_mod]
    have whole : scheduler.ready_cursor % scheduler.count +
        (index + (scheduler.count - scheduler.ready_cursor % scheduler.count)) =
        index + scheduler.count := by omega
    rw [whole, Nat.add_mod_right, Nat.mod_eq_of_lt inside]
  simpa using absent index visited

/-- The entries of a scheduler after one of them was started. -/
def Started (before after : Scheduler) (index : Nat) : Prop :=
  after.entries = (before.setState index .running).entries ∧
    after.parsing_complete = before.parsing_complete

theorem isScript_iff :
    entry.isScript mode = true ↔ entry.kind = .script ∧ entry.script_mode = mode := by
  simp [Entry.isScript]

theorem Eligible.of_script (found : scheduler.entries[index]? = some entry)
    (is_script : entry.isScript mode = true) (ready : entry.state = .ready)
    (blocking : mode = .parser_blocking →
      TerminalBefore scheduler index (·.isScript .parser_blocking))
    (deferred : mode = .defer_mode → scheduler.parsing_complete = true ∧
      AllTerminal scheduler (·.isScript .parser_blocking) ∧
      TerminalBefore scheduler index (·.isScript .defer_mode)) :
    Eligible scheduler index entry := by
  obtain ⟨kind, mode_eq⟩ := isScript_iff.mp is_script
  refine ⟨found, ready, fun other => blocking ?_, fun other => deferred ?_, fun sheet => ?_⟩
  · exact mode_eq.symm.trans (isScript_iff.mp other).2
  · exact mode_eq.symm.trans (isScript_iff.mp other).2
  · simp [Entry.isStylesheet, kind] at sheet

theorem takeRunnable_some (taken : scheduler.takeRunnable.1 = some index) :
    (∃ entry, Eligible scheduler index entry) ∧
      Started scheduler scheduler.takeRunnable.2 index := by
  unfold Scheduler.takeRunnable at taken ⊢
  cases asynchronous : scheduler.takeReadyMode .async_mode with
  | some chosen =>
    simp only [asynchronous, Scheduler.start] at taken ⊢
    cases taken
    obtain ⟨entry, found, is_script, ready⟩ := takeReadyMode_some asynchronous
    exact ⟨⟨entry, .of_script found is_script ready nofun nofun⟩, rfl, rfl⟩
  | none =>
    cases dynamic : scheduler.takeReadyMode .dynamic with
    | some chosen =>
      simp only [asynchronous, dynamic, Scheduler.start] at taken ⊢
      cases taken
      obtain ⟨entry, found, is_script, ready⟩ := takeReadyMode_some dynamic
      exact ⟨⟨entry, .of_script found is_script ready nofun nofun⟩, rfl, rfl⟩
    | none =>
      cases blocking : scheduler.takePending .parser_blocking with
      | some chosen =>
        simp only [asynchronous, dynamic, blocking, Scheduler.start] at taken ⊢
        cases taken
        obtain ⟨entry, found, is_script, ready, before⟩ := takePending_some blocking
        exact ⟨⟨entry, .of_script found is_script ready (fun _ => before) nofun⟩, rfl, rfl⟩
      | none =>
        cases deferred : scheduler.takeDeferred with
        | some chosen =>
          simp only [asynchronous, dynamic, blocking, deferred, Scheduler.start] at taken ⊢
          cases taken
          obtain ⟨parsed, all_terminal, pending⟩ := takeDeferred_some deferred
          obtain ⟨entry, found, is_script, ready, before⟩ := takePending_some pending
          exact ⟨⟨entry, .of_script found is_script ready nofun
            (fun _ => ⟨parsed, all_terminal, before⟩)⟩, rfl, rfl⟩
        | none =>
          cases resource : scheduler.takeReadyResource with
          | none => simp [asynchronous, dynamic, blocking, deferred, resource] at taken
          | some chosen =>
            simp only [asynchronous, dynamic, blocking, deferred, resource] at taken ⊢
            cases taken
            obtain ⟨entry, found, kind, ready, sheet⟩ :=
              resourceRunnable_iff.mp (takeReadyResource_some resource)
            have no_script (mode : ScriptMode) : entry.isScript mode ≠ true :=
              fun is_script => kind (isScript_iff.mp is_script).1
            exact ⟨⟨entry, found, ready, fun is_script => absurd is_script (no_script _),
              fun is_script => absurd is_script (no_script _), sheet⟩, rfl, rfl⟩

theorem takeRunnable_none (taken : scheduler.takeRunnable.1 = none) :
    scheduler.takeRunnable.2 = scheduler ∧
      ∀ index entry, Eligible scheduler index entry → entry.WellFormed → False := by
  unfold Scheduler.takeRunnable at taken ⊢
  cases asynchronous : scheduler.takeReadyMode .async_mode with
  | some chosen => simp [asynchronous, Scheduler.start] at taken
  | none =>
  cases dynamic : scheduler.takeReadyMode .dynamic with
  | some chosen => simp [asynchronous, dynamic, Scheduler.start] at taken
  | none =>
  cases blocking : scheduler.takePending .parser_blocking with
  | some chosen => simp [asynchronous, dynamic, blocking, Scheduler.start] at taken
  | none =>
  cases deferred : scheduler.takeDeferred with
  | some chosen => simp [asynchronous, dynamic, blocking, deferred, Scheduler.start] at taken
  | none =>
  cases resource : scheduler.takeReadyResource with
  | some chosen => simp [asynchronous, dynamic, blocking, deferred, resource] at taken
  | none =>
  refine ⟨rfl, ?_⟩
  intro index entry eligible formed
  have inside := (List.getElem?_eq_some_iff.mp eligible.found).1
  by_cases kind : entry.kind = .script
  · have is_script (mode : ScriptMode) (mode_eq : entry.script_mode = mode) :
        entry.isScript mode = true := isScript_iff.mpr ⟨kind, mode_eq⟩
    cases mode_eq : entry.script_mode with
    | none => exact formed.mp kind mode_eq
    | parser_blocking =>
      have script := is_script _ mode_eq
      exact takePending_none blocking eligible.found script eligible.ready
        (eligible.blocking script)
    | defer_mode =>
      have script := is_script _ mode_eq
      obtain ⟨parsed, all_terminal, before⟩ := eligible.deferred script
      have pending : scheduler.takePending .defer_mode = none := by
        simpa [Scheduler.takeDeferred, parsed, firstPending_none.mpr all_terminal] using deferred
      exact takePending_none pending eligible.found script eligible.ready before
    | async_mode =>
      exact takeReadyMode_none asynchronous eligible.found (is_script _ mode_eq) eligible.ready
    | dynamic =>
      exact takeReadyMode_none dynamic eligible.found (is_script _ mode_eq) eligible.ready
  · have refused := takeReadyResource_none resource inside
    rw [resourceRunnable_iff.mpr
      ⟨entry, eligible.found, kind, eligible.ready, eligible.stylesheet⟩] at refused
    cases refused

end Take

/-- The moves of an entry: which operation with which answer leads from one state to another. -/
inductive LegalMove : Operation → Answer → Nat → State → State → Prop
  | queue (index : Nat) (request_id : UInt32) :
      LegalMove (.queue index request_id) .done index .discovered .queued
  | beginFetch (index : Nat) (request_id generation : UInt32) :
      LegalMove (.beginFetch request_id generation) (.index index) index .queued .fetching
  | completeFetch (index : Nat) (request_id generation : UInt32) :
      LegalMove (.completeFetch request_id generation) (.index index) index .fetching .ready
  | failFetch (index : Nat) (request_id generation : UInt32) (state : State)
      (pending : state = .queued ∨ state = .fetching) :
      LegalMove (.failFetch request_id generation) (.index index) index state .failed
  | markReady (index : Nat) : LegalMove (.markReady index) .done index .discovered .ready
  | reject (index : Nat) (state : State) (open_state : state.terminal = false)
      (idle : state ≠ .running) : LegalMove (.reject index) .done index state .failed
  | takeRunnable (index : Nat) : LegalMove .takeRunnable (.index index) index .ready .running
  | finish (index : Nat) (success : Bool) (state : State) (ended : state.terminal = true) :
      LegalMove (.finish index success) .done index .running state
  | abort (index : Nat) (generation : UInt32) (state : State)
      (open_state : state.terminal = false) : LegalMove (.abort generation) .done index state .aborted

/-- An entry after a step: its kind stays, and its state stays or makes a legal move. -/
structure Moved (operation : Operation) (answer : Answer) (index : Nat) (entry after : Entry) :
    Prop where
  kind : after.kind = entry.kind
  script_mode : after.script_mode = entry.script_mode
  state : after = entry ∨ LegalMove operation answer index entry.state after.state

/-- What a step does to the table. -/
structure StepEffect (step : Step) : Prop where
  kept : ∀ index entry, step.before.entries[index]? = some entry →
    ∃ after, step.after.entries[index]? = some after ∧
      Moved step.operation step.answer index entry after
  fresh : ∀ index entry, step.before.count ≤ index → step.after.entries[index]? = some entry →
    entry.state = .discovered ∧ entry.WellFormed
  parsed : step.after.parsing_complete = true →
    step.before.parsing_complete = true ∨ step.operation = .finishParsing
  refused : ∀ error, step.answer = .error error → step.after = step.before

/-- An entry that was handed out is running or over. -/
def State.spent (state : State) : Bool := state == .running || state.terminal

section Effect

variable {before after : Scheduler} {operation : Operation} {answer : Answer} {index : Nat}
  {entry : Entry}

variable {request_id generation : UInt32}

theorem StepEffect.unchanged (answer : Answer) :
    StepEffect { before := before, operation := operation, answer := answer, after := before } where
  kept _ entry found := ⟨entry, found, rfl, rfl, .inl rfl⟩
  fresh _ _ outside found := absurd (List.getElem?_eq_some_iff.mp found).1 (Nat.not_lt.mpr outside)
  parsed parsed := .inl parsed
  refused _ _ := rfl

theorem StepEffect.modified {change : Entry → Entry} (found : before.entries[index]? = some entry)
    (moved : Moved operation answer index entry (change entry))
    (entries : after.entries = before.entries.modify index change)
    (parsing : after.parsing_complete = before.parsing_complete)
    (success : ∀ error, answer ≠ .error error) :
    StepEffect { before := before, operation := operation, answer := answer, after := after } where
  kept other other_entry other_found := by
    rw [entries, List.getElem?_modify, other_found]
    by_cases same : index = other
    · subst same
      obtain rfl := Option.some.inj (found.symm.trans other_found)
      exact ⟨change entry, by simp, moved⟩
    · exact ⟨other_entry, by simp [same], rfl, rfl, .inl rfl⟩
  fresh other other_entry outside other_found := by
    have inside := (List.getElem?_eq_some_iff.mp other_found).1
    rw [entries, List.length_modify] at inside
    exact absurd inside (Nat.not_lt.mpr outside)
  parsed parsed := .inl (parsing ▸ parsed)
  refused error failed := absurd failed (success error)

theorem active_ok (found : before.active index = .ok entry) :
    before.entries[index]? = some entry := by
  unfold Scheduler.active at found
  split at found
  · cases found
  · rename_i slot
    split at found
    · cases found
    · cases found
      exact slot

theorem requestIndex_ok (found : before.requestIndex request_id generation = .ok (index, entry)) :
    before.entries[index]? = some entry := by
  unfold Scheduler.requestIndex at found
  split at found
  · cases found
  · split at found
    · cases found
    · rename_i slot slot_found
      cases found
      exact List.mem_zipIdx_iff_getElem?.mp (List.mem_of_find?_eq_some slot_found)

theorem moveActive_cases (start : Entry → Bool) (target : State) :
    (∃ error, before.moveActive index start target = (.error error, before)) ∨
      ∃ entry, before.entries[index]? = some entry ∧ start entry = true ∧
        before.moveActive index start target = (.done, before.setState index target) := by
  unfold Scheduler.moveActive
  cases found : before.active index with
  | error error => exact .inl ⟨error, rfl⟩
  | ok entry =>
    cases admitted : start entry with
    | false => exact .inl ⟨.InvalidTransition, by simp [admitted]⟩
    | true => exact .inr ⟨entry, active_ok found, admitted, by simp [admitted]⟩

theorem moveActive_effect {start : Entry → Bool} {target : State}
    (legal : ∀ entry, start entry = true → LegalMove operation .done index entry.state target) :
    StepEffect
      { before := before
        operation := operation
        answer := (before.moveActive index start target).1
        after := (before.moveActive index start target).2 } := by
  obtain ⟨error, refused⟩ | ⟨entry, found, admitted, moved⟩ := moveActive_cases start target
  · rw [refused]
    exact .unchanged _
  · rw [moved]
    exact .modified found ⟨rfl, rfl, .inr (legal entry admitted)⟩ rfl rfl nofun

theorem moveRequest_cases (request_id generation : UInt32) (start : State → Bool) (target : State) :
    (∃ error, before.moveRequest request_id generation start target = (.error error, before)) ∨
      ∃ index entry, before.entries[index]? = some entry ∧ start entry.state = true ∧
        before.moveRequest request_id generation start target =
          (.index index, before.setState index target) := by
  unfold Scheduler.moveRequest
  cases found : before.requestIndex request_id generation with
  | error error => exact .inl ⟨error, rfl⟩
  | ok slot =>
    obtain ⟨index, entry⟩ := slot
    cases admitted : start entry.state with
    | false => exact .inl ⟨.InvalidTransition, by simp [admitted]⟩
    | true => exact .inr ⟨index, entry, requestIndex_ok found, admitted, by simp [admitted]⟩

theorem moveRequest_effect {start : State → Bool} {target : State}
    (legal : ∀ index state, start state = true →
      LegalMove operation (.index index) index state target) :
    StepEffect
      { before := before
        operation := operation
        answer := (before.moveRequest request_id generation start target).1
        after := (before.moveRequest request_id generation start target).2 } := by
  obtain ⟨error, refused⟩ | ⟨index, entry, found, admitted, moved⟩ :=
    moveRequest_cases request_id generation start target
  · rw [refused]
    exact .unchanged _
  · rw [moved]
    exact .modified found ⟨rfl, rfl, .inr (legal index entry.state admitted)⟩ rfl rfl nofun

theorem queue_effect :
    StepEffect
      { before := before
        operation := .queue index request_id
        answer := (before.queue index request_id).1
        after := (before.queue index request_id).2 } := by
  unfold Scheduler.queue
  cases found : before.active index with
  | error error => exact .unchanged _
  | ok entry =>
    by_cases refused : entry.state != .discovered || request_id == no_request
    · simpa [refused] using StepEffect.unchanged _
    · simp only [refused]
      have discovered : entry.state = .discovered := by
        by_contra other
        simp [other] at refused
      refine .modified (active_ok found) ⟨rfl, rfl, .inr ?_⟩ rfl rfl nofun
      rw [discovered]
      exact .queue index request_id

theorem discover_effect {node : UInt16} {kind : Kind} {script_mode : ScriptMode}
    {request_required : Bool} :
    StepEffect
      { before := before
        operation := .discover node kind script_mode request_required
        answer := (before.discover node kind script_mode request_required).1
        after := (before.discover node kind script_mode request_required).2 } := by
  unfold Scheduler.discover
  split_ifs with full unscheduled scheduled
  · exact .unchanged _
  · exact .unchanged _
  · exact .unchanged _
  · refine ⟨fun index entry found => ⟨entry, ?_, rfl, rfl, .inl rfl⟩, ?_, .inl, nofun⟩
    · exact (List.getElem?_append_left (List.getElem?_eq_some_iff.mp found).1).trans found
    · intro index entry outside found
      have fresh := List.mem_of_getElem? (List.getElem?_append_right outside ▸ found)
      rw [List.mem_singleton] at fresh
      subst fresh
      refine ⟨rfl, fun is_script unmoded => ?_, fun moded => ?_⟩
      · simp_all
      · by_contra other
        simp_all

theorem abort_effect :
    StepEffect
      { before := before
        operation := .abort generation
        answer := .done
        after := before.abort generation } where
  kept index entry found := by
    refine ⟨_, by rw [Scheduler.abort, List.getElem?_map, found]; rfl, ?_⟩
    dsimp only
    split_ifs with stopped
    · simp only [Bool.and_eq_true, Bool.not_eq_true'] at stopped
      exact ⟨rfl, rfl, .inr (.abort index generation entry.state stopped.2)⟩
    · exact ⟨rfl, rfl, .inl rfl⟩
  fresh index entry outside found := by
    have inside := (List.getElem?_eq_some_iff.mp found).1
    rw [Scheduler.abort, List.length_map] at inside
    exact absurd inside (Nat.not_lt.mpr outside)
  parsed parsed := .inl parsed
  refused _ failed := nomatch failed

theorem takeRunnable_effect :
    StepEffect
      { before := before
        operation := .takeRunnable
        answer := .handed before.takeRunnable.1
        after := before.takeRunnable.2 } := by
  cases taken : before.takeRunnable.1 with
  | none =>
    rw [(takeRunnable_none taken).1]
    exact .unchanged _
  | some index =>
    obtain ⟨⟨entry, eligible⟩, entries, parsing⟩ := takeRunnable_some taken
    refine .modified eligible.found ⟨rfl, rfl, .inr ?_⟩ entries parsing nofun
    rw [eligible.ready]
    exact .takeRunnable index

theorem handed_eq_index {handed : Option Nat} : Answer.handed handed = .index index ↔
    handed = some index := by
  cases handed <;> simp [Answer.handed]

theorem handed_eq_nothing {handed : Option Nat} : Answer.handed handed = .nothing ↔
    handed = none := by
  cases handed <;> simp [Answer.handed]

theorem takeRunnable_starts (handed : Answer.handed before.takeRunnable.1 = .index index) :
    ∃ entry, before.takeRunnable.2.entries[index]? = some entry ∧ entry.state.spent = true := by
  obtain ⟨⟨entry, eligible⟩, entries, -⟩ := takeRunnable_some (handed_eq_index.mp handed)
  refine ⟨{ entry with state := .running }, ?_, rfl⟩
  rw [entries, Scheduler.setState, List.getElem?_modify, eligible.found]
  simp

end Effect

theorem perform_effect (scheduler : Scheduler) (operation : Operation) :
    StepEffect
      { before := scheduler
        operation := operation
        answer := (scheduler.perform operation).1
        after := (scheduler.perform operation).2 } := by
  cases operation with
  | discover node kind script_mode request_required => exact discover_effect
  | queue index request_id => exact queue_effect
  | beginFetch request_id generation =>
    refine moveRequest_effect fun index state admitted => ?_
    obtain rfl : state = .queued := by simpa using admitted
    exact .beginFetch index request_id generation
  | completeFetch request_id generation =>
    refine moveRequest_effect fun index state admitted => ?_
    obtain rfl : state = .fetching := by simpa using admitted
    exact .completeFetch index request_id generation
  | failFetch request_id generation =>
    refine moveRequest_effect fun index state admitted => ?_
    exact .failFetch index request_id generation state (by simpa using admitted)
  | markReady index =>
    refine moveActive_effect fun entry admitted => ?_
    have discovered : entry.state = .discovered := by
      simp only [Bool.not_eq_true', Bool.or_eq_false_iff, bne_eq_false_iff_eq] at admitted
      exact admitted.2
    rw [discovered]
    exact .markReady index
  | reject index =>
    refine moveActive_effect fun entry admitted => ?_
    simp only [Bool.not_eq_true', Bool.or_eq_false_iff, beq_eq_false_iff_ne] at admitted
    exact .reject index entry.state admitted.1 admitted.2
  | finishParsing =>
    refine ⟨fun index entry found => ⟨entry, found, rfl, rfl, .inl rfl⟩, ?_, fun _ => .inr rfl,
      nofun⟩
    exact fun index entry outside found =>
      absurd (List.getElem?_eq_some_iff.mp found).1 (Nat.not_lt.mpr outside)
  | takeRunnable => exact takeRunnable_effect
  | finish index success =>
    refine moveActive_effect fun entry admitted => ?_
    have running : entry.state = .running := by simpa using admitted
    rw [running]
    exact .finish index success _ (by cases success <;> rfl)
  | abort generation => exact abort_effect

/-- A step that delivers the content of an entry. -/
inductive Delivers (index : Nat) : Step → Prop
  | completeFetch (before after : Scheduler) (request_id generation : UInt32) :
      Delivers index
        { before := before
          operation := .completeFetch request_id generation
          answer := .index index
          after := after }
  | markReady (before after : Scheduler) :
      Delivers index
        { before := before, operation := .markReady index, answer := .done, after := after }

/-- The content of an entry was delivered. -/
def BecameReady (earlier : List Step) (index : Nat) : Prop := ∃ step ∈ earlier, Delivers index step

/-- An entry was handed out. -/
def HandedOut (earlier : List Step) (index : Nat) : Prop :=
  ∃ step ∈ earlier, step.operation = .takeRunnable ∧ step.answer = .index index

/-- The end of parsing was announced. -/
def Parsed (earlier : List Step) : Prop := ∃ step ∈ earlier, step.operation = .finishParsing

/-- The table of a run agrees with the steps before it. -/
structure Recorded (earlier : List Step) (scheduler : Scheduler) : Prop where
  formed : ∀ entry ∈ scheduler.entries, entry.WellFormed
  ready : ∀ index entry, scheduler.entries[index]? = some entry → entry.state = .ready →
    BecameReady earlier index
  spent : ∀ index, HandedOut earlier index →
    ∃ entry, scheduler.entries[index]? = some entry ∧ entry.state.spent = true
  parsed : scheduler.parsing_complete = true → Parsed earlier

section History

variable {index : Nat} {entry after : Entry}

variable {operation : Operation} {answer : Answer}

variable (moved : Moved operation answer index entry after)

include moved

theorem Moved.wellFormed (formed : entry.WellFormed) :
    after.WellFormed := by
  unfold Entry.WellFormed at formed ⊢
  rw [moved.kind, moved.script_mode]
  exact formed

theorem Moved.ready {before final : Scheduler} (ready : after.state = .ready) :
    entry.state = .ready ∨
      Delivers index
        { before := before, operation := operation, answer := answer, after := final } := by
  rcases moved.state with same | legal
  · exact .inl (same ▸ ready)
  · rw [ready] at legal
    generalize entry.state = start at legal
    cases legal with
    | completeFetch _ request_id generation =>
      exact .inr (.completeFetch before final request_id generation)
    | markReady _ => exact .inr (.markReady before final)
    | finish _ _ _ ended => cases ended

theorem Moved.spent (spent : entry.state.spent = true) :
    after.state.spent = true := by
  rcases moved.state with same | legal
  · exact same ▸ spent
  · generalize entry.state = start, after.state = target at legal spent ⊢
    cases legal with
    | finish _ _ _ ended => simp [State.spent, ended]
    | takeRunnable | failFetch | reject | abort => rfl
    | queue | beginFetch | completeFetch | markReady => cases spent

theorem Moved.terminal (terminal : entry.state.terminal = true) :
    after = entry := by
  rcases moved.state with same | legal
  · exact same
  · generalize entry.state = start, after.state = target at legal terminal
    cases legal with
    | failFetch _ _ _ _ pending => rcases pending with rfl | rfl <;> cases terminal
    | reject _ _ open_state => rw [open_state] at terminal; cases terminal
    | abort _ _ _ open_state => rw [open_state] at terminal; cases terminal
    | _ => cases terminal

end History

theorem Recorded.init (generation : UInt32) : Recorded [] (Scheduler.init generation) where
  formed _ member := absurd member List.not_mem_nil
  ready _ _ found := nomatch found
  spent _ := by
    rintro ⟨step, member, -⟩
    cases member
  parsed parsed := nomatch parsed

theorem Recorded.perform {earlier : List Step} {scheduler : Scheduler}
    (recorded : Recorded earlier scheduler) (operation : Operation) :
    Recorded
      (earlier ++ [{
        before := scheduler
        operation := operation
        answer := (scheduler.perform operation).1
        after := (scheduler.perform operation).2 }])
      (scheduler.perform operation).2 := by
  have effect := perform_effect scheduler operation
  -- every later entry is an earlier one that moved, or a new one
  have origin (index : Nat) (entry : Entry)
      (found : (scheduler.perform operation).2.entries[index]? = some entry) :
      (entry.state = .discovered ∧ entry.WellFormed) ∨
        ∃ prior, scheduler.entries[index]? = some prior ∧
          Moved operation (scheduler.perform operation).1 index prior entry := by
    rcases Nat.lt_or_ge index scheduler.count with inside | outside
    · obtain ⟨after, after_found, moved⟩ :=
        effect.kept index _ (List.getElem?_eq_getElem inside)
      obtain rfl := Option.some.inj (after_found.symm.trans found)
      exact .inr ⟨_, List.getElem?_eq_getElem inside, moved⟩
    · exact .inl (effect.fresh index entry outside found)
  constructor
  · intro entry member
    obtain ⟨index, found⟩ := List.mem_iff_getElem?.mp member
    obtain ⟨-, formed⟩ | ⟨prior, prior_found, moved⟩ := origin index entry found
    · exact formed
    · exact moved.wellFormed (recorded.formed prior (List.mem_of_getElem? prior_found))
  · intro index entry found ready
    obtain ⟨discovered, -⟩ | ⟨prior, prior_found, moved⟩ := origin index entry found
    · cases discovered.symm.trans ready
    · rcases moved.ready ready with stood | delivers
      · obtain ⟨step, member, delivers⟩ := recorded.ready index prior prior_found stood
        exact ⟨step, List.mem_append_left _ member, delivers⟩
      · exact ⟨_, List.mem_append_right _ (List.mem_singleton_self _), delivers⟩
  · rintro index ⟨step, member, dispatched, handed⟩
    rcases List.mem_append.mp member with old | new
    · obtain ⟨prior, prior_found, spent⟩ := recorded.spent index ⟨step, old, dispatched, handed⟩
      obtain ⟨after, after_found, moved⟩ := effect.kept index prior prior_found
      exact ⟨after, after_found, moved.spent spent⟩
    · rw [List.mem_singleton] at new
      subst new
      obtain rfl : operation = .takeRunnable := dispatched
      exact takeRunnable_starts handed
  · intro parsed
    rcases effect.parsed parsed with before | now
    · obtain ⟨step, member, announced⟩ := recorded.parsed before
      exact ⟨step, List.mem_append_left _ member, announced⟩
    · exact ⟨_, List.mem_append_right _ (List.mem_singleton_self _), now⟩

theorem Recorded.run {past : List Step} {scheduler : Scheduler} (recorded : Recorded past scheduler)
    {operations : List Operation} {earlier later : List Step} {step : Step}
    (runs : scheduler.run operations = earlier ++ step :: later) :
    Recorded (past ++ earlier) step.before ∧
      step.answer = (step.before.perform step.operation).1 ∧
      step.after = (step.before.perform step.operation).2 := by
  induction operations generalizing past scheduler earlier with
  | nil => cases earlier <;> cases runs
  | cons operation rest ih =>
    cases earlier with
    | nil =>
      obtain ⟨rfl, -⟩ := List.cons_eq_cons.mp runs
      rw [List.append_nil]
      exact ⟨recorded, rfl, rfl⟩
    | cons first others =>
      obtain ⟨rfl, rest_runs⟩ := List.cons_eq_cons.mp runs
      have tail := ih (recorded.perform operation) rest_runs
      rwa [List.append_assoc] at tail

/-- What every step of a document obeys, given the steps before it. -/
structure Lawful (earlier : List Step) (step : Step) : Prop where
  handed : step.operation = .takeRunnable → ∀ index, step.answer = .index index →
    (∃ entry, Eligible step.before index entry ∧
      (entry.isScript .defer_mode = true → Parsed earlier)) ∧
    BecameReady earlier index ∧ ¬HandedOut earlier index
  conserved : step.operation = .takeRunnable → step.answer = .nothing →
    ¬∃ index entry, Eligible step.before index entry
  frozen : ∀ (index : Nat) (entry : Entry), step.before.entries[index]? = some entry →
    entry.state.terminal = true → step.after.entries[index]? = some entry
  refused : ∀ error, step.answer = .error error → step.after = step.before

/-- For every sequence of operations of a document: an entry is handed out once at most, after its
content became ready and in the turn of its kind; a dispatch that hands out nothing leaves nothing
in its turn; terminal entries never change, and errors change nothing. -/
theorem dispatch_lawful (generation : UInt32) (operations : List Operation)
    (earlier later : List Step) (step : Step)
    (runs : (Scheduler.init generation).run operations = earlier ++ step :: later) :
    Lawful earlier step := by
  obtain ⟨recorded, answered, left⟩ := (Recorded.init generation).run runs
  rw [List.nil_append] at recorded
  obtain ⟨before, operation, answer, after⟩ := step
  obtain rfl : answer = (before.perform operation).1 := answered
  obtain rfl : after = (before.perform operation).2 := left
  have effect := perform_effect before operation
  refine ⟨?_, ?_, ?_, effect.refused⟩
  · rintro dispatched index handed
    obtain rfl : operation = .takeRunnable := dispatched
    obtain ⟨⟨entry, eligible⟩, -⟩ := takeRunnable_some (handed_eq_index.mp handed)
    refine ⟨⟨entry, eligible, fun is_script => recorded.parsed (eligible.deferred is_script).1⟩,
      recorded.ready index entry eligible.found eligible.ready, fun handed_before => ?_⟩
    obtain ⟨other, other_found, spent⟩ := recorded.spent index handed_before
    obtain rfl := Option.some.inj (other_found.symm.trans eligible.found)
    rw [eligible.ready] at spent
    cases spent
  · rintro dispatched nothing ⟨index, entry, eligible⟩
    obtain rfl : operation = .takeRunnable := dispatched
    exact (takeRunnable_none (handed_eq_nothing.mp nothing)).2 index entry eligible
      (recorded.formed entry (List.mem_of_getElem? eligible.found))
  · intro index entry found terminal
    obtain ⟨after, after_found, moved⟩ := effect.kept index entry found
    rw [after_found, moved.terminal terminal]

/-- The dispatch of a parser-blocking script that became ready. -/
theorem dispatch_lawful_sample :
    Lawful
      ((Scheduler.init 7).run [.discover 1 .script .parser_blocking false, .markReady 0])
      { before := (((Scheduler.init 7).discover 1 .script .parser_blocking false).2.markReady 0).2
        operation := .takeRunnable
        answer := .index 0
        after := (((Scheduler.init 7).discover 1 .script .parser_blocking false).2.markReady 0).2
          |>.takeRunnable.2 } :=
  dispatch_lawful 7 [.discover 1 .script .parser_blocking false, .markReady 0, .takeRunnable]
    ((Scheduler.init 7).run [.discover 1 .script .parser_blocking false, .markReady 0]) [] _ rfl

end R4OS.Resources
