import R4OS.Text.Bytes

/-!
# Decoders

A decoder takes bytes from the front of an input and writes to a memory, and may fail half way.
`Takes` says exactly which texts a decoder takes and what each of them does to the memory.
-/

namespace R4OS.Text

/-- A position in an input. -/
structure Cursor where
  input : Bytes
  pos : Nat := 0

/-- A cursor beside the memory that is written. -/
structure Decoding (Memory : Type) where
  cursor : Cursor
  memory : Memory

abbrev Decoder (Failure Memory : Type) := EStateM Failure (Decoding Memory)

namespace Decoder

variable {Failure Memory First Second Item : Type}

variable {decoder : Decoder Failure Memory First} {put : Nat → Item → Memory → Memory} {place : Nat}
  {items : List Item}

def write (change : Memory → Memory) : Decoder Failure Memory Unit := fun state =>
  .ok () { state with memory := change state.memory }

/-- Take a number of bytes, up to a position in the input. -/
def take (limit : Nat) (failure : Failure) (count : Nat) : Decoder Failure Memory Bytes :=
  fun state =>
    let cursor := state.cursor
    if cursor.input.length - cursor.pos < count ∨ limit < cursor.pos + count then
      .error failure state
    else .ok ((cursor.input.drop cursor.pos).take count)
      { state with cursor := { cursor with pos := cursor.pos + count } }

/-- Run a decoder for each of some places in turn. -/
def forPlaces (body : Nat → Decoder Failure Memory Unit) : Nat → Nat → Decoder Failure Memory Unit
  | _, 0 => pure ()
  | place, count + 1 => do
      body place
      forPlaces body (place + 1) count

/-- The state that a decoder ends in, whether it succeeds or fails. -/
def final (decoder : Decoder Failure Memory First) (state : Decoding Memory) : Decoding Memory :=
  match decoder state with
  | .ok _ state => state
  | .error _ state => state

def Inside (input : Bytes) (state : Decoding Memory) : Prop :=
  state.cursor.input = input ∧ state.cursor.pos ≤ input.length

/-- A decoder never leaves its input. -/
def StaysInside (decoder : Decoder Failure Memory First) : Prop :=
  ∀ input state, Inside input state → Inside input (decoder.final state)

theorem StaysInside.pure (value : First) : StaysInside (Pure.pure value : Decoder Failure Memory First) :=
  fun _ _ inside => inside

theorem StaysInside.throw (failure : Failure) :
    StaysInside (MonadExcept.throw failure : Decoder Failure Memory First) :=
  fun _ _ inside => inside

theorem StaysInside.write (change : Memory → Memory) :
    StaysInside (write change : Decoder Failure Memory Unit) :=
  fun _ _ inside => inside

theorem StaysInside.bind {next : First → Decoder Failure Memory Second} (head : StaysInside decoder)
    (tail : ∀ value, StaysInside (next value)) : StaysInside (decoder >>= next) := by
  intro input state inside
  have first := head input state inside
  unfold final at first ⊢
  change Inside input (match EStateM.bind decoder next state with
    | .ok _ state => state
    | .error _ state => state)
  unfold EStateM.bind
  cases ran : decoder state with
  | ok value middle =>
    rw [ran] at first
    exact tail value input middle first
  | error failure middle =>
    rw [ran] at first
    exact first

theorem StaysInside.take {limit count : Nat} {failure : Failure} :
    StaysInside (take limit failure count : Decoder Failure Memory Bytes) := by
  intro input state inside
  unfold final Decoder.take
  dsimp only
  split
  · next value after ran =>
    split at ran
    · cases ran
    · next room =>
      cases ran
      obtain ⟨rfl, within⟩ := inside
      refine ⟨rfl, ?_⟩
      dsimp only
      omega
  · next failed after ran =>
    split at ran
    · cases ran
      exact inside
    · cases ran

theorem StaysInside.ite {condition : Prop} [Decidable condition]
    {first second : Decoder Failure Memory First} (yes : StaysInside first) (no : StaysInside second) :
    StaysInside (if condition then first else second) := by
  split
  · exact yes
  · exact no

theorem StaysInside.forPlaces {body : Nat → Decoder Failure Memory Unit}
    (each : ∀ place, StaysInside (body place)) (place count : Nat) :
    StaysInside (forPlaces body place count) := by
  induction count generalizing place with
  | zero => exact .pure ()
  | succ count induction => exact (each place).bind fun _ => induction (place + 1)

/-- A decoder takes exactly the texts of a shape, up to a position in the input. -/
def Takes (limit : Nat) (decoder : Decoder Failure Memory First)
    (shape : Bytes → Memory → First → Memory → Prop) : Prop :=
  ∀ front tail before value after, front.length ≤ limit →
    (decoder ⟨⟨front ++ tail, front.length⟩, before⟩ = .ok value after ↔
      ∃ text rest memory, tail = text ++ rest ∧ (front ++ text).length ≤ limit ∧
        after = ⟨⟨front ++ tail, (front ++ text).length⟩, memory⟩ ∧ shape text before value memory)

variable {limit : Nat} {shape : Bytes → Memory → First → Memory → Prop}

theorem Takes.congr
    {other : Bytes → Memory → First → Memory → Prop} (takes : Takes limit decoder shape)
    (same : ∀ text before value after, shape text before value after ↔ other text before value after) :
    Takes limit decoder other := by
  have equal : shape = other := by
    funext text before value after
    exact propext (same text before value after)
  exact equal ▸ takes

theorem Takes.pure (value : First) : Takes limit (Pure.pure value : Decoder Failure Memory First)
    fun text before answer after => text = [] ∧ answer = value ∧ after = before := by
  intro front tail before answer after short
  change EStateM.Result.ok value _ = EStateM.Result.ok answer after ↔ _
  constructor
  · intro ran
    cases ran
    exact ⟨[], tail, before, rfl, by simpa using short, by simp, rfl, rfl, rfl⟩
  · rintro ⟨_, rest, _, -, -, rfl, rfl, rfl, rfl⟩
    simp

theorem Takes.throw (failure : Failure) :
    Takes limit (MonadExcept.throw failure : Decoder Failure Memory First)
      fun _ _ _ _ => False := by
  intro front tail before answer after short
  constructor
  · intro ran
    cases ran
  · rintro ⟨-, -, -, -, -, -, never⟩
    exact never.elim

theorem Takes.write (change : Memory → Memory) :
    Takes limit (write change : Decoder Failure Memory Unit)
      fun text before _ after => text = [] ∧ after = change before := by
  intro front tail before answer after short
  change EStateM.Result.ok () _ = EStateM.Result.ok answer after ↔ _
  constructor
  · intro ran
    cases ran
    exact ⟨[], tail, change before, rfl, by simpa using short, by simp, rfl, rfl⟩
  · rintro ⟨_, rest, _, -, -, rfl, rfl, rfl⟩
    simp

theorem Takes.bind {next : First → Decoder Failure Memory Second}
    {shapes : First → Bytes → Memory → Second → Memory → Prop} (head : Takes limit decoder shape)
    (tail : ∀ value, Takes limit (next value) (shapes value)) : Takes limit (decoder >>= next)
      fun text before answer after => ∃ first second value middle, text = first ++ second ∧
        shape first before value middle ∧ shapes value second middle answer after := by
  intro front rest before answer after short
  change EStateM.bind decoder next _ = _ ↔ _
  constructor
  · intro ran
    unfold EStateM.bind at ran
    split at ran
    · next value middle first_ran =>
      obtain ⟨first, rest, memory, rfl, first_short, rfl, first_shape⟩ :=
        (head _ _ _ _ _ short).mp first_ran
      rw [← List.append_assoc] at ran
      obtain ⟨second, rest, memory', rfl, second_short, rfl, second_shape⟩ :=
        (tail value _ _ _ _ _ first_short).mp ran
      refine ⟨first ++ second, rest, memory', by simp, ?_, ?_, first, second, value, memory, rfl,
        first_shape, second_shape⟩
      · rwa [← List.append_assoc]
      · simp
    · cases ran
  · rintro ⟨text, rest, memory, rfl, both_short, rfl, first, second, value, middle, rfl, first_shape,
      second_shape⟩
    have first_short : (front ++ first).length ≤ limit := by
      simp only [List.length_append] at both_short ⊢
      omega
    unfold EStateM.bind
    rw [List.append_assoc first,
      (head front (first ++ (second ++ rest)) before value _ short).mpr
        ⟨first, _, middle, rfl, first_short, rfl, first_shape⟩]
    dsimp only
    rw [← List.append_assoc front, (tail value (front ++ first) (second ++ rest) middle answer _
      first_short).mpr ⟨second, rest, memory, rfl, by rwa [List.append_assoc], rfl, second_shape⟩]
    simp

theorem Takes.ite {condition : Prop} [Decidable condition]
    {first second : Decoder Failure Memory First}
    {other : Bytes → Memory → First → Memory → Prop} (yes : Takes limit first shape)
    (no : Takes limit second other) : Takes limit (if condition then first else second)
      fun text before value after => if condition then shape text before value after
        else other text before value after := by
  split
  · exact yes
  · exact no

theorem Takes.take {failure : Failure} (count : Nat) :
    Takes limit (take limit failure count : Decoder Failure Memory Bytes)
      fun text before value after => text.length = count ∧ value = text ∧ after = before := by
  intro front tail before value after short
  unfold Decoder.take
  dsimp only
  rw [List.drop_left, List.length_append, Nat.add_sub_cancel_left]
  constructor
  · intro ran
    split at ran
    · cases ran
    · next room =>
      cases ran
      have fits : (tail.take count).length = count := by
        rw [List.length_take]
        omega
      refine ⟨tail.take count, tail.drop count, before, (List.take_append_drop _ _).symm, ?_, ?_,
        fits, rfl, rfl⟩
      · rw [List.length_append, fits]
        omega
      · rw [List.length_append, fits]
  · rintro ⟨text, rest, memory, rfl, both_short, rfl, rfl, rfl, rfl⟩
    rw [List.length_append] at both_short
    rw [if_neg (by rw [List.length_append]; omega), List.take_left, List.length_append]

/-- What a decoder takes when it runs for each of some places in turn. -/
def Repeated (shape : Nat → Bytes → Memory → Memory → Prop) :
    Nat → Nat → Bytes → Memory → Memory → Prop
  | _, 0, text, before, after => text = [] ∧ after = before
  | place, count + 1, text, before, after => ∃ first second middle, text = first ++ second ∧
      shape place first before middle ∧ Repeated shape (place + 1) count second middle after

theorem Takes.forPlaces {body : Nat → Decoder Failure Memory Unit}
    {shape : Nat → Bytes → Memory → Memory → Prop}
    (each : ∀ place, Takes limit (body place) fun text before _ after => shape place text before after)
    (place count : Nat) : Takes limit (forPlaces body place count)
      fun text before _ after => Repeated shape place count text before after := by
  induction count generalizing place with
  | zero =>
    refine (Takes.pure ()).congr fun text before value after => ?_
    unfold Repeated
    simp
  | succ count induction =>
    refine ((each place).bind fun _ => induction (place + 1)).congr fun text before value after => ?_
    constructor
    · rintro ⟨first, second, -, middle, split, head, tail⟩
      exact ⟨first, second, middle, split, head, tail⟩
    · rintro ⟨first, second, middle, split, head, tail⟩
      exact ⟨first, second, (), middle, split, head, tail⟩

/-- Write some items to places in turn. -/
def putAll (put : Nat → Item → Memory → Memory) : Nat → List Item → Memory → Memory
  | _, [], memory => memory
  | place, item :: rest, memory => putAll put (place + 1) rest (put place item memory)

/-- What a view shows is written on its own. -/
theorem putAll_view {View : Type} (view : Memory → View) (shown : Nat → Item → View → View)
    (same : ∀ place item memory, view (put place item memory) = shown place item (view memory)) {memory : Memory} :
    view (putAll put place items memory) = putAll shown place items (view memory) := by
  induction items generalizing place memory with
  | nil => rfl
  | cons item rest induction => rw [putAll, induction, same, putAll]

theorem putAll_kept {View : Type} (view : Memory → View)
    (same : ∀ place item memory, view (put place item memory) = view memory) {memory : Memory} :
    view (putAll put place items memory) = view memory := by
  induction items generalizing place memory with
  | nil => rfl
  | cons item rest induction => rw [putAll, induction, same]

theorem putAll_modify {change : Item → First → First}
    {table : List First} (room : place + items.length ≤ table.length) :
    putAll (fun place item table => table.modify place (change item)) place items table =
      table.take place ++ List.zipWith change items (table.drop place) ++
        table.drop (place + items.length) := by
  induction items generalizing place table with
  | nil => simp [putAll]
  | cons item rest induction =>
    rw [List.length_cons] at room
    have inside : place < table.length := by omega
    obtain ⟨front, first, back, rfl, rfl⟩ : ∃ front first back, table = front ++ first :: back ∧
        place = front.length :=
      ⟨table.take place, table[place], table.drop (place + 1), by simp, by simp; omega⟩
    have changed : (front ++ first :: back).modify front.length (change item) =
        front ++ change item first :: back := by
      rw [List.modify_eq_take_cons_drop inside]
      simp
    rw [putAll, changed, induction (by simpa [Nat.add_assoc, Nat.add_comm 1] using room)]
    have past : front.drop (front.length + 1) = [] := List.drop_eq_nil_of_le (by omega)
    have whole : front.take (front.length + 1) = front := List.take_of_length_le (by omega)
    simp [Nat.add_assoc, Nat.add_comm 1, List.take_append, List.drop_append, past, whole]

theorem putAll_set {entry : Item → First} {table : List First}
    (room : place + items.length ≤ table.length) :
    putAll (fun place item table => table.set place (entry item)) place items table =
      table.take place ++ items.map entry ++ table.drop (place + items.length) := by
  have same : (fun place item (table : List First) => table.set place (entry item)) =
      fun place item table => table.modify place fun _ => entry item := by
    funext place item table
    exact List.set_eq_modify _ _ _
  have covered : List.zipWith (fun item (_ : First) => entry item) items (table.drop place) =
      items.map entry := by
    refine List.ext_getElem ?_ fun index _ _ => by simp
    rw [List.length_zipWith, List.length_drop, List.length_map]
    omega
  rw [same, putAll_modify room, covered]

theorem repeated_iff {text : Item → Bytes} {count : Nat} {whole : Bytes} {before after : Memory} :
    Repeated (fun place part before after => ∃ item, part = text item ∧ after = put place item before)
        place count whole before after ↔
      ∃ items, items.length = count ∧ whole = items.flatMap text ∧
        after = putAll put place items before := by
  induction count generalizing place whole before with
  | zero =>
    constructor
    · rintro ⟨rfl, rfl⟩
      exact ⟨[], rfl, rfl, rfl⟩
    · rintro ⟨items, empty, rfl, rfl⟩
      obtain rfl := List.length_eq_zero_iff.mp empty
      exact ⟨rfl, rfl⟩
  | succ count induction =>
    constructor
    · rintro ⟨_, second, _, rfl, ⟨item, rfl, rfl⟩, tail⟩
      obtain ⟨items, rfl, rfl, rfl⟩ := induction.mp tail
      exact ⟨item :: items, rfl, rfl, rfl⟩
    · rintro ⟨items, counted, rfl, rfl⟩
      cases items with
      | nil => cases counted
      | cons item rest =>
        exact ⟨text item, rest.flatMap text, put place item before, rfl, ⟨item, rfl, rfl⟩,
          induction.mpr ⟨rest, Nat.succ.inj counted, rfl, rfl⟩⟩

end Decoder

end R4OS.Text
