import R4OS.Text.Keyed

/-!
# Readers

A reader moves a cursor over a text.  `Reads` says which text a reader takes from the front of any
longer one, and `Consumes` how many line separators it takes whenever it succeeds.
-/

namespace R4OS.Text

/-- A reader moves a cursor over a text, whose rest is its state. -/
abbrev Reader := StateT Bytes Option

section

variable {First Second : Type}

variable {reader : Reader First} {next : First → Reader Second} {front back text : Bytes}
  {first value : First} {second : Second} {property : First → Prop}

/-- The reader takes exactly `text` from the front of every text that starts with it. -/
def Reads (reader : Reader First) (text : Bytes) (value : First) : Prop :=
  ∀ rest, reader.run (text ++ rest) = some (value, rest)

theorem Reads.pure (value : First) : Reads (pure value) [] value := fun _ => rfl

theorem Reads.bind (head : Reads reader front first)
    (tail : Reads (next first) back second) : Reads (reader >>= next) (front ++ back) second := by
  intro rest
  rw [StateT.run_bind, List.append_assoc, head, Option.bind_eq_bind, Option.bind_some, tail]

theorem Reads.silent (head : Reads reader [] first)
    (tail : Reads (next first) text second) : Reads (reader >>= next) text second :=
  head.bind tail

theorem Reads.guard {condition : Prop} [Decidable condition] (holds : condition) :
    Reads (guard condition) [] () := by
  intro rest
  simp [holds]

theorem Reads.lift {result : Option First} (found : result = some value) :
    Reads (liftM result) [] value := by
  intro rest
  simp [found]

/-- The reader takes `text` wherever `follow` stands behind it, and leaves `follow`. -/
def ReadsBefore (reader : Reader First) (text follow : Bytes) (value : First) : Prop :=
  ∀ rest, reader.run (text ++ (follow ++ rest)) = some (value, follow ++ rest)

theorem Reads.before
    (reads : Reads reader text value) (follow : Bytes) : ReadsBefore reader text follow value :=
  fun rest => reads (follow ++ rest)

theorem ReadsBefore.bind {follow : Bytes} (head : ReadsBefore reader front (back ++ follow) first)
    (tail : ReadsBefore (next first) back follow second) :
    ReadsBefore (reader >>= next) (front ++ back) follow second := by
  intro rest
  have head_read := head rest
  rw [List.append_assoc] at head_read
  rw [StateT.run_bind, List.append_assoc, head_read, Option.bind_eq_bind, Option.bind_some, tail]

theorem ReadsBefore.silent {follow : Bytes} (head : ReadsBefore reader [] (text ++ follow) first)
    (tail : ReadsBefore (next first) text follow second) :
    ReadsBefore (reader >>= next) text follow second :=
  head.bind tail

theorem ReadsBefore.reads
    (before : ReadsBefore reader text [] value) : Reads reader text value := before

theorem ReadsBefore.chain
    (head : ReadsBefore reader front back first) (tail : Reads (next first) back second) :
    Reads (reader >>= next) (front ++ back) second := by
  refine (ReadsBefore.bind ?_ (tail.before [])).reads
  rwa [List.append_nil]

def ReadsWhole (reader : Reader First) (text : Bytes) (value : First) : Prop :=
  reader.run text = some (value, [])

theorem ReadsBefore.whole
    (head : ReadsBefore reader front back first) (tail : ReadsWhole (next first) back second) :
    ReadsWhole (reader >>= next) (front ++ back) second := by
  have head_read := head []
  rw [List.append_nil] at head_read
  rw [ReadsWhole, StateT.run_bind, head_read, Option.bind_eq_bind, Option.bind_some, tail]

theorem Reads.whole (head : Reads reader front first) (tail : ReadsWhole (next first) back second) :
    ReadsWhole (reader >>= next) (front ++ back) second :=
  (head.before back).whole tail

theorem Reads.silentWhole (head : Reads reader [] first)
    (tail : ReadsWhole (next first) text second) : ReadsWhole (reader >>= next) text second :=
  head.whole tail

theorem ReadsWhole.bind (head : ReadsWhole reader text first)
    (tail : Reads (next first) [] second) : ReadsWhole (reader >>= next) text second := by
  have tail_read := tail []
  rw [ReadsWhole] at head ⊢
  rw [StateT.run_bind, head, Option.bind_eq_bind, Option.bind_some]
  exact tail_read

/-- Whatever the reader answers satisfies the property. -/
def Yields (reader : Reader First) (property : First → Prop) : Prop :=
  ∀ data value rest, reader.run data = some (value, rest) → property value

theorem Yields.pure (holds : property value) :
    Yields (pure value) property := by
  intro data value' rest read
  cases read
  exact holds

theorem Yields.bind {property' : Second → Prop} (head : Yields reader property)
    (tail : ∀ value, property value → Yields (next value) property') :
    Yields (reader >>= next) property' := by
  intro data second rest read
  rw [StateT.run_bind, Option.bind_eq_bind, Option.bind_eq_some_iff] at read
  obtain ⟨⟨first, middle⟩, first_read, second_read⟩ := read
  exact tail first (head _ _ _ first_read) _ _ _ second_read

theorem Yields.after {property : Second → Prop} (tail : ∀ value, Yields (next value) property) :
    Yields (reader >>= next) property :=
  (show Yields reader fun _ => True from fun _ _ _ _ => True.intro).bind fun value _ => tail value

theorem Yields.failure : Yields failure property := by
  intro data value rest read
  cases read

/-- Whenever the reader succeeds it has taken a text with that many line separators. -/
def Consumes (reader : Reader First) (count : Nat) : Prop :=
  ∀ data value rest, reader.run data = some (value, rest) →
    ∃ text, data = text ++ rest ∧ text.count newline = count

theorem Consumes.pure (value : First) : Consumes (pure value) 0 := by
  intro data value' rest read
  cases read
  exact ⟨[], rfl, rfl⟩

theorem Consumes.bind {front back : Nat}
    (head : Consumes reader front) (tail : ∀ value, Consumes (next value) back) :
    Consumes (reader >>= next) (front + back) := by
  intro data second rest read
  rw [StateT.run_bind, Option.bind_eq_bind, Option.bind_eq_some_iff] at read
  obtain ⟨⟨first, middle⟩, first_read, second_read⟩ := read
  obtain ⟨text, rfl, text_count⟩ := head _ _ _ first_read
  obtain ⟨text', rfl, text_count'⟩ := tail _ _ _ _ second_read
  exact ⟨text ++ text', by rw [List.append_assoc], by
    rw [List.count_append, text_count, text_count']⟩

theorem Consumes.guard {condition : Prop} [Decidable condition] :
    Consumes (guard condition) 0 := by
  intro data value rest read
  by_cases holds : condition
  · simp only [holds, guard_true] at read
    cases read
    exact ⟨[], rfl, rfl⟩
  · simp [holds] at read

theorem Consumes.lift (result : Option First) : Consumes (liftM result) 0 := by
  intro data value rest read
  cases result with
  | none => cases read
  | some found =>
    cases read
    exact ⟨[], rfl, rfl⟩

end

def nextLine : Reader Bytes := fun data =>
  match data.dropWhile (· != newline) with
  | [] => none
  | _ :: rest => some (data.takeWhile (· != newline), rest)

theorem nextLine_reads {line : Bytes} (unbroken : newline ∉ line) :
    Reads nextLine (line ++ [newline]) line := by
  intro rest
  have solid : ∀ byte ∈ line, (byte != newline) = true := by
    intro byte member
    rw [bne_iff_ne]
    rintro rfl
    exact unbroken member
  have dropped : (line ++ newline :: rest).dropWhile (· != newline) = newline :: rest := by
    rw [List.dropWhile_append_of_pos solid, List.dropWhile_cons_of_neg (by simp)]
  have taken : (line ++ newline :: rest).takeWhile (· != newline) = line := by
    rw [List.takeWhile_append_of_pos solid, List.takeWhile_cons_of_neg (by simp), List.append_nil]
  rw [List.append_assoc, List.singleton_append]
  simp [StateT.run, nextLine, dropped, taken]

theorem nextLine_consumes : Consumes nextLine 1 := by
  intro data line rest read
  simp only [StateT.run, nextLine] at read
  split at read
  · cases read
  · rename_i separator rest' dropped
    cases read
    have separated : separator = newline := by
      have stopped := List.head?_dropWhile_not (· != newline) data
      rw [dropped] at stopped
      simpa using stopped
    refine ⟨data.takeWhile (· != newline) ++ [newline], ?_, ?_⟩
    · have parts := List.takeWhile_append_dropWhile (p := (· != newline)) (l := data)
      rw [dropped, separated] at parts
      rw [List.append_assoc, List.singleton_append, parts]
    · have absent : newline ∉ data.takeWhile (· != newline) := by
        intro member
        simpa using List.mem_takeWhile_imp member
      rw [List.count_append, List.count_eq_zero_of_not_mem absent, List.count_singleton_self]

end R4OS.Text
