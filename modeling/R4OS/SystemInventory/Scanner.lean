import R4OS.Text.Reader

/-!
# Scanner

The scanner of the inventory: a reader of punctuation, strings without escapes, numbers and string
arrays, each of which may stand behind whitespace.
-/

namespace R4OS.SystemInventory

open Text

def quote : UInt8 := chr '"'

/-- ASCII whitespace. -/
def isWhitespace (byte : UInt8) : Bool :=
  byte == chr ' ' || byte == chr '\t' || byte == chr '\n' || byte == chr '\r' || byte == 0x0b ||
    byte == 0x0c

namespace Scanner

variable {blank value : Bytes} {first expected : UInt8}

/-- Skip whitespace. -/
def skip : Reader Unit := fun data => some ((), data.dropWhile isWhitespace)

/-- Take one byte. -/
def byte (expected : UInt8) : Reader Unit := fun data =>
  match data with
  | [] => none
  | first :: rest => if first = expected then some ((), rest) else none

/-- Take one punctuation byte. -/
def take (expected : UInt8) : Reader Unit := do
  skip
  byte expected

/-- Whether a punctuation byte is next. -/
def peek (expected : UInt8) : Reader Bool := do
  skip
  let data ← get
  return data.head? = some expected

def comma : Reader Unit := take (chr ',')

/-- A byte that no string may have. -/
def isRefused (byte : UInt8) : Bool := byte == chr '\\' || byte < 0x20

/-- Take a string that starts at the cursor. -/
def quoted : Reader Bytes := fun data =>
  match data with
  | [] => none
  | first :: rest =>
    if first = quote then
      let value := rest.takeWhile (· != quote)
      match rest.dropWhile (· != quote) with
      | [] => none
      | _ :: rest =>
        if value.any isRefused || !utf8ValidateSlice value then none else some (value, rest)
    else none

/-- Take a string. -/
def string : Reader Bytes := do
  skip
  quoted

/-- Take a key and its colon. -/
def key (expected : Bytes) : Reader Unit := do
  let got ← string
  guard (got = expected)
  take (chr ':')

/-- Take the literal `null`, if it is next. -/
def null : Reader Bool := fun data =>
  if startsWith data (ascii "null") then some (true, data.drop 4) else some (false, data)

/-- Take a string or `null`. -/
def optionalString : Reader (Option Bytes) := do
  skip
  if ← null then return none
  else return some (← string)

/-- Take the items of an array with room for `room` more of them, up to its closing bracket. -/
def items {Item : Type} (item : Reader Item) : (room : Nat) → Reader (List Item)
  | 0 => do
      if ← peek (chr ']') then return []
      else failure
  | room + 1 => do
      if ← peek (chr ']') then return []
      else
        let value ← item
        if ← peek (chr ']') then return [value]
        else
          comma
          return value :: (← items item room)

/-- Take an array of strings. -/
def stringArray (capacity : Nat) : Reader (List Bytes) := do
  take (chr '[')
  let values ← items string capacity
  take (chr ']')
  return values

/-- Take the digits at the cursor. -/
def digits : Reader Nat := fun data =>
  (parseDecimal (2 ^ 64 - 1) (data.takeWhile isDigit)).map fun value =>
    (value, data.dropWhile isDigit)

/-- Take a number. -/
def number : Reader Nat := do
  skip
  digits

/-- Nothing but whitespace is left. -/
def done : Reader Unit := do
  skip
  let data ← get
  guard (data = [])

/-- A text of whitespace. -/
def Blank (text : Bytes) : Prop := ∀ byte ∈ text, isWhitespace byte = true

instance (text : Bytes) : Decidable (Blank text) := List.decidableBAll _ text

theorem blank_nil : Blank [] := by decide

theorem skip_reads (is_blank : Blank blank) {follow : Bytes}
    (solid : isWhitespace first = false) : ReadsBefore skip blank (first :: follow) () := by
  intro rest
  have dropped : (blank ++ (first :: follow ++ rest)).dropWhile isWhitespace =
      first :: follow ++ rest := by
    rw [List.dropWhile_append_of_pos is_blank, List.cons_append,
      List.dropWhile_cons_of_neg (by simp [solid])]
  simp only [StateT.run, skip, dropped]

theorem byte_reads (expected : UInt8) : Reads (byte expected) [expected] () := by
  intro rest
  simp [StateT.run, byte]

section

variable (is_blank : Blank blank)

include is_blank

theorem take_reads
    (solid : isWhitespace expected = false) : Reads (take expected) (blank ++ [expected]) () :=
  (skip_reads is_blank solid).chain (byte_reads expected)

theorem peek_reads (expected : UInt8) (follow : Bytes) (solid : isWhitespace first = false) :
    ReadsBefore (peek expected) blank (first :: follow) (decide (first = expected)) := by
  have answered : ReadsBefore (do
      let data ← get
      return decide (data.head? = some expected)) [] (first :: follow)
      (decide (first = expected)) := by
    intro rest
    simp
  rw [← List.append_nil blank]
  exact .bind (skip_reads is_blank solid) answered

theorem peek_hit (follow : Bytes) (solid : isWhitespace expected = false) :
    ReadsBefore (peek expected) blank (expected :: follow) true := by
  simpa using peek_reads is_blank expected follow solid

theorem peek_miss
    (follow : Bytes) (solid : isWhitespace first = false) (different : first ≠ expected) :
    ReadsBefore (peek expected) blank (first :: follow) false := by
  simpa [different] using peek_reads is_blank expected follow solid

theorem done_reads : ReadsWhole done blank () := by
  have dropped : blank.dropWhile isWhitespace = [] := List.dropWhile_eq_nil_iff.mpr is_blank
  have skipped : skip.run blank = some ((), []) := by
    simp [StateT.run, skip, dropped]
  rw [ReadsWhole, done, StateT.run_bind, skipped]
  rfl

end

/-- A string that the scanner takes: no quotes, no escapes, no control bytes, and UTF-8. -/
structure Scannable (value : Bytes) : Prop where
  closed : quote ∉ value
  plain : value.any isRefused = false
  utf8 : utf8ValidateSlice value = true

/-- A string in quotes. -/
def stringText (value : Bytes) : Bytes := quote :: (value ++ [quote])

theorem quoted_reads (scannable : Scannable value) :
    Reads quoted (stringText value) value := by
  intro rest
  have solid : ∀ byte ∈ value, (byte != quote) = true := by
    intro byte member
    rw [bne_iff_ne]
    rintro rfl
    exact scannable.closed member
  have dropped : (value ++ quote :: rest).dropWhile (· != quote) = quote :: rest := by
    rw [List.dropWhile_append_of_pos solid, List.dropWhile_cons_of_neg (by simp)]
  have taken : (value ++ quote :: rest).takeWhile (· != quote) = value := by
    rw [List.takeWhile_append_of_pos solid, List.takeWhile_cons_of_neg (by simp), List.append_nil]
  rw [stringText, List.cons_append, List.append_assoc, List.singleton_append]
  simp [StateT.run, quoted, dropped, taken, scannable.plain, scannable.utf8]

theorem quoted_yields : Yields quoted Scannable := by
  intro data value rest read
  simp only [StateT.run, quoted] at read
  split at read
  · cases read
  split at read
  · split at read
    · cases read
    · split at read
      · cases read
      · rename_i accepted
        cases read
        simp only [Bool.or_eq_true, Bool.not_eq_true', not_or, Bool.not_eq_true,
          Bool.not_eq_false] at accepted
        refine ⟨fun member => ?_, accepted.1, accepted.2⟩
        simpa using List.mem_takeWhile_imp member
  · cases read

theorem string_reads (is_blank : Blank blank)
    (scannable : Scannable value) : Reads string (blank ++ stringText value) value :=
  (skip_reads is_blank (by decide)).chain (quoted_reads scannable)

theorem string_yields : Yields string Scannable := Yields.after fun _ => quoted_yields

theorem key_reads (is_blank : Blank blank) {expected : Bytes} (scannable : Scannable expected) :
    Reads (key expected) (blank ++ stringText expected ++ [chr ':']) () :=
  (string_reads is_blank scannable).bind
    ((Reads.guard rfl).silent (take_reads blank_nil (by decide)))

theorem null_reads (follow : Bytes) : ReadsBefore null (ascii "null") follow true := by
  intro rest
  have starts : startsWith (ascii "null" ++ (follow ++ rest)) (ascii "null") = true :=
    startsWith_append _ _
  have dropped : (ascii "null" ++ (follow ++ rest)).drop 4 = follow ++ rest :=
    List.drop_left' (by decide)
  simp [StateT.run, null, starts, dropped]

theorem not_null_reads (follow : Bytes) : ReadsBefore null [] (quote :: follow) false := by
  intro rest
  have starts : startsWith (quote :: follow ++ rest) (ascii "null") = false := by
    have marker : ascii "null" = chr 'n' :: ascii "ull" := by decide
    rw [marker, startsWith, List.cons_append, List.isPrefixOf_cons_cons]
    have different : (chr 'n' == quote) = false := by decide
    rw [different, Bool.false_and]
  simp only [StateT.run, null, List.nil_append, starts, Bool.false_eq_true, if_false]

/-- The text of a string or `null`. -/
def optionalText : Option Bytes → Bytes
  | none => ascii "null"
  | some value => stringText value

theorem optionalString_reads (is_blank : Blank blank) {value : Option Bytes}
    (scannable : ∀ text ∈ value, Scannable text) :
    Reads optionalString (blank ++ optionalText value) value := by
  cases value with
  | none =>
    have marker : ascii "null" = chr 'n' :: ascii "ull" := by decide
    have skipped : ReadsBefore skip blank (ascii "null") () := by
      rw [marker]
      exact skip_reads is_blank (by decide)
    refine skipped.chain ?_
    rw [← List.append_nil (ascii "null")]
    exact (null_reads []).reads.bind (.pure none)
  | some value =>
    have string : Reads string (stringText value) value :=
      string_reads blank_nil (scannable value rfl)
    have answered : Reads (return some (← Scanner.string)) (stringText value) (some value) := by
      rw [← List.append_nil (stringText value)]
      exact string.bind (.pure (some value))
    refine (skip_reads is_blank (by decide)).chain ?_
    exact (not_null_reads _).chain answered

section

variable {Item : Type} {text : Item → Bytes} {gap close : Bytes}

/-- Items between commas.  `gap` stands behind every comma and `close` behind the last item. -/
def itemsText (text : Item → Bytes) (gap close : Bytes) : List Item → Bytes
  | [] => close
  | value :: [] => text value ++ close
  | value :: next :: rest =>
    text value ++ ([chr ','] ++ (gap ++ itemsText text gap close (next :: rest)))

/-- The reader takes the text of an item behind any whitespace, and the text starts an item. -/
structure ReadsItem (item : Reader Item) (text : Item → Bytes) (value : Item) : Prop where
  reads : ∀ blank, Blank blank → Reads item (blank ++ text value) value
  starts : ∃ first rest, text value = first :: rest ∧ isWhitespace first = false ∧ first ≠ chr ']'

theorem items_reads {item : Reader Item} {values : List Item}
    (reads : ∀ value ∈ values, ReadsItem item text value) (gap_blank : Blank gap)
    (close_blank : Blank close) {room : Nat} (fits : values.length ≤ room) {blank : Bytes}
    (is_blank : Blank blank) (follow : Bytes) :
    ReadsBefore (items item room) (blank ++ itemsText text gap close values) (chr ']' :: follow)
      values := by
  have closing : ∀ {blank : Bytes}, Blank blank →
      ReadsBefore (peek (chr ']')) blank (chr ']' :: follow) true :=
    fun is_blank => peek_hit is_blank follow (by decide)
  induction values generalizing room blank with
  | nil =>
    have both_blank : Blank (blank ++ close) := by
      intro byte member
      rcases List.mem_append.mp member with member | member
      · exact is_blank byte member
      · exact close_blank byte member
    rw [itemsText, ← List.append_nil (blank ++ close)]
    cases room with
    | zero | succ room => exact .bind (closing both_blank) ((Reads.pure []).before _)
  | cons value values induction =>
    cases room with
    | zero => cases fits
    | succ room =>
      have value_reads := reads value (by simp)
      obtain ⟨first, rest, starts, solid, different⟩ := value_reads.starts
      have opening : ∀ text', ReadsBefore (peek (chr ']')) blank (text value ++ text') false := by
        intro text'
        rw [starts, List.cons_append]
        exact peek_miss is_blank _ solid different
      have item_text : Reads item (text value) value := value_reads.reads [] blank_nil
      cases values with
      | nil =>
        rw [itemsText]
        refine .bind (List.append_assoc .. ▸ opening _) ?_
        refine .bind (item_text.before _) ?_
        rw [← List.append_nil close]
        exact .bind (closing close_blank) ((Reads.pure [value]).before _)
      | cons next rest' =>
        have between : ∀ text', ReadsBefore (peek (chr ']')) [] (chr ',' :: text') false :=
          fun text' => peek_miss blank_nil text' (by decide) (by decide)
        have comma_text : Reads comma [chr ','] () := take_reads blank_nil (by decide)
        have tail : ReadsBefore (items item room)
            (gap ++ itemsText text gap close (next :: rest')) (chr ']' :: follow)
            (next :: rest') := by
          apply induction
          · exact fun other member => reads other (.tail _ member)
          · simpa using fits
          · exact gap_blank
        rw [itemsText]
        refine .bind (List.append_assoc .. ▸ opening _) ?_
        refine .bind (item_text.before _) ?_
        refine .silent (between _) ?_
        refine .bind (comma_text.before _) ?_
        rw [← List.append_nil (gap ++ _)]
        exact .bind tail ((Reads.pure (value :: next :: rest')).before _)

theorem items_yields {item : Reader Item} {property : Item → Prop}
    (yields : Yields item property) (room : Nat) :
    Yields (items item room) fun values => ∀ value ∈ values, property value := by
  have nothing : Yields (pure []) fun values : List Item => ∀ value ∈ values, property value :=
    Yields.pure fun _ member => absurd member List.not_mem_nil
  induction room with
  | zero =>
    refine .after fun closed => ?_
    split
    · exact nothing
    · exact .failure
  | succ room induction =>
    refine .after fun closed => ?_
    split
    · exact nothing
    refine yields.bind fun value holds => .after fun closed => ?_
    split
    · exact .pure (List.forall_mem_singleton.mpr holds)
    · exact .after fun _ => induction.bind fun values tail =>
        Yields.pure (List.forall_mem_cons.mpr ⟨holds, tail⟩)

end

/-- An array of strings. -/
def arrayText (values : List Bytes) : Bytes :=
  [chr '['] ++ (itemsText stringText (ascii " ") [] values ++ [chr ']'])

theorem string_readsItem (scannable : Scannable value) :
    ReadsItem string stringText value where
  reads _ is_blank := string_reads is_blank scannable
  starts := ⟨quote, _, rfl, by decide, by decide⟩

theorem stringArray_reads (is_blank : Blank blank) {values : List Bytes}
    (scannable : ∀ value ∈ values, Scannable value) {capacity : Nat}
    (fits : values.length ≤ capacity) :
    Reads (stringArray capacity) (blank ++ arrayText values) values := by
  have taken : ReadsBefore (items string capacity)
      (itemsText stringText (ascii " ") [] values) [chr ']'] values :=
    items_reads (fun value member => string_readsItem (scannable value member)) (by decide) blank_nil
      fits blank_nil []
  have closing : Reads (do take (chr ']'); return values) [chr ']'] values := by
    rw [← List.append_nil [chr ']']]
    exact (take_reads blank_nil (by decide)).bind (.pure values)
  rw [arrayText, ← List.append_assoc]
  exact (take_reads is_blank (by decide)).bind (taken.chain closing)

theorem digits_reads {value : Nat} (bounded : value < 2 ^ 64) (follow : Bytes)
    (solid : isDigit first = false) :
    ReadsBefore digits (decimal value) (first :: follow) value := by
  intro rest
  have digit : ∀ byte ∈ decimal value, isDigit byte = true := fun byte => decimal_isDigit
  have taken : (decimal value ++ (first :: follow ++ rest)).takeWhile isDigit = decimal value := by
    rw [List.takeWhile_append_of_pos digit, List.cons_append,
      List.takeWhile_cons_of_neg (by simp [solid]), List.append_nil]
  have dropped : (decimal value ++ (first :: follow ++ rest)).dropWhile isDigit =
      first :: follow ++ rest := by
    rw [List.dropWhile_append_of_pos digit, List.cons_append,
      List.dropWhile_cons_of_neg (by simp [solid])]
  simp only [StateT.run, digits, taken, dropped, parseDecimal_decimal (Nat.le_sub_one_of_lt bounded),
    Option.map_some]

theorem isDigit_not_whitespace {byte : UInt8} (digit : isDigit byte = true) :
    isWhitespace byte = false := by
  rw [Bool.eq_false_iff]
  intro blank
  simp only [isWhitespace, Bool.or_eq_true, beq_iff_eq] at blank
  rcases blank with ((((rfl | rfl) | rfl) | rfl) | rfl) | rfl <;> revert digit <;> decide

theorem number_reads (is_blank : Blank blank) {value : Nat}
    (bounded : value < 2 ^ 64) (follow : Bytes) (solid : isDigit first = false) :
    ReadsBefore number (blank ++ decimal value) (first :: follow) value := by
  have skipped : ReadsBefore skip blank (decimal value ++ first :: follow) () := by
    cases numeral : decimal value with
    | nil => exact absurd numeral (decimal_ne_nil value)
    | cons head tail =>
      have digit : isDigit head = true := decimal_isDigit (by rw [numeral]; simp)
      exact skip_reads is_blank (isDigit_not_whitespace digit)
  exact .bind skipped (digits_reads bounded follow solid)

end Scanner
end R4OS.SystemInventory
