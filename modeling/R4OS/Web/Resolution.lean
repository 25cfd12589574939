import R4OS.Web.FixedPoint
import R4OS.Web.Origin

/-!
# Resolving references

A resolved reference is parsed from a text with the scheme of its base, and with the host of the base
unless the reference has its own.  The origin of an address is read from its host.
-/

namespace R4OS.Web

open Incremental Text Navigation

/-- The name of a scheme with what follows it. -/
def marked (name : Bytes) (pieces : Pieces) : Bytes := name ++ ascii "://" ++ pieces.text

section Parts

variable {name hostname port : Bytes} {pieces : Pieces} {scheme : Scheme} {url other : Url}

theorem endsPath_cases {byte : UInt8} (stop : endsPath byte = true) : byte = chr '?' ∨ byte = chr '#' := by
  simpa [endsPath, ascii] using stop

theorem parts_marked (pieces : Pieces) (unmarked : chr ':' ∉ name) : ∃ parsed, WebUrl.parts (marked name pieces) = .ok parsed ∧
    parsed.host = pieces.host_port ∧ parsed.hostname = (WebUrl.splitHost pieces.host_port).1 ∧
    parsed.port = (WebUrl.splitHost pieces.host_port).2 ∧ parsed.pathname = pieces.path ∧
    parsed.search ++ parsed.hash = pieces.suffix := by
  have cut_eq : cut (chr ':') (marked name pieces) = some (name, ascii "//" ++ pieces.text) := by
    rw [marked, List.append_assoc]
    exact cut_append unmarked
  have starts : startsWith (ascii "//" ++ pieces.text) (ascii "//") = true := startsWith_append _ _
  have rest : (ascii "//" ++ pieces.text).drop 2 = pieces.text := rfl
  have clear : ∀ byte ∈ pieces.path, byte ≠ chr '?' ∧ byte ≠ chr '#' := by
    intro byte member
    have passes := pieces.path_clear byte member
    constructor
    · rintro rfl
      cases passes
    · rintro rfl
      cases passes
  have before : breakAt (· == chr '#') (pieces.path ++ pieces.suffix) =
      (pieces.path ++ (breakAt (· == chr '#') pieces.suffix).1, (breakAt (· == chr '#') pieces.suffix).2) := by
    conv_lhs => rw [← breakAt_join (· == chr '#') pieces.suffix, ← List.append_assoc]
    refine breakAt_append (fun byte member => ?_) fun byte member =>
      @breakAt_rest _ (· == chr '#') _ _ member
    rcases List.mem_append.mp member with inside | behind
    · exact beq_false_of_ne (clear byte inside).2
    · exact @breakAt_front _ (· == chr '#') _ _ behind
  have query : breakAt (· == chr '?') (pieces.path ++ (breakAt (· == chr '#') pieces.suffix).1) =
      (pieces.path, (breakAt (· == chr '#') pieces.suffix).1) := by
    refine breakAt_append (fun byte member => beq_false_of_ne (clear byte member).1) fun byte member => ?_
    have inside := List.mem_of_mem_head? member
    have first : byte ∈ pieces.suffix.head? := by
      rw [← breakAt_join (· == chr '#') pieces.suffix, List.head?_append, Option.mem_def.mp member]
      rfl
    rcases endsPath_cases (pieces.suffix_starts byte first) with rfl | rfl
    · rfl
    · cases breakAt_front inside
  refine ⟨_, by rw [WebUrl.parts, cut_eq], ?_⟩
  dsimp only
  rw [starts, if_pos rfl, rest, pieces.breakAt_text]
  dsimp only
  rw [pieces.cutLast_authority.2, before]
  dsimp only
  rw [query]
  exact ⟨rfl, rfl, rfl, rfl, breakAt_join _ _⟩

theorem Pieces.exists_tail (pieces : Pieces) {tail : Bytes} (rooted : Rooted tail) :
    ∃ changed : Pieces, changed.user = pieces.user ∧ changed.host_port = pieces.host_port ∧
      changed.path ++ changed.suffix = tail := by
  refine ⟨⟨pieces.user, pieces.host_port, (breakAt endsPath tail).1, (breakAt endsPath tail).2,
    pieces.user_ends, pieces.host_clear, pieces.authority_clear, fun _ member => breakAt_front member,
    ?_, fun _ member => breakAt_rest member⟩, rfl, rfl, breakAt_join _ _⟩
  cases path : (breakAt endsPath tail).1 with
  | nil => exact .inl rfl
  | cons first rest =>
    have joined := breakAt_join endsPath tail
    rw [path] at joined
    rcases rooted with empty | head
    · rw [empty] at joined
      cases joined
    · rw [← joined] at head
      exact .inr head

theorem head_breakAt {stop : UInt8 → Bool} {text : Bytes} {first : UInt8}
    (head : text.head? = some first) (clear : stop first = false) :
    (breakAt stop text).1.head? = some first := by
  cases text with
  | nil => cases head
  | cons other rest =>
    cases head
    simp [breakAt, clear]

theorem head_append {front tail : Bytes} {first : UInt8} (head : front.head? = some first) :
    (front ++ tail).head? = some first := by
  rw [List.head?_append, head]
  rfl

theorem take_before (front tail : Bytes) :
    (front ++ tail).take ((front ++ tail).length - tail.length) = front := by
  rw [List.length_append, Nat.add_sub_cancel, List.take_left]

theorem normalizeInPlace_marked {capacity : Nat} {resolved : Bytes} (unmarked : chr ':' ∉ name)
    (done : WebUrl.normalizeInPlace (marked name pieces) capacity = .ok resolved) :
    (∃ changed : Pieces, changed.user = pieces.user ∧ changed.host_port = pieces.host_port ∧
      resolved = marked name changed) ∧
    ∀ byte ∈ resolved, byte = chr '/' ∨ byte ∈ marked name pieces := by
  obtain ⟨parsed, parts_eq, host, -, -, path, after⟩ := parts_marked pieces unmarked
  unfold WebUrl.normalizeInPlace at done
  rw [parts_eq] at done
  obtain ⟨_, same, done⟩ := bind_eq_ok.mp done
  cases same
  have whole : marked name pieces =
      (name ++ ascii "://" ++ (pieces.user ++ pieces.host_port)) ++ (pieces.path ++ pieces.suffix) := by
    rw [marked, Pieces.text]
    simp
  have front : (marked name pieces).take ((marked name pieces).length -
      (pieces.path ++ pieces.suffix).length) =
      name ++ ascii "://" ++ (pieces.user ++ pieces.host_port) := by
    rw [whole, take_before]
  have rejoin : ∀ {tail : Bytes}, Rooted tail → ∃ changed : Pieces, changed.user = pieces.user ∧
      changed.host_port = pieces.host_port ∧
      name ++ ascii "://" ++ (pieces.user ++ pieces.host_port) ++ tail = marked name changed := by
    intro tail rooted
    obtain ⟨changed, user, host_same, rfl⟩ := pieces.exists_tail rooted
    refine ⟨changed, user, host_same, ?_⟩
    rw [marked, Pieces.text, user, host_same]
    simp
  dsimp only at done
  rw [path, after, host, front] at done
  split at done
  · cases done
  split at done
  · split at done
    · cases done
    · cases done
      rw [List.append_assoc]
      refine ⟨rejoin (.inr rfl), fun byte member => ?_⟩
      rw [whole]
      rcases List.mem_append.mp member with front | tail
      · exact .inr (List.mem_append_left _ front)
      · rcases List.mem_append.mp tail with slash | tail
        · exact .inl (List.mem_singleton.mp slash)
        · exact .inr (by simp [tail])
  · next more =>
    obtain ⟨normal, path_done, done⟩ := bind_eq_ok.mp done
    cases done
    obtain ⟨path_normal, -, among⟩ := appendNormalizedPath_normal pieces.path_rooted path_done
    rw [List.append_assoc]
    refine ⟨rejoin (.inr (head_append path_normal.rooted)), fun byte member => ?_⟩
    rw [whole]
    rcases List.mem_append.mp member with front | tail
    · exact .inr (List.mem_append_left _ front)
    · rcases List.mem_append.mp tail with segment | tail
      · exact (among byte segment).imp id fun old => by simp [old]
      · exact .inr (by simp [tail])

theorem joinReference_marked {base : Pieces} {reference out : Bytes} (unmarked : chr ':' ∉ name)
    (based : base.path.head? = some (chr '/'))
    (joined : WebUrl.joinReference (name ++ ascii "://" ++ (base.user ++ base.host_port))
      (base.path ++ base.suffix) reference = .ok out) :
    (∃ word rest, reference = word ++ chr ':' :: rest ∧ word ≠ [] ∧
      (∀ byte ∈ word, byte ∉ ascii ":/?#") ∧ out = reference) ∨
    (∃ rest, reference = ascii "//" ++ rest ∧ out = name ++ ascii "://" ++ rest) ∨
    (startsWith reference (ascii "//") = false ∧ ∃ changed : Pieces, changed.user = base.user ∧
      changed.host_port = base.host_port ∧ out = marked name changed) := by
  have rejoin : ∀ {tail : Bytes}, tail.head? = some (chr '/') → ∃ changed : Pieces,
      changed.user = base.user ∧ changed.host_port = base.host_port ∧
      name ++ ascii "://" ++ (base.user ++ base.host_port) ++ tail = marked name changed := by
    intro tail rooted
    obtain ⟨changed, user, host_same, rfl⟩ := base.exists_tail (.inr rooted)
    refine ⟨changed, user, host_same, ?_⟩
    rw [marked, Pieces.text, user, host_same]
    simp
  have hashed := @head_breakAt (· == chr '#') _ _ (@head_append _ base.suffix _ based) (by decide)
  have queried := @head_breakAt (· == chr '?') _ _ hashed (by decide)
  unfold WebUrl.joinReference at joined
  dsimp only at joined
  split at joined
  · next absolute =>
    cases joined
    have whole := breakAt_join (fun byte => decide (byte ∈ ascii ":/?#")) reference
    cases behind : (breakAt (fun byte => decide (byte ∈ ascii ":/?#")) reference).2 with
    | nil =>
      rw [behind] at absolute
      cases absolute.2
    | cons sign rest =>
      rw [behind] at absolute whole
      obtain rfl : sign = chr ':' := Option.some.inj absolute.2
      refine .inl ⟨_, rest, whole.symm, absolute.1, fun byte member => ?_, rfl⟩
      simpa using breakAt_front member
  split at joined
  · next network =>
    obtain ⟨rest, rfl⟩ := startsWith_iff.mp network
    have cut_eq : cut (chr ':') (name ++ ascii "://" ++ (base.user ++ base.host_port)) =
        some (name, ascii "//" ++ (base.user ++ base.host_port)) := by
      rw [List.append_assoc]
      exact cut_append unmarked
    rw [cut_eq] at joined
    cases joined
    exact .inr (.inl ⟨rest, rfl, by simp [ascii]⟩)
  next relative =>
  refine .inr (.inr ⟨Bool.eq_false_iff.mpr relative, ?_⟩)
  split at joined
  · cases joined
    rw [List.append_assoc]
    exact rejoin (head_append hashed)
  split at joined
  · cases joined
    rw [List.append_assoc]
    exact rejoin (head_append queried)
  split at joined
  · next rooted =>
    cases joined
    exact rejoin rooted
  · cases joined
    rw [List.append_assoc]
    refine rejoin (head_append ?_)
    split
    · rfl
    · next more =>
      obtain ⟨rest, whole⟩ := List.rdropWhile_prefix (fun byte : UInt8 => decide (byte ≠ chr '/'))
        (breakAt (· == chr '?') (breakAt (· == chr '#') (base.path ++ base.suffix)).1).1
      rw [← whole, List.head?_append_of_ne_nil _ more] at queried
      exact queried

theorem mem_breakAt {stop : UInt8 → Bool} {text : Bytes} {byte : UInt8}
    (member : byte ∈ (breakAt stop text).1) : byte ∈ text := by
  rw [← breakAt_join stop text]
  exact List.mem_append_left _ member

theorem joinReference_among {origin base_suffix reference out : Bytes}
    (joined : WebUrl.joinReference origin base_suffix reference = .ok out) :
    ∀ byte ∈ out, byte ∈ ascii ":/" ∨ byte ∈ origin ++ base_suffix ++ reference := by
  intro byte member
  unfold WebUrl.joinReference at joined
  dsimp only at joined
  split at joined
  · cases joined
    exact .inr (by simp [member])
  split at joined
  · split at joined
    · cases joined
    · next scheme rest found =>
      cases joined
      obtain ⟨rfl, -⟩ := cut_eq_some.mp found
      rcases List.mem_append.mp member with named | later
      · exact .inr (by simp [named])
      · rcases List.mem_cons.mp later with rfl | later
        · exact .inl (by decide)
        · exact .inr (by simp [later])
  split at joined
  · cases joined
    simp only [List.mem_append] at member ⊢
    exact .inr (member.imp_left (.imp_right mem_breakAt))
  split at joined
  · cases joined
    simp only [List.mem_append] at member ⊢
    exact .inr (member.imp_left (.imp_right fun inside => mem_breakAt (mem_breakAt inside)))
  split at joined
  · cases joined
    simp only [List.mem_append] at member ⊢
    exact .inr (member.imp_left .inl)
  · cases joined
    rcases List.mem_append.mp member with front | later
    · rcases List.mem_append.mp front with start | directory
      · exact .inr (by simp [start])
      · split at directory
        · obtain rfl : byte = chr '/' := List.mem_singleton.mp directory
          exact .inl (by decide)
        · have inside := mem_breakAt (mem_breakAt ((List.rdropWhile_prefix _ _).subset directory))
          exact .inr (by simp [inside])
    · exact .inr (by simp [later])

def schemeByte (ch : UInt8) : Bool := isAsciiAlphaNumeric ch || ch ∈ ascii "+-."

theorem hasExplicitScheme_word {word rest : Bytes} (named : word ≠ []) (unmarked : chr ':' ∉ word) :
    hasExplicitScheme (word ++ chr ':' :: rest) = word.all schemeByte := by
  rw [Bool.eq_iff_iff, List.all_eq_true]
  unfold hasExplicitScheme
  rw [decide_eq_true_eq]
  have schemes : (fun ch => !(isAsciiAlphaNumeric ch || ch ∈ ascii "+-.")) = fun ch => !schemeByte ch := rfl
  rw [schemes]
  constructor
  · rintro ⟨-, colon⟩
    have whole := breakAt_join (fun ch => !schemeByte ch) word
    cases foreign : (breakAt (fun ch => !schemeByte ch) word).2 with
    | nil =>
      rw [foreign, List.append_nil] at whole
      intro byte member
      rw [← whole] at member
      simpa using breakAt_front member
    | cons bad later =>
      rw [foreign] at whole
      have cut_eq : breakAt (fun ch => !schemeByte ch) (word ++ chr ':' :: rest) =
          ((breakAt (fun ch => !schemeByte ch) word).1, bad :: later ++ chr ':' :: rest) := by
        conv_lhs => rw [← whole, List.append_assoc]
        refine breakAt_append (fun byte member => ?_) fun byte member => ?_
        · exact @breakAt_front _ (fun ch => !schemeByte ch) word _ member
        exact @breakAt_rest _ (fun ch => !schemeByte ch) word _ (by rw [foreign]; exact member)
      rw [cut_eq] at colon
      obtain rfl : bad = chr ':' := Option.some.inj colon
      exact absurd (by rw [← whole]; simp) unmarked
  · intro solid
    have cut_eq : breakAt (fun ch => !schemeByte ch) (word ++ chr ':' :: rest) =
        (word, chr ':' :: rest) := by
      refine breakAt_append (fun byte member => ?_) fun byte member => ?_
      · rw [Bool.not_eq_false']
        exact solid byte member
      · cases member
        decide
    rw [cut_eq]
    exact ⟨named, rfl⟩

theorem starts_about {word rest : Bytes} (unmarked : chr ':' ∉ word)
    (starts : startsWithIgnoreCase (word ++ chr ':' :: rest) (ascii "about:") = true) :
    word.all schemeByte = true := by
  obtain ⟨tail, same⟩ := startsWith_iff.mp starts
  have cut_word : cut (chr ':') ((word ++ chr ':' :: rest).map toLower) =
      some (word.map toLower, rest.map toLower) := by
    rw [List.map_append]
    exact cut_append (not_mem_toLower unmarked (by decide))
  rw [← same, show (ascii "about:").map toLower ++ tail = ascii "about" ++ chr ':' :: tail from rfl,
    cut_append (by decide)] at cut_word
  have lower : word.map toLower = ascii "about" := (Prod.mk.inj (Option.some.inj cut_word)).1.symm
  have letters : ∀ byte, toLower byte ∈ ascii "about" → schemeByte byte = true :=
    forall_byte (by decide +kernel)
  rw [List.all_eq_true]
  intro byte member
  exact letters byte (by rw [← lower]; exact List.mem_map_of_mem member)

/-- A text with a word before the colon that is no scheme is not an address. -/
theorem parse_word (pieces : Pieces) {word : Bytes} (named : word ≠ [])
    (clear : ∀ byte ∈ word, byte ∉ ascii ":/?#") (foreign : word.all schemeByte = false)
    (valid : ∀ byte ∈ marked word pieces, validByte byte = true) : parse (marked word pieces) ≠ .ok url := by
  intro done
  have unmarked : chr ':' ∉ word := fun member => clear _ member (by decide)
  have whole : marked word pieces = word ++ chr ':' :: (ascii "//" ++ pieces.text) := by
    rw [marked, List.append_assoc]
    rfl
  obtain ⟨-, ⟨starts, -⟩ | ⟨-, absolute, scheme, -, expanded, secure, -, normalized⟩⟩ := parse_cases done
  · rw [trim_valid valid, whole] at starts
    rw [starts_about unmarked starts] at foreign
    cases foreign
  · have expands : absolute = ascii "https://" ++ marked word pieces := by
      rw [trim_valid valid, expand, whole, hasExplicitScheme_word named unmarked, foreign] at expanded
      simp only [Bool.false_eq_true, if_false] at expanded
      split at expanded
      · cases expanded
      · cases expanded
        rw [whole]
    obtain rfl : scheme = .https := by
      rw [expands] at secure
      have starts := startsWithIgnoreCase_scheme .https (marked word pieces)
      exact of_decide_eq_true (secure.symm.trans starts)
    obtain ⟨split, text⟩ := Pieces.exists_of (absolute.drop Scheme.https.text.length)
    obtain ⟨hostname, port, -, host, -⟩ :=
      (normalizeHttp_iff text.symm (normalizeHttp_short normalized)).mp normalized
    have authority : split.user ++ split.host_port = word ++ [chr ':'] := by
      have cut_split := split.breakAt_text
      rw [text, expands] at cut_split
      have cut_word : breakAt endsAuthority (marked word pieces) =
          (word ++ [chr ':'], ascii "//" ++ pieces.text) := by
        rw [whole, List.append_cons]
        refine breakAt_append (fun byte member => ?_) fun byte member => ?_
        · rcases List.mem_append.mp member with inside | colon
          · exact Bool.eq_false_iff.mpr fun stop => clear byte inside (by
              rcases Pieces.endsAuthority_iff.mp stop with rfl | stop
              · decide
              · rcases endsPath_cases stop with rfl | rfl
                · decide
                · decide)
          · obtain rfl := List.mem_singleton.mp colon
            rfl
        · cases member
          rfl
      exact (Prod.mk.inj (cut_split.symm.trans cut_word)).1
    refine host.last ?_
    have nonempty : split.host_port ≠ [] := by
      rw [host.text]
      simp [host.named]
    rw [← List.getLast?_append_of_ne_nil split.user nonempty, authority, List.getLast?_concat]

theorem scheme_named (web : scheme ≠ .about) : ∃ name, chr ':' ∉ name ∧ scheme.text = name ++ ascii "://" := by
  cases scheme with
  | about => exact absurd rfl web
  | http => exact ⟨ascii "http", by decide, rfl⟩
  | https => exact ⟨ascii "https", by decide, rfl⟩

/-- A reference has a scheme of its own. -/
def Absolute (reference : Bytes) : Prop :=
  hasExplicitScheme reference = true ∨ startsWithIgnoreCase reference (ascii "about:") = true

theorem joints_valid : ∀ byte ∈ ascii ":/", validByte byte = true := by decide +kernel

/-- A text without an authority has no host. -/
theorem normalizeInPlace_hostless {word rest resolved : Bytes} {capacity : Nat} (unmarked : chr ':' ∉ word)
    (done : WebUrl.normalizeInPlace (word ++ chr ':' :: rest) capacity = .ok resolved) :
    ∃ pieces : Pieces, word ++ chr ':' :: rest = marked word pieces := by
  by_cases starts : startsWith rest (ascii "//") = true
  · obtain ⟨tail, rfl⟩ := startsWith_iff.mp starts
    obtain ⟨pieces, rfl⟩ := Pieces.exists_of tail
    refine ⟨pieces, ?_⟩
    rw [marked, List.append_assoc]
    rfl
  · have parts_eq : ∃ parsed, WebUrl.parts (word ++ chr ':' :: rest) = .ok parsed ∧ parsed.host = [] := by
      refine ⟨_, by rw [WebUrl.parts, cut_append unmarked], ?_⟩
      dsimp only
      rw [if_neg starts]
      rfl
    obtain ⟨parsed, parts_eq, hostless⟩ := parts_eq
    unfold WebUrl.normalizeInPlace at done
    obtain ⟨_, same, done⟩ := bind_eq_ok.mp done
    cases parts_eq.symm.trans same
    dsimp only at done
    rw [if_pos hostless] at done
    cases done

theorem resolve_cases {base : Url} {raw_reference : Bytes} (normal : Normal base pieces hostname port)
    (web : base.scheme ≠ .about) (done : resolve base raw_reference = .ok url) :
    (trim raw_reference = [] ∧ url = base) ∨
    (Absolute (trim raw_reference) ∧ parse (trim raw_reference) = .ok url) ∨
    (¬ Absolute (trim raw_reference) ∧ (∀ byte ∈ trim raw_reference, validByte byte = true) ∧
      ∃ changed : Pieces, (∀ byte ∈ base.scheme.text ++ changed.text, validByte byte = true) ∧
      parse (base.scheme.text ++ changed.text) = .ok url ∧
      ((∃ target : Pieces, trim raw_reference = ascii "//" ++ target.text ∧
          changed.host_port = target.host_port) ∨
        (startsWith (trim raw_reference) (ascii "//") = false ∧
          changed.host_port = pieces.host_port))) := by
  obtain ⟨name, unmarked, scheme_text⟩ := scheme_named web
  unfold resolve at done
  dsimp only at done
  split at done
  · next empty =>
    cases done
    exact .inl ⟨empty, rfl⟩
  obtain ⟨_, checked, done⟩ := bind_eq_ok.mp done
  have valid := validateCharacters_eq_ok.mp checked
  split at done
  · next absolute => exact .inr (.inl ⟨absolute, done⟩)
  next relative =>
  refine .inr (.inr ⟨relative, valid, ?_⟩)
  have cut_eq : cut (chr ':') base.bytes = some (name, ascii "//" ++ pieces.text) := by
    rw [normal.bytes, scheme_text, List.append_assoc]
    exact cut_append unmarked
  have start : name.length + 3 = base.scheme.text.length := by
    rw [scheme_text, List.length_append]
    rfl
  rw [cut_eq] at done
  dsimp only at done
  rw [start, normal.bytes, List.drop_left, List.take_left, pieces.breakAt_text] at done
  dsimp only at done
  split at done
  · cases done
  split at done
  · cases done
  · cases done
  next resolved resolved_eq =>
  obtain ⟨out, joined, placed⟩ := bind_eq_ok.mp resolved_eq
  rw [scheme_text] at joined
  split at placed
  · cases placed
  have out_valid : ∀ byte ∈ out, validByte byte = true := by
    intro byte member
    have base_valid : ∀ byte ∈ base.scheme.text ++ pieces.text, validByte byte = true :=
      normal.bytes ▸ normal.valid
    rcases joinReference_among joined byte member with sign | old
    · exact joints_valid byte sign
    · rcases List.mem_append.mp old with inside | later
      · refine base_valid byte ?_
        rwa [scheme_text, Pieces.text, ← List.append_assoc]
      · exact valid byte later
  have resolved_valid : ∀ {word : Bytes} {placed_pieces : Pieces}, out = marked word placed_pieces →
      (∀ byte ∈ resolved, byte = chr '/' ∨ byte ∈ marked word placed_pieces) →
      ∀ byte ∈ resolved, validByte byte = true := by
    intro word placed_pieces whole among byte member
    rcases among byte member with rfl | old
    · decide
    · exact out_valid byte (whole ▸ old)
  rcases joinReference_marked unmarked normal.path.rooted joined with
    ⟨word, rest, whole, named, clear, rfl⟩ | ⟨rest, whole, rfl⟩ | ⟨plain, changed, user, host, rfl⟩
  · have word_unmarked : chr ':' ∉ word := fun member => clear _ member (by decide)
    rw [whole] at placed
    obtain ⟨placed_pieces, split⟩ := normalizeInPlace_hostless word_unmarked placed
    rw [split] at placed
    obtain ⟨⟨changed, -, -, rfl⟩, among⟩ := normalizeInPlace_marked word_unmarked placed
    have foreign : word.all schemeByte = false := by
      rw [← hasExplicitScheme_word named word_unmarked, ← whole]
      exact Bool.eq_false_iff.mpr fun explicit => relative (.inl explicit)
    exact absurd done (parse_word changed named clear foreign
      (resolved_valid (whole.trans split) among))
  · obtain ⟨target, rfl⟩ := Pieces.exists_of rest
    obtain ⟨⟨changed, -, host, rfl⟩, among⟩ := normalizeInPlace_marked unmarked placed
    have resolved_eq := resolved_valid rfl among
    rw [marked, ← scheme_text] at done resolved_eq
    exact ⟨changed, resolved_eq, done, .inl ⟨target, whole, host⟩⟩
  · obtain ⟨⟨placed_pieces, -, placed_host, rfl⟩, among⟩ := normalizeInPlace_marked unmarked placed
    have resolved_eq := resolved_valid rfl among
    rw [marked, ← scheme_text] at done resolved_eq
    exact ⟨placed_pieces, resolved_eq, done, .inr ⟨plain, placed_host.trans host⟩⟩

end Parts

end R4OS.Web
