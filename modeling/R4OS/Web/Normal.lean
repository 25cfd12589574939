import R4OS.Web.Pieces

/-!
# Normalised addresses

Every address that is parsed is a scheme with pieces in normal form: the host in lower case, no default
port and no dot segment.  Parsing it again depends only on how its host is split.
-/

namespace R4OS.Web

open Incremental Text Navigation

variable {sign : UInt8} {text : Bytes}

variable (byte : UInt8)

theorem toLower_cases :
    toLower byte = byte ∨ (chr 'a' ≤ toLower byte ∧ toLower byte ≤ chr 'z') := by
  revert byte
  exact forall_byte (by decide +kernel)

theorem toLower_toLower : toLower (toLower byte) = toLower byte := by
  rcases toLower_cases byte with kept | ⟨low, -⟩
  · rw [kept, kept]
  · exact if_neg fun upper => absurd (UInt8.le_trans low upper.2) (by decide)

@[simp] theorem map_toLower_twice (text : Bytes) : (text.map toLower).map toLower = text.map toLower := by
  rw [List.map_map]
  exact List.map_congr_left fun byte _ => toLower_toLower byte

theorem toLower_clear {stop : UInt8 → Bool} {byte : UInt8} (clear : stop byte = false)
    (letters : ∀ letter, chr 'a' ≤ letter → letter ≤ chr 'z' → stop letter = false) :
    stop (toLower byte) = false := by
  rcases toLower_cases byte with kept | ⟨low, high⟩
  · rw [kept]
    exact clear
  · exact letters _ low high

/-- A sign that is no letter is not the lower case of another byte. -/
theorem not_mem_toLower (clear : sign ∉ text)
    (other : ¬ (chr 'a' ≤ sign ∧ sign ≤ chr 'z')) : sign ∉ text.map toLower := by
  intro member
  obtain ⟨byte, within, rfl⟩ := List.mem_map.mp member
  rcases toLower_cases byte with kept | letter
  · rw [kept] at clear
    exact clear within
  · exact other letter

theorem mem_toLower (kept : toLower sign = sign) (member : sign ∈ text) : sign ∈ text.map toLower :=
  List.mem_map.mpr ⟨sign, member, kept⟩

theorem head_toLower (kept : toLower sign = sign) (other : ¬ (chr 'a' ≤ sign ∧ sign ≤ chr 'z')) :
    (text.map toLower).head? = some sign ↔ text.head? = some sign := by
  cases text with
  | nil => simp
  | cons first rest =>
    simp only [List.map_cons, List.head?_cons, Option.some.injEq]
    constructor
    · intro same
      rcases toLower_cases first with unchanged | letter
      · exact unchanged.symm.trans same
      · exact absurd (same ▸ letter) other
    · rintro rfl
      exact kept

/-- A byte that an address may contain. -/
def validByte (ch : UInt8) : Bool := !(ch < 0x20 || ch == 0x7F || ch == chr ' ' || ch == chr '\\')

theorem validateCharacters_eq_ok {value : Bytes} {done : Unit} :
    validateCharacters value = .ok done ↔ ∀ byte ∈ value, validByte byte = true := by
  unfold validateCharacters validByte
  split
  · next found =>
    simp only [reduceCtorEq, false_iff]
    intro valid
    obtain ⟨byte, member, bad⟩ := List.any_eq_true.mp found
    have := valid byte member
    rw [bad] at this
    cases this
  · next clear =>
    simp only [true_iff]
    intro byte member
    rw [Bool.not_eq_true']
    rw [Bool.not_eq_true, List.any_eq_false] at clear
    exact Bool.eq_false_iff.mpr (clear byte member)

theorem validByte_toLower :
    validByte byte = true → validByte (toLower byte) = true := by
  revert byte
  exact forall_byte (by decide +kernel)

theorem validByte_solid (valid : validByte byte = true) : isBlank byte = false := by
  simp only [validByte, isBlank, Bool.not_eq_true', Bool.or_eq_false_iff, beq_eq_false_iff_ne,
    decide_eq_false_iff_not] at valid ⊢
  obtain ⟨⟨⟨control, -⟩, space⟩, -⟩ := valid
  refine ⟨⟨⟨space, ?_⟩, ?_⟩, ?_⟩ <;> exact fun same => control (same ▸ by decide)

/-- Valid bytes are not trimmed. -/
theorem trim_valid (valid : ∀ byte ∈ text, validByte byte = true) : trim text = text :=
  (trimmed_of_forall fun byte member => validByte_solid byte (valid byte member)).trim_eq

section Parsing

variable {raw absolute rest : Bytes} {scheme : Scheme} {url : Url}

theorem startsWithIgnoreCase_scheme (scheme : Scheme) (rest : Bytes) :
    startsWithIgnoreCase (scheme.text ++ rest) scheme.text = true := by
  rw [startsWithIgnoreCase, List.map_append]
  exact startsWith_append _ _

theorem scheme_valid (scheme : Scheme) : ∀ byte ∈ scheme.text, validByte byte = true := by
  cases scheme with
  | about | http | https => decide +kernel

theorem parse_cases (done : parse raw = .ok url) :
    (∀ byte ∈ trim raw, validByte byte = true) ∧
    ((startsWithIgnoreCase (trim raw) (ascii "about:") = true ∧ parseAbout (trim raw) = .ok url) ∨
      (startsWithIgnoreCase (trim raw) (ascii "about:") = false ∧ ∃ absolute scheme,
        scheme ≠ .about ∧ expand (trim raw) = .ok absolute ∧
        startsWithIgnoreCase absolute (ascii "https://") = decide (scheme = .https) ∧
        startsWithIgnoreCase absolute scheme.text = true ∧
        normalizeHttp absolute scheme = .ok url)) := by
  unfold parse at done
  dsimp only at done
  split at done
  · cases done
  obtain ⟨_, valid, done⟩ := bind_eq_ok.mp done
  refine ⟨validateCharacters_eq_ok.mp valid, ?_⟩
  split at done
  · next about => exact .inl ⟨about, done⟩
  · next other =>
    obtain ⟨absolute, expanded, done⟩ := bind_eq_ok.mp done
    refine .inr ⟨Bool.eq_false_iff.mpr other, absolute, ?_⟩
    split at done
    · next secure => exact ⟨.https, by decide, expanded, by simpa using secure, secure, done⟩
    · next insecure =>
      split at done
      · next plain => exact ⟨.http, by decide, expanded, by simpa using insecure, plain, done⟩
      · cases done

theorem scheme_explicit (web : scheme ≠ .about) : hasExplicitScheme (scheme.text ++ rest) = true := by
  cases scheme with
  | about => exact absurd rfl web
  | http =>
    rw [hasExplicitScheme, show Scheme.http.text ++ rest = ascii "http" ++ (ascii "://" ++ rest) from rfl,
      breakAt_append (by decide +kernel) (fun byte member => by cases member; decide)]
    rfl
  | https =>
    rw [hasExplicitScheme, show Scheme.https.text ++ rest = ascii "https" ++ (ascii "://" ++ rest) from rfl,
      breakAt_append (by decide +kernel) (fun byte member => by cases member; decide)]
    rfl

theorem scheme_not_about (web : scheme ≠ .about) :
    startsWithIgnoreCase (scheme.text ++ rest) (ascii "about:") = false := by
  cases scheme with
  | about => exact absurd rfl web
  | http | https => rfl

theorem scheme_secure (web : scheme ≠ .about) :
    startsWithIgnoreCase (scheme.text ++ rest) (ascii "https://") = decide (scheme = .https) := by
  cases scheme with
  | about => exact absurd rfl web
  | http => rfl
  | https => exact startsWithIgnoreCase_scheme .https _

theorem parse_scheme (web : scheme ≠ .about)
    (valid : ∀ byte ∈ scheme.text ++ rest, validByte byte = true) :
    parse (scheme.text ++ rest) = normalizeHttp (scheme.text ++ rest) scheme := by
  have checked : validateCharacters (scheme.text ++ rest) = .ok () := validateCharacters_eq_ok.mpr valid
  have nonempty : scheme.text ++ rest ≠ [] := by
    cases scheme with
    | about => exact absurd rfl web
    | http | https => exact List.cons_ne_nil _ _
  unfold parse
  dsimp only
  rw [trim_valid valid, if_neg nonempty, checked]
  refine (if_neg (Bool.eq_false_iff.mp (scheme_not_about web))).trans ?_
  rw [expand, if_pos (scheme_explicit web)]
  refine (congrArg (fun secure => if secure = true then _ else _) (scheme_secure web)).trans ?_
  cases scheme with
  | about => exact absurd rfl web
  | http => exact (if_neg (by decide)).trans (if_pos (startsWithIgnoreCase_scheme .http _))
  | https => exact if_pos (by decide)

theorem expand_valid (valid : ∀ byte ∈ rest, validByte byte = true) (expanded : expand rest = .ok absolute) :
    ∀ byte ∈ absolute, validByte byte = true := by
  unfold expand at expanded
  split at expanded
  · cases expanded
    exact valid
  · split at expanded
    · cases expanded
    · cases expanded
      intro byte member
      rcases List.mem_append.mp member with sign | old
      · exact scheme_valid .https byte sign
      · exact valid byte old

end Parsing

/-- An address in normal form: the host name in lower case, a port that is not the default one and a
path without dot segments. -/
structure Normal (url : Url) (pieces : Pieces) (hostname port : Bytes) : Prop where
  bytes : url.bytes = url.scheme.text ++ pieces.text
  host : pieces.host_port = hostname.map toLower ++ portText (keptPort url.scheme port)
  splits : HostPort (hostname ++ portText port) hostname port
  path : NormalPath pieces.path
  valid : ∀ byte ∈ url.bytes, validByte byte = true

/-- The scheme, the host name and the port that an address is written with. -/
def addressHost (raw : Bytes) : Option (Scheme × Bytes × Bytes) :=
  if startsWithIgnoreCase (trim raw) (ascii "about:") then none
  else match expand (trim raw) with
    | .error _ => none
    | .ok absolute =>
      let scheme := if startsWithIgnoreCase absolute (ascii "https://") then Scheme.https else .http
      let authority := (breakAt endsAuthority (absolute.drop scheme.text.length)).1
      match splitHostPort ((cutLast (chr '@') authority).elim authority Prod.snd) with
      | .error _ => none
      | .ok host => some (scheme, host)

section Normal

variable {raw input : Bytes} {scheme : Scheme} {url : Url} {pieces : Pieces} {hostname port path : Bytes}

theorem addressHost_eq {absolute : Bytes} (web : scheme ≠ .about)
    (other : startsWithIgnoreCase (trim raw) (ascii "about:") = false)
    (expanded : expand (trim raw) = .ok absolute)
    (secure : startsWithIgnoreCase absolute (ascii "https://") = decide (scheme = .https))
    (split : absolute.drop scheme.text.length = pieces.text)
    (host : HostPort pieces.host_port hostname port) :
    addressHost raw = some (scheme, hostname, port) := by
  have chosen : (if startsWithIgnoreCase absolute (ascii "https://") then Scheme.https else .http) =
      scheme := by
    rw [secure]
    cases scheme with
    | about => exact absurd rfl web
    | http | https => rfl
  rw [addressHost, other, expanded]
  dsimp only
  rw [chosen, split, pieces.breakAt_text, pieces.cutLast_authority.2, splitHostPort_iff.mpr host]
  rfl

theorem HostPort.name_among {host_port : Bytes} (host : HostPort host_port hostname port) :
    ∀ byte ∈ hostname, byte ∈ host_port := by
  intro byte member
  rw [host.text]
  exact List.mem_append_left _ member

theorem HostPort.port_among {host_port : Bytes} (host : HostPort host_port hostname port)
    (scheme : Scheme) :
    ∀ byte ∈ portText (keptPort scheme port), byte = chr ':' ∨ byte ∈ host_port := by
  intro byte member
  unfold portText at member
  split at member
  · cases member
  · next written =>
    rcases List.mem_cons.mp member with colon | digit
    · exact .inl colon
    · have kept : keptPort scheme port = port := by
        unfold keptPort at written ⊢
        split at written
        · exact absurd rfl written
        · next other => rw [if_neg other]
      rw [kept] at written digit
      rw [host.text, portText_of_ne written]
      exact .inr (List.mem_append_right _ (.tail _ digit))

theorem parseAbout_scheme (done : parseAbout input = .ok url) : url.scheme = .about := by
  unfold parseAbout at done
  split at done
  · cases done
  split at done
  · cases done
  obtain ⟨tail, -, made⟩ := bind_eq_ok.mp done
  exact (Url.of_eq_ok.mp made).1

theorem letters_in_authority : ∀ letter, chr 'a' ≤ letter → letter ≤ chr 'z' →
    endsAuthority letter = false :=
  forall_byte (by decide +kernel)

theorem exists_normal (scheme : Scheme) (path_normal : NormalPath path)
    (host : HostPort pieces.host_port hostname port)
    (among : ∀ byte ∈ path, byte = chr '/' ∨ byte ∈ pieces.path) :
    ∃ normal : Pieces, normal.user = pieces.user ∧ normal.path = path ∧ normal.suffix = pieces.suffix ∧
      normal.host_port = hostname.map toLower ++ portText (keptPort scheme port) := by
  have name_among := host.name_among
  have port_among := host.port_among scheme
  refine ⟨⟨pieces.user, hostname.map toLower ++ portText (keptPort scheme port), path, pieces.suffix,
    pieces.user_ends, ?_, ?_, ?_, .inr path_normal.rooted, pieces.suffix_starts⟩, rfl, rfl, rfl, rfl⟩
  · rw [List.mem_append, not_or]
    constructor
    · exact not_mem_toLower (fun member => pieces.host_clear (name_among _ member)) (by decide)
    · intro member
      rcases port_among _ member with colon | digit
      · exact absurd colon (by decide)
      · exact pieces.host_clear digit
  · intro byte member
    rcases List.mem_append.mp member with old | new
    · exact pieces.authority_clear byte (List.mem_append_left _ old)
    · rcases List.mem_append.mp new with lower | written
      · obtain ⟨upper, within, rfl⟩ := List.mem_map.mp lower
        exact toLower_clear (pieces.authority_clear upper
          (List.mem_append_right _ (name_among upper within))) letters_in_authority
      · rcases port_among byte written with rfl | digit
        · rfl
        · exact pieces.authority_clear byte (List.mem_append_right _ digit)
  · intro byte member
    rcases among byte member with rfl | old
    · rfl
    · exact pieces.path_clear byte old

theorem normalizeHttp_short (done : normalizeHttp input scheme = .ok url) :
    input.length ≤ url_capacity := by
  by_contra long
  rw [normalizeHttp, if_pos (Nat.not_le.mp long)] at done
  cases done

theorem normalizeHttp_scheme (done : normalizeHttp input scheme = .ok url) : url.scheme = scheme := by
  obtain ⟨pieces, text⟩ := Pieces.exists_of (input.drop scheme.text.length)
  obtain ⟨-, -, -, -, -, -, same, -⟩ :=
    (normalizeHttp_iff text.symm (normalizeHttp_short done)).mp done
  exact same

theorem parse_normal (done : parse raw = .ok url) (web : url.scheme ≠ .about) :
    ∃ pieces hostname port, addressHost raw = some (url.scheme, hostname, port) ∧
      Normal url pieces hostname port := by
  obtain ⟨valid, ⟨-, about⟩ | ⟨other, absolute, scheme, -, expanded, secure, starts, normalized⟩⟩ :=
    parse_cases done
  · exact absurd (parseAbout_scheme about) web
  · obtain ⟨pieces, text⟩ := Pieces.exists_of (absolute.drop scheme.text.length)
    have short := normalizeHttp_short normalized
    obtain ⟨hostname, port, path, host, fits, path_done, rfl, bytes⟩ :=
      (normalizeHttp_iff text.symm short).mp normalized
    obtain ⟨path_normal, -, among⟩ := appendNormalizedPath_normal pieces.path_rooted path_done
    obtain ⟨normal, user_eq, path_eq, suffix_eq, host_eq⟩ :=
      exists_normal url.scheme path_normal host among
    have whole : url.bytes = url.scheme.text ++ normal.text := by
      rw [bytes, Pieces.text, user_eq, path_eq, suffix_eq, host_eq, shownFront, shownPort_eq]
      simp
    refine ⟨normal, hostname, port, addressHost_eq web other expanded secure text.symm host,
      whole, host_eq, ?_, path_eq ▸ path_normal, ?_⟩
    · rw [← host.text]
      exact host
    · have inside : ∀ byte ∈ pieces.text, validByte byte = true := fun byte member =>
        expand_valid valid expanded byte (List.mem_of_mem_drop (text ▸ member))
      have host_inside : ∀ byte ∈ pieces.host_port, validByte byte = true := fun byte member =>
        inside byte (by simp [Pieces.text, member])
      rw [bytes, shownFront, shownPort_eq]
      intro byte member
      simp only [List.mem_append] at member
      rcases member with ((((sign | user) | name) | digit) | segment) | tail
      · exact scheme_valid _ byte sign
      · exact inside byte (by simp [Pieces.text, user])
      · obtain ⟨upper, within, rfl⟩ := List.mem_map.mp name
        exact validByte_toLower upper (host_inside upper (host.name_among upper within))
      · rcases host.port_among _ byte digit with rfl | written
        · decide
        · exact host_inside byte written
      · rcases among byte segment with rfl | old
        · decide
        · exact inside byte (by simp [Pieces.text, old])
      · exact inside byte (by simp [Pieces.text, tail])

end Normal

end R4OS.Web
