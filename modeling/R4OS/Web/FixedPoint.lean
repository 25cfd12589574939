import R4OS.Web.Normal

/-!
# Parsing an address twice

An address in normal form is parsed to itself unless dropping its default port left a colon behind: then
the host is split once more.
-/

namespace R4OS.Web

open Incremental Text Navigation

/-- A host stays as it is when its address is parsed again: with a colon in a plain name and a default
port behind it, the name must end with another port that is not the default one. -/
def SettledHost (scheme : Scheme) (hostname port : Bytes) : Prop :=
  keptPort scheme port = [] → hostname.head? ≠ some (chr '[') → chr ':' ∈ hostname →
    ∃ name digits, splitHostPort (hostname.map toLower) = .ok (name, digits) ∧
      digits ≠ scheme.default_port

/-- The host that an address is written with stays as it is. -/
def Settled (raw : Bytes) : Prop :=
  ∀ scheme hostname port, addressHost raw = some (scheme, hostname, port) →
    SettledHost scheme hostname port

section Again

variable {raw rest hostname port : Bytes} {scheme : Scheme} {url other : Url} {pieces : Pieces}

theorem keptPort_keptPort (scheme : Scheme) (port : Bytes) :
    keptPort scheme (keptPort scheme port) = keptPort scheme port := by
  unfold keptPort
  by_cases same : port = scheme.default_port
  · rw [if_pos same]
    split
    · rfl
    · rfl
  · rw [if_neg same, if_neg same]

theorem keptPort_of_ne (written : keptPort scheme port ≠ []) : keptPort scheme port = port := by
  unfold keptPort at written ⊢
  split at written
  · exact absurd rfl written
  · next other => rw [if_neg other]

theorem toLower_of_append {front back text : Bytes} (same : text.map toLower = front ++ back) :
    front.map toLower = front := by
  have twice := congrArg (List.map toLower) same
  rw [map_toLower_twice, same, List.map_append] at twice
  exact ((List.append_inj twice (by simp)).1).symm

theorem toLower_bracketed (bracketed : Bracketed hostname) : Bracketed (hostname.map toLower) := by
  obtain ⟨inner, rfl, clear, head⟩ := bracketed
  refine ⟨inner.map toLower, by simp [show toLower (chr ']') = chr ']' by decide], ?_, ?_⟩
  · exact not_mem_toLower clear (by decide)
  · exact (head_toLower (by decide) (by decide)).mpr head

/-- The host in normal form is split to itself exactly when it is settled. -/
theorem settledHost_iff (splits : HostPort (hostname ++ portText port) hostname port) :
    (∃ name digits, HostPort (hostname.map toLower ++ portText (keptPort scheme port)) name digits ∧
      name.map toLower ++ portText (keptPort scheme digits) =
        hostname.map toLower ++ portText (keptPort scheme port)) ↔
      SettledHost scheme hostname port := by
  constructor
  · rintro ⟨name, digits, again, same⟩ dropped plain colon
    rw [dropped, portText_nil, List.append_nil] at again same
    refine ⟨name, digits, splitHostPort_iff.mpr again, ?_⟩
    have written : digits ≠ [] := by
      rintro rfl
      have whole : hostname.map toLower = name := by simpa using again.text
      subst whole
      refine again.plain ?_ rfl (mem_toLower (by decide) colon)
      rwa [Ne, head_toLower (by decide) (by decide)]
    rintro rfl
    have lengths := congrArg List.length (same.trans again.text)
    rw [keptPort, if_pos rfl, portText_of_ne written] at lengths
    simp only [portText_nil, List.length_append, List.length_map, List.length_nil,
      List.length_cons] at lengths
    omega
  · intro settled
    by_cases direct : keptPort scheme port ≠ [] ∨ hostname.head? = some (chr '[') ∨ chr ':' ∉ hostname
    · refine ⟨hostname.map toLower, keptPort scheme port, ⟨rfl, ?_, ?_, ?_, ?_, ?_⟩, ?_⟩
      · simpa using splits.named
      · rw [Ne, head_toLower (by decide) (by decide)]
        exact splits.first
      · intro written
        have same := keptPort_of_ne written
        rw [same] at written ⊢
        exact splits.valid written
      · rw [head_toLower (by decide) (by decide)]
        exact fun head => toLower_bracketed (splits.bracket head)
      · rw [Ne, head_toLower (by decide) (by decide)]
        intro plain dropped
        rcases direct with written | head | clear
        · exact absurd dropped written
        · exact absurd head plain
        · exact not_mem_toLower clear (by decide)
      · rw [map_toLower_twice, keptPort_keptPort]
    · rw [not_or, not_or, not_not, not_not] at direct
      obtain ⟨dropped, plain, colon⟩ := direct
      obtain ⟨name, digits, again, other⟩ := settled dropped plain colon
      have host := splitHostPort_iff.mp again
      rw [dropped, portText_nil, List.append_nil]
      refine ⟨name, digits, host, ?_⟩
      rw [toLower_of_append host.text, keptPort, if_neg other]
      exact host.text.symm

theorem shownFront_length_le (scheme : Scheme) {host_port : Bytes} (host : HostPort host_port hostname port)
    (user : Bytes) : (shownFront scheme user hostname port).length ≤
      scheme.text.length + user.length + host_port.length := by
  have shorter : (portText (keptPort scheme port)).length ≤ (portText port).length := by
    unfold keptPort
    split
    · exact Nat.zero_le _
    · exact le_refl _
  rw [shownFront, shownPort_eq, host.text]
  simp only [List.length_append, List.length_map]
  omega

/-- Parsing an address in normal form splits its host once more. -/
theorem Normal.parse_iff (normal : Normal url pieces hostname port) (web : url.scheme ≠ .about) :
    parse url.bytes = .ok other ↔ ∃ name digits, HostPort pieces.host_port name digits ∧
      other.scheme = url.scheme ∧
      other.bytes = shownFront url.scheme pieces.user name digits ++ pieces.path ++ pieces.suffix := by
  have valid : ∀ byte ∈ url.scheme.text ++ pieces.text, validByte byte = true := by
    rw [← normal.bytes]
    exact normal.valid
  have short : (url.scheme.text ++ pieces.text).length ≤ url_capacity := by
    rw [← normal.bytes]
    exact url.text.fits
  have path_fits : ∀ {name digits : Bytes}, HostPort pieces.host_port name digits →
      pieces.path.length ≤ url_capacity - (shownFront url.scheme pieces.user name digits).length := by
    intro name digits host
    have front := shownFront_length_le url.scheme host pieces.user
    simp only [Pieces.text, List.length_append] at short
    omega
  rw [normal.bytes, parse_scheme web valid, normalizeHttp_iff List.drop_left short]
  constructor
  · rintro ⟨name, digits, path, host, -, path_done, same, bytes⟩
    rw [appendNormalizedPath_fixed normal.path (path_fits host)] at path_done
    cases path_done
    exact ⟨name, digits, host, same, bytes⟩
  · rintro ⟨name, digits, host, same, bytes⟩
    refine ⟨name, digits, pieces.path, host, ?_, appendNormalizedPath_fixed normal.path (path_fits host),
      same, bytes⟩
    have front := shownFront_length_le url.scheme host pieces.user
    simp only [Pieces.text, List.length_append] at short
    omega

/-- An address that was parsed is parsed to itself exactly when its host is settled. -/
theorem Normal.fixed_iff (normal : Normal url pieces hostname port) (web : url.scheme ≠ .about) :
    parse url.bytes = .ok url ↔ SettledHost url.scheme hostname port := by
  rw [normal.parse_iff web, ← settledHost_iff normal.splits, ← normal.host]
  have written : ∀ name digits, url.bytes = shownFront url.scheme pieces.user name digits ++
      pieces.path ++ pieces.suffix ↔
      name.map toLower ++ portText (keptPort url.scheme digits) = pieces.host_port := by
    intro name digits
    rw [normal.bytes, Pieces.text, shownFront, shownPort_eq]
    simp only [List.append_assoc, List.append_cancel_left_eq]
    rw [← List.append_assoc (name.map toLower), List.append_cancel_right_eq]
    exact eq_comm
  constructor
  · rintro ⟨name, digits, host, -, bytes⟩
    exact ⟨name, digits, host, (written name digits).mp bytes⟩
  · rintro ⟨name, digits, host, same⟩
    exact ⟨name, digits, host, rfl, (written name digits).mpr same⟩

/-- The bytes of an internal address are valid in lower case as well. -/
theorem aboutTail_again {in_query : Bool} {text tail : Bytes} (done : aboutTail in_query text = .ok tail) :
    aboutTail in_query tail = .ok tail ∧ tail.length = text.length ∧
      ∀ byte ∈ tail, byte ∈ text ∨ ∃ upper ∈ text, byte = toLower upper := by
  have lower : ∀ ch, isAsciiAlphaNumeric ch = true ∨ ch ∈ ascii "-_." →
      isAsciiAlphaNumeric (toLower ch) = true ∨ toLower ch ∈ ascii "-_." :=
    forall_byte (by decide +kernel)
  have unasked : ∀ ch, ch ≠ chr '?' → toLower ch ≠ chr '?' := forall_byte (by decide +kernel)
  induction text generalizing in_query tail with
  | nil =>
    cases done
    exact ⟨rfl, rfl, fun byte member => .inl member⟩
  | cons ch rest induction =>
    rw [aboutTail] at done
    split at done
    · next asked =>
      split at done
      · cases done
      · next first =>
        obtain ⟨later, rest_done, done⟩ := bind_eq_ok.mp done
        cases done
        obtain ⟨again, length, among⟩ := induction rest_done
        rw [aboutTail, if_pos asked, if_neg first, again]
        refine ⟨rfl, by simp [length], fun byte member => ?_⟩
        rcases List.mem_cons.mp member with rfl | later
        · exact .inl (by simp)
        · exact (among byte later).imp (.tail _)
            fun ⟨upper, within, same⟩ => ⟨upper, .tail _ within, same⟩
    · next plain =>
      split at done
      · next accepted =>
        obtain ⟨later, rest_done, done⟩ := bind_eq_ok.mp done
        cases done
        obtain ⟨again, length, among⟩ := induction rest_done
        refine ⟨?_, by simp [length], fun byte member => ?_⟩
        case refine_2 =>
          rcases List.mem_cons.mp member with rfl | later
          · split
            · exact .inl (by simp)
            · exact .inr ⟨ch, by simp, rfl⟩
          · exact (among byte later).imp (.tail _)
              fun ⟨upper, within, same⟩ => ⟨upper, .tail _ within, same⟩
        cases in_query with
        | true =>
          rw [if_pos rfl, aboutTail, if_neg plain, if_pos accepted, again]
          rfl
        | false =>
          have kept : isAsciiAlphaNumeric ch = true ∨ ch ∈ ascii "-_." := by simpa [or_assoc] using accepted
          rw [if_neg (by decide), aboutTail, if_neg (unasked ch plain), if_pos (by
            rcases lower ch kept with letter | sign
            · exact .inl letter
            · exact .inr (.inl sign)), again]
          simp [toLower_toLower, bind, Except.bind, pure, Except.pure]
      · cases done

/-- An internal address is parsed to itself. -/
theorem parse_about (done : parse raw = .ok url) (about : url.scheme = .about) :
    startsWithIgnoreCase (trim raw) (ascii "about:") = true ∧ parse url.bytes = .ok url := by
  obtain ⟨valid, ⟨starts, internal⟩ | ⟨-, absolute, scheme, web, -, -, -, normalized⟩⟩ := parse_cases done
  · refine ⟨starts, ?_⟩
    unfold parseAbout at internal
    split at internal
    · cases internal
    next short =>
    split at internal
    · cases internal
    next solid =>
    obtain ⟨tail, tail_done, made⟩ := bind_eq_ok.mp internal
    obtain ⟨-, bytes⟩ := Url.of_eq_ok.mp made
    obtain ⟨again, length, among⟩ := aboutTail_again tail_done
    have tail_valid : ∀ byte ∈ ascii "about:" ++ tail, validByte byte = true := by
      intro byte member
      rcases List.mem_append.mp member with sign | later
      · exact scheme_valid .about byte sign
      · rcases among byte later with old | ⟨upper, within, rfl⟩
        · exact valid byte (List.mem_of_mem_drop old)
        · exact validByte_toLower upper (valid upper (List.mem_of_mem_drop within))
    have checked : validateCharacters (ascii "about:" ++ tail) = .ok () :=
      validateCharacters_eq_ok.mpr tail_valid
    have fits := url.text.fits
    rw [← Url.bytes, bytes] at fits
    have nonempty : (ascii "about:" ++ tail).length ≠ (ascii "about:").length := by
      have marker : (ascii "about:").length = 6 := rfl
      have long := (startsWith_iff.mp starts).length_le
      simp only [List.length_map, List.length_drop, List.length_append] at long length ⊢
      omega
    have starts_again : startsWithIgnoreCase (ascii "about:" ++ tail) (ascii "about:") = true :=
      startsWithIgnoreCase_scheme .about tail
    have internal_again : parseAbout (ascii "about:" ++ tail) = .ok url := by
      rw [parseAbout, if_neg (Nat.not_lt.mpr fits), if_neg nonempty, List.drop_left, again]
      exact Url.of_eq_ok.mpr ⟨about, bytes⟩
    have some_text : ascii "about:" ++ tail ≠ [] := List.cons_ne_nil _ _
    rw [bytes]
    unfold parse
    dsimp only
    rw [trim_valid tail_valid, if_neg some_text, bind_eq_ok]
    refine ⟨(), checked, ?_⟩
    rw [if_pos starts_again]
    exact internal_again
  · exact absurd ((normalizeHttp_scheme normalized).symm.trans about) web

/-- An address that was parsed is parsed to itself exactly when its host stays as it is. -/
theorem parse_fixed_iff (done : parse raw = .ok url) : parse url.bytes = .ok url ↔ Settled raw := by
  by_cases about : url.scheme = .about
  · obtain ⟨starts, fixed⟩ := parse_about done about
    refine iff_of_true fixed fun scheme hostname port written => ?_
    rw [addressHost, if_pos starts] at written
    cases written
  · obtain ⟨pieces, hostname, port, written, normal⟩ := parse_normal done about
    rw [normal.fixed_iff about]
    constructor
    · intro settled scheme name digits again
      cases written.symm.trans again
      exact settled
    · exact fun settled => settled _ _ _ written

end Again

end R4OS.Web
