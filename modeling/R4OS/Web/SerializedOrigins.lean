import R4OS.Web.AddressIdentity

/-!
# Serialised origins

The origin of an address is written as a scheme, a host and a port that is not the default one.  Parsing
this text gives the origin back, unless a default port was left out behind a plain name with a colon.
-/

namespace R4OS.Web

open Incremental Text Navigation

theorem digitsValue_decimal (value : Nat) : digitsValue (decimal value) = value := by
  have folds : ∀ (digits : Bytes) (start result : Nat),
      digits.foldlM (appendDigit value) start = some result →
      digits.foldl (fun numeric byte => numeric * 10 + digitValue byte) start = result := by
    intro digits
    induction digits with
    | nil =>
      intro start result done
      cases done
      rfl
    | cons digit rest induction =>
      intro start result done
      rw [List.foldlM_cons, Option.bind_eq_bind, Option.bind_eq_some_iff] at done
      obtain ⟨next, appended, done⟩ := done
      have stepped : next = start * 10 + digitValue digit := by
        unfold appendDigit at appended
        split_ifs at appended
        exact (Option.some.inj appended).symm
      rw [List.foldl_cons, ← stepped]
      exact induction next result done
  have read := parseDecimal_decimal (le_refl value)
  rw [parseDecimal, if_neg (decimal_ne_nil value)] at read
  exact folds _ _ _ read

theorem decimal_valid {value : Nat} (small : value ≤ 65535) : validPort (decimal value) = true := by
  rw [validPort, decide_eq_true_eq, List.all_eq_true, digitsValue_decimal]
  exact ⟨fun _ member => decimal_isDigit member, small⟩

theorem parseInt_decimal {value : Nat} (small : value ≤ 65535) :
    parseInt 0 65535 (decimal value) = some (value : Int) := by
  have digit_ne : ∀ sign, isDigit sign = false → sign ∉ decimal value := by
    intro sign other member
    rw [decimal_isDigit member] at other
    cases other
  have plain : (decimal value).filter (fun byte => decide (byte ≠ chr '_')) = decimal value := by
    rw [List.filter_eq_self]
    intro byte member
    exact decide_eq_true fun same => digit_ne _ (by decide) (same ▸ member)
  have digits : (decimal value).all isDigit = true :=
    List.all_eq_true.mpr fun _ member => decimal_isDigit member
  have solid : ¬ (decimal value = [] ∨ (decimal value).head? = some (chr '_') ∨
      (decimal value).getLast? = some (chr '_')) := by
    rintro (empty | head | last)
    · exact decimal_ne_nil value empty
    · exact digit_ne _ (by decide) (List.mem_of_mem_head? head)
    · exact digit_ne _ (by decide) (List.mem_of_getLast? last)
  unfold parseInt
  cases shape : decimal value with
  | nil => exact absurd shape (decimal_ne_nil value)
  | cons first rest =>
    have signs : first ≠ chr '+' ∧ first ≠ chr '-' := by
      constructor
      · rintro rfl
        exact digit_ne (chr '+') (by decide) (by rw [shape]; simp)
      · rintro rfl
        exact digit_ne (chr '-') (by decide) (by rw [shape]; simp)
    dsimp only
    rw [if_neg signs.1, if_neg signs.2, ← shape]
    dsimp only
    rw [if_neg solid, plain, if_pos digits, digitsValue_decimal]
    simp only [Bool.false_eq_true, if_false]
    rw [if_pos (by omega)]

structure OriginHost (host : Bytes) : Prop where
  named : host ≠ []
  lower : host.map toLower = host
  valid : ∀ byte ∈ host, validByte byte = true
  clear : chr '@' ∉ host
  authority : ∀ byte ∈ host, endsAuthority byte = false
  first : host.head? ≠ some (chr ':')
  bracket : host.head? = some (chr '[') → Bracketed host

section Hosts

variable {host_port hostname port : Bytes} {scheme : Scheme} {url : Url} {pieces : Pieces}

theorem splitHost_front (host : Bytes) : (WebUrl.splitHost host).1 <+: host := by
  unfold WebUrl.splitHost
  split
  · split
    · exact List.prefix_rfl
    · next inner after found =>
      obtain ⟨rfl, -⟩ := cutLast_eq_some.mp found
      split
      · exact ⟨after, by simp⟩
      · exact List.prefix_rfl
  · cases found : cutLast (chr ':') host with
    | none => exact List.prefix_rfl
    | some parts =>
      obtain ⟨same, -⟩ := cutLast_eq_some.mp found
      exact ⟨chr ':' :: parts.2, same.symm⟩

theorem HostPort.splitHost (host : HostPort host_port hostname port) :
    WebUrl.splitHost host_port = (hostname, port) := by
  have head : host_port.head? = hostname.head? := by
    rw [host.text, List.head?_append_of_ne_nil _ host.named]
  have some_text : host_port ≠ [] := by
    rw [host.text]
    simp [host.named]
  have clear : ∀ sign, sign ≠ chr ':' → isDigit sign = false → sign ∉ portText port := by
    intro sign other foreign member
    unfold portText at member
    split at member
    · cases member
    · next written =>
      have digits := host.valid written
      rw [validPort, decide_eq_true_eq, List.all_eq_true] at digits
      rcases List.mem_cons.mp member with same | digit
      · exact other same
      · rw [digits.1 _ digit] at foreign
        cases foreign
  unfold WebUrl.splitHost
  by_cases start : hostname.head? = some (chr '[')
  · obtain ⟨inner, rfl, -, -⟩ := host.bracket start
    rw [if_pos (.inr (head.trans start)), host.text, List.append_assoc, List.singleton_append,
      cutLast_eq_some.mpr ⟨rfl, clear _ (by decide) (by decide)⟩]
    dsimp only
    by_cases written : port = []
    · rw [written, portText_nil, if_neg (by simp)]
    · rw [portText_of_ne written]
      rfl
  · rw [if_neg (by rw [head]; simp [some_text, start]), host.text]
    by_cases written : port = []
    · rw [written, portText_nil, List.append_nil, cutLast_eq_none.mpr (host.plain start written)]
      rfl
    · rw [portText_of_ne written, cutLast_eq_some.mpr ⟨rfl, validPort_clear (host.valid written)⟩]
      rfl

theorem Normal.host_head (normal : Normal url pieces hostname port) :
    pieces.host_port.head? = (hostname.map toLower).head? := by
  rw [normal.host, List.head?_append_of_ne_nil]
  simpa using normal.splits.named

theorem splitHost_normal (normal : Normal url pieces hostname port) :
    (WebUrl.splitHost pieces.host_port).1 ≠ [] ∧
      (WebUrl.splitHost pieces.host_port).1.head? = pieces.host_port.head? ∧
      (pieces.host_port.head? = some (chr '[') → Bracketed (WebUrl.splitHost pieces.host_port).1) := by
  have head := normal.host_head
  by_cases start : pieces.host_port.head? = some (chr '[')
  · rw [head, head_toLower (by decide) (by decide)] at start
    have named : hostname.map toLower ≠ [] := by simpa using normal.splits.named
    have first : (hostname.map toLower).head? ≠ some (chr ':') := by
      rw [Ne, head_toLower (by decide) (by decide)]
      exact normal.splits.first
    have bracketed := toLower_bracketed (normal.splits.bracket start)
    have host : HostPort pieces.host_port (hostname.map toLower) (keptPort url.scheme port) := by
      refine ⟨normal.host, named, first, fun written => ?_, fun _ => bracketed, fun plain => ?_⟩
      · have same := keptPort_of_ne written
        rw [same] at written ⊢
        exact normal.splits.valid written
      · exact absurd bracketed.head plain
    rw [host.splitHost]
    exact ⟨named, head.symm, fun _ => bracketed⟩
  · have first : pieces.host_port.head? ≠ some (chr ':') := by
      rw [head, Ne, head_toLower (by decide) (by decide)]
      exact normal.splits.first
    have some_text : pieces.host_port ≠ [] := by
      rw [normal.host]
      simp [normal.splits.named]
    rw [WebUrl.splitHost, if_neg (by simp [some_text, start])]
    cases found : cutLast (chr ':') pieces.host_port with
    | none => exact ⟨some_text, rfl, fun bracket => absurd bracket start⟩
    | some parts =>
      obtain ⟨same, -⟩ := cutLast_eq_some.mp found
      have named : parts.1 ≠ [] := by
        intro empty
        rw [same, empty] at first
        exact first rfl
      refine ⟨named, ?_, fun bracket => absurd bracket start⟩
      rw [same, List.head?_append_of_ne_nil _ named]
      rfl

theorem ofHost_hostBytes {origin : Origin} (done : Origin.ofHost scheme hostname port = .ok origin) :
    origin.hostBytes = hostname.map toLower ∧ origin.opaque_id = 0 := by
  unfold Origin.ofHost at done
  split at done
  · dsimp only at done
    split at done
    · cases done
    · cases done
      exact ⟨rfl, rfl⟩
  · cases done

theorem parse_originHost {raw : Bytes} {opaque_id : UInt32} {origin : Origin}
    (done : Origin.parse raw opaque_id = .ok origin) (web : origin.scheme ≠ .opaque_origin) :
    OriginHost origin.hostBytes ∧ origin.opaque_id = 0 := by
  unfold Origin.parse at done
  split at done
  · cases done
  next url parsed =>
  have url_web : url.scheme ≠ .about := by
    intro about
    rw [Origin.ofUrl, if_pos about] at done
    cases done
    exact web rfl
  obtain ⟨pieces, hostname, port, -, normal⟩ := parse_normal parsed url_web
  obtain ⟨named, head, bracketed⟩ := splitHost_normal normal
  have inside := (splitHost_front pieces.host_port).subset
  rw [ofUrl_normal normal url_web] at done
  generalize WebUrl.splitHost pieces.host_port = host at done named head bracketed inside
  have host_eq := ofHost_hostBytes done
  refine ⟨?_, host_eq.2⟩
  rw [host_eq.1]
  refine ⟨by simpa using named, map_toLower_twice _, ?_, ?_, ?_, ?_, ?_⟩
  · intro byte member
    obtain ⟨upper, within, rfl⟩ := List.mem_map.mp member
    refine validByte_toLower upper (normal.valid upper ?_)
    rw [normal.bytes, Pieces.text]
    simp [inside within]
  · exact not_mem_toLower (fun member => pieces.host_clear (inside member)) (by decide)
  · intro byte member
    obtain ⟨upper, within, rfl⟩ := List.mem_map.mp member
    exact toLower_clear (pieces.authority_clear upper (List.mem_append_right _ (inside within)))
      letters_in_authority
  · rw [Ne, head_toLower (by decide) (by decide), head, normal.host_head,
      head_toLower (by decide) (by decide)]
    exact normal.splits.first
  · rw [head_toLower (by decide) (by decide), head]
    exact fun start => toLower_bracketed (bracketed start)

end Hosts

/-- The port of an origin as it is written: a default port is left out. -/
def shownDigits (origin : Origin) : Bytes :=
  if origin.port = Origin.default_port origin.scheme then [] else decimal origin.port.toNat

def originScheme (origin : Origin) : Scheme := if origin.scheme = .https then .https else .http

section RoundTrip

variable {origin : Origin} {text : Bytes} {capacity : Nat}

theorem originScheme_web (origin : Origin) : originScheme origin ≠ .about := by
  unfold originScheme
  split
  · decide
  · decide

theorem append_some {out value result : Bytes} (done : append capacity out value = some result) :
    result = out ++ value := by
  unfold append at done
  split at done
  · exact (Option.some.inj done).symm
  · cases done

theorem serialize_text (web : origin.scheme ≠ .opaque_origin)
    (done : origin.serialize capacity = some text) :
    text = (originScheme origin).text ++ (origin.hostBytes ++ portText (shownDigits origin)) := by
  unfold Origin.serialize at done
  rw [if_neg web, Option.bind_eq_bind, Option.bind_eq_some_iff] at done
  obtain ⟨sign, first, done⟩ := done
  obtain ⟨named, second, done⟩ := Option.bind_eq_some_iff.mp done
  have scheme_text : (originScheme origin).text =
      ascii (if origin.scheme = .https then "https://" else "http://") := by
    unfold originScheme
    split
    · rfl
    · rfl
  have front : named = (originScheme origin).text ++ origin.hostBytes := by
    rw [append_some second, append_some first, scheme_text, List.nil_append]
  split at done
  · next other =>
    obtain ⟨colon, third, done⟩ := Option.bind_eq_some_iff.mp done
    rw [append_some done, append_some third, front, shownDigits, if_neg other,
      portText_of_ne (decimal_ne_nil _)]
    simp [ascii]
  · next same =>
    rw [not_not] at same
    rw [← Option.some.inj done, front, shownDigits, if_pos same]
    simp

theorem shownDigits_digit {byte : UInt8} (member : byte ∈ portText (shownDigits origin)) :
    byte = chr ':' ∨ isDigit byte = true := by
  unfold portText at member
  split at member
  · cases member
  · next written =>
    rcases List.mem_cons.mp member with colon | digit
    · exact .inl colon
    · unfold shownDigits at digit
      split at digit
      · cases digit
      · exact .inr (decimal_isDigit digit)

theorem digit_clear : ∀ byte, isDigit byte = true ∨ byte = chr ':' →
    byte ≠ chr '@' ∧ endsAuthority byte = false ∧ validByte byte = true :=
  forall_byte (by decide +kernel)

theorem exists_originPieces (host : OriginHost origin.hostBytes) : ∃ pieces : Pieces,
    pieces.user = [] ∧ pieces.path = [] ∧
    pieces.host_port = origin.hostBytes ++ portText (shownDigits origin) ∧
    pieces.text = origin.hostBytes ++ portText (shownDigits origin) ∧
    ∀ byte ∈ (originScheme origin).text ++ pieces.text, validByte byte = true := by
  refine ⟨⟨[], origin.hostBytes ++ portText (shownDigits origin), [], [], .inl rfl, ?_, ?_, by simp,
    .inl rfl, by simp⟩, rfl, rfl, rfl, by simp [Pieces.text], ?_⟩
  · rw [List.mem_append, not_or]
    exact ⟨host.clear, fun member => (digit_clear _ (shownDigits_digit member).symm).1 rfl⟩
  · intro byte member
    rw [List.nil_append] at member
    rcases List.mem_append.mp member with inside | written
    · exact host.authority byte inside
    · exact (digit_clear byte (shownDigits_digit written).symm).2.1
  · intro byte member
    simp only [Pieces.text, List.nil_append, List.append_nil, List.mem_append] at member
    rcases member with sign | inside | written
    · exact scheme_valid _ byte sign
    · exact host.valid byte inside
    · exact (digit_clear byte (shownDigits_digit written).symm).2.2

/-- An origin is written with all of its port, or its name cannot be taken for a name with a port. -/
def ShownWhole (origin : Origin) : Prop :=
  origin.port = Origin.default_port origin.scheme →
    origin.hostBytes.head? = some (chr '[') ∨ chr ':' ∉ origin.hostBytes

theorem ShownWhole.hostPort (whole : ShownWhole origin) (host : OriginHost origin.hostBytes) :
    HostPort (origin.hostBytes ++ portText (shownDigits origin)) origin.hostBytes
      (shownDigits origin) := by
  refine ⟨rfl, host.named, host.first, fun written => ?_, host.bracket, fun plain empty => ?_⟩
  · unfold shownDigits at written ⊢
    split at written
    · exact absurd rfl written
    · next other =>
      rw [if_neg other]
      exact decimal_valid (by have := origin.port.toNat_lt; omega)
  · refine (whole ?_).resolve_left plain
    unfold shownDigits at empty
    split at empty
    · next same => exact same
    · exact absurd empty (decimal_ne_nil _)

theorem keptPort_shownDigits (origin : Origin) :
    keptPort (originScheme origin) (shownDigits origin) = shownDigits origin := by
  unfold keptPort
  split
  · next same =>
    unfold shownDigits at same ⊢
    split at same
    · next default => rw [if_pos default]
    · next other =>
      have value := congrArg digitsValue same
      rw [digitsValue_decimal] at value
      refine absurd (UInt16.toNat_inj.mp ?_) other
      rw [value]
      unfold originScheme
      split
      · next secure =>
        rw [secure]
        rfl
      · next insecure =>
        cases scheme : origin.scheme with
        | opaque_origin | http => rfl
        | https => exact absurd scheme insecure
  · rfl

theorem ofHost_shown (web : origin.scheme ≠ .opaque_origin) (host : OriginHost origin.hostBytes)
    (plain : origin.opaque_id = 0) :
    Origin.ofHost (originScheme origin) origin.hostBytes (shownDigits origin) = .ok origin := by
  have fits : (origin.hostBytes.map toLower).length ≤ max_origin_host_bytes := by
    rw [host.lower]
    exact origin.host.fits
  have scheme_eq : (if originScheme origin = .https then OriginScheme.https else .http) = origin.scheme := by
    unfold originScheme
    cases scheme : origin.scheme with
    | opaque_origin => exact absurd scheme web
    | http | https => rfl
  have port_eq : (if shownDigits origin ≠ [] then parseInt 0 65535 (shownDigits origin)
      else some ((Origin.default_port origin.scheme).toNat : Int)) = some (origin.port.toNat : Int) := by
    unfold shownDigits
    split
    · next same =>
      rw [if_neg (by simp), same]
    · rw [if_pos (decimal_ne_nil _)]
      exact parseInt_decimal (by have := origin.port.toNat_lt; omega)
  rw [Origin.ofHost, dif_pos fits, scheme_eq]
  dsimp only
  rw [port_eq]
  have host_eq : (⟨origin.hostBytes.map toLower, fits⟩ : Bounded max_origin_host_bytes) = origin.host :=
    Bounded.ext host.lower
  have port_same : UInt16.ofNat (origin.port.toNat : Int).toNat = origin.port := by simp
  dsimp only
  rw [host_eq, port_same]
  cases origin
  cases plain
  rfl

/-- Reading the host of an address once more loses a part of a plain name with a colon. -/
theorem splitHost_shorter {host hostname port : Bytes} {url : Url} {pieces : Pieces}
    (named : HostPort host hostname port) (normal : Normal url pieces hostname port)
    (plain : host.head? ≠ some (chr '[')) (colon : chr ':' ∈ host) :
    (WebUrl.splitHost pieces.host_port).1.length < host.length := by
  have head : host.head? = hostname.head? := by
    rw [named.text, List.head?_append_of_ne_nil _ named.named]
  have written : port ≠ [] := by
    intro empty
    rw [named.text, empty, portText_nil, List.append_nil] at colon
    exact named.plain (head ▸ plain) empty colon
  have longer : hostname.length < host.length := by
    rw [named.text, portText_of_ne written]
    simp
  by_cases kept : keptPort url.scheme port = []
  · have inside := (splitHost_front pieces.host_port).length_le
    rw [normal.host, kept, portText_nil, List.append_nil, List.length_map] at inside
    rw [normal.host, kept, portText_nil, List.append_nil]
    omega
  · have again : HostPort pieces.host_port (hostname.map toLower) (keptPort url.scheme port) := by
      have same := keptPort_of_ne kept
      refine ⟨normal.host, by simpa using named.named, ?_, fun _ => ?_, ?_, fun _ empty => absurd empty kept⟩
      · rw [Ne, head_toLower (by decide) (by decide)]
        exact named.first
      · rw [same]
        exact named.valid written
      · rw [head_toLower (by decide) (by decide)]
        exact fun start => absurd start (head ▸ plain)
    rw [again.splitHost, List.length_map]
    exact longer

theorem parse_host {scheme : Scheme} {pieces : Pieces} {hostname port : Bytes} (web : scheme ≠ .about)
    (valid : ∀ byte ∈ scheme.text ++ pieces.text, validByte byte = true)
    (host : HostPort pieces.host_port hostname port) (user : pieces.user = []) (path : pieces.path = [])
    (short : scheme.text.length + pieces.text.length < url_capacity) :
    ∃ url, parse (scheme.text ++ pieces.text) = .ok url := by
  have front := shownFront_length_le scheme host pieces.user
  simp only [Pieces.text, user, path, List.nil_append, List.length_append, List.length_nil] at front short
  have fits : (shownFront scheme pieces.user hostname port ++ ascii "/" ++ pieces.suffix).length ≤
      url_capacity := by
    have slash : (ascii "/").length = 1 := rfl
    simp only [user, List.length_append]
    omega
  have path_done : WebUrl.appendNormalizedPath
      (url_capacity - (shownFront scheme pieces.user hostname port).length) pieces.path =
      .ok (ascii "/") := by
    rw [path, WebUrl.appendNormalizedPath, if_pos rfl]
    refine appendSlice_eq ?_
    have slash : (ascii "/").length = 1 := rfl
    simp only [user, List.nil_append]
    omega
  refine ⟨⟨⟨_, fits⟩, scheme⟩, ?_⟩
  rw [parse_scheme web valid, normalizeHttp_iff List.drop_left (by
    simp only [Pieces.text, user, path, List.nil_append, List.length_append]
    omega)]
  exact ⟨hostname, port, _, host, by simp only [user]; omega, path_done, rfl, rfl⟩

theorem origin_roundTrip {raw : Bytes} {opaque_id : UInt32} (parsed : Origin.parse raw opaque_id = .ok origin)
    (web : origin.scheme ≠ .opaque_origin) (serialized : origin.serialize capacity = some text) :
    (∀ other_id, Origin.parse text other_id = .ok origin) ↔ ShownWhole origin := by
  obtain ⟨host, plain⟩ := parse_originHost parsed web
  obtain ⟨pieces, user, path, host_port, text_eq, valid⟩ := exists_originPieces host
  have scheme_web := originScheme_web origin
  have text_pieces : text = (originScheme origin).text ++ pieces.text := by
    rw [text_eq]
    exact serialize_text web serialized
  rw [text_pieces]
  constructor
  · intro again default
    by_contra split
    rw [not_or, not_not] at split
    have written := again 0
    unfold Origin.parse at written
    split at written
    · cases written
    next url url_eq =>
    obtain ⟨scheme_eq, normal_pieces, hostname, port, named, normal⟩ := parse_pieces scheme_web valid url_eq
    rw [ofUrl_normal normal (scheme_eq ▸ scheme_web)] at written
    have host_eq := (ofHost_hostBytes written).1
    rw [host_port, shownDigits, if_pos default, portText_nil, List.append_nil] at named
    have shorter := splitHost_shorter named normal split.1 split.2
    rw [host_eq, List.length_map] at shorter
    exact absurd shorter (lt_irrefl _)
  · intro whole other_id
    have named := whole.hostPort host
    have short : (originScheme origin).text.length + pieces.text.length < url_capacity := by
      have digits : (shownDigits origin).length ≤ 5 := by
        unfold shownDigits
        split
        · exact Nat.zero_le _
        · exact decimal_length_le (by have := origin.port.toNat_lt; omega) (by decide)
      have sign : (originScheme origin).text.length ≤ 8 := by
        unfold originScheme
        split
        · decide
        · decide
      have port_length : (portText (shownDigits origin)).length ≤ (shownDigits origin).length + 1 := by
        unfold portText
        split
        · exact Nat.zero_le _
        · exact le_refl _
      have host_length : origin.hostBytes.length ≤ 253 := origin.host.fits
      rw [text_eq, List.length_append, url_capacity]
      omega
    obtain ⟨url, url_eq⟩ := parse_host scheme_web valid (host_port ▸ named) user path short
    obtain ⟨scheme_eq, normal_pieces, hostname, port, split, normal⟩ := parse_pieces scheme_web valid url_eq
    rw [host_port] at split
    obtain ⟨rfl, rfl⟩ := named.unique split
    have hosts : normal_pieces.host_port = origin.hostBytes ++ portText (shownDigits origin) := by
      rw [normal.host, host.lower, scheme_eq, keptPort_shownDigits]
    rw [Origin.parse, url_eq]
    dsimp only
    rw [ofUrl_normal normal (scheme_eq ▸ scheme_web), hosts, named.splitHost, scheme_eq]
    exact ofHost_shown web host plain

end RoundTrip

end R4OS.Web
