import R4OS.Web.Resolution

/-!
# The identity of an address

Parsing an address, resolving a reference and serialising an origin are meant to be stable: what is read
back is what was written.  They are, except for hosts with a colon in a plain name whose default port is
left out.
-/

namespace R4OS.Web

open Incremental Text Navigation

/-- The text whose host a reference resolves to. -/
def target (base : Url) (raw_reference : Bytes) : Bytes :=
  let reference := trim raw_reference
  if hasExplicitScheme reference ∨ startsWithIgnoreCase reference (ascii "about:") then reference
  else if startsWith reference (ascii "//") then base.scheme.text ++ reference.drop 2
  else base.bytes

/-- A reference has neither a scheme nor a host. -/
def Relative (raw_reference : Bytes) : Prop :=
  ¬ Absolute (trim raw_reference) ∧ startsWith (trim raw_reference) (ascii "//") = false

section Addresses

variable {raw raw_reference hostname port : Bytes} {scheme written_scheme : Scheme} {base url other : Url}
  {pieces changed : Pieces}

theorem addressHost_scheme (web : scheme ≠ .about)
    (valid : ∀ byte ∈ scheme.text ++ pieces.text, validByte byte = true) :
    addressHost (scheme.text ++ pieces.text) = some (written_scheme, hostname, port) ↔
      written_scheme = scheme ∧ HostPort pieces.host_port hostname port := by
  constructor
  · intro written
    rw [addressHost, trim_valid valid, if_neg (Bool.eq_false_iff.mp (scheme_not_about web)), expand,
      if_pos (scheme_explicit web)] at written
    have chosen : (if decide (scheme = .https) = true then Scheme.https else .http) = scheme := by
      cases scheme with
      | about => exact absurd rfl web
      | http | https => rfl
    dsimp only at written
    rw [scheme_secure web, chosen, List.drop_left, pieces.breakAt_text] at written
    dsimp only at written
    rw [pieces.cutLast_authority.2] at written
    split at written
    · cases written
    · next host split =>
      cases written
      exact ⟨rfl, splitHostPort_iff.mp split⟩
  · rintro ⟨rfl, host⟩
    refine addressHost_eq web ?_ ?_ (scheme_secure web) List.drop_left host
    · rw [trim_valid valid]
      exact scheme_not_about web
    · rw [trim_valid valid, expand, if_pos (scheme_explicit web)]

theorem settled_iff (web : scheme ≠ .about)
    (valid : ∀ byte ∈ scheme.text ++ pieces.text, validByte byte = true) :
    Settled (scheme.text ++ pieces.text) ↔
      ∀ hostname port, HostPort pieces.host_port hostname port → SettledHost scheme hostname port := by
  constructor
  · exact fun settled hostname port host =>
      settled _ _ _ ((addressHost_scheme web valid).mpr ⟨rfl, host⟩)
  · intro settled written_scheme hostname port written
    obtain ⟨rfl, host⟩ := (addressHost_scheme web valid).mp written
    exact settled hostname port host

theorem parse_pieces (web : scheme ≠ .about)
    (valid : ∀ byte ∈ scheme.text ++ pieces.text, validByte byte = true)
    (done : parse (scheme.text ++ pieces.text) = .ok url) : url.scheme = scheme ∧
      ∃ normal hostname port, HostPort pieces.host_port hostname port ∧
        Normal url normal hostname port := by
  have same : url.scheme = scheme := by
    rw [parse_scheme web valid] at done
    exact normalizeHttp_scheme done
  subst same
  obtain ⟨normal, hostname, port, written, shape⟩ := parse_normal done web
  exact ⟨rfl, normal, hostname, port, ((addressHost_scheme web valid).mp written).2, shape⟩

theorem target_of_not_absolute (plain : ¬ Absolute (trim raw_reference)) :
    target base raw_reference = if startsWith (trim raw_reference) (ascii "//") then
      base.scheme.text ++ (trim raw_reference).drop 2 else base.bytes :=
  if_neg plain

/-- A resolved reference is parsed to itself exactly when the host of its text stays as it is. -/
theorem resolved_fixed_iff (done : parse raw = .ok base) (web : base.scheme ≠ .about)
    (settled : Settled raw) (resolved : resolve base raw_reference = .ok url) :
    parse url.bytes = .ok url ↔ Settled (target base raw_reference) := by
  have fixed := (parse_fixed_iff done).mpr settled
  obtain ⟨pieces, hostname, port, -, normal⟩ := parse_normal done web
  have base_valid : ∀ byte ∈ base.scheme.text ++ pieces.text, validByte byte = true :=
    normal.bytes ▸ normal.valid
  rcases resolve_cases normal web resolved with ⟨empty, rfl⟩ | ⟨absolute, parsed⟩ |
    ⟨plain, valid, changed, changed_valid, parsed, ⟨network, text, host⟩ | ⟨relative, host⟩⟩
  · have same : target url raw_reference = url.bytes := by
      rw [target, empty]
      rfl
    rw [same]
    exact parse_fixed_iff fixed
  · have same : target base raw_reference = trim raw_reference := if_pos absolute
    rw [same]
    exact parse_fixed_iff parsed
  · have same : target base raw_reference = base.scheme.text ++ network.text := by
      rw [target_of_not_absolute plain, text, startsWith_append, if_pos rfl]
      rfl
    have network_valid : ∀ byte ∈ base.scheme.text ++ network.text, validByte byte = true := by
      intro byte member
      rcases List.mem_append.mp member with sign | later
      · exact scheme_valid _ byte sign
      · refine valid byte ?_
        rw [text]
        exact List.mem_append_right _ later
    rw [same, settled_iff web network_valid, ← host, ← settled_iff web changed_valid]
    exact parse_fixed_iff parsed
  · have same : target base raw_reference = base.scheme.text ++ pieces.text := by
      rw [target_of_not_absolute plain, relative, ← normal.bytes]
      rfl
    rw [same, settled_iff web base_valid, ← host, ← settled_iff web changed_valid]
    exact parse_fixed_iff parsed

theorem ofUrl_normal (normal : Normal url pieces hostname port) (web : url.scheme ≠ .about)
    (opaque_id : UInt32) : Origin.ofUrl url opaque_id = Origin.ofHost url.scheme
      (WebUrl.splitHost pieces.host_port).1 (WebUrl.splitHost pieces.host_port).2 := by
  obtain ⟨name, unmarked, scheme_text⟩ := scheme_named web
  obtain ⟨parsed, parts_eq, -, hostname_eq, port_eq, -⟩ := parts_marked pieces unmarked
  have bytes : url.bytes = marked name pieces := by
    rw [normal.bytes, scheme_text, marked]
  rw [Origin.ofUrl, if_neg web, bytes, parts_eq, ← hostname_eq, ← port_eq]

/-- A host is split in one way. -/
theorem HostPort.unique {host_port name digits : Bytes} (host : HostPort host_port hostname port)
    (again : HostPort host_port name digits) : name = hostname ∧ digits = port := by
  have same := (splitHostPort_iff.mpr again).symm.trans (splitHostPort_iff.mpr host)
  exact Prod.mk.inj (Except.ok.inj same)

theorem resolved_origin (done : parse raw = .ok base) (web : base.scheme ≠ .about)
    (settled : Settled raw) (relative : Relative raw_reference)
    (resolved : resolve base raw_reference = .ok url) (opaque_id : UInt32) :
    Origin.parse url.bytes opaque_id = Origin.parse base.bytes opaque_id := by
  have fixed := (parse_fixed_iff done).mpr settled
  have settled_target : Settled (target base raw_reference) := by
    rw [target_of_not_absolute relative.1, relative.2]
    exact (parse_fixed_iff fixed).mp fixed
  have url_fixed := (resolved_fixed_iff done web settled resolved).mpr settled_target
  obtain ⟨pieces, hostname, port, -, normal⟩ := parse_normal done web
  rw [Origin.parse, Origin.parse, fixed, url_fixed]
  rcases resolve_cases normal web resolved with ⟨-, rfl⟩ | ⟨absolute, -⟩ |
    ⟨-, -, changed, changed_valid, parsed, ⟨network, text, -⟩ | ⟨-, host⟩⟩
  · rfl
  · exact absurd absolute relative.1
  · have starts := relative.2
    rw [text, startsWith_append] at starts
    cases starts
  · obtain ⟨same, url_pieces, name, digits, split, url_normal⟩ := parse_pieces web changed_valid parsed
    obtain ⟨again_name, again_digits, again, kept⟩ :=
      (settledHost_iff normal.splits).mpr ((normal.fixed_iff web).mp fixed)
    rw [host, normal.host] at split
    obtain ⟨rfl, rfl⟩ := split.unique again
    have hosts : url_pieces.host_port = pieces.host_port := by
      rw [url_normal.host, normal.host, ← kept, same]
    have url_web : url.scheme ≠ .about := by rwa [same]
    dsimp only
    rw [ofUrl_normal url_normal url_web, ofUrl_normal normal web, same, hosts]

end Addresses

end R4OS.Web
