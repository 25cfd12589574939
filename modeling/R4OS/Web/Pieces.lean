import R4OS.Web.Hosts
import R4OS.Web.Segments

/-!
# Pieces of an address

What follows the scheme of an address is a user, a host, a path and a suffix.  The pieces are
determined by the text, and normalising an address rewrites its host and its path.
-/

namespace R4OS.Web

open Incremental Text Navigation

/-- The pieces of an address behind its scheme. -/
structure Pieces where
  user : Bytes
  host_port : Bytes
  path : Bytes
  suffix : Bytes
  user_ends : user = [] ∨ ∃ name, user = name ++ [chr '@']
  host_clear : chr '@' ∉ host_port
  authority_clear : ∀ byte ∈ user ++ host_port, endsAuthority byte = false
  path_clear : ∀ byte ∈ path, endsPath byte = false
  path_rooted : Rooted path
  suffix_starts : ∀ byte ∈ suffix.head?, endsPath byte = true

namespace Pieces

def text (pieces : Pieces) : Bytes := pieces.user ++ pieces.host_port ++ (pieces.path ++ pieces.suffix)

theorem endsAuthority_iff {byte : UInt8} :
    endsAuthority byte = true ↔ byte = chr '/' ∨ endsPath byte = true := by
  simp [endsAuthority, endsPath, ascii]

variable (pieces : Pieces)

theorem starts_authority :
    ∀ byte ∈ (pieces.path ++ pieces.suffix).head?, endsAuthority byte = true := by
  intro byte member
  rw [endsAuthority_iff]
  rcases pieces.path_rooted with empty | head
  · rw [empty, List.nil_append] at member
    exact .inr (pieces.suffix_starts byte member)
  · have first : (pieces.path ++ pieces.suffix).head? = some (chr '/') := by
      rw [List.head?_append_of_ne_nil _ (by rintro empty; rw [empty] at head; cases head), head]
    rw [first] at member
    exact .inl (Option.some.inj member).symm

theorem breakAt_text : breakAt endsAuthority pieces.text =
    (pieces.user ++ pieces.host_port, pieces.path ++ pieces.suffix) :=
  breakAt_append pieces.authority_clear pieces.starts_authority

theorem breakAt_path :
    breakAt endsPath (pieces.path ++ pieces.suffix) = (pieces.path, pieces.suffix) :=
  breakAt_append pieces.path_clear pieces.suffix_starts

theorem cutLast_authority :
    ((cutLast (chr '@') (pieces.user ++ pieces.host_port)).elim [] fun parts => parts.1 ++ [chr '@']) =
        pieces.user ∧
      (cutLast (chr '@') (pieces.user ++ pieces.host_port)).elim (pieces.user ++ pieces.host_port)
        Prod.snd = pieces.host_port := by
  rcases pieces.user_ends with empty | ⟨name, ends⟩
  · rw [empty, List.nil_append, cutLast_eq_none.mpr pieces.host_clear]
    exact ⟨rfl, rfl⟩
  · rw [ends, List.append_assoc, List.singleton_append,
      cutLast_eq_some.mpr ⟨rfl, pieces.host_clear⟩]
    exact ⟨rfl, rfl⟩

theorem exists_of (rest : Bytes) : ∃ pieces : Pieces, pieces.text = rest := by
  have authority_clear : ∀ byte ∈ (breakAt endsAuthority rest).1, endsAuthority byte = false :=
    fun _ member => breakAt_front member
  have path_clear : ∀ byte ∈ (breakAt endsPath (breakAt endsAuthority rest).2).1,
      endsPath byte = false := fun _ member => breakAt_front member
  have suffix_starts : ∀ byte ∈ (breakAt endsPath (breakAt endsAuthority rest).2).2.head?,
      endsPath byte = true := fun _ member => breakAt_rest member
  have after_join := breakAt_join endsPath (breakAt endsAuthority rest).2
  have path_rooted : Rooted (breakAt endsPath (breakAt endsAuthority rest).2).1 := by
    cases path : (breakAt endsPath (breakAt endsAuthority rest).2).1 with
    | nil => exact .inl rfl
    | cons first tail =>
      rw [path] at after_join path_clear
      have stops : endsAuthority first = true :=
        breakAt_rest (by rw [← after_join]; rfl)
      rcases endsAuthority_iff.mp stops with slash | stop
      · exact .inr (congrArg some slash)
      · rw [path_clear first (by simp)] at stop
        cases stop
  cases sign : cutLast (chr '@') (breakAt endsAuthority rest).1 with
  | none =>
    refine ⟨⟨[], (breakAt endsAuthority rest).1, _, _, .inl rfl, cutLast_eq_none.mp sign, by simpa,
      path_clear, path_rooted, suffix_starts⟩, ?_⟩
    exact (congrArg _ after_join).trans (breakAt_join _ _)
  | some parts =>
    obtain ⟨authority, clear⟩ := cutLast_eq_some.mp sign
    rw [List.append_cons] at authority
    rw [authority] at authority_clear
    refine ⟨⟨parts.1 ++ [chr '@'], parts.2, _, _, .inr ⟨parts.1, rfl⟩, clear, authority_clear,
      path_clear, path_rooted, suffix_starts⟩, ?_⟩
    exact (congrArg₂ _ authority.symm after_join).trans (breakAt_join _ _)

end Pieces

/-- The port that stays in an address. -/
def keptPort (scheme : Scheme) (port : Bytes) : Bytes := if port = scheme.default_port then [] else port

/-- An address up to its path. -/
def shownFront (scheme : Scheme) (user hostname port : Bytes) : Bytes :=
  scheme.text ++ user ++ hostname.map toLower ++ shownPort scheme port

section Normalize

variable {scheme : Scheme} {pieces : Pieces} {input : Bytes} {url : Url}

theorem shownPort_eq (scheme : Scheme) (port : Bytes) :
    shownPort scheme port = portText (keptPort scheme port) := by
  unfold shownPort portText keptPort
  by_cases default : port = scheme.default_port
  · simp [default]
  · by_cases empty : port = []
    · simp [empty]
    · simp [default, empty]

theorem Url.of_eq_ok {text : Bytes} : Url.of scheme text = .ok url ↔ url.scheme = scheme ∧ url.bytes = text := by
  unfold Url.of
  constructor
  · intro made
    split at made
    · cases made
      exact ⟨rfl, rfl⟩
    · cases made
  · rintro ⟨rfl, rfl⟩
    rw [Url.bytes, dif_pos url.text.fits]

theorem normalizeHttp_iff (split : input.drop scheme.text.length = pieces.text)
    (short : input.length ≤ url_capacity) :
    normalizeHttp input scheme = .ok url ↔ ∃ hostname port path,
      HostPort pieces.host_port hostname port ∧
      (shownFront scheme pieces.user hostname port).length ≤ url_capacity ∧
      WebUrl.appendNormalizedPath
        (url_capacity - (shownFront scheme pieces.user hostname port).length) pieces.path = .ok path ∧
      url.scheme = scheme ∧
      url.bytes = shownFront scheme pieces.user hostname port ++ path ++ pieces.suffix := by
  unfold normalizeHttp
  rw [split]
  dsimp only
  rw [pieces.breakAt_text, if_neg (Nat.not_lt.mpr short)]
  dsimp only
  rw [pieces.breakAt_path, pieces.cutLast_authority.1, pieces.cutLast_authority.2]
  constructor
  · intro done
    split at done
    · cases done
    obtain ⟨⟨hostname, port⟩, host, done⟩ := bind_eq_ok.mp done
    dsimp only at done
    split at done
    · cases done
    next fits =>
    split at done
    · cases done
    next path normalized =>
    obtain ⟨same, bytes⟩ := Url.of_eq_ok.mp done
    exact ⟨hostname, port, path, splitHostPort_iff.mp host, Nat.not_lt.mp fits, normalized, same, bytes⟩
  · rintro ⟨hostname, port, path, host, fits, normalized, same, bytes⟩
    have nonempty : pieces.user ++ pieces.host_port ≠ [] := by
      rw [host.text]
      simp [host.named]
    rw [if_neg nonempty, splitHostPort_iff.mpr host]
    refine (if_neg (Nat.not_lt.mpr fits)).trans ?_
    unfold shownFront at normalized bytes
    dsimp only
    rw [normalized]
    exact Url.of_eq_ok.mpr ⟨same, bytes⟩

end Normalize

end R4OS.Web
