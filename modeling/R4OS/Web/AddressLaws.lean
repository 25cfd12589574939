import R4OS.Web.SerializedOrigins

/-!
# The laws of addresses

Addresses and origins are meant to be the same when they are read back from their texts.  The laws hold
exactly for the hosts that stay as they are and for the origins that are written whole.
-/

namespace R4OS.Web

open Incremental Text Navigation

/-- A use of addresses: a reference is resolved against an address, or two origins are serialised. -/
inductive AddressUse
  | address (raw raw_reference : Bytes)
  | origins (first second : Bytes)

/-- The origin of an address is read back from its text. -/
def RoundTrips (raw : Bytes) : Prop :=
  ∀ opaque_id origin, Origin.parse raw opaque_id = .ok origin → origin.scheme ≠ .opaque_origin →
    ∀ capacity text, origin.serialize capacity = some text →
      ∀ other_id, Origin.parse text other_id = .ok origin

/-- Different origins have different texts. -/
def TextsApart (first second : Bytes) : Prop :=
  ∀ first_id second_id one other, Origin.parse first first_id = .ok one →
    Origin.parse second second_id = .ok other → one.scheme ≠ .opaque_origin →
    other.scheme ≠ .opaque_origin → ∀ capacity other_capacity text,
    one.serialize capacity = some text → other.serialize other_capacity = some text → one = other

/-- What is read back is what was written. -/
def Stable : AddressUse → Prop
  | .address raw raw_reference => ∀ url, parse raw = .ok url →
      parse url.bytes = .ok url ∧
      (∀ opaque_id, Origin.parse url.bytes opaque_id = Origin.parse raw opaque_id) ∧
      (url.scheme ≠ .about → ∀ resolved, resolve url raw_reference = .ok resolved →
        parse resolved.bytes = .ok resolved ∧
        (Relative raw_reference → ∀ opaque_id,
          Origin.parse resolved.bytes opaque_id = Origin.parse url.bytes opaque_id))
  | .origins first second => RoundTrips first ∧ RoundTrips second ∧ TextsApart first second

/-- The origin of an address is written whole. -/
def WrittenWhole (raw : Bytes) : Prop :=
  ∀ opaque_id origin, Origin.parse raw opaque_id = .ok origin → origin.scheme ≠ .opaque_origin →
    ShownWhole origin

/-- The hosts stay as they are, and the origins are written whole. -/
def Plain : AddressUse → Prop
  | .address raw raw_reference => ∀ url, parse raw = .ok url →
      Settled raw ∧ (url.scheme ≠ .about → (∃ resolved, resolve url raw_reference = .ok resolved) →
        Settled (target url raw_reference))
  | .origins first second => WrittenWhole first ∧ WrittenWhole second

section Laws

variable {raw : Bytes}

theorem append_fits {capacity : Nat} {out value : Bytes} (fits : out.length + value.length ≤ capacity) :
    append capacity out value = some (out ++ value) := by
  rw [append, if_pos (by omega)]

theorem exists_serialized (origin : Origin) (web : origin.scheme ≠ .opaque_origin) :
    ∃ capacity text, origin.serialize capacity = some text := by
  have digits : (decimal origin.port.toNat).length ≤ 5 :=
    decimal_length_le (by have := origin.port.toNat_lt; omega) (by decide)
  have host : origin.hostBytes.length ≤ 253 := origin.host.fits
  have sign : (ascii (if origin.scheme = .https then "https://" else "http://")).length ≤ 8 := by
    split
    · decide
    · decide
  have colon : (ascii ":").length = 1 := rfl
  refine ⟨512, ?_⟩
  unfold Origin.serialize
  rw [if_neg web]
  generalize ascii (if origin.scheme = .https then "https://" else "http://") = front at sign
  have first : append 512 [] front = some front := append_fits (by simp only [List.length_nil]; omega)
  have second : append 512 front origin.hostBytes = some (front ++ origin.hostBytes) :=
    append_fits (by omega)
  have third : append 512 (front ++ origin.hostBytes) (ascii ":") =
      some (front ++ origin.hostBytes ++ ascii ":") :=
    append_fits (by simp only [List.length_append]; omega)
  simp only [first, second, third, Option.bind_eq_bind, Option.bind_some]
  split
  · exact ⟨_, append_fits (by simp only [List.length_append]; omega)⟩
  · exact ⟨_, rfl⟩

theorem roundTrips_iff : RoundTrips raw ↔ WrittenWhole raw := by
  constructor
  · intro trips opaque_id origin parsed web
    obtain ⟨capacity, text, serialized⟩ := exists_serialized origin web
    exact (origin_roundTrip parsed web serialized).mp (trips _ _ parsed web _ _ serialized)
  · intro whole opaque_id origin parsed web capacity text serialized
    exact (origin_roundTrip parsed web serialized).mpr (whole _ _ parsed web)

/-- The laws hold exactly for plain uses. -/
theorem stable_iff_plain (use : AddressUse) : Stable use ↔ Plain use := by
  cases use with
  | address raw raw_reference =>
    constructor
    · intro stable url parsed
      obtain ⟨fixed, -, resolves⟩ := stable url parsed
      have settled := (parse_fixed_iff parsed).mp fixed
      refine ⟨settled, fun web ⟨resolved, resolved_eq⟩ => ?_⟩
      exact (resolved_fixed_iff parsed web settled resolved_eq).mp (resolves web resolved resolved_eq).1
    · intro plain url parsed
      obtain ⟨settled, targets⟩ := plain url parsed
      have fixed := (parse_fixed_iff parsed).mpr settled
      refine ⟨fixed, fun opaque_id => by rw [Origin.parse, Origin.parse, fixed, parsed], ?_⟩
      intro web resolved resolved_eq
      exact ⟨(resolved_fixed_iff parsed web settled resolved_eq).mpr (targets web ⟨_, resolved_eq⟩),
        fun relative opaque_id => resolved_origin parsed web settled relative resolved_eq opaque_id⟩
  | origins first second =>
    constructor
    · rintro ⟨first_trips, second_trips, -⟩
      exact ⟨roundTrips_iff.mp first_trips, roundTrips_iff.mp second_trips⟩
    · rintro ⟨first_whole, second_whole⟩
      have first_trips := roundTrips_iff.mpr first_whole
      have second_trips := roundTrips_iff.mpr second_whole
      refine ⟨first_trips, second_trips, ?_⟩
      intro first_id second_id one other one_eq other_eq one_web other_web capacity other_capacity text
        one_text other_text
      have again := first_trips _ _ one_eq one_web _ _ one_text 0
      exact Except.ok.inj (again.symm.trans (second_trips _ _ other_eq other_web _ _ other_text 0))

end Laws

/-- Parsing an address twice may drop two ports. -/
theorem not_always_stable : ¬ ∀ use, Stable use := by
  intro stable
  have first : (parse (ascii "http://a:80:80:80")).map Url.bytes = .ok (ascii "http://a:80:80/") := by
    decide
  have second : (parse (ascii "http://a:80:80/")).map Url.bytes = .ok (ascii "http://a:80/") := by
    decide
  cases parsed : parse (ascii "http://a:80:80:80") with
  | error error =>
    rw [parsed] at first
    cases first
  | ok url =>
    rw [parsed] at first
    have bytes : url.bytes = ascii "http://a:80:80/" := Except.ok.inj first
    have again := (stable (.address (ascii "http://a:80:80:80") []) url parsed).1
    rw [bytes] at again
    rw [again] at second
    have shorter : url.bytes = ascii "http://a:80/" := Except.ok.inj second
    rw [bytes] at shorter
    exact absurd shorter (by decide)

end R4OS.Web
