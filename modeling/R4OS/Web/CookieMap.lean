import R4OS.Buffer.Slots
import R4OS.Incremental.Checks
import R4OS.Incremental.Runs
import R4OS.Web.Cookies

/-!
# The jar as a map

A jar is meant to be a map from name, domain and path to cookies.  Deleting and inserting follow the
laws of a map, and a cookie that is set again is lost.
-/

namespace R4OS.Web

open Buffer Incremental Text

/-- What tells cookies apart. -/
def Cookie.key (cookie : Cookie) : Bytes × Bytes × Bytes :=
  (cookie.name.bytes, cookie.domain.bytes, cookie.path.bytes)

def cookieView : SlotView Cookie (Bytes × Bytes × Bytes) := ⟨Cookie.occupied, Cookie.key⟩

namespace CookieJar

def lookup (jar : CookieJar) (key : Bytes × Bytes × Bytes) : Option Cookie :=
  cookieView.lookup jar.entries key

def KeysApart (jar : CookieJar) : Prop := cookieView.Unique jar.entries

/-- One setting of a cookie. -/
structure Setting where
  origin : Origin
  request_path : Bytes
  source : Bytes
  allow_http_only : Bool

def parse (setting : Setting) : Except Error Candidate :=
  parseCookie setting.origin setting.request_path setting.source setting.allow_http_only

def setWith (jar : CookieJar) (setting : Setting) : Except Error Unit × CookieJar :=
  jar.set setting.origin setting.request_path setting.source setting.allow_http_only

def after (jar : CookieJar) (setting : Setting) : CookieJar := (jar.setWith setting).2

/-- The laws of a map for one setting: an error changes nothing, a deletion removes its key, any other
setting is found again with the sequence number of its key, and no other key changes. -/
structure MapLaw (jar : CookieJar) (setting : Setting) : Prop where
  unique : (jar.after setting).KeysApart
  failed : ∀ error, (jar.setWith setting).1 = .error error → jar.after setting = jar
  set : (jar.setWith setting).1 = .ok () → ∃ candidate, parse setting = .ok candidate ∧
    (∀ other, other ≠ candidate.cookie.key →
      (jar.after setting).lookup other = jar.lookup other) ∧
    (jar.after setting).lookup candidate.cookie.key =
      if candidate.delete then none
      else some { candidate.cookie with
        occupied := true
        sequence := (jar.lookup candidate.cookie.key).elim jar.next_sequence Cookie.sequence }

/-- A setting gives a new value to a cookie that is in the jar. -/
def Updates (jar : CookieJar) (setting : Setting) : Prop :=
  ∃ candidate, parse setting = .ok candidate ∧ candidate.delete = false ∧
    jar.lookup candidate.cookie.key ≠ none

section Rules

variable {jar : CookieJar} {candidate : Candidate}

theorem find_eq (jar : CookieJar) (cookie : Cookie) :
    jar.find cookie.name.bytes cookie.domain.bytes cookie.path.bytes =
      jar.entries.findIdx? (cookieView.holds cookie.key) := by
  unfold find
  congr 1
  funext entry
  rw [Bool.eq_iff_iff]
  simp [SlotView.holds, cookieView, Cookie.key, and_assoc]

theorem free_holds (key : Bytes × Bytes × Bytes) {cookie : Cookie}
    (free : cookie.occupied = false) : cookieView.holds key cookie = false := by
  simp [SlotView.holds, cookieView, free]

theorem applyAttribute_occupied {origin : Origin} {allow_http_only : Bool} {part : Bytes}
    {after : Candidate} (applied : applyAttribute origin allow_http_only candidate part = .ok after) :
    after.cookie.occupied = candidate.cookie.occupied := by
  unfold applyAttribute at applied
  dsimp only at applied
  split at applied
  · cases applied
    rfl
  split at applied
  · split at applied
    · cases applied
    · obtain ⟨domain, _, applied⟩ := bind_eq_ok.mp applied
      cases applied
      rfl
  split at applied
  · split at applied
    · obtain ⟨path, _, applied⟩ := bind_eq_ok.mp applied
      cases applied
      rfl
    · cases applied
      rfl
  split at applied
  · cases applied
    rfl
  split at applied
  · cases applied
    rfl
  split at applied
  · cases applied
    rfl
  split at applied
  · cases applied
    rfl
  split at applied
  · split at applied
    · cases applied
    · split at applied
      · cases applied
        rfl
      · cases applied
        rfl
  split at applied
  · cases applied
    rfl
  · cases applied
    rfl

variable {setting : Setting}

theorem parse_occupied (parsed : parse setting = .ok candidate) :
    candidate.cookie.occupied = false := by
  unfold parse parseCookie at parsed
  dsimp only at parsed
  split at parsed
  · cases parsed
  split at parsed
  · cases parsed
  split at parsed
  · cases parsed
  obtain ⟨name, _, parsed⟩ := bind_eq_ok.mp parsed
  obtain ⟨value, _, parsed⟩ := bind_eq_ok.mp parsed
  obtain ⟨domain, _, parsed⟩ := bind_eq_ok.mp parsed
  obtain ⟨path, _, parsed⟩ := bind_eq_ok.mp parsed
  obtain ⟨last, applied, parsed⟩ := bind_eq_ok.mp parsed
  have free := foldlM_keeps (fun _ _ _ free applied => (applyAttribute_occupied applied).trans free)
    (rfl : (Candidate.mk { name, value, domain, path } false).cookie.occupied = false) applied
  split at parsed
  · cases parsed
  split at parsed
  · cases parsed
  · cases parsed
    exact free

theorem place_cases (jar : CookieJar) (candidate : Candidate) :
    (∃ front old rest, jar.entries = front ++ old :: rest ∧
      cookieView.holds candidate.cookie.key old = true ∧
      jar.place candidate = (.ok (), { jar with
        entries := front ++ (if candidate.delete then {} else
          { candidate.cookie with sequence := old.sequence }) :: rest })) ∨
    (jar.lookup candidate.cookie.key = none ∧
      ((candidate.delete = true ∧ jar.place candidate = (.ok (), jar)) ∨
      (candidate.delete = false ∧ ∃ front old rest, jar.entries = front ++ old :: rest ∧
        old.occupied = false ∧
        jar.place candidate = (.ok (), {
          entries := front ++
            { candidate.cookie with occupied := true, sequence := jar.next_sequence } :: rest
          next_sequence := jar.next_sequence + 1 })) ∨
      (candidate.delete = false ∧ jar.place candidate = (.error .cookie_limit, jar)))) := by
  unfold place
  dsimp only
  rw [find_eq]
  split
  · next index found =>
    obtain ⟨front, old, rest, split, rfl, holds, -⟩ := findIdx?_split found
    refine .inl ⟨front, old, rest, split, holds, ?_⟩
    have there : jar.entries.getD front.length {} = old := by simp [split]
    cases candidate.delete with
    | true | false => simp [split]
  · next missing =>
    refine .inr ⟨SlotView.lookup_none.mpr (List.findIdx?_eq_none_iff.mp missing), ?_⟩
    cases delete : candidate.delete with
    | true => exact .inl ⟨rfl, by simp⟩
    | false =>
      refine .inr ?_
      simp only [Bool.false_eq_true, if_false, true_and]
      split
      · next index found =>
        obtain ⟨front, old, rest, split, rfl, free, -⟩ := findIdx?_split found
        exact .inl ⟨front, old, rest, split, by simpa using free, by simp [split]⟩
      · exact .inr rfl

theorem place_keysApart (unique : jar.KeysApart)
    (free : candidate.cookie.occupied = false) : (jar.place candidate).2.KeysApart := by
  unfold KeysApart at unique ⊢
  rcases jar.place_cases candidate with ⟨front, old, rest, split, holds, placed⟩ |
    ⟨missing, ⟨-, placed⟩ | ⟨-, front, old, rest, split, -, placed⟩ | ⟨-, placed⟩⟩
  · rw [split] at unique
    rw [placed]
    refine unique.exchange fun occupied => ?_
    split at occupied
    · cases occupied
    · exact absurd occupied (by simp [cookieView, free])
  · rwa [placed]
  · rw [split] at unique
    rw [placed]
    rw [lookup, split, SlotView.lookup_none] at missing
    refine unique.exchange fun _ => ?_
    exact ⟨SlotView.lookup_none.mpr fun slot member => missing slot (by simp [member]),
      SlotView.lookup_none.mpr fun slot member => missing slot (by simp [member])⟩
  · rwa [placed]

theorem setWith_error {error : Error} (parsed : parse setting = .error error) :
    jar.setWith setting = (.error error, jar) := by
  rw [parse] at parsed
  rw [setWith, set, parsed]

theorem setWith_ok (parsed : parse setting = .ok candidate) :
    jar.setWith setting = jar.place candidate := by
  rw [parse] at parsed
  rw [setWith, set, parsed]

theorem after_keysApart (jar : CookieJar) (setting : Setting) (unique : jar.KeysApart) :
    (jar.after setting).KeysApart := by
  cases parsed : parse setting with
  | error error => rwa [after, setWith_error parsed]
  | ok candidate =>
    rw [after, setWith_ok parsed]
    exact place_keysApart unique (parse_occupied parsed)

/-- A cookie that is set again is no longer found. -/
theorem update_lost (unique : jar.KeysApart)
    (free : candidate.cookie.occupied = false)
    (present : jar.lookup candidate.cookie.key ≠ none) :
    (jar.place candidate).1 = .ok () ∧ (jar.place candidate).2.lookup candidate.cookie.key = none := by
  rcases jar.place_cases candidate with ⟨front, old, rest, split, holds, placed⟩ | ⟨missing, -⟩
  · rw [KeysApart, split] at unique
    obtain ⟨before, behind⟩ := unique.alone holds
    have unheld : cookieView.holds candidate.cookie.key (if candidate.delete then {} else
        { candidate.cookie with sequence := old.sequence }) = false := by
      apply free_holds
      split
      · rfl
      · exact free
    rw [placed]
    refine ⟨rfl, ?_⟩
    rw [lookup, SlotView.lookup_split, before, unheld]
    exact behind
  · exact absurd missing present

theorem place_others {other : Bytes × Bytes × Bytes} (free : candidate.cookie.occupied = false)
    (apart : other ≠ candidate.cookie.key) :
    (jar.place candidate).2.lookup other = jar.lookup other := by
  rcases jar.place_cases candidate with ⟨front, old, rest, split, holds, placed⟩ |
    ⟨-, ⟨-, placed⟩ | ⟨-, front, old, rest, split, vacant, placed⟩ | ⟨-, placed⟩⟩
  · rw [placed, lookup, lookup, split]
    refine SlotView.lookup_exchange (Bool.eq_false_iff.mpr fun again => apart ?_) (free_holds _ ?_)
    · exact (cookieView.holds_iff.mp again).2.symm.trans (cookieView.holds_iff.mp holds).2
    · split
      · rfl
      · exact free
  · rw [placed]
  · rw [placed, lookup, lookup, split]
    refine SlotView.lookup_exchange (free_holds _ vacant) (Bool.eq_false_iff.mpr fun again => apart ?_)
    exact (cookieView.holds_iff.mp again).2.symm
  · rw [placed]

end Rules

theorem mapLaw_iff_of_keysApart {jar : CookieJar} (unique : jar.KeysApart)
    (setting : Setting) : MapLaw jar setting ↔ ¬ Updates jar setting := by
  constructor
  · rintro law ⟨candidate, parsed, keep, present⟩
    have free := parse_occupied parsed
    obtain ⟨accepted, lost⟩ := update_lost unique free present
    have result : jar.setWith setting = jar.place candidate := setWith_ok parsed
    obtain ⟨again, reparsed, -, found⟩ := law.set (by rw [result, accepted])
    obtain rfl := Except.ok.inj (parsed.symm.trans reparsed)
    rw [after, result, lost, keep] at found
    cases found
  · intro fresh
    cases parsed : parse setting with
    | error error =>
      have result : jar.setWith setting = (.error error, jar) := setWith_error parsed
      refine
        { unique := after_keysApart jar setting unique
          failed := fun _ _ => by rw [after, result]
          set := fun accepted => ?_ }
      rw [result] at accepted
      cases accepted
    | ok candidate =>
      have free := parse_occupied parsed
      have result : jar.setWith setting = jar.place candidate := setWith_ok parsed
      have updates : candidate.delete = true ∨ jar.lookup candidate.cookie.key = none := by
        by_contra neither
        rw [not_or] at neither
        exact fresh ⟨candidate, parsed, Bool.eq_false_iff.mpr neither.1, neither.2⟩
      refine
        { unique := after_keysApart jar setting unique
          failed := fun error failed => ?_
          set := fun accepted => ⟨candidate, parsed, fun other apart => ?_, ?_⟩ }
      · rw [result] at failed
        rw [after, result]
        rcases jar.place_cases candidate with ⟨front, old, rest, split, holds, placed⟩ |
          ⟨-, ⟨-, placed⟩ | ⟨-, front, old, rest, split, vacant, placed⟩ | ⟨-, placed⟩⟩
        · rw [placed] at failed
          cases failed
        · rw [placed]
        · rw [placed] at failed
          cases failed
        · rw [placed]
      · rw [after, result]
        exact place_others free apart
      · rw [result] at accepted
        rw [after, result]
        rcases jar.place_cases candidate with ⟨front, old, rest, split, holds, placed⟩ |
          ⟨missing, ⟨delete, placed⟩ | ⟨keep, front, old, rest, split, vacant, placed⟩ | ⟨-, placed⟩⟩
        · have present : jar.lookup candidate.cookie.key ≠ none := by
            intro missing
            rw [lookup, SlotView.lookup_none] at missing
            rw [missing old (by simp [split])] at holds
            cases holds
          rw [(update_lost unique free present).2, updates.resolve_right present]
          rfl
        · rw [placed, delete]
          exact missing
        · have lookup_front : cookieView.lookup front candidate.cookie.key = none := by
            rw [lookup, split, SlotView.lookup_none] at missing
            exact SlotView.lookup_none.mpr fun slot member => missing slot (by simp [member])
          have held : cookieView.holds candidate.cookie.key
              { candidate.cookie with occupied := true, sequence := jar.next_sequence } = true :=
            cookieView.holds_iff.mpr ⟨rfl, rfl⟩
          rw [missing, keep, placed, lookup, SlotView.lookup_split, lookup_front, held]
          rfl
        · rw [placed] at accepted
          cases accepted

def filled (settings : List Setting) : CookieJar :=
  settings.foldl after {}

theorem empty_keysApart : KeysApart {} :=
  List.pairwise_replicate.mpr (.inr fun occupied => by cases occupied)

theorem filled_keysApart (settings : List Setting) : (filled settings).KeysApart :=
  run_keeps after_keysApart empty_keysApart settings

/-- After any history, the laws of a map hold for exactly the settings that do not give a new value to a
cookie of the jar. -/
theorem mapLaw_iff (settings : List Setting) (setting : Setting) :
    MapLaw (filled settings) setting ↔ ¬ Updates (filled settings) setting :=
  mapLaw_iff_of_keysApart (filled_keysApart settings) setting

section Samples

/-- The setting of a cookie over a secure connection. -/
private def sampleSetting : Setting where
  origin := { scheme := .https, host := ⟨ascii "a", by decide⟩, port := 443 }
  request_path := ascii "/"
  source := ascii "n=1"
  allow_http_only := true

/-- A cookie that is set twice is not in the jar. -/
theorem not_a_map : ¬ ∀ settings setting, MapLaw (filled settings) setting := by
  intro law
  have accepted : ((filled [sampleSetting]).setWith sampleSetting).1 = .ok () := by decide
  obtain ⟨candidate, parsed, -, found⟩ := (law [sampleSetting] sampleSetting).set accepted
  have keeps : (parse sampleSetting).map Candidate.delete = .ok false := by decide
  have lost : (parse sampleSetting).map (fun candidate =>
      ((filled [sampleSetting]).after sampleSetting).lookup candidate.cookie.key) = .ok none := by
    decide
  rw [parsed] at keeps lost
  have lost : ((filled [sampleSetting]).after sampleSetting).lookup candidate.cookie.key = none :=
    Except.ok.inj lost
  have keeps := Except.ok.inj keeps
  rw [found, keeps] at lost
  cases lost

end Samples

end CookieJar

end R4OS.Web
