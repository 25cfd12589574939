import R4OS.Web.CookieMap
import R4OS.Web.SerializedOrigins
import R4OS.Web.StorageImages

/-!
# Storages survive

What browsers do with a storage keeps its tables sized and its names in lower case.  Such a storage is
read back from what it is written as unless an opaque origin without an identity has a local area, and
the areas of different origins stay apart.
-/

namespace R4OS.Web

open Incremental Text

/-- What is done with the area of an origin. -/
inductive AreaAction
  | open_area
  | set (key value : Bytes)
  | remove (key : Bytes)
  | clear

def AreaAction.apply : AreaAction → StorageArea → StorageArea
  | .open_area, area => area
  | .set key value, area => (area.set key value).2
  | .remove key, area => area.remove key
  | .clear, area => area.clear

/-- Look the area of an origin up and do something with it. -/
def StorageSet.access (set : StorageSet) (origin : Origin) (action : AreaAction) :
    Except Error Nat × StorageSet :=
  match set.area origin with
  | (.ok place, set) => (.ok place, { areas := set.areas.modify place action.apply })
  | (.error error, set) => (.error error, set)

/-- What is done with a storage, for a document with some address. -/
inductive StorageCall
  | set_cookie (url : Bytes) (opaque_id : UInt32) (request_path source : Bytes)
      (allow_http_only : Bool)
  | access (session : Bool) (url : Bytes) (opaque_id : UInt32) (action : AreaAction)
  | reset

namespace BrowserStorage

def call (storage : BrowserStorage) : StorageCall → BrowserStorage
  | .set_cookie url opaque_id request_path source allow_http_only =>
    match Origin.parse url opaque_id with
    | .error _ => storage
    | .ok origin => { storage with
        cookies := (storage.cookies.set origin request_path source allow_http_only).2 }
  | .access session url opaque_id action =>
    match Origin.parse url opaque_id with
    | .error _ => storage
    | .ok origin =>
      if session then
        { storage with session_set := (storage.session_set.access origin action).2 }
      else { storage with local_set := (storage.local_set.access origin action).2 }
  | .reset => storage.reset

def after (calls : List StorageCall) : BrowserStorage := calls.foldl call {}

end BrowserStorage

/-- The host of an origin is in lower case. -/
def Origin.Lowered (origin : Origin) : Prop := lowered origin.host = origin.host

theorem lowered_iff {capacity : Nat} {text : Bounded capacity} :
    lowered text = text ↔ text.bytes.map toLower = text.bytes := by
  rw [Bounded.ext_iff]
  rfl

theorem parse_lowered {url : Bytes} {opaque_id : UInt32} {origin : Origin}
    (parsed : Origin.parse url opaque_id = .ok origin) : origin.Lowered := by
  unfold Origin.parse at parsed
  split at parsed
  · cases parsed
  unfold Origin.ofUrl at parsed
  split at parsed
  · cases parsed
    rfl
  split at parsed
  · cases parsed
  · have host := (ofHost_hostBytes parsed).1
    refine lowered_iff.mpr ?_
    change origin.hostBytes.map toLower = origin.hostBytes
    rw [host, map_toLower_twice]

section Cookies

variable {origin : Origin} {allow_http_only : Bool} {part : Bytes} {candidate after : Candidate}

theorem setLower_lowered {capacity : Nat} {value : Bytes} {text : Bounded capacity}
    (done : Fixed.setLower capacity value = .ok text) : lowered text = text := by
  unfold Fixed.setLower Fixed.set at done
  split at done
  · cases done
    exact lowered_iff.mpr (map_toLower_twice value)
  · cases done

theorem applyAttribute_lowered (lower : lowered candidate.cookie.domain = candidate.cookie.domain)
    (applied : applyAttribute origin allow_http_only candidate part = .ok after) :
    lowered after.cookie.domain = after.cookie.domain := by
  unfold applyAttribute at applied
  dsimp only at applied
  split at applied
  · cases applied
    exact lower
  split at applied
  · split at applied
    · cases applied
    · obtain ⟨domain, set, applied⟩ := bind_eq_ok.mp applied
      cases applied
      exact setLower_lowered set
  split at applied
  · split at applied
    · obtain ⟨path, _, applied⟩ := bind_eq_ok.mp applied
      cases applied
      exact lower
    · cases applied
      exact lower
  split at applied
  · cases applied
    exact lower
  split at applied
  · cases applied
    exact lower
  split at applied
  · cases applied
    exact lower
  split at applied
  · cases applied
    exact lower
  split at applied
  · split at applied
    · cases applied
    · split at applied
      · cases applied
        exact lower
      · cases applied
        exact lower
  split at applied
  · cases applied
    exact lower
  · cases applied
    exact lower

theorem parseCookie_lowered {request_path source : Bytes} (lower : origin.Lowered)
    (parsed : parseCookie origin request_path source allow_http_only = .ok candidate) :
    lowered candidate.cookie.domain = candidate.cookie.domain := by
  unfold parseCookie at parsed
  dsimp only at parsed
  split at parsed
  · cases parsed
  split at parsed
  · cases parsed
  split at parsed
  · cases parsed
  obtain ⟨name, _, parsed⟩ := bind_eq_ok.mp parsed
  obtain ⟨value, _, parsed⟩ := bind_eq_ok.mp parsed
  obtain ⟨domain, domain_set, parsed⟩ := bind_eq_ok.mp parsed
  obtain ⟨path, _, parsed⟩ := bind_eq_ok.mp parsed
  obtain ⟨last, applied, parsed⟩ := bind_eq_ok.mp parsed
  have first : lowered domain = domain := by
    unfold Fixed.set at domain_set
    split at domain_set
    · cases domain_set
      exact lower
    · cases domain_set
  have kept := foldlM_keeps (fun _ _ _ lower applied => applyAttribute_lowered lower applied)
    (show lowered (Candidate.mk { name, value, domain, path } false).cookie.domain = _ from first)
    applied
  split at parsed
  · cases parsed
  split at parsed
  · cases parsed
  · cases parsed
    exact kept

theorem set_kept {jar : CookieJar} {request_path source : Bytes} (holds : Cookie → Prop)
    (empty : holds {}) (each : ∀ entry ∈ jar.entries, holds entry)
    (fresh : ∀ candidate, parseCookie origin request_path source allow_http_only = .ok candidate →
      ∀ occupied sequence, holds { candidate.cookie with occupied, sequence }) :
    (∀ entry ∈ (jar.set origin request_path source allow_http_only).2.entries, holds entry) ∧
      (jar.set origin request_path source allow_http_only).2.entries.length = jar.entries.length := by
  unfold CookieJar.set
  split
  · exact ⟨each, rfl⟩
  next candidate parsed =>
  have made := fresh candidate parsed
  rcases jar.place_cases candidate with ⟨front, old, rest, split, -, placed⟩ |
    ⟨-, ⟨-, placed⟩ | ⟨-, front, old, rest, split, -, placed⟩ | ⟨-, placed⟩⟩
  · rw [placed]
    dsimp only
    rw [split] at each ⊢
    refine ⟨fun entry member => ?_, by simp⟩
    rcases List.mem_append.mp member with before | behind
    · exact each entry (List.mem_append_left _ before)
    rcases List.mem_cons.mp behind with rfl | later
    · split
      · exact empty
      · exact made candidate.cookie.occupied old.sequence
    · exact each entry (List.mem_append_right _ (.tail _ later))
  · rw [placed]
    exact ⟨each, rfl⟩
  · rw [placed]
    dsimp only
    rw [split] at each ⊢
    refine ⟨fun entry member => ?_, by simp⟩
    rcases List.mem_append.mp member with before | behind
    · exact each entry (List.mem_append_left _ before)
    rcases List.mem_cons.mp behind with rfl | later
    · exact made true jar.next_sequence
    · exact each entry (List.mem_append_right _ (.tail _ later))
  · rw [placed]
    exact ⟨each, rfl⟩

end Cookies

section Areas

variable {set : StorageSet} {origin : Origin} {action : AreaAction}

theorem AreaAction.apply_frame (action : AreaAction) (area : StorageArea) :
    (action.apply area).occupied = area.occupied ∧ (action.apply area).origin = area.origin := by
  cases action with
  | open_area => exact ⟨rfl, rfl⟩
  | set key value =>
    change (area.set key value).2.occupied = area.occupied ∧
      (area.set key value).2.origin = area.origin
    unfold StorageArea.set
    split
    · split
      · split
        · exact ⟨rfl, rfl⟩
        · split
          · exact ⟨rfl, rfl⟩
          · exact ⟨rfl, rfl⟩
      · exact ⟨rfl, rfl⟩
    · exact ⟨rfl, rfl⟩
  | remove key =>
    change (area.remove key).occupied = area.occupied ∧ (area.remove key).origin = area.origin
    unfold StorageArea.remove
    split
    · exact ⟨rfl, rfl⟩
    · exact ⟨rfl, rfl⟩
  | clear => exact ⟨rfl, rfl⟩

theorem AreaAction.apply_sized {area : StorageArea} (action : AreaAction)
    (sized : area.entries.length = max_storage_entries) :
    (action.apply area).entries.length = max_storage_entries := by
  cases action with
  | open_area => exact sized
  | set key value =>
    change (area.set key value).2.entries.length = max_storage_entries
    unfold StorageArea.set
    split
    · split
      · split
        · exact (List.length_modify _ _ _).trans sized
        · split
          · exact List.length_set.trans sized
          · exact sized
      · exact sized
    · exact sized
  | remove key =>
    change (area.remove key).entries.length = max_storage_entries
    unfold StorageArea.remove
    split
    · exact List.length_set.trans sized
    · exact sized
  | clear => exact List.length_replicate

theorem access_cases (set : StorageSet) (origin : Origin) (action : AreaAction) :
    (∃ error, set.access origin action = (.error error, set)) ∨
      ∃ front area rest owner, set.areas = front ++ area :: rest ∧
        set.access origin action = (.ok front.length,
          ⟨front ++ action.apply { area with occupied := true, origin := owner } :: rest⟩) ∧
        ((area.occupied = true ∧ area.origin = owner ∧ owner.same origin = true) ∨
          (area.occupied = false ∧ owner = origin)) := by
  have changed : ∀ (front rest : List StorageArea) (area : StorageArea)
      (change : StorageArea → StorageArea),
      (front ++ area :: rest).modify front.length change = front ++ change area :: rest := by
    intro front rest area change
    rw [List.modify_eq_take_cons_drop (by simp)]
    simp
  unfold StorageSet.access StorageSet.area
  cases own : set.areas.findIdx? fun candidate =>
      candidate.occupied && candidate.origin.same origin with
  | some place =>
    obtain ⟨front, area, rest, split, rfl, holds, -⟩ := Buffer.findIdx?_split own
    obtain ⟨occupied, same⟩ := Bool.and_eq_true_iff.mp holds
    refine .inr ⟨front, area, rest, area.origin, split, ?_, .inl ⟨occupied, rfl, same⟩⟩
    dsimp only
    rw [split, changed, ← occupied]
  | none =>
    dsimp only
    cases free : set.areas.findIdx? fun candidate => !candidate.occupied with
    | some place =>
      obtain ⟨front, area, rest, split, rfl, holds, -⟩ := Buffer.findIdx?_split free
      refine .inr ⟨front, area, rest, origin, split, ?_, .inr ⟨by simpa using holds, rfl⟩⟩
      dsimp only
      rw [split, changed, changed]
    | none => exact .inl ⟨_, rfl⟩

theorem access_sized (sized : set.Sized) : (set.access origin action).2.Sized := by
  rcases access_cases set origin action with ⟨error, same⟩ | ⟨front, area, rest, owner, split, done, -⟩
  · rw [same]
    exact sized
  · have areas := sized.areas
    have entries := sized.entries
    rw [done]
    rw [split] at areas entries
    refine ⟨by simpa using areas, fun other member => ?_⟩
    rcases List.mem_append.mp member with before | behind
    · exact entries other (List.mem_append_left _ before)
    rcases List.mem_cons.mp behind with rfl | later
    · exact action.apply_sized (entries area (List.mem_append_right _ (.head _)))
    · exact entries other (List.mem_append_right _ (.tail _ later))

theorem access_hosts (lower : origin.Lowered) (each : ∀ area ∈ set.areas, area.origin.Lowered) :
    ∀ area ∈ (set.access origin action).2.areas, area.origin.Lowered := by
  rcases access_cases set origin action with ⟨error, same⟩ |
    ⟨front, area, rest, owner, split, done, owned⟩
  · rw [same]
    exact each
  · rw [done]
    rw [split] at each
    intro other member
    rcases List.mem_append.mp member with before | behind
    · exact each other (List.mem_append_left _ before)
    rcases List.mem_cons.mp behind with rfl | later
    · rw [(action.apply_frame _).2]
      rcases owned with ⟨-, rfl, -⟩ | ⟨-, rfl⟩
      · exact each area (List.mem_append_right _ (.head _))
      · exact lower
    · exact each other (List.mem_append_right _ (.tail _ later))

def Owns (set : StorageSet) (place : Nat) (owner : Origin) : Prop :=
  ∃ area, set.areas[place]? = some area ∧ area.occupied = true ∧ area.origin = owner

theorem access_owns {place : Nat} {owner : Origin} (owns : Owns set place owner) :
    Owns (set.access origin action).2 place owner := by
  rcases access_cases set origin action with ⟨error, same⟩ |
    ⟨front, area, rest, other, split, done, owned⟩
  · rw [same]
    exact owns
  · obtain ⟨former, found, occupied, owner_eq⟩ := owns
    rw [done]
    rw [split] at found
    unfold Owns
    dsimp only
    rcases Nat.lt_trichotomy place front.length with before | rfl | behind
    · rw [List.getElem?_append_left before] at found ⊢
      exact ⟨former, found, occupied, owner_eq⟩
    · simp only [List.getElem?_append_right .refl, Nat.sub_self, List.getElem?_cons_zero,
        Option.some.injEq] at found ⊢
      subst found
      refine ⟨_, rfl, (action.apply_frame _).1, ?_⟩
      rw [(action.apply_frame _).2]
      rcases owned with ⟨-, rfl, -⟩ | ⟨free, -⟩
      · exact owner_eq
      · rw [free] at occupied
        cases occupied
    · obtain ⟨later, rfl⟩ := Nat.exists_eq_add_of_lt behind
      rw [List.getElem?_append_right (by omega)] at found ⊢
      rw [show front.length + later + 1 - front.length = later + 1 by omega,
        List.getElem?_cons_succ] at found ⊢
      exact ⟨former, found, occupied, owner_eq⟩

theorem access_owner {place : Nat} {after : StorageSet}
    (done : set.access origin action = (.ok place, after)) :
    ∃ owner, Owns after place owner ∧ (owner = origin ∨ owner.same origin = true) := by
  rcases access_cases set origin action with ⟨error, failed⟩ |
    ⟨front, area, rest, owner, split, changed, owned⟩
  · rw [failed] at done
    cases done
  · rw [changed] at done
    cases done
    refine ⟨owner, ⟨action.apply { area with occupied := true, origin := owner }, by simp, ?_, ?_⟩, ?_⟩
    · exact (action.apply_frame _).1
    · exact (action.apply_frame _).2
    · rcases owned with ⟨-, -, same⟩ | ⟨-, own⟩
      · exact .inr same
      · exact .inl own

theorem same_symm {first second : Origin} (same : first.same second = true) :
    second.same first = true := by
  unfold Origin.same at same ⊢
  split at same
  · cases same
  next schemes =>
  rw [not_not] at schemes
  rw [if_neg (not_not.mpr schemes.symm), ← schemes]
  split at same
  · next hidden =>
    rw [if_pos hidden]
    obtain ⟨known, equal⟩ := of_decide_eq_true same
    exact decide_eq_true ⟨equal ▸ known, equal.symm⟩
  · next web =>
    rw [if_neg web]
    obtain ⟨port, host⟩ := of_decide_eq_true same
    exact decide_eq_true ⟨port.symm, host.symm⟩

theorem same_trans {first second third : Origin} (same : first.same second = true)
    (again : second.same third = true) : first.same third = true := by
  unfold Origin.same at same again ⊢
  split at same
  · cases same
  next schemes =>
  split at again
  · cases again
  next other_schemes =>
  rw [not_not] at schemes other_schemes
  rw [if_neg (not_not.mpr (schemes.trans other_schemes))]
  split at same
  · next hidden =>
    rw [if_pos (schemes ▸ hidden)] at again
    rw [if_pos hidden]
    obtain ⟨known, equal⟩ := of_decide_eq_true same
    obtain ⟨-, other_equal⟩ := of_decide_eq_true again
    exact decide_eq_true ⟨known, equal.trans other_equal⟩
  · next web =>
    rw [if_neg (schemes ▸ web)] at again
    rw [if_neg web]
    obtain ⟨port, host⟩ := of_decide_eq_true same
    obtain ⟨other_port, other_host⟩ := of_decide_eq_true again
    exact decide_eq_true ⟨port.trans other_port, host.trans other_host⟩

def StorageSet.accesses (set : StorageSet) (list : List (Origin × AreaAction)) : StorageSet :=
  list.foldl (fun set item => (set.access item.1 item.2).2) set

theorem accesses_owns {place : Nat} {owner : Origin} (list : List (Origin × AreaAction))
    (owns : Owns set place owner) : Owns (set.accesses list) place owner := by
  unfold StorageSet.accesses
  induction list generalizing set with
  | nil => exact owns
  | cons item rest induction => exact induction (access_owns owns)

theorem areas_apart {first second : Origin} {first_action second_action : AreaAction}
    {first_place second_place : Nat} {middle last : StorageSet}
    (list : List (Origin × AreaAction))
    (first_done : set.access first first_action = (.ok first_place, middle))
    (second_done : (middle.accesses list).access second second_action = (.ok second_place, last))
    (apart : first.same second = false) : first_place ≠ second_place := by
  rintro rfl
  obtain ⟨owner, owns, own⟩ := access_owner first_done
  obtain ⟨area, found, occupied, rfl⟩ := accesses_owns list owns
  rcases access_cases (middle.accesses list) second second_action with ⟨error, failed⟩ |
    ⟨front, other, rest, owner, split, changed, owned⟩
  · rw [failed] at second_done
    cases second_done
  · rw [changed] at second_done
    cases second_done
    rw [split, List.getElem?_append_right .refl, Nat.sub_self, List.getElem?_cons_zero,
      Option.some.injEq] at found
    subst found
    rcases owned with ⟨-, rfl, same⟩ | ⟨free, -⟩
    · rcases own with equal | first_same
      · rw [← equal, same] at apart
        cases apart
      · rw [same_trans (same_symm first_same) same] at apart
        cases apart
    · rw [free] at occupied
      cases occupied

end Areas

section Reached

variable {storage : BrowserStorage}

theorem empty_sized : ({} : BrowserStorage).Sized := by
  have set_sized : ({} : StorageSet).Sized := by
    refine ⟨List.length_replicate, fun area member => ?_⟩
    rw [List.eq_of_mem_replicate member]
    exact List.length_replicate
  exact ⟨List.length_replicate, set_sized, set_sized⟩

theorem empty_lowered : ({} : BrowserStorage).Lowered := by
  refine ⟨fun entry member => ?_, fun area member => ?_⟩
  · rw [List.eq_of_mem_replicate member]
    rfl
  · rw [List.eq_of_mem_replicate member]
    rfl

theorem call_sized (sized : storage.Sized) (call : StorageCall) : (storage.call call).Sized := by
  cases call with
  | set_cookie url opaque_id request_path source allow_http_only =>
    unfold BrowserStorage.call
    dsimp only
    split
    · exact sized
    · exact ⟨(set_kept (fun _ => True) trivial (fun _ _ => trivial)
        fun _ _ _ _ => trivial).2.trans sized.cookies, sized.local_set, sized.session_set⟩
  | access session url opaque_id action =>
    unfold BrowserStorage.call
    dsimp only
    split
    · exact sized
    · split
      · exact ⟨sized.cookies, sized.local_set, access_sized sized.session_set⟩
      · exact ⟨sized.cookies, access_sized sized.local_set, sized.session_set⟩
  | reset => exact reset_sized sized

theorem reset_lowered (lower : storage.Lowered) : storage.reset.Lowered := by
  refine ⟨fun entry member => ?_, fun area member => ?_⟩
  · obtain ⟨former, stored, rfl⟩ := List.mem_map.mp member
    exact lower.domains former stored
  · obtain ⟨former, stored, rfl⟩ := List.mem_map.mp member
    exact lower.hosts former stored

theorem call_lowered (lower : storage.Lowered) (call : StorageCall) :
    (storage.call call).Lowered := by
  cases call with
  | set_cookie url opaque_id request_path source allow_http_only =>
    unfold BrowserStorage.call
    dsimp only
    split
    · exact lower
    · next origin parsed =>
      exact ⟨(set_kept (fun entry => lowered entry.domain = entry.domain) rfl lower.domains
        fun candidate made _ _ => parseCookie_lowered (parse_lowered parsed) made).1, lower.hosts⟩
  | access session url opaque_id action =>
    unfold BrowserStorage.call
    dsimp only
    split
    · exact lower
    · next origin parsed =>
      split
      · exact ⟨lower.domains, lower.hosts⟩
      · exact ⟨lower.domains, access_hosts (parse_lowered parsed) lower.hosts⟩
  | reset => exact reset_lowered lower

theorem after_sized (calls : List StorageCall) : (BrowserStorage.after calls).Sized :=
  List.foldlRecOn calls BrowserStorage.call empty_sized fun _ sized call _ => call_sized sized call

theorem after_lowered (calls : List StorageCall) : (BrowserStorage.after calls).Lowered :=
  List.foldlRecOn calls BrowserStorage.call empty_lowered fun _ lower call _ =>
    call_lowered lower call

end Reached

section Inside

open Decoder PersistenceReader BrowserStorage

theorem string_inside (maximum : Nat) : StaysInside (string maximum) :=
  (StaysInside.take.bind fun _ => StaysInside.pure _).bind fun _ =>
    StaysInside.ite (StaysInside.throw _) StaysInside.take

theorem u16Value_inside : StaysInside u16Value := StaysInside.take.bind fun _ => .pure _

theorem u32Value_inside : StaysInside u32Value :=
  u16Value_inside.bind fun _ => u16Value_inside.bind fun _ => .pure _

theorem byte_inside : StaysInside byte := StaysInside.take.bind fun _ => .pure _

theorem field_inside (capacity : Nat) (value : Bytes) : StaysInside (field capacity value) := by
  unfold field
  split
  · exact .pure _
  · exact .throw _

theorem fixed_inside (capacity : Nat) : StaysInside (fixed capacity) :=
  (string_inside capacity).bind fun value => field_inside capacity value

theorem fixedLower_inside (capacity : Nat) : StaysInside (fixedLower capacity) :=
  (string_inside capacity).bind fun value => field_inside capacity (value.map toLower)

theorem scheme_inside (code : UInt8) : StaysInside (PersistenceReader.scheme code) :=
  StaysInside.ite (.pure _) (.ite (.pure _)
    (.ite (.pure _) (.throw _)))

theorem sameSite_inside (flags : UInt8) : StaysInside (sameSite flags) :=
  StaysInside.ite (.pure _) (.ite (.pure _)
    (.ite (.pure _) (.throw _)))

theorem origin_inside : StaysInside PersistenceReader.origin :=
  byte_inside.bind fun code => (scheme_inside code).bind fun _ =>
    (fixedLower_inside _).bind fun _ => u16Value_inside.bind fun _ => u32Value_inside.bind fun _ =>
    StaysInside.ite (.throw _) (.pure _)

theorem decodeCookie_inside (index : Nat) : StaysInside (decodeCookie index) :=
  (fixed_inside _).bind fun _ => (fixed_inside _).bind fun _ => (fixedLower_inside _).bind fun _ =>
    (fixed_inside _).bind fun _ => byte_inside.bind fun flags => (sameSite_inside flags).bind fun _ =>
    u32Value_inside.bind fun _ => .write _

theorem decodeEntry_inside (place index : Nat) : StaysInside (decodeEntry place index) :=
  (StaysInside.write _).bind fun _ => (fixed_inside _).bind fun _ =>
    (StaysInside.write _).bind fun _ => (fixed_inside _).bind fun _ => StaysInside.write _

theorem decodeArea_inside (place : Nat) : StaysInside (decodeArea place) :=
  (StaysInside.write _).bind fun _ => origin_inside.bind fun _ => (StaysInside.write _).bind fun _ =>
    u16Value_inside.bind fun _ => StaysInside.ite (StaysInside.throw _)
    (StaysInside.forPlaces (decodeEntry_inside place) _ _)

theorem checkHeader_inside : StaysInside checkHeader :=
  StaysInside.take.bind fun _ => .ite (.throw _)
    (u16Value_inside.bind fun _ => .ite (.throw _) (.pure _))

theorem checkEnd_inside : StaysInside checkEnd := by
  intro input state inside
  unfold final checkEnd
  split
  · next value after ran =>
    split at ran
    · cases ran
    · cases ran
      exact inside
  · next failure after ran =>
    split at ran
    · cases ran
      exact inside
    · cases ran

theorem decoder_inside : StaysInside decoder :=
  (checkHeader_inside.bind fun _ => (StaysInside.write _).bind fun _ =>
    (u16Value_inside.bind fun _ => StaysInside.ite (StaysInside.throw _)
      (StaysInside.forPlaces decodeCookie_inside _ _)).bind fun _ =>
    u16Value_inside.bind fun _ => .ite (.throw _)
      (.forPlaces decodeArea_inside _ _)).bind fun _ => checkEnd_inside

/-- Reading a byte string never leaves it. -/
theorem decode_inside (storage : BrowserStorage) (input : Bytes) :
    (storage.decode input).2.cursor.input = input ∧
      (storage.decode input).2.cursor.pos ≤ input.length := by
  have inside := decoder_inside input ⟨{ input }, storage⟩ ⟨rfl, Nat.zero_le _⟩
  unfold final at inside
  unfold decode
  cases ran : decoder ⟨{ input }, storage⟩ with
  | ok value after | error failure after =>
    rw [ran] at inside
    exact inside

end Inside

/-- A persistent cookie and a local area of a document. -/
def sampleCalls : List StorageCall :=
  [.set_cookie (ascii "https://a/") 1 (ascii "/") (ascii "n=v; Secure; Max-Age=9") true,
    .access false (ascii "https://a/") 1 (.set (ascii "k") (ascii "w"))]

theorem sampleCalls_encoded :
    (BrowserStorage.after sampleCalls).encode 200 = .ok (BrowserStorage.after sampleCalls).bytes :=
  BrowserStorage.encode_eq_ok.mpr ⟨rfl, by decide, by decide⟩

theorem sampleCalls_known : (BrowserStorage.after sampleCalls).Known := by
  have web : ∀ area ∈ (BrowserStorage.after sampleCalls).writtenAreas,
      area.origin.scheme = .https := by decide
  rintro area member ⟨hidden, -⟩
  rw [web area member] at hidden
  cases hidden

/-- A storage that is empty but for its version. -/
def sampleInput : Bytes := ascii "R4WS" ++ [1, 0, 0, 0, 0, 0]

/-- An opaque origin without an identity has a local area. -/
def hiddenCalls : List StorageCall :=
  [.access false (ascii "about:blank") 0 (.set (ascii "k") (ascii "v"))]

end R4OS.Web
