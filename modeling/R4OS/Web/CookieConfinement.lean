import R4OS.Web.CookieMap

/-!
# Confinement of cookies

A request or a document is meant to see only the cookies of its host, its path and its kind, as a list
of whole pairs, and a document is meant to leave the cookies alone that are hidden from it.  Paths are
compared without regard to their segments, values may contain line breaks, a small buffer cuts a pair,
and a document may set a cookie with the key of a hidden one.
-/

namespace R4OS.Web

open Buffer Incremental Text

def Cookie.pair (cookie : Cookie) : Bytes := cookie.name.bytes ++ chr '=' :: cookie.value.bytes

/-- The pairs of some cookies. -/
def joined (cookies : List Cookie) : Bytes := (ascii "; ").intercalate (cookies.map Cookie.pair)

/-- What separates a pair from the text before it. -/
def separator (out : Bytes) : Bytes := if out = [] then [] else ascii "; "

section Joined

variable {front cookies shown : List Cookie} {entry : Cookie}

theorem Cookie.pair_ne_nil (cookie : Cookie) : cookie.pair ≠ [] := by simp [pair]

@[simp] theorem joined_nil : joined [] = [] := rfl

@[simp] theorem joined_singleton : joined [entry] = entry.pair := by simp [joined, List.intercalate]

theorem joined_cons_cons {next : Cookie} :
    joined (entry :: next :: cookies) = entry.pair ++ ascii "; " ++ joined (next :: cookies) := by
  simp [joined, List.intercalate]

@[simp] theorem joined_eq_nil : joined cookies = [] ↔ cookies = [] := by
  cases cookies with
  | nil => simp
  | cons entry rest =>
    cases rest with
    | nil => simp [entry.pair_ne_nil]
    | cons next rest => simp [joined_cons_cons, entry.pair_ne_nil]

theorem joined_concat :
    joined (front ++ [entry]) = joined front ++ (separator (joined front) ++ entry.pair) := by
  induction front with
  | nil => simp [separator]
  | cons first rest induction =>
    cases rest with
    | nil =>
      rw [List.singleton_append, joined_cons_cons]
      simp [separator, first.pair_ne_nil]
    | cons next rest =>
      rw [List.cons_append, List.cons_append, joined_cons_cons, ← List.cons_append, induction]
      simp [separator, joined_cons_cons]

theorem joined_length_le (longer : front <+: cookies) :
    (joined front).length ≤ (joined cookies).length := by
  obtain ⟨rest, rfl⟩ := longer
  induction rest using List.reverseRecOn with
  | nil => rw [List.append_nil]
  | append_singleton rest last induction =>
    rw [← List.append_assoc, joined_concat, List.length_append]
    omega

/-- More pairs make a longer text. -/
theorem joined_length_lt (longer : front ++ [entry] <+: cookies) :
    (joined front).length < (joined cookies).length := by
  have grown := joined_length_le longer
  have nonempty := List.length_pos_iff.mpr entry.pair_ne_nil
  rw [joined_concat] at grown
  simp only [List.length_append] at grown
  omega

/-- A part of the front is the whole of it or goes on with a next cookie. -/
theorem prefix_eq_or (shorter : front <+: cookies) :
    front = cookies ∨ ∃ next, front ++ [next] <+: cookies := by
  obtain ⟨rest, rfl⟩ := shorter
  cases rest with
  | nil => exact .inl (List.append_nil _).symm
  | cons next rest => exact .inr ⟨next, rest, by simp⟩

/-- The length of the text tells how many pairs it has. -/
theorem eq_of_joined_length (shorter : front <+: cookies)
    (same : (joined front).length = (joined cookies).length) : front = cookies := by
  rcases prefix_eq_or shorter with equal | ⟨next, longer⟩
  · exact equal
  · exact absurd same (joined_length_lt longer).ne

theorem mem_joined {byte : UInt8} (member : entry ∈ cookies) (within : byte ∈ entry.pair) :
    byte ∈ joined cookies := by
  induction cookies using List.reverseRecOn with
  | nil => cases member
  | append_singleton rest last induction =>
    rw [joined_concat]
    rcases List.mem_append.mp member with member | member
    · exact List.mem_append_left _ (induction member)
    · obtain rfl := List.mem_singleton.mp member
      exact List.mem_append_right _ (List.mem_append_right _ within)

theorem of_mem_joined {byte : UInt8} (member : byte ∈ joined cookies) :
    byte ∈ ascii "; " ∨ ∃ entry ∈ cookies, byte ∈ entry.pair := by
  induction cookies using List.reverseRecOn with
  | nil => cases member
  | append_singleton rest last induction =>
    rw [joined_concat] at member
    rcases List.mem_append.mp member with member | member
    · rcases induction member with blank | ⟨entry, inside, within⟩
      · exact .inl blank
      · exact .inr ⟨entry, List.mem_append_left _ inside, within⟩
    · rcases List.mem_append.mp member with member | member
      · unfold separator at member
        split at member
        · cases member
        · exact .inl member
      · exact .inr ⟨last, by simp, member⟩

end Joined

/-- The cookies whose pairs find room behind some text. -/
def fitting (capacity : Nat) : List Cookie → Bytes → List Cookie
  | [], _ => []
  | entry :: rest, out =>
    let longer := out ++ (separator out ++ entry.pair)
    if longer.length ≤ capacity then entry :: fitting capacity rest longer else []

/-- The room ends behind a whole pair: the first pair that does not fit is not begun. -/
def EndsWhole (capacity : Nat) : List Cookie → Bytes → Prop
  | [], _ => True
  | entry :: rest, out =>
    let longer := out ++ (separator out ++ entry.pair)
    if longer.length ≤ capacity then EndsWhole capacity rest longer
    else if out = [] then capacity = 0 ∨ capacity < entry.name.bytes.length
    else capacity < out.length + 2

section Room

variable {capacity : Nat} {out : Bytes} {front cookies rest : List Cookie} {entry : Cookie}

theorem append_eq {value : Bytes} (within : out.length ≤ capacity) :
    append capacity out value =
      if out.length + value.length ≤ capacity then some (out ++ value) else none := by
  unfold append
  congr 1
  simp only [eq_iff_iff]
  omega

theorem separator_eq (within : out.length ≤ capacity) :
    (if out = [] then some out else append capacity out (ascii "; ")) =
      if out.length + (separator out).length ≤ capacity then some (out ++ separator out) else none := by
  unfold separator
  split
  · simp [within]
  · exact append_eq within

namespace CookieJar

/-- A pair that finds room is written whole. -/
theorem writePairs_fits (within : out.length ≤ capacity)
    (fits : (out ++ (separator out ++ entry.pair)).length ≤ capacity) :
    writePairs capacity (entry :: rest) out =
      writePairs capacity rest (out ++ (separator out ++ entry.pair)) := by
  have sign : (ascii "=").length = 1 := rfl
  simp only [Cookie.pair, List.length_append, List.length_cons] at fits
  rw [writePairs, separator_eq within, if_pos (by omega)]
  dsimp only
  rw [append_eq (by simp only [List.length_append]; omega),
    if_pos (by simp only [List.length_append]; omega)]
  dsimp only
  rw [append_eq (by simp only [List.length_append]; omega),
    if_pos (by simp only [List.length_append]; omega)]
  dsimp only
  rw [append_eq (by simp only [List.length_append]; omega),
    if_pos (by simp only [List.length_append]; omega)]
  simp [Cookie.pair, ascii]

/-- Of a pair that finds no room a part is left behind the text, unless it is not begun. -/
theorem writePairs_full (within : out.length ≤ capacity)
    (full : ¬ (out ++ (separator out ++ entry.pair)).length ≤ capacity) :
    ∃ leftover, writePairs capacity (entry :: rest) out = out ++ leftover ∧
      leftover.length < (separator out ++ entry.pair).length ∧
      (leftover = [] ↔ if out = [] then capacity = 0 ∨ capacity < entry.name.bytes.length
        else capacity < out.length + 2) := by
  have sign : (ascii "=").length = 1 := rfl
  have gap : (out.length = 0 ∧ (separator out).length = 0) ∨
      (0 < out.length ∧ (separator out).length = 2) := by
    unfold separator
    split
    · next first => exact .inl ⟨List.length_eq_zero_iff.mpr first, rfl⟩
    · next more => exact .inr ⟨List.length_pos_iff.mpr more, rfl⟩
  have whole : (if out = [] then capacity = 0 ∨ capacity < entry.name.bytes.length
      else capacity < out.length + 2) ↔
      (out.length = 0 ∧ (capacity = 0 ∨ capacity < entry.name.bytes.length)) ∨
        (0 < out.length ∧ capacity < out.length + 2) := by
    rw [List.length_eq_zero_iff, List.length_pos_iff]
    split
    · next first => simp [first]
    · next more => simp [more]
  simp only [Cookie.pair, List.length_append, List.length_cons] at full ⊢
  rw [writePairs, separator_eq within, whole]
  by_cases separated : out.length + (separator out).length ≤ capacity
  · rw [if_pos separated]
    dsimp only
    rw [append_eq (by simpa using separated)]
    by_cases named : (out ++ separator out).length + entry.name.bytes.length ≤ capacity
    · rw [if_pos named]
      dsimp only
      rw [List.length_append] at named
      rw [append_eq (by simp only [List.length_append]; omega)]
      by_cases signed : (out ++ separator out ++ entry.name.bytes).length + (ascii "=").length ≤ capacity
      · rw [if_pos signed]
        dsimp only
        simp only [List.length_append] at signed
        rw [append_eq (by simp only [List.length_append]; omega),
          if_neg (by simp only [List.length_append]; omega)]
        refine ⟨separator out ++ entry.name.bytes ++ ascii "=", by simp, ?_, ?_⟩
        · simp only [List.length_append]
          omega
        · rw [← List.length_eq_zero_iff]
          simp only [List.length_append]
          omega
      · rw [if_neg signed]
        simp only [List.length_append] at signed
        refine ⟨separator out ++ entry.name.bytes, by simp, ?_, ?_⟩
        · simp only [List.length_append]
          omega
        · rw [← List.length_eq_zero_iff]
          simp only [List.length_append]
          omega
    · rw [if_neg named]
      rw [List.length_append] at named
      refine ⟨separator out, rfl, by omega, ?_⟩
      rw [← List.length_eq_zero_iff]
      omega
  · rw [if_neg separated]
    refine ⟨[], (List.append_nil _).symm, by simp only [List.length_nil]; omega, ?_⟩
    simp only [true_iff]
    omega

/-- The text that is written: the pairs that find room, and a part of the next one unless the room ends
behind a whole pair. -/
theorem writePairs_joined (cookies : List Cookie) (within : (joined front).length ≤ capacity) :
    ∃ leftover, writePairs capacity cookies (joined front) =
        joined (front ++ fitting capacity cookies (joined front)) ++ leftover ∧
      (leftover = [] ↔ EndsWhole capacity cookies (joined front)) ∧
      (leftover ≠ [] → ∃ next, fitting capacity cookies (joined front) ++ [next] <+: cookies ∧
        leftover.length + (joined (front ++ fitting capacity cookies (joined front))).length <
          (joined (front ++ fitting capacity cookies (joined front) ++ [next])).length) := by
  induction cookies generalizing front with
  | nil => exact ⟨[], by simp [writePairs, fitting], by simp [EndsWhole], by simp⟩
  | cons entry rest induction =>
    by_cases fits : (joined front ++ (separator (joined front) ++ entry.pair)).length ≤ capacity
    · rw [writePairs_fits within fits, ← joined_concat]
      rw [← joined_concat] at fits
      obtain ⟨leftover, written, whole, part⟩ := induction fits
      have fitting_eq : fitting capacity (entry :: rest) (joined front) =
          entry :: fitting capacity rest (joined (front ++ [entry])) := by
        simp only [fitting, ← joined_concat, if_pos fits]
      have ends : EndsWhole capacity (entry :: rest) (joined front) ↔
          EndsWhole capacity rest (joined (front ++ [entry])) := by
        simp only [EndsWhole, ← joined_concat, if_pos fits]
      rw [fitting_eq, ends]
      simp only [List.append_assoc, List.singleton_append] at written part
      refine ⟨leftover, written, whole, fun more => ?_⟩
      obtain ⟨next, shown, shorter⟩ := part more
      refine ⟨next, ?_, by simpa using shorter⟩
      rw [List.cons_append]
      exact (List.prefix_cons_inj entry).mpr shown
    · obtain ⟨leftover, written, shorter, whole⟩ := writePairs_full within fits
      have fitting_eq : fitting capacity (entry :: rest) (joined front) = [] := by
        simp only [fitting, if_neg fits]
      have ends : EndsWhole capacity (entry :: rest) (joined front) ↔
          if joined front = [] then capacity = 0 ∨ capacity < entry.name.bytes.length
          else capacity < (joined front).length + 2 := by
        simp only [EndsWhole, if_neg fits]
      rw [fitting_eq, ends, List.append_nil]
      refine ⟨leftover, written, whole, fun _ => ⟨entry, ?_, ?_⟩⟩
      · exact ⟨rest, rfl⟩
      · rw [joined_concat, List.length_append]
        omega

end CookieJar

theorem fitting_prefix (cookies : List Cookie) (out : Bytes) :
    fitting capacity cookies out <+: cookies := by
  induction cookies generalizing out with
  | nil => exact List.prefix_rfl
  | cons entry rest induction =>
    simp only [fitting]
    split
    · exact (List.prefix_cons_inj entry).mpr (induction _)
    · exact List.nil_prefix

end Room

/-- A request, or an access of a document, for the cookies of a jar. -/
structure Request where
  origin : Origin
  path : Bytes
  same_site : Bool
  document_access : Bool
  capacity : Nat

/-- A host is a domain or lies below it. -/
def WithinDomain (host domain : Bytes) : Prop :=
  ∃ label, host.map toLower = label ++ domain.map toLower ∧
    (label = [] ∨ label.getLast? = some (chr '.'))

/-- A path is another one or extends it at a boundary. -/
def WithinPath (path limit : Bytes) : Prop :=
  ∃ rest, path = limit ++ rest ∧
    (rest = [] ∨ limit.getLast? = some (chr '/') ∨ rest.head? = some (chr '/'))

structure Permitted (entry : Cookie) (request : Request) : Prop where
  host : if entry.host_only then request.origin.hostBytes = entry.domain.bytes
    else WithinDomain request.origin.hostBytes entry.domain.bytes
  path : WithinPath request.path entry.path.bytes
  secure : entry.secure = true → request.origin.scheme = .https
  same_site : request.same_site = true ∨ request.document_access = true ∨ entry.same_site = .none
  http_only : request.document_access = true → entry.http_only = false

/-- A byte that ends a line or a string. -/
def breaks (byte : UInt8) : Bool := byte == 0x0D || byte == 0x0A || byte == 0

namespace CookieJar

def answer (jar : CookieJar) (request : Request) : Bytes :=
  if request.document_access then jar.writeDocumentCookie request.origin request.path request.capacity
  else jar.writeRequestHeader request.origin request.path request.same_site request.capacity

/-- The cookies that match a request. -/
def selected (jar : CookieJar) (request : Request) : List Cookie :=
  jar.matching request.origin request.path (request.document_access || request.same_site)
    request.document_access

/-- The answer to a request is a list of whole pairs of cookies that the request may see, without a
byte that breaks it. -/
def Confined (jar : CookieJar) (request : Request) : Prop :=
  ∃ shown, shown <+: jar.selected request ∧ jar.answer request = joined shown ∧
    (∀ entry ∈ shown, Permitted entry request) ∧ ∀ byte ∈ jar.answer request, breaks byte = false

/-- The pairs that find room are of cookies with the path of the request and have no byte that breaks
them, and the room ends behind a whole pair. -/
def Harmless (jar : CookieJar) (request : Request) : Prop :=
  EndsWhole request.capacity (jar.selected request) [] ∧
    ∀ entry ∈ fitting request.capacity (jar.selected request) [],
      WithinPath request.path entry.path.bytes ∧ ∀ byte ∈ entry.pair, breaks byte = false

section Rules

variable {jar : CookieJar} {request : Request} {entry : Cookie}

theorem answer_eq (jar : CookieJar) (request : Request) :
    jar.answer request = writePairs request.capacity (jar.selected request) [] := by
  unfold answer selected
  cases access : request.document_access with
  | true | false => rfl

theorem domainMatches_within {host domain : Bytes} (found : domainMatches host domain = true) :
    WithinDomain host domain := by
  unfold domainMatches at found
  split at found
  · cases found
  split at found
  · next same => exact ⟨[], by simpa [equalIgnoreCase] using same, .inl rfl⟩
  · simp only [decide_eq_true_eq] at found
    obtain ⟨later, dot, same⟩ := found
    refine ⟨(host.take (host.length - domain.length)).map toLower, ?_, .inr ?_⟩
    · have equal : (host.drop (host.length - domain.length)).map toLower = domain.map toLower := by
        simpa [equalIgnoreCase] using same
      rw [← equal, ← List.map_append, List.take_append_drop]
    · rw [List.getLast?_map, List.getLast?_take, if_neg (by omega), dot]
      rfl

theorem permitted_iff (selected : entry ∈ jar.selected request) :
    Permitted entry request ↔ WithinPath request.path entry.path.bytes := by
  refine ⟨Permitted.path, fun path => ?_⟩
  have found := (List.mem_filter.mp selected).2
  rw [Bool.and_eq_true] at found
  replace found := found.2
  unfold cookieMatches at found
  split at found
  · cases found
  split at found
  · cases found
  next host =>
  split at found
  · cases found
  next domain =>
  split at found
  · cases found
  split at found
  · cases found
  next secure =>
  split at found
  · cases found
  next hidden =>
  split at found
  · cases found
  next site =>
  refine ⟨?_, path, fun secured => ?_, ?_, fun access => ?_⟩
  · split
    · next bound =>
      by_contra apart
      exact host ⟨bound, fun same => apart same.symm⟩
    · next wide =>
      by_contra outside
      exact domain ⟨wide, fun within => outside (domainMatches_within within)⟩
  · by_contra scheme
    exact secure ⟨secured, scheme⟩
  · by_contra neither
    simp only [not_or, Bool.not_eq_true] at neither
    exact site ⟨by simp [neither], neither.2.2⟩
  · exact Bool.eq_false_iff.mpr fun http_only => hidden ⟨access, http_only⟩

theorem separator_unbroken : ∀ byte ∈ ascii "; ", breaks byte = false := by
  decide +kernel

theorem confined_iff_harmless (jar : CookieJar) (request : Request) :
    jar.Confined request ↔ jar.Harmless request := by
  have room : (joined []).length ≤ request.capacity := Nat.zero_le _
  obtain ⟨leftover, written, whole, part⟩ := writePairs_joined (jar.selected request) room
  rw [joined_nil, List.nil_append] at written part
  rw [joined_nil] at whole
  rw [← answer_eq] at written
  have among : fitting request.capacity (jar.selected request) [] <+: jar.selected request :=
    fitting_prefix _ _
  constructor
  · rintro ⟨shown, front, equal, allowed, unbroken⟩
    rw [equal] at written
    have lengths := congrArg List.length written
    rw [List.length_append] at lengths
    have complete : leftover = [] := by
      by_contra more
      obtain ⟨next, begun, shorter⟩ := part more
      rcases List.prefix_or_prefix_of_prefix front begun with behind | beyond
      · rcases prefix_eq_or behind with rfl | ⟨last, behind⟩
        · omega
        · have count := behind.length_le
          simp only [List.length_append, List.length_singleton] at count
          have before := joined_length_le (List.prefix_of_prefix_length_le front among (by omega))
          have begun_length := List.length_pos_iff.mpr more
          omega
      · have := joined_length_le beyond
        omega
    subst complete
    rw [List.length_nil, Nat.add_zero] at lengths
    have same : shown = fitting request.capacity (jar.selected request) [] := by
      rcases List.prefix_or_prefix_of_prefix front among with shorter | longer
      · exact eq_of_joined_length shorter lengths
      · exact (eq_of_joined_length longer lengths.symm).symm
    subst same
    refine ⟨whole.mp rfl, fun entry member => ⟨(allowed entry member).path, fun byte within => ?_⟩⟩
    exact unbroken byte (equal ▸ mem_joined member within)
  · rintro ⟨ends, sound⟩
    obtain rfl := whole.mpr ends
    rw [List.append_nil] at written
    refine ⟨_, among, written, fun entry member => ?_, fun byte member => ?_⟩
    · exact (permitted_iff (among.subset member)).mpr (sound entry member).1
    · rw [written] at member
      rcases of_mem_joined member with blank | ⟨entry, inside, within⟩
      · exact separator_unbroken byte blank
      · exact (sound entry inside).2 byte within

end Rules

/-- What a caller may do with a jar: set a cookie from a document, or ask for cookies. -/
inductive Call
  | document (origin : Origin) (request_path source : Bytes)
  | request (request : Request)

def documentSetting (origin : Origin) (request_path source : Bytes) : Setting where
  origin
  request_path
  source
  allow_http_only := false

def KeepsHidden (jar : CookieJar) (setting : Setting) : Prop :=
  ∀ key cookie, jar.lookup key = some cookie → cookie.http_only = true →
    (jar.after setting).lookup key = some cookie

def MeetsHidden (jar : CookieJar) (setting : Setting) : Prop :=
  ∃ candidate cookie, parse setting = .ok candidate ∧
    jar.lookup candidate.cookie.key = some cookie ∧ cookie.http_only = true

theorem keepsHidden_iff {jar : CookieJar} (unique : jar.KeysApart) (setting : Setting) :
    jar.KeepsHidden setting ↔ ¬ jar.MeetsHidden setting := by
  constructor
  · rintro kept ⟨candidate, cookie, parsed, found, hidden⟩
    have stored := kept _ cookie found hidden
    have present : jar.lookup candidate.cookie.key ≠ none := by simp [found]
    rw [after, setWith_ok parsed, (update_lost unique (parse_occupied parsed) present).2] at stored
    cases stored
  · intro apart key cookie found hidden
    cases parsed : parse setting with
    | error error => rwa [after, setWith_error parsed]
    | ok candidate =>
      rw [after, setWith_ok parsed, place_others (parse_occupied parsed), found]
      rintro rfl
      exact apart ⟨candidate, cookie, parsed, found, hidden⟩

/-- A call keeps cookies where they belong. -/
def Keeps (jar : CookieJar) : Call → Prop
  | .document origin request_path source =>
    jar.KeepsHidden (documentSetting origin request_path source)
  | .request request => jar.Confined request

/-- A call meets no hidden cookie, no foreign path, no break in a pair and no room that cuts a pair. -/
def Plain (jar : CookieJar) : Call → Prop
  | .document origin request_path source =>
    ¬ jar.MeetsHidden (documentSetting origin request_path source)
  | .request request => jar.Harmless request

/-- After any history, the calls that keep cookies where they belong are exactly the plain ones. -/
theorem keeps_iff_plain (settings : List Setting) (call : Call) :
    (filled settings).Keeps call ↔ (filled settings).Plain call := by
  cases call with
  | document origin request_path source =>
    exact keepsHidden_iff (filled_keysApart settings) _
  | request request => exact confined_iff_harmless _ request

section Samples

/-- The setting of a hidden cookie over a secure connection. -/
private def hiddenSetting : Setting where
  origin := { scheme := .https, host := ⟨ascii "a", Nat.le_of_ble_eq_true rfl⟩, port := 443 }
  request_path := ascii "/"
  source := ascii "n=1; HttpOnly"
  allow_http_only := true

/-- A document deletes a hidden cookie. -/
theorem not_always_kept : ¬ ∀ settings call, (filled settings).Keeps call := by
  intro keeps
  have kept := keeps [hiddenSetting] (.document hiddenSetting.origin (ascii "/") (ascii "n=; Max-Age=0"))
  have before : ((filled [hiddenSetting]).lookup (ascii "n", ascii "a", ascii "/")).map
      Cookie.http_only = some true := by decide
  have gone : ((filled [hiddenSetting]).after (documentSetting hiddenSetting.origin (ascii "/")
      (ascii "n=; Max-Age=0"))).lookup (ascii "n", ascii "a", ascii "/") = none := by decide
  obtain ⟨cookie, found, hidden⟩ := Option.map_eq_some_iff.mp before
  have stored := kept _ cookie found hidden
  rw [gone] at stored
  cases stored

end Samples

end CookieJar

end R4OS.Web
