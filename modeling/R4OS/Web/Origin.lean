import R4OS.Web.Navigation

/-!
# Origins

The origin of a document: a scheme, a host and a port, or an opaque identity.  Texts of the web are
compared up to ASCII case, and are written to buffers that they may fill.
-/

namespace R4OS.Web

open Text

inductive Error
  | invalid_url
  | unsupported_origin
  | origin_limit
  | policy_too_large
  | invalid_policy
  | cookie_limit
  | invalid_cookie
  | storage_limit
  | key_too_large
  | value_too_large
  | persistence_limit
  | malformed_persistence
  deriving DecidableEq

def max_origin_host_bytes : Nat := 253

/-- Append a text to a buffer when it has room. -/
def append (capacity : Nat) (text value : Bytes) : Option Bytes :=
  if value.length ≤ capacity - text.length then some (text ++ value) else none

/-- Read an integer of some range in base ten. -/
def parseInt (lowest highest : Int) (text : Bytes) : Option Int :=
  let (negative, digits) := match text with
    | [] => (false, [])
    | first :: rest =>
      if first = chr '+' then (false, rest)
      else if first = chr '-' then (true, rest) else (false, text)
  if digits = [] ∨ digits.head? = some (chr '_') ∨ digits.getLast? = some (chr '_') then none
  else
    let plain := digits.filter (· ≠ chr '_')
    if plain.all isDigit then
      let magnitude : Int := Navigation.digitsValue plain
      let value := if negative then -magnitude else magnitude
      if lowest ≤ value ∧ value ≤ highest then some value else none
    else none

inductive OriginScheme
  | opaque_origin
  | http
  | https
  deriving DecidableEq

/-- The origin of a document. -/
structure Origin where
  scheme : OriginScheme := .opaque_origin
  host : Bounded max_origin_host_bytes := .empty _
  port : UInt16 := 0
  opaque_id : UInt32 := 0

namespace Origin

def default_port : OriginScheme → UInt16
  | .https => 443
  | _ => 80

def ofHost (normalized_scheme : Navigation.Scheme) (hostname port : Bytes) : Except Error Origin :=
  if fits : (hostname.map toLower).length ≤ max_origin_host_bytes then
    let scheme : OriginScheme := if normalized_scheme = .https then .https else .http
    match if port ≠ [] then parseInt 0 65535 port else some (default_port scheme).toNat with
    | none => .error .invalid_url
    | some port => .ok {
        scheme
        host := ⟨hostname.map toLower, fits⟩
        port := UInt16.ofNat port.toNat }
  else .error .invalid_url

/-- The origin of an address that was parsed. -/
def ofUrl (normalized : Navigation.Url) (opaque_id : UInt32) : Except Error Origin :=
  if normalized.scheme = .about then .ok { opaque_id }
  else match WebUrl.parts normalized.bytes with
    | .error _ => .error .invalid_url
    | .ok parsed => ofHost normalized.scheme parsed.hostname parsed.port

def parse (raw_url : Bytes) (opaque_id : UInt32) : Except Error Origin :=
  match Navigation.parse raw_url with
  | .error _ => .error .invalid_url
  | .ok normalized => ofUrl normalized opaque_id

def hostBytes (origin : Origin) : Bytes := origin.host.bytes

def same (origin other : Origin) : Bool :=
  if origin.scheme ≠ other.scheme then false
  else if origin.scheme = .opaque_origin then
    origin.opaque_id ≠ 0 ∧ origin.opaque_id = other.opaque_id
  else origin.port = other.port ∧ origin.hostBytes = other.hostBytes

def potentiallyTrustworthy (origin : Origin) : Bool :=
  origin.scheme = .https ∨ origin.scheme = .opaque_origin

def serialize (origin : Origin) (capacity : Nat) : Option Bytes :=
  if origin.scheme = .opaque_origin then
    if capacity < 4 then none else some (ascii "null")
  else do
    let out ← append capacity [] (ascii (if origin.scheme = .https then "https://" else "http://"))
    let out ← append capacity out origin.hostBytes
    if origin.port ≠ default_port origin.scheme then
      let out ← append capacity out (ascii ":")
      append capacity out (decimal origin.port.toNat)
    else some out

end Origin

end R4OS.Web
