import R4OS.Web.Origin

/-!
# Cookies

A jar keeps cookies in a fixed number of slots.  A response or a document sets one cookie by a text of
a pair and attributes; requests and documents get the pairs of the cookies that match them, in a buffer
of some size.
-/

namespace R4OS.Web

open Text

def max_cookies : Nat := 32

def max_cookie_name_bytes : Nat := 64

def max_cookie_value_bytes : Nat := 4096

def max_cookie_path_bytes : Nat := 256

def max_storage_key_bytes : Nat := 96

/-- A text for a field of fixed capacity. -/
def Fixed.set (capacity : Nat) (value : Bytes) : Except Error (Bounded capacity) :=
  if fits : value.length ≤ capacity then .ok ⟨value, fits⟩
  else .error (if capacity = max_storage_key_bytes then .key_too_large else .value_too_large)

def Fixed.setLower (capacity : Nat) (value : Bytes) : Except Error (Bounded capacity) :=
  Fixed.set capacity (value.map toLower)

inductive SameSite
  | lax
  | strict
  | none
  deriving DecidableEq

structure Cookie where
  occupied : Bool := false
  name : Bounded max_cookie_name_bytes := .empty _
  value : Bounded max_cookie_value_bytes := .empty _
  domain : Bounded max_origin_host_bytes := .empty _
  path : Bounded max_cookie_path_bytes := .empty _
  host_only : Bool := true
  secure : Bool := false
  http_only : Bool := false
  persistent : Bool := false
  same_site : SameSite := .lax
  sequence : UInt32 := 0
  deriving DecidableEq

structure CookieJar where
  entries : List Cookie := List.replicate max_cookies {}
  next_sequence : UInt32 := 1

def defaultCookiePath (path : Bytes) : Bytes :=
  if path.head? ≠ some (chr '/') then ascii "/"
  else
    let directory := (path.rdropWhile (· ≠ chr '/')).dropLast
    if directory = [] then ascii "/" else directory

def domainMatches (host domain : Bytes) : Bool :=
  if domain = [] ∨ host.length < domain.length then false
  else if equalIgnoreCase host domain then true
  else
    let start := host.length - domain.length
    0 < start ∧ host[start - 1]? = some (chr '.') ∧ equalIgnoreCase (host.drop start) domain

def validCookieName (name : Bytes) : Bool :=
  name ≠ [] ∧ name.length ≤ max_cookie_name_bytes ∧
    name.all fun byte => ¬ (byte ≤ 0x20 ∨ 0x7F ≤ byte ∨ byte ∈ ascii "()<>@,;:\\\"/[]?=\x7b\x7d")

def cookieMatches (entry : Cookie) (origin : Origin) (path : Bytes) (same_site document_access : Bool) :
    Bool :=
  if origin.scheme = .opaque_origin then false
  else if entry.host_only ∧ entry.domain.bytes ≠ origin.hostBytes then false
  else if ¬ entry.host_only ∧ ¬ domainMatches origin.hostBytes entry.domain.bytes then false
  else if ¬ startsWith path entry.path.bytes then false
  else if entry.secure ∧ origin.scheme ≠ .https then false
  else if document_access ∧ entry.http_only then false
  else if ¬ same_site ∧ entry.same_site ≠ .none then false
  else true

/-- A cookie that is about to be set, and whether it is deleted instead. -/
structure Candidate where
  cookie : Cookie
  delete : Bool := false

def applyAttribute (origin : Origin) (allow_http_only : Bool) (candidate : Candidate)
    (part : Bytes) : Except Error Candidate :=
  let attr := trim part
  let key := trim (attr.takeWhile (· ≠ chr '='))
  let attribute_value := (cut (chr '=') attr).elim [] fun pair => trim pair.2
  if attr = [] then .ok candidate
  else if equalIgnoreCase key (ascii "Domain") then
    let domain := attribute_value.dropWhile (· = chr '.')
    if ¬ domainMatches origin.hostBytes domain then .error .invalid_cookie
    else do
      let domain ← Fixed.setLower max_origin_host_bytes domain
      return { candidate with cookie := { candidate.cookie with domain, host_only := false } }
  else if equalIgnoreCase key (ascii "Path") then
    if attribute_value.head? = some (chr '/') then do
      let path ← Fixed.set max_cookie_path_bytes attribute_value
      return { candidate with cookie := { candidate.cookie with path } }
    else .ok candidate
  else if equalIgnoreCase key (ascii "Secure") then
    .ok { candidate with cookie := { candidate.cookie with secure := true } }
  else if equalIgnoreCase key (ascii "HttpOnly") then
    .ok { candidate with cookie := { candidate.cookie with
      http_only := candidate.cookie.http_only || allow_http_only } }
  else if equalIgnoreCase key (ascii "SameSite") then
    let same_site : SameSite :=
      if equalIgnoreCase attribute_value (ascii "Strict") then .strict
      else if equalIgnoreCase attribute_value (ascii "None") then .none else .lax
    .ok { candidate with cookie := { candidate.cookie with same_site } }
  else if equalIgnoreCase key (ascii "Max-Age") ∧ attribute_value = ascii "0" then
    .ok { candidate with delete := true }
  else if equalIgnoreCase key (ascii "Max-Age") then
    match parseInt (-2 ^ 63) (2 ^ 63 - 1) attribute_value with
    | none => .error .invalid_cookie
    | some seconds =>
      if seconds ≤ 0 then .ok { candidate with delete := true }
      else .ok { candidate with cookie := { candidate.cookie with persistent := true } }
  else if equalIgnoreCase key (ascii "Expires") ∧ attribute_value ≠ [] then
    .ok { candidate with cookie := { candidate.cookie with persistent := true } }
  else .ok candidate

/-- The cookie that a text is about. -/
def parseCookie (origin : Origin) (request_path source : Bytes) (allow_http_only : Bool) :
    Except Error Candidate := do
  if origin.scheme = .opaque_origin then .error .invalid_cookie
  else
    let parts := source.splitOn semicolon
    match cut (chr '=') (trim (parts.headD [])) with
    | none => .error .invalid_cookie
    | some (name, value) =>
      let name := trim name
      let value := trim value
      if ¬ validCookieName name ∨ max_cookie_value_bytes < value.length then
        .error .invalid_cookie
      else do
        let name ← Fixed.set max_cookie_name_bytes name
        let value ← Fixed.set max_cookie_value_bytes value
        let domain ← Fixed.set max_origin_host_bytes origin.hostBytes
        let path ← Fixed.set max_cookie_path_bytes (defaultCookiePath request_path)
        let candidate ← parts.tail.foldlM (applyAttribute origin allow_http_only)
          { cookie := { name, value, domain, path } }
        if candidate.cookie.same_site = .none ∧ ¬ candidate.cookie.secure then
          .error .invalid_cookie
        else if candidate.cookie.secure ∧ origin.scheme ≠ .https then .error .invalid_cookie
        else .ok candidate

namespace CookieJar

def find (jar : CookieJar) (name domain path : Bytes) : Option Nat :=
  jar.entries.findIdx? fun entry =>
    entry.occupied && entry.name.bytes == name && entry.domain.bytes == domain &&
      entry.path.bytes == path

/-- Put a cookie into the jar, or delete it. -/
def place (jar : CookieJar) (candidate : Candidate) : Except Error Unit × CookieJar :=
  let cookie := candidate.cookie
  match jar.find cookie.name.bytes cookie.domain.bytes cookie.path.bytes with
  | some index =>
    if candidate.delete then (.ok (), { jar with entries := jar.entries.set index {} })
    else
      let sequence := (jar.entries.getD index {}).sequence
      (.ok (), { jar with entries := jar.entries.set index { cookie with sequence } })
  | none =>
    if candidate.delete then (.ok (), jar)
    else match jar.entries.findIdx? fun entry => !entry.occupied with
      | some index =>
        (.ok (), {
          entries := jar.entries.set index
            { cookie with occupied := true, sequence := jar.next_sequence }
          next_sequence := jar.next_sequence + 1 })
      | none => (.error .cookie_limit, jar)

def set (jar : CookieJar) (origin : Origin) (request_path source : Bytes) (allow_http_only : Bool) :
    Except Error Unit × CookieJar :=
  match parseCookie origin request_path source allow_http_only with
  | .error error => (.error error, jar)
  | .ok candidate => jar.place candidate

def setFromHeader (jar : CookieJar) (origin : Origin) (request_path header : Bytes) :
    Except Error Unit × CookieJar :=
  jar.set origin request_path header true

def setFromDocument (jar : CookieJar) (origin : Origin) (request_path source : Bytes) :
    Except Error Unit × CookieJar :=
  jar.set origin request_path source false

/-- Write the pairs of some cookies, behind what is already written, until one finds no room. -/
def writePairs (capacity : Nat) : List Cookie → Bytes → Bytes
  | [], out => out
  | entry :: rest, out =>
    match if out = [] then some out else append capacity out (ascii "; ") with
    | none => out
    | some out =>
      match append capacity out entry.name.bytes with
      | none => out
      | some out =>
        match append capacity out (ascii "=") with
        | none => out
        | some out =>
          match append capacity out entry.value.bytes with
          | none => out
          | some out => writePairs capacity rest out

def matching (jar : CookieJar) (origin : Origin) (request_path : Bytes)
    (same_site document_access : Bool) : List Cookie :=
  jar.entries.filter fun entry =>
    entry.occupied && cookieMatches entry origin request_path same_site document_access

def writeRequestHeader (jar : CookieJar) (origin : Origin) (request_path : Bytes)
    (same_site : Bool) (capacity : Nat) : Bytes :=
  writePairs capacity (jar.matching origin request_path same_site false) []

def writeDocumentCookie (jar : CookieJar) (origin : Origin) (request_path : Bytes)
    (capacity : Nat) : Bytes :=
  writePairs capacity (jar.matching origin request_path true true) []

end CookieJar

end R4OS.Web
