import R4OS.Text.Cuts
import R4OS.Text.Keyed

/-!
# Addresses

An address is normalised when it is parsed: its scheme and host are written in lower case, a default
port is dropped and dot segments are removed from its path.  A reference is resolved against the
address of a document.
-/

namespace R4OS.Web

open Text

def toLower (ch : UInt8) : UInt8 :=
  if chr 'A' ≤ ch ∧ ch ≤ chr 'Z' then ch + (chr 'a' - chr 'A') else ch

def equalIgnoreCase (left right : Bytes) : Bool := left.map toLower == right.map toLower

def startsWithIgnoreCase (value marker : Bytes) : Bool :=
  startsWith (value.map toLower) (marker.map toLower)

def isAsciiAlphaNumeric (ch : UInt8) : Bool :=
  (chr 'a' ≤ ch ∧ ch ≤ chr 'z') ∨ (chr 'A' ≤ ch ∧ ch ≤ chr 'Z') ∨ (chr '0' ≤ ch ∧ ch ≤ chr '9')

def endsAuthority (byte : UInt8) : Bool := byte ∈ ascii "/?#"

def endsPath (byte : UInt8) : Bool := byte ∈ ascii "?#"

namespace WebUrl

inductive Error
  | too_long
  | pair_limit
  | invalid_url
  deriving DecidableEq

structure Parts where
  protocol : Bytes
  username : Bytes
  password : Bytes
  host : Bytes
  hostname : Bytes
  port : Bytes
  pathname : Bytes
  search : Bytes
  hash : Bytes

/-- The name and the port of a host. -/
def splitHost (host : Bytes) : Bytes × Bytes :=
  if host = [] ∨ host.head? = some (chr '[') then
    match cutLast (chr ']') host with
    | none => (host, [])
    | some (inner, after) =>
      if after.head? = some (chr ':') then (inner ++ [chr ']'], after.tail) else (host, [])
  else (cutLast (chr ':') host).getD (host, [])

def parts (href : Bytes) : Except Error Parts :=
  match cut (chr ':') href with
  | none => .error .invalid_url
  | some (scheme, rest) =>
    let authority_and_suffix :=
      if startsWith rest (ascii "//") then breakAt endsAuthority (rest.drop 2) else ([], rest)
    let authority := authority_and_suffix.1
    let at_sign := cutLast (chr '@') authority
    let user_info := at_sign.elim [] Prod.fst
    let host := at_sign.elim authority Prod.snd
    let user := (cut (chr ':') user_info).getD (user_info, [])
    let before_hash := breakAt (· == chr '#') authority_and_suffix.2
    let before_query := breakAt (· == chr '?') before_hash.1
    .ok {
      protocol := scheme ++ [chr ':']
      username := user.1
      password := user.2
      host
      hostname := (splitHost host).1
      port := (splitHost host).2
      pathname := before_query.1
      search := before_query.2
      hash := before_hash.2 }

def appendSlice (room : Nat) (out value : Bytes) : Except Error Bytes :=
  if room < out.length + value.length then .error .too_long else .ok (out ++ value)

/-- The text up to the last segment. -/
def dropSegment (out : Bytes) : Bytes := (out.rdropWhile (· ≠ chr '/')).dropLast

/-- The first segment of a path, with the slash before it. -/
def segment : Bytes → Bytes
  | [] => []
  | first :: rest =>
    if first = chr '/' then first :: (breakAt (· == chr '/') rest).1
    else (breakAt (· == chr '/') (first :: rest)).1

/-- Append the segments of the rest of a path, with fuel for its length. -/
def appendSegments (room : Nat) : Nat → Bytes → Bytes → Except Error Bytes
  | 0, _, out => .ok out
  | fuel + 1, rest, out =>
    if rest = [] then .ok out
    else if startsWith rest (ascii "../") then appendSegments room fuel (rest.drop 3) out
    else if startsWith rest (ascii "./") then appendSegments room fuel (rest.drop 2) out
    else if startsWith rest (ascii "/./") then appendSegments room fuel (rest.drop 2) out
    else if rest = ascii "/." then appendSlice room out (ascii "/")
    else if startsWith rest (ascii "/../") ∨ rest = ascii "/.." then
      if rest.length = 3 then appendSlice room (dropSegment out) (ascii "/")
      else appendSegments room fuel (rest.drop 3) (dropSegment out)
    else if rest = ascii "." ∨ rest = ascii ".." then .ok out
    else do
      let out ← appendSlice room out (segment rest)
      appendSegments room fuel (rest.drop (segment rest).length) out

/-- The path without its dot segments, in a buffer with some room. -/
def appendNormalizedPath (room : Nat) (path : Bytes) : Except Error Bytes :=
  if path = [] then appendSlice room [] (ascii "/") else appendSegments room path.length path []

/-- The text of a reference behind the part of its base that it keeps. -/
def joinReference (origin base_suffix reference : Bytes) : Except Error Bytes :=
  let first_delimiter := breakAt (fun byte => byte ∈ ascii ":/?#") reference
  let base_hash := (breakAt (· == chr '#') base_suffix).1
  let base_query := (breakAt (· == chr '?') base_hash).1
  if first_delimiter.1 ≠ [] ∧ first_delimiter.2.head? = some (chr ':') then .ok reference
  else if startsWith reference (ascii "//") then
    match cut (chr ':') origin with
    | none => .error .invalid_url
    | some (scheme, _) => .ok (scheme ++ chr ':' :: reference)
  else if reference = [] ∨ reference.head? = some (chr '#') then .ok (origin ++ base_hash ++ reference)
  else if reference.head? = some (chr '?') then .ok (origin ++ base_query ++ reference)
  else if reference.head? = some (chr '/') then .ok (origin ++ reference)
  else
    let directory := base_query.rdropWhile (· ≠ chr '/')
    .ok (origin ++ (if directory = [] then ascii "/" else directory) ++ reference)

/-- Normalise the path of an address in its buffer. -/
def normalizeInPlace (out : Bytes) (capacity : Nat) : Except Error Bytes := do
  let parsed ← parts out
  let after := parsed.search ++ parsed.hash
  let front := out.take (out.length - (parsed.pathname ++ after).length)
  if parsed.host = [] then .error .invalid_url
  else if parsed.pathname = [] then
    if out.length = capacity then .error .too_long else .ok (front ++ ascii "/" ++ after)
  else do
    let path ← appendNormalizedPath (capacity - front.length) parsed.pathname
    return front ++ path ++ after

def resolveReference (origin base_suffix reference : Bytes) (capacity : Nat) : Except Error Bytes := do
  let out ← joinReference origin base_suffix reference
  if capacity < out.length then .error .too_long else normalizeInPlace out capacity

end WebUrl

namespace Navigation

def url_capacity : Nat := 767

inductive UrlError
  | empty
  | too_long
  | invalid_character
  | unsupported_scheme
  | missing_host
  | unsupported_relative_base
  deriving DecidableEq

inductive Scheme
  | about
  | http
  | https
  deriving DecidableEq

structure Url where
  text : Bounded url_capacity
  scheme : Scheme

def Url.bytes (url : Url) : Bytes := url.text.bytes

/-- An address of some text, when it fits. -/
def Url.of (scheme : Scheme) (text : Bytes) : Except UrlError Url :=
  if fits : text.length ≤ url_capacity then .ok ⟨⟨text, fits⟩, scheme⟩ else .error .too_long

/-- The text before an authority. -/
def Scheme.text : Scheme → Bytes
  | .about => ascii "about:"
  | .http => ascii "http://"
  | .https => ascii "https://"

def Scheme.default_port : Scheme → Bytes
  | .about => []
  | .http => ascii "80"
  | .https => ascii "443"

def validateCharacters (value : Bytes) : Except UrlError Unit :=
  if value.any fun ch => ch < 0x20 || ch == 0x7F || ch == chr ' ' || ch == chr '\\' then
    .error .invalid_character
  else .ok ()

def hasExplicitScheme (value : Bytes) : Bool :=
  let scheme := breakAt (fun ch => !(isAsciiAlphaNumeric ch || ch ∈ ascii "+-.")) value
  scheme.1 ≠ [] ∧ scheme.2.head? = some (chr ':')

/-- The bytes behind the scheme of an internal address. -/
def aboutTail : Bool → Bytes → Except UrlError Bytes
  | _, [] => .ok []
  | in_query, ch :: rest =>
    if ch = chr '?' then
      if in_query then .error .invalid_character
      else do
        let tail ← aboutTail true rest
        return ch :: tail
    else if isAsciiAlphaNumeric ch ∨ ch ∈ ascii "-_." ∨ (in_query ∧ ch ∈ ascii "=&+%~") then do
      let tail ← aboutTail in_query rest
      return (if in_query then ch else toLower ch) :: tail
    else .error .invalid_character

def parseAbout (input : Bytes) : Except UrlError Url :=
  if url_capacity < input.length then .error .too_long
  else if input.length = (ascii "about:").length then .error .empty
  else do
    let tail ← aboutTail false (input.drop (ascii "about:").length)
    Url.of .about (ascii "about:" ++ tail)

/-- The number that digits write. -/
def digitsValue (digits : Bytes) : Nat :=
  digits.foldl (fun numeric byte => numeric * 10 + digitValue byte) 0

def validPort (port : Bytes) : Bool := port.all isDigit ∧ digitsValue port ≤ 65535

def cutHostPort (host_port : Bytes) : Except UrlError (Bytes × Bytes) :=
  if host_port.head? = some (chr '[') then
    match cut (chr ']') host_port with
    | none => .error .missing_host
    | some (inner, after) =>
      if after = [] then .ok (inner ++ [chr ']'], [])
      else if after.head? = some (chr ':') then .ok (inner ++ [chr ']'], after.tail)
      else .error .invalid_character
  else .ok ((cutLast (chr ':') host_port).getD (host_port, []))

/-- The name and the port of the host of an address. -/
def splitHostPort (host_port : Bytes) : Except UrlError (Bytes × Bytes) :=
  if host_port = [] ∨ host_port.head? = some (chr ':') then .error .missing_host
  else do
    let host ← cutHostPort host_port
    if host.1 = [] then .error .missing_host
    else if host.2 ≠ [] then
      if validPort host.2 then .ok host else .error .invalid_character
    else if host_port.getLast? = some (chr ':') then .error .invalid_character
    else .ok host

/-- The port as it is written: a default port is dropped. -/
def shownPort (scheme : Scheme) (port : Bytes) : Bytes :=
  if port ≠ [] ∧ port ≠ scheme.default_port then chr ':' :: port else []

def normalizeHttp (input : Bytes) (scheme : Scheme) : Except UrlError Url :=
  let cut_authority := breakAt endsAuthority (input.drop scheme.text.length)
  let authority := cut_authority.1
  let at_sign := cutLast (chr '@') authority
  let user_info := at_sign.elim [] fun parts => parts.1 ++ [chr '@']
  let cut_path := breakAt endsPath cut_authority.2
  if url_capacity < input.length then .error .too_long
  else if authority = [] then .error .missing_host
  else do
    let host ← splitHostPort (at_sign.elim authority Prod.snd)
    let front := scheme.text ++ user_info ++ host.1.map toLower ++ shownPort scheme host.2
    if url_capacity < front.length then .error .too_long
    else match WebUrl.appendNormalizedPath (url_capacity - front.length) cut_path.1 with
      | .error _ => .error .too_long
      | .ok path => Url.of scheme (front ++ path ++ cut_path.2)

/-- The text with the scheme that it is parsed by. -/
def expand (input : Bytes) : Except UrlError Bytes :=
  if hasExplicitScheme input then .ok input
  else if url_capacity < (ascii "https://").length + input.length then .error .too_long
  else .ok (ascii "https://" ++ input)

def parse (raw : Bytes) : Except UrlError Url := do
  let input := trim raw
  if input = [] then .error .empty
  else
    validateCharacters input
    if startsWithIgnoreCase input (ascii "about:") then parseAbout input
    else
      let absolute ← expand input
      if startsWithIgnoreCase absolute (ascii "https://") then normalizeHttp absolute .https
      else if startsWithIgnoreCase absolute (ascii "http://") then normalizeHttp absolute .http
      else .error .unsupported_scheme

def resolve (base : Url) (raw_reference : Bytes) : Except UrlError Url := do
  let reference := trim raw_reference
  if reference = [] then .ok base
  else
    validateCharacters reference
    if hasExplicitScheme reference ∨ startsWithIgnoreCase reference (ascii "about:") then
      parse reference
    else if base.scheme = .about then .error .unsupported_relative_base
    else match cut (chr ':') base.bytes with
      | none => .error .unsupported_relative_base
      | some (scheme, _) =>
        let authority_start := scheme.length + 3
        let authority := breakAt endsAuthority (base.bytes.drop authority_start)
        let origin := base.bytes.take authority_start ++ authority.1
        if authority.1 = [] then .error .missing_host
        else match WebUrl.resolveReference origin authority.2 reference url_capacity with
          | .error .too_long => .error .too_long
          | .error _ => .error .unsupported_relative_base
          | .ok resolved => parse resolved

end Navigation

end R4OS.Web
