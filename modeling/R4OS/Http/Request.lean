import R4OS.Http.Fields

/-!
# Requests

A request is written into a buffer of fixed size: the request line, the fields that the options ask for
and the body.  A streamed request ends after its head, which announces how the body is framed.
-/

namespace R4OS.Http

open Text

/-- The scheme of a URL. -/
inductive Scheme
  | http
  | https

def Scheme.defaultPort : Scheme → UInt16
  | .http => 80
  | .https => 443

/-- Why a URL is refused. -/
inductive UrlError
  | empty
  | unsupported_scheme
  | missing_host
  | userinfo_forbidden
  | ipv6_not_supported
  | bad_port
  | fragment_forbidden
  | output_too_small
  | invalid_target
  deriving DecidableEq

/-- The parts of a URL. -/
structure ParsedUrl where
  scheme : Scheme
  host : Bytes
  port : UInt16
  path : Bytes
  explicit_port : Bool
  query_only : Bool

/-- What a request adds to its URL. -/
structure RequestOptions where
  user_agent : Bytes := ascii "Klickifax/0.62"
  accept : Bytes := ascii "text/html,application/xhtml+xml,text/plain;q=0.8,*/*;q=0.5"
  cookie : Bytes := []
  origin : Bytes := []
  headers : Bytes := []
  connection_close : Bool := true
  content_type : Bytes := []
  body : Bytes := []

/-- Request methods. -/
inductive Method
  | get
  | post
  | head
  | put
  | delete
  | patch
  | options
  deriving DecidableEq

/-- The name of a method. -/
def Method.text : Method → Bytes
  | .get => ascii "GET"
  | .post => ascii "POST"
  | .head => ascii "HEAD"
  | .put => ascii "PUT"
  | .delete => ascii "DELETE"
  | .patch => ascii "PATCH"
  | .options => ascii "OPTIONS"

/-- What building a request answers. -/
inductive BuildResult
  | bytes (value : Bytes)
  | invalid_url (error : UrlError)
  | output_too_small
  deriving DecidableEq

/-- Bytes behind the first one of a target, with whole percent escapes. -/
def validTargetBytes : Bytes → Bool
  | [] => true
  | byte :: rest =>
    if byte ≤ 0x20 || byte == 0x7f || byte == chr '#' then false
    else if byte == chr '%' then
      match rest with
      | high :: low :: rest => isHex high && isHex low && validTargetBytes rest
      | _ => false
    else validTargetBytes rest

def validRequestTarget (path : Bytes) (query_only : Bool) : Bool :=
  path.head? == some (if query_only then chr '?' else chr '/') && validTargetBytes path

/-- Bytes that a target shows as they are. -/
def isTargetByte (byte : UInt8) : Bool :=
  isAlphanumeric byte || (ascii "-._~!$&'()*+,;=:@/?%").contains byte

/-- The upper-case digit of a hexadecimal numeral. -/
def upperHexByte (digit : UInt8) : UInt8 := (ascii "0123456789ABCDEF").getD digit.toNat 0

/-- Append bytes to what is written, where there is room. -/
def append (capacity : Nat) (value out : Bytes) : Option Bytes :=
  if capacity - out.length < value.length then none else some (out ++ value)

def appendByte (capacity : Nat) (value : UInt8) (out : Bytes) : Option Bytes :=
  if capacity ≤ out.length then none else some (out ++ [value])

/-- Append a decimal numeral of at most twenty digits. -/
def appendUnsigned (capacity value : Nat) (out : Bytes) : Option Bytes :=
  if 20 < (decimal value).length then none else append capacity (decimal value) out

/-- Append a value that does not end its line. -/
def appendHeaderValue (capacity : Nat) (value out : Bytes) : Option Bytes :=
  if hasForbiddenHeaderByte value then none else append capacity value out

def appendField (capacity : Nat) (label value out : Bytes) : Option Bytes :=
  append capacity label out >>= appendHeaderValue capacity value >>= append capacity crlf

def appendNumberField (capacity : Nat) (label : Bytes) (value : Nat) (out : Bytes) : Option Bytes :=
  append capacity label out >>= appendUnsigned capacity value >>= append capacity crlf

def appendWhen (asked : Bool) (write : Bytes → Option Bytes) (out : Bytes) : Option Bytes :=
  if asked then write out else some out

def appendTargetByte (capacity : Nat) (out : Bytes) (byte : UInt8) : Option Bytes :=
  if isTargetByte byte then appendByte capacity byte out
  else append capacity [chr '%', upperHexByte (byte >>> 4), upperHexByte (byte &&& 15)] out

/-- Append a path with escapes for the bytes that a target cannot show. -/
def appendRequestTarget (capacity : Nat) (path out : Bytes) : Option Bytes :=
  path.foldlM (appendTargetByte capacity) out

/-- Append the fields of a text with a name, a colon and a value on each line. -/
def appendSerializedHeaders (capacity : Nat) (serialized out : Bytes) : Option Bytes :=
  match serialized with
  | [] => some out
  | first :: rest =>
    match (first :: rest).idxOf? newline with
    | none => none
    | some relative_end =>
      let line := (first :: rest).take relative_end
      match line.idxOf? colonByte with
      | none => none
      | some colon =>
        if colon = 0 ∨ isHeaderName (line.take colon) = false then none
        else do
          let out ← append capacity (line.take colon) out
          let out ← append capacity (ascii ": ") out
          let out ← appendHeaderValue capacity (line.drop (colon + 1)) out
          let out ← append capacity crlf out
          appendSerializedHeaders capacity ((first :: rest).drop (relative_end + 1)) out
termination_by serialized.length
decreasing_by
  rw [List.length_drop, List.length_cons]
  omega

/-- Whether a text of fields has a field of a name. -/
def containsSerializedHeader (serialized wanted : Bytes) : Bool :=
  match serialized with
  | [] => false
  | first :: rest =>
    match (first :: rest).idxOf? newline with
    | none => false
    | some relative_end =>
      let line := (first :: rest).take relative_end
      match line.idxOf? colonByte with
      | none => false
      | some colon =>
        if equalsIgnoreCase (line.take colon) wanted then true
        else containsSerializedHeader ((first :: rest).drop (relative_end + 1)) wanted
termination_by serialized.length
decreasing_by
  rw [List.length_drop, List.length_cons]
  omega

def bodyType (options : RequestOptions) : Bytes :=
  if options.content_type ≠ [] then options.content_type
  else ascii "application/x-www-form-urlencoded"

/-- Write the fields that a body needs. -/
def appendBodyFields (capacity : Nat) (options : RequestOptions) (out : Bytes) : Option Bytes := do
  let out ← appendWhen (!containsSerializedHeader options.headers (ascii "content-type"))
    (appendField capacity (ascii "Content-Type: ") (bodyType options)) out
  appendNumberField capacity (ascii "Content-Length: ") options.body.length out

/-- Write the request line and the name of the host. -/
def appendRequestLine (capacity : Nat) (method : Method) (url : ParsedUrl) (out : Bytes) :
    Option Bytes := do
  let out ← append capacity method.text out
  let out ← appendByte capacity (chr ' ') out
  let out ← appendWhen url.query_only (appendByte capacity (chr '/')) out
  let out ← appendRequestTarget capacity url.path out
  let out ← append capacity (ascii " HTTP/1.1" ++ crlf ++ ascii "Host: ") out
  append capacity url.host out

/-- Write the port of a host where it is not the one of the scheme. -/
def appendPort (capacity : Nat) (url : ParsedUrl) (out : Bytes) : Option Bytes :=
  appendWhen (url.explicit_port || url.port ≠ url.scheme.defaultPort) (fun out => do
    let out ← appendByte capacity colonByte out
    appendUnsigned capacity url.port.toNat out) out

/-- Write a request for a URL that was checked. -/
def appendRequest (capacity : Nat) (method : Method) (url : ParsedUrl) (options : RequestOptions) :
    Option Bytes := do
  let out ← appendRequestLine capacity method url []
  let out ← appendPort capacity url out
  let out ← append capacity (crlf ++ ascii "User-Agent: ") out
  let out ← appendHeaderValue capacity options.user_agent out
  let out ← append capacity crlf out
  let out ← appendWhen (!containsSerializedHeader options.headers (ascii "accept"))
    (appendField capacity (ascii "Accept: ") options.accept) out
  let out ← append capacity (ascii "Accept-Encoding: identity" ++ crlf) out
  let out ← appendWhen (options.cookie ≠ [])
    (appendField capacity (ascii "Cookie: ") options.cookie) out
  let out ← appendWhen (options.origin ≠ [])
    (appendField capacity (ascii "Origin: ") options.origin) out
  let out ← appendWhen (options.headers ≠ []) (appendSerializedHeaders capacity options.headers) out
  let out ← appendWhen (options.body ≠ []) (appendBodyFields capacity options) out
  let out ← appendWhen options.connection_close
    (append capacity (ascii "Connection: close" ++ crlf)) out
  let out ← append capacity crlf out
  appendWhen (options.body ≠ []) (append capacity options.body) out

def buildRequest (capacity : Nat) (method : Method) (url : ParsedUrl) (options : RequestOptions) :
    BuildResult :=
  if !validRequestTarget url.path url.query_only then .invalid_url .invalid_target
  else if url.host = [] then .invalid_url .missing_host
  else if !url.host.all isHostByte then .invalid_url .missing_host
  else if url.port = 0 then .invalid_url .bad_port
  else
    match appendRequest capacity method url options with
    | some bytes => .bytes bytes
    | none => .output_too_small

/-- How the body of a streamed request is framed. -/
inductive RequestFraming
  | content_length (length : UInt64)
  | chunked

/-- What building the head of a streamed request answers. -/
inductive StreamHeadResult
  | bytes (value : Bytes)
  | invalid_headers
  | output_too_small
  deriving DecidableEq

/-- Write how the body is framed. -/
def appendFraming (capacity : Nat) (framing : RequestFraming) (out : Bytes) : Option Bytes :=
  match framing with
  | .content_length length =>
    appendNumberField capacity (ascii "Content-Length: ") length.toNat out
  | .chunked => append capacity (ascii "Transfer-Encoding: chunked" ++ crlf) out

/-- Replace the end of a head by the framing of the body. -/
def appendStreamFields (capacity : Nat) (options : RequestOptions) (framing : RequestFraming)
    (out : Bytes) : Option Bytes := do
  let out ← appendWhen (options.content_type ≠ [] &&
      !containsSerializedHeader options.headers (ascii "content-type"))
    (appendField capacity (ascii "Content-Type: ") options.content_type) out
  let out ← appendFraming capacity framing out
  append capacity crlf out

def buildStreamRequestHead (capacity : Nat) (method : Method) (url : ParsedUrl)
    (options : RequestOptions) (framing : RequestFraming) : StreamHeadResult :=
  if containsSerializedHeader options.headers (ascii "content-length") ||
      containsSerializedHeader options.headers (ascii "transfer-encoding") ||
      containsSerializedHeader options.headers (ascii "expect") ||
      containsSerializedHeader options.headers (ascii "connection") then .invalid_headers
  else
    match buildRequest capacity method url { options with body := [], connection_close := true } with
    | .invalid_url _ => .invalid_headers
    | .output_too_small => .output_too_small
    | .bytes head =>
      match appendStreamFields capacity options framing (head.take (head.length - 2)) with
      | some bytes => .bytes bytes
      | none => .output_too_small

end R4OS.Http
