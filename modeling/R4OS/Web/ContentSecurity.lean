import R4OS.Text.Search
import R4OS.Web.Origin

/-!
# Content security policies

A policy is a list of directives, each of which names the sources of one kind of resource.  A context
decides with the policy and the origin of its document which requests are sent, which scripts run and
which responses are accepted.
-/

namespace R4OS.Web

open Text

def max_policy_bytes : Nat := 1024

inductive ResourceKind
  | document
  | script
  | style
  | image
  | font
  | subdocument
  | connect
  | form
  deriving DecidableEq

inductive RequestMode
  | same_origin
  | cors
  | no_cors
  | navigate
  deriving DecidableEq

inductive CredentialsMode
  | omit
  | same_origin
  | include
  deriving DecidableEq

inductive BlockReason
  | none
  | stale_generation
  | invalid_url
  | mixed_content
  | same_origin
  | content_security_policy
  | cors
  | insecure_context

structure Decision where
  allowed : Bool
  reason : BlockReason := .none
  target : Origin := {}

def isWhitespace (byte : UInt8) : Bool := byte == chr ' ' || (9 ≤ byte && byte ≤ 13)

/-- The tokens between white space. -/
def tokens (source : Bytes) : List Bytes := (source.splitOnP isWhitespace).filter (· ≠ [])

def containsToken (source wanted : Bytes) : Bool := (tokens source).any (equalIgnoreCase · wanted)

/-- The address that a host source is parsed from. -/
def sourceUrl (token : Bytes) (origin : Origin) : Bytes :=
  (if indexOf token (ascii "://") = none then
    ascii (if origin.scheme = .https then "https://" else "http://") else []) ++ token

def sourceMatchesHost (token : Bytes) (origin : Origin) : Bool :=
  if token = [] ∨ token.head? = some (chr '\'') then false
  else if Navigation.url_capacity + 1 < (sourceUrl token origin).length then false
  else match Origin.parse (sourceUrl token origin) 1 with
    | .error _ => false
    | .ok parsed => parsed.same origin

/-- The directives that a policy keeps. -/
inductive Directive
  | default_src
  | script_src
  | connect_src
  | style_src
  | image_src
  | font_src
  | frame_src
  | form_action
  deriving DecidableEq

def Directive.all : List Directive :=
  [.default_src, .script_src, .connect_src, .style_src, .image_src, .font_src, .frame_src, .form_action]

def Directive.name : Directive → Bytes
  | .default_src => ascii "default-src"
  | .script_src => ascii "script-src"
  | .connect_src => ascii "connect-src"
  | .style_src => ascii "style-src"
  | .image_src => ascii "img-src"
  | .font_src => ascii "font-src"
  | .frame_src => ascii "frame-src"
  | .form_action => ascii "form-action"

/-- The source lists of the directives that occur in a policy. -/
structure ContentSecurityPolicy where
  slice : Directive → Option Bytes := fun _ => none

namespace ContentSecurityPolicy

/-- Keep the directive that a part of the text names, unless it occurred before. -/
def addDirective (policy : ContentSecurityPolicy) (part : Bytes) : ContentSecurityPolicy :=
  let directive := trim part
  let split := breakAt isWhitespace directive
  if directive = [] then policy
  else match Directive.all.find? fun kept =>
      equalIgnoreCase split.1 kept.name && (policy.slice kept).isNone with
    | none => policy
    | some kept => { policy with
        slice := fun other => if other = kept then some (trim split.2) else policy.slice other }

def parse (raw : Bytes) : Except Error ContentSecurityPolicy :=
  if max_policy_bytes < raw.length then .error .policy_too_large
  else .ok ((raw.splitOn semicolon).foldl addDirective {})

def sources (policy : ContentSecurityPolicy) : ResourceKind → Option Bytes
  | .script => (policy.slice .script_src).or (policy.slice .default_src)
  | .connect => (policy.slice .connect_src).or (policy.slice .default_src)
  | .style => (policy.slice .style_src).or (policy.slice .default_src)
  | .image => (policy.slice .image_src).or (policy.slice .default_src)
  | .font => (policy.slice .font_src).or (policy.slice .default_src)
  | .subdocument => (policy.slice .frame_src).or (policy.slice .default_src)
  | .form => (policy.slice .form_action).or (policy.slice .default_src)
  | .document => policy.slice .default_src

/-- The token of a nonce, in a buffer of a fixed size. -/
def nonceToken (nonce : Bytes) : Option Bytes := do
  let out ← append 160 [] (ascii "'nonce-")
  let out ← append 160 out nonce
  append 160 out (ascii "'")

def allows (policy : ContentSecurityPolicy) (document_origin target_origin : Origin)
    (kind : ResourceKind) (inline_script : Bool) (nonce : Bytes) : Bool :=
  match policy.sources kind with
  | none => true
  | some source_list =>
    if source_list = [] ∨ containsToken source_list (ascii "'none'") then false
    else if inline_script then
      if containsToken source_list (ascii "'unsafe-inline'") then true
      else if nonce ≠ [] then (nonceToken nonce).any (containsToken source_list) else false
    else if containsToken source_list (ascii "*") then true
    else if containsToken source_list (ascii "'self'") ∧ document_origin.same target_origin then true
    else if target_origin.scheme = .https ∧ containsToken source_list (ascii "https:") then true
    else if target_origin.scheme = .http ∧ containsToken source_list (ascii "http:") then true
    else (tokens source_list).any fun token => sourceMatchesHost token target_origin

end ContentSecurityPolicy

structure SecurityContext where
  generation : UInt32 := 0
  document_origin : Origin := {}
  secure_context : Bool := false
  policy : ContentSecurityPolicy := {}

namespace SecurityContext

def init (url : Bytes) (generation : UInt32) (csp : Bytes) : Except Error SecurityContext := do
  let origin ← Origin.parse url generation
  let policy ← ContentSecurityPolicy.parse csp
  return {
    generation
    document_origin := origin
    secure_context := origin.potentiallyTrustworthy
    policy }

def authorize (context : SecurityContext) (generation : UInt32) (target_url : Bytes)
    (kind : ResourceKind) (mode : RequestMode) : Decision :=
  if generation ≠ context.generation then { allowed := false, reason := .stale_generation }
  else match Origin.parse target_url generation with
    | .error _ => { allowed := false, reason := .invalid_url }
    | .ok target =>
      if context.document_origin.scheme = .https ∧ target.scheme = .http ∧ kind ≠ .document then
        { allowed := false, reason := .mixed_content, target }
      else if mode = .same_origin ∧ ¬ context.document_origin.same target then
        { allowed := false, reason := .same_origin, target }
      else if ¬ context.policy.allows context.document_origin target kind false [] then
        { allowed := false, reason := .content_security_policy, target }
      else { allowed := true, target }

def allowsInlineScript (context : SecurityContext) (nonce : Bytes) : Bool :=
  context.policy.allows context.document_origin context.document_origin .script true nonce

def acceptsCors (context : SecurityContext) (target : Origin) (mode : RequestMode)
    (credentials : CredentialsMode) (allow_origin : Bytes) (allow_credentials : Bool) : Bool :=
  if mode = .navigate ∨ mode = .no_cors ∨ context.document_origin.same target then true
  else if mode = .same_origin then false
  else match context.document_origin.serialize (max_origin_host_bytes + 24) with
    | none => false
    | some own =>
      if allow_origin = ascii "*" then credentials ≠ .include
      else if allow_origin ≠ own then false
      else credentials ≠ .include ∨ allow_credentials

end SecurityContext

end R4OS.Web
