import R4OS.Incremental.Checks
import R4OS.Web.ContentSecurity

/-!
# Soundness of policy decisions

What a context allows is covered by its generation, by the origins and by the effective directive of
its policy.  A nonce is compared without regard to case, so an inline script may run with a nonce
that the policy does not name.
-/

namespace R4OS.Web

open Incremental Text

/-- The directives of a policy text: names with source lists. -/
def directives (raw : Bytes) : List (Bytes × Bytes) :=
  (((raw.splitOn semicolon).map trim).filter (· ≠ [])).map fun directive =>
    ((breakAt isWhitespace directive).1, trim (breakAt isWhitespace directive).2)

/-- The first occurrence of a directive in a policy text. -/
def firstDirective (raw : Bytes) (wanted : Directive) : Option Bytes :=
  ((directives raw).find? fun directive => equalIgnoreCase directive.1 wanted.name).map Prod.snd

def ownDirective : ResourceKind → Option Directive
  | .script => some .script_src
  | .connect => some .connect_src
  | .style => some .style_src
  | .image => some .image_src
  | .font => some .font_src
  | .subdocument => some .frame_src
  | .form => some .form_action
  | .document => none

/-- The directive that a policy text applies to a kind: its own one, or the default one. -/
def effective (raw : Bytes) (kind : ResourceKind) : Option Bytes :=
  ((ownDirective kind).bind (firstDirective raw)).or (firstDirective raw .default_src)

section Directives

variable {raw part : Bytes} {policy : ContentSecurityPolicy} {wanted : Directive}

theorem Directive.mem_all (directive : Directive) : directive ∈ Directive.all := by
  cases directive <;> decide

theorem Directive.name_injective : ∀ first ∈ Directive.all, ∀ second ∈ Directive.all,
    first.name.map toLower = second.name.map toLower → first = second := by decide

/-- What one part of a policy text adds to a directive. -/
def partDirective (part : Bytes) (wanted : Directive) : Option Bytes :=
  if trim part ≠ [] ∧ equalIgnoreCase (breakAt isWhitespace (trim part)).1 wanted.name then
    some (trim (breakAt isWhitespace (trim part)).2)
  else none

theorem addDirective_slice : (policy.addDirective part).slice wanted =
    (policy.slice wanted).or (partDirective part wanted) := by
  unfold ContentSecurityPolicy.addDirective partDirective
  dsimp only
  by_cases blank : trim part = []
  · simp [blank]
  · rw [if_neg blank]
    split
    · next missing =>
      have every := List.find?_eq_none.mp missing wanted wanted.mem_all
      by_cases named : equalIgnoreCase (breakAt isWhitespace (trim part)).1 wanted.name = true
      · cases kept : policy.slice wanted with
        | none => simp [named, kept] at every
        | some list => rfl
      · simp [named]
    · next kept found =>
      have holds := List.find?_some found
      rw [Bool.and_eq_true] at holds
      dsimp only
      by_cases same : wanted = kept
      · subst same
        rw [if_pos rfl, if_pos ⟨blank, holds.1⟩, Option.isNone_iff_eq_none.mp holds.2]
        rfl
      · rw [if_neg same, if_neg]
        · simp
        · rintro ⟨-, named⟩
          apply same
          refine Directive.name_injective _ wanted.mem_all _ kept.mem_all ?_
          have first := beq_iff_eq.mp named
          have second := beq_iff_eq.mp holds.1
          exact first.symm.trans second

theorem foldl_addDirective (parts : List Bytes) :
    (parts.foldl ContentSecurityPolicy.addDirective policy).slice wanted =
      (policy.slice wanted).or (parts.findSome? fun part => partDirective part wanted) := by
  induction parts generalizing policy with
  | nil => simp
  | cons part rest induction =>
    rw [List.foldl_cons, induction, addDirective_slice, List.findSome?_cons]
    cases policy.slice wanted with
    | some list => rfl
    | none => cases partDirective part wanted with
      | some list | none => rfl

theorem firstDirective_eq (raw : Bytes) (wanted : Directive) : firstDirective raw wanted =
    (raw.splitOn semicolon).findSome? fun part => partDirective part wanted := by
  unfold firstDirective directives
  induction raw.splitOn semicolon with
  | nil => rfl
  | cons part rest induction =>
    rw [List.findSome?_cons, List.map_cons, List.filter_cons]
    by_cases blank : trim part = []
    · simp only [blank, ne_eq, not_true_eq_false, decide_false, Bool.false_eq_true, if_false]
      rw [induction, partDirective, if_neg (by simp [blank])]
    · simp only [blank, ne_eq, not_false_eq_true, decide_true, if_true, List.map_cons]
      rw [List.find?_cons]
      cases named : equalIgnoreCase (breakAt isWhitespace (trim part)).1 wanted.name with
      | true =>
        rw [partDirective, if_pos ⟨blank, named⟩]
        rfl
      | false =>
        rw [partDirective, if_neg (by simp [named])]
        exact induction

theorem parse_slice (parsed : ContentSecurityPolicy.parse raw = .ok policy) :
    policy.slice wanted = firstDirective raw wanted := by
  unfold ContentSecurityPolicy.parse at parsed
  split at parsed
  · cases parsed
  · cases parsed
    rw [foldl_addDirective, firstDirective_eq]
    rfl

theorem parse_sources (parsed : ContentSecurityPolicy.parse raw = .ok policy)
    (kind : ResourceKind) :
    policy.sources kind = effective raw kind := by
  unfold effective
  cases kind <;>
    simp [ContentSecurityPolicy.sources, ownDirective, parse_slice parsed]

end Directives

/-- Two origins have the same scheme, host and port. -/
def SameTuple (first second : Origin) : Prop :=
  first.scheme = second.scheme ∧ first.hostBytes = second.hostBytes ∧ first.port = second.port

/-- A source list has a keyword. -/
def Names (list wanted : Bytes) : Prop := ∃ token ∈ tokens list, equalIgnoreCase token wanted = true

/-- A source list has a host source with the scheme, the host and the port of an origin. -/
def HasHost (list : Bytes) (target : Origin) : Prop :=
  ∃ token ∈ tokens list, ∃ parsed, Origin.parse (sourceUrl token target) 1 = .ok parsed ∧
    SameTuple parsed target

def Covers (list : Bytes) (document target : Origin) : Prop :=
  Names list (ascii "*") ∨ (target.scheme = .https ∧ Names list (ascii "https:")) ∨
    (target.scheme = .http ∧ Names list (ascii "http:")) ∨
    (Names list (ascii "'self'") ∧ SameTuple document target) ∨ HasHost list target

/-- A source list has a source of a nonce. -/
def HasNonce (list nonce : Bytes) : Prop :=
  ∃ token ∈ tokens list, ∃ marker, equalIgnoreCase marker (ascii "'nonce-") = true ∧
    token = marker ++ nonce ++ ascii "'"

/-- What a context is asked. -/
inductive Question
  | request (generation : UInt32) (target_url : Bytes) (kind : ResourceKind) (mode : RequestMode)
  | inline_script (nonce : Bytes)
  | response (target : Origin) (mode : RequestMode) (credentials : CredentialsMode)
      (allow_origin : Bytes) (allow_credentials : Bool)

/-- What a context allows is covered by its document and its policy. -/
def Sound (url : Bytes) (generation : UInt32) (csp : Bytes) : Question → Prop
  | .request asked target_url kind mode =>
    ∀ context, SecurityContext.init url generation csp = .ok context →
    (context.authorize asked target_url kind mode).allowed = true →
    asked = generation ∧ ∃ document target, Origin.parse url generation = .ok document ∧
      Origin.parse target_url asked = .ok target ∧
      (document.scheme = .https → target.scheme = .http → kind = .document) ∧
      (mode = .same_origin → SameTuple document target) ∧
      ∀ list, effective csp kind = some list → Covers list document target
  | .inline_script nonce => ∀ context, SecurityContext.init url generation csp = .ok context →
      context.allowsInlineScript nonce = true → ∀ list, effective csp .script = some list →
      Names list (ascii "'unsafe-inline'") ∨ HasNonce list nonce
  | .response target mode credentials allow_origin allow_credentials =>
    ∀ context, SecurityContext.init url generation csp = .ok context →
    context.acceptsCors target mode credentials allow_origin allow_credentials = true →
    mode = .cors → ∀ document, Origin.parse url generation = .ok document →
    document.same target = false →
    (∃ capacity, document.serialize capacity = some allow_origin) ∨
      (allow_origin = ascii "*" ∧ credentials ≠ .include)

/-- A nonce differs only in case from a source of the list. -/
def Misread (list nonce : Bytes) : Prop :=
  list ≠ [] ∧ ¬ Names list (ascii "'none'") ∧ ¬ Names list (ascii "'unsafe-inline'") ∧
    nonce ≠ [] ∧ nonce.length ≤ 152 ∧
    (∃ token ∈ tokens list, equalIgnoreCase token (ascii "'nonce-" ++ nonce ++ ascii "'") = true) ∧
    ¬ HasNonce list nonce

/-- No nonce is misread. -/
def Exact (url : Bytes) (generation : UInt32) (csp : Bytes) : Question → Prop
  | .inline_script nonce => ∀ context, SecurityContext.init url generation csp = .ok context →
      ∀ list, effective csp .script = some list → ¬ Misread list nonce
  | _ => True

section Decisions

variable {url csp : Bytes} {generation : UInt32} {context : SecurityContext} {list : Bytes}

theorem init_ok (made : SecurityContext.init url generation csp = .ok context) :
    Origin.parse url generation = .ok context.document_origin ∧ context.generation = generation ∧
      ContentSecurityPolicy.parse csp = .ok context.policy := by
  unfold SecurityContext.init at made
  obtain ⟨origin, parsed, made⟩ := bind_eq_ok.mp made
  obtain ⟨policy, policy_parsed, made⟩ := bind_eq_ok.mp made
  cases made
  exact ⟨parsed, rfl, policy_parsed⟩

theorem containsToken_iff {wanted : Bytes} :
    containsToken list wanted = true ↔ Names list wanted := by
  unfold containsToken Names
  exact List.any_eq_true

theorem parse_hidden {raw : Bytes} {opaque_id : UInt32} {origin : Origin}
    (parsed : Origin.parse raw opaque_id = .ok origin) (hidden : origin.scheme = .opaque_origin) :
    origin = { opaque_id } := by
  unfold Origin.parse at parsed
  split at parsed
  · cases parsed
  next normalized =>
  unfold Origin.ofUrl at parsed
  split at parsed
  · cases parsed
    rfl
  split at parsed
  · cases parsed
  unfold Origin.ofHost at parsed
  split at parsed
  · dsimp only at parsed
    split at parsed
    · cases parsed
    · cases parsed
      dsimp only at hidden
      split at hidden
      · cases hidden
      · cases hidden
  · cases parsed

/-- Origins that are the same agree in scheme, host and port. -/
theorem same_tuple {first_raw second_raw : Bytes} {first_id second_id : UInt32}
    {first second : Origin}
    (first_parsed : Origin.parse first_raw first_id = .ok first)
    (second_parsed : Origin.parse second_raw second_id = .ok second)
    (same : first.same second = true) :
    SameTuple first second := by
  unfold Origin.same at same
  split at same
  · cases same
  next schemes =>
  rw [not_not] at schemes
  split at same
  · next hidden =>
    rw [parse_hidden first_parsed hidden, parse_hidden second_parsed (schemes.symm.trans hidden)]
    exact ⟨rfl, rfl, rfl⟩
  · rw [decide_eq_true_eq] at same
    exact ⟨schemes, same.2, same.1⟩

theorem allows_covers {url target_url : Bytes} {generation asked : UInt32}
    {document target : Origin}
    {kind : ResourceKind} {policy : ContentSecurityPolicy}
    (document_parsed : Origin.parse url generation = .ok document)
    (target_parsed : Origin.parse target_url asked = .ok target)
    (allowed : policy.allows document target kind false [] = true)
    (listed : policy.sources kind = some list) :
    Covers list document target := by
  unfold ContentSecurityPolicy.allows at allowed
  rw [listed] at allowed
  dsimp only at allowed
  split at allowed
  · cases allowed
  simp only [Bool.false_eq_true, if_false] at allowed
  split at allowed
  · next every => exact .inl (containsToken_iff.mp every)
  split at allowed
  · next self =>
    exact .inr (.inr (.inr (.inl ⟨containsToken_iff.mp self.1,
      same_tuple document_parsed target_parsed self.2⟩)))
  split at allowed
  · next secure => exact .inr (.inl ⟨secure.1, containsToken_iff.mp secure.2⟩)
  split at allowed
  · next plain => exact .inr (.inr (.inl ⟨plain.1, containsToken_iff.mp plain.2⟩))
  · obtain ⟨token, member, hosted⟩ := List.any_eq_true.mp allowed
    refine .inr (.inr (.inr (.inr ⟨token, member, ?_⟩)))
    unfold sourceMatchesHost at hosted
    split at hosted
    · cases hosted
    split at hosted
    · cases hosted
    split at hosted
    · cases hosted
    · next parsed parsed_eq => exact ⟨parsed, parsed_eq, same_tuple parsed_eq target_parsed hosted⟩

theorem nonceToken_eq (nonce : Bytes) : ContentSecurityPolicy.nonceToken nonce =
    if nonce.length ≤ 152 then some (ascii "'nonce-" ++ nonce ++ ascii "'") else none := by
  have marker : (ascii "'nonce-").length = 7 := by decide
  have quote : (ascii "'").length = 1 := by decide
  unfold ContentSecurityPolicy.nonceToken append
  simp only [List.length_nil, List.nil_append, marker, Option.bind_eq_bind]
  rw [if_pos (by omega), Option.bind_some]
  by_cases short : nonce.length ≤ 152
  · rw [if_pos (by omega), Option.bind_some, if_pos, if_pos short]
    rw [List.length_append, marker, quote]
    omega
  · rw [if_neg short]
    by_cases fits : nonce.length ≤ 153
    · rw [if_pos (by omega), Option.bind_some, if_neg]
      rw [List.length_append, marker, quote]
      omega
    · rw [if_neg (by omega)]
      rfl

theorem allows_inline_iff {policy : ContentSecurityPolicy} {document : Origin} {nonce : Bytes}
    (listed : policy.sources .script = some list) :
    policy.allows document document .script true nonce = true ↔
      list ≠ [] ∧ ¬ Names list (ascii "'none'") ∧ (Names list (ascii "'unsafe-inline'") ∨
        nonce ≠ [] ∧ nonce.length ≤ 152 ∧ Names list (ascii "'nonce-" ++ nonce ++ ascii "'")) := by
  unfold ContentSecurityPolicy.allows
  rw [listed]
  simp only [← containsToken_iff, nonceToken_eq]
  by_cases blank : list = []
  · simp [blank]
  by_cases refused : containsToken list (ascii "'none'") = true
  · simp [refused]
  by_cases inline : containsToken list (ascii "'unsafe-inline'") = true
  · simp [blank, refused, inline]
  by_cases missing : nonce = []
  · simp [inline, missing]
  by_cases short : nonce.length ≤ 152
  · simp [blank, refused, inline, missing, short]
  · simp [inline, short]

/-- An inline script is allowed as the policy says unless its nonce is misread. -/
theorem inline_iff (nonce : Bytes) :
    Sound url generation csp (.inline_script nonce) ↔
      Exact url generation csp (.inline_script nonce) := by
  unfold Sound Exact
  refine forall_congr' fun context => forall_congr' fun made => ?_
  obtain ⟨-, -, policy_parsed⟩ := init_ok made
  rw [forall_comm]
  refine forall_congr' fun list => forall_comm.trans (forall_congr' fun listed => ?_)
  rw [← parse_sources policy_parsed] at listed
  unfold SecurityContext.allowsInlineScript
  rw [allows_inline_iff listed]
  unfold Misread Names
  constructor
  · rintro sound ⟨filled, kept, plain, given, short, misread, inexact⟩
    rcases sound ⟨filled, kept, .inr ⟨given, short, misread⟩⟩ with inline | exact
    · exact plain inline
    · exact inexact exact
  · rintro exact ⟨filled, kept, inline | ⟨given, short, named⟩⟩
    · exact .inl inline
    · by_contra uncovered
      rw [not_or] at uncovered
      exact exact ⟨filled, kept, uncovered.1, given, short, named, uncovered.2⟩

theorem response_sound (target : Origin) (mode : RequestMode) (credentials : CredentialsMode)
    (allow_origin : Bytes) (allow_credentials : Bool) :
    Sound url generation csp
      (.response target mode credentials allow_origin allow_credentials) := by
  intro context made accepted cors document parsed foreign
  obtain ⟨own_parsed, -, -⟩ := init_ok made
  cases parsed.symm.trans own_parsed
  subst cors
  unfold SecurityContext.acceptsCors at accepted
  rw [if_neg (by simp [foreign]), if_neg (by simp)] at accepted
  split at accepted
  · cases accepted
  next own serialized =>
  split at accepted
  · next every => exact .inr ⟨every, by simpa using accepted⟩
  split at accepted
  · cases accepted
  · next named => exact .inl ⟨_, serialized.trans (congrArg some (not_not.mp named).symm)⟩

/-- A request is allowed for the generation, the origins and the directive of its context. -/
theorem request_sound (asked : UInt32) (target_url : Bytes) (kind : ResourceKind)
    (mode : RequestMode) :
    Sound url generation csp (.request asked target_url kind mode) := by
  intro context made allowed
  obtain ⟨parsed, current, policy_parsed⟩ := init_ok made
  unfold SecurityContext.authorize at allowed
  split at allowed
  · cases allowed
  next same_generation =>
  rw [not_not] at same_generation
  split at allowed
  · cases allowed
  next target target_parsed =>
  split at allowed
  · cases allowed
  next unmixed =>
  split at allowed
  · cases allowed
  next own =>
  split at allowed
  · cases allowed
  next covered =>
  refine ⟨same_generation.trans current, _, target, parsed, target_parsed, ?_, ?_, ?_⟩
  · intro secure plain
    by_contra other
    exact unmixed ⟨secure, plain, other⟩
  · intro limited
    refine same_tuple parsed target_parsed ?_
    by_contra foreign
    exact own ⟨limited, foreign⟩
  · intro list listed
    rw [← parse_sources policy_parsed] at listed
    exact allows_covers parsed target_parsed (not_not.mp covered) listed

/-- Decisions are covered by the policy exactly where no nonce is misread. -/
theorem sound_iff_exact (url : Bytes) (generation : UInt32) (csp : Bytes) (question : Question) :
    Sound url generation csp question ↔ Exact url generation csp question := by
  cases question with
  | request asked target_url kind mode =>
    exact iff_of_true (request_sound asked target_url kind mode) trivial
  | inline_script nonce => exact inline_iff nonce
  | response target mode credentials allow_origin allow_credentials =>
    exact iff_of_true
      (response_sound target mode credentials allow_origin allow_credentials) trivial

/-- A script with the nonce `a` runs under a policy that names the nonce `A`. -/
theorem not_always_sound :
    ¬ ∀ (url : Bytes) (generation : UInt32) (csp : Bytes) (question : Question),
      Sound url generation csp question := by
  intro always
  have sound := always (ascii "https://a/") 1 (ascii "script-src 'nonce-A'")
    (.inline_script (ascii "a"))
  have runs : ((SecurityContext.init (ascii "https://a/") 1
      (ascii "script-src 'nonce-A'")).toOption.any fun context =>
        context.allowsInlineScript (ascii "a")) = true := by decide
  have listed : effective (ascii "script-src 'nonce-A'") .script = some (ascii "'nonce-A'") := by
    decide
  have single : tokens (ascii "'nonce-A'") = [ascii "'nonce-A'"] := by decide
  cases made : SecurityContext.init (ascii "https://a/") 1 (ascii "script-src 'nonce-A'") with
  | error failure =>
    rw [made] at runs
    cases runs
  | ok context =>
    rw [made] at runs
    rcases sound context made runs _ listed with ⟨token, member, inline⟩ | ⟨token, member, nonce⟩
    · rw [single, List.mem_singleton] at member
      subst member
      exact absurd inline (by decide)
    · obtain ⟨marker, -, exact⟩ := nonce
      rw [single, List.mem_singleton] at member
      subst member
      have last := congrArg (fun text => text.reverse[1]?) exact
      rw [show (marker ++ ascii "a" ++ ascii "'").reverse =
        chr '\'' :: chr 'a' :: marker.reverse by simp [ascii, chr]] at last
      rw [List.getElem?_cons_succ, List.getElem?_cons_zero] at last
      exact absurd last (by decide)

end Decisions

end R4OS.Web
