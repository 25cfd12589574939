import R4OS.Http.Request

/-!
# What a request says

A request that was built is a block of lines with the body behind it.  The lines are the ones that the
options ask for, whatever bytes the options hold.
-/

namespace R4OS.Http

open Text

variable {framing : RequestFraming}

structure CustomField where
  name : Bytes
  value : Bytes

namespace CustomField

/-- The line of a field in the options. -/
def source (field : CustomField) : Bytes := field.name ++ [colonByte] ++ field.value ++ [newline]

def line (field : CustomField) : Bytes := field.name ++ ascii ": " ++ field.value

/-- The name is a token and the value stays on its line. -/
def Valid (field : CustomField) : Prop :=
  isHeaderName field.name = true ∧ hasForbiddenHeaderByte field.value = false

end CustomField

def hasCustom (custom : List CustomField) (wanted : Bytes) : Bool :=
  custom.any fun field => equalsIgnoreCase field.name wanted

/-- How a target shows one byte of a path. -/
def targetByte (byte : UInt8) : Bytes :=
  if isTargetByte byte then [byte]
  else [chr '%', upperHexByte (byte >>> 4), upperHexByte (byte &&& 15)]

def requestTarget (url : ParsedUrl) : Bytes :=
  (if url.query_only then [chr '/'] else []) ++ url.path.flatMap targetByte

def requestLine (method : Method) (url : ParsedUrl) : Bytes :=
  method.text ++ [chr ' '] ++ requestTarget url ++ ascii " HTTP/1.1"

/-- The host of a request, with its port where it is not the one of the scheme. -/
def hostText (url : ParsedUrl) : Bytes :=
  url.host ++ (if url.explicit_port || url.port ≠ url.scheme.defaultPort then
    [colonByte] ++ decimal url.port.toNat else [])

def bodyLines (options : RequestOptions) (custom : List CustomField) : List Bytes :=
  (if !hasCustom custom (ascii "content-type") then [ascii "Content-Type: " ++ bodyType options]
    else []) ++ [ascii "Content-Length: " ++ decimal options.body.length]

/-- The lines between the first line of a request and its end. -/
def fieldLines (url : ParsedUrl) (options : RequestOptions) (custom : List CustomField) :
    List Bytes :=
  [ascii "Host: " ++ hostText url, ascii "User-Agent: " ++ options.user_agent] ++
  (if !hasCustom custom (ascii "accept") then [ascii "Accept: " ++ options.accept] else []) ++
  [ascii "Accept-Encoding: identity"] ++
  (if options.cookie ≠ [] then [ascii "Cookie: " ++ options.cookie] else []) ++
  (if options.origin ≠ [] then [ascii "Origin: " ++ options.origin] else []) ++
  custom.map CustomField.line ++
  (if options.body ≠ [] then bodyLines options custom else []) ++
  (if options.connection_close then [ascii "Connection: close"] else [])

/-- Whole lines were appended. -/
def Wrote (lines : List Bytes) (out after : Bytes) : Prop :=
  after = out ++ unlinesCrlf lines ∧ ∀ line ∈ lines, PlainLine line

section Writing

variable {capacity : Nat} {out after label value : Bytes} {first second lines : List Bytes}

variable {field : CustomField}

theorem Wrote.trans {between : Bytes} (before : Wrote first out between)
    (later : Wrote second between after) : Wrote (first ++ second) out after := by
  refine ⟨?_, List.forall_mem_append.mpr ⟨before.2, later.2⟩⟩
  rw [later.1, before.1, unlinesCrlf_append, List.append_assoc]

theorem wrote_nil : Wrote [] out out := ⟨(List.append_nil out).symm, nofun⟩

theorem append_eq (written : append capacity value out = some after) : after = out ++ value := by
  unfold append at written
  split at written
  · cases written
  · exact (Option.some_inj.mp written).symm

theorem appendByte_eq {byte : UInt8} (written : appendByte capacity byte out = some after) :
    after = out ++ [byte] := by
  unfold appendByte at written
  split at written
  · cases written
  · exact (Option.some_inj.mp written).symm

theorem appendUnsigned_eq {number : Nat} (written : appendUnsigned capacity number out = some after) :
    after = out ++ decimal number := by
  unfold appendUnsigned at written
  split at written
  · cases written
  · exact append_eq written

theorem unbroken_of_clean (clean : hasForbiddenHeaderByte value = false) : Unbroken value := by
  intro byte member
  have allowed : isForbidden byte = false := by
    have none_forbidden := List.any_eq_false.mp clean byte member
    simpa using none_forbidden
  have parts := isForbidden_eq_false.mp allowed
  exact ⟨parts.1, parts.2.1⟩

theorem appendHeaderValue_eq (written : appendHeaderValue capacity value out = some after) :
    after = out ++ value ∧ Unbroken value := by
  unfold appendHeaderValue at written
  split at written
  · cases written
  · next clean => exact ⟨append_eq written, unbroken_of_clean (Bool.eq_false_iff.mpr clean)⟩

theorem decimal_unbroken (number : Nat) : Unbroken (decimal number) := by
  intro byte member
  have digit := decimal_isDigit member
  constructor <;> rintro rfl <;> revert digit <;> decide

theorem wrote_line {text : Bytes} (plain : PlainLine text) (after_eq : after = out ++ text ++ crlf) :
    Wrote [text] out after := by
  refine ⟨?_, List.forall_mem_singleton.mpr plain⟩
  rw [after_eq, unlinesCrlf_cons, unlinesCrlf_nil, List.append_nil, List.append_assoc]

theorem appendField_wrote (plain : PlainLine label)
    (written : appendField capacity label value out = some after) :
    Wrote [label ++ value] out after := by
  obtain ⟨between, middle, ended⟩ := Option.bind_eq_some_iff.mp written
  obtain ⟨labelled, named, valued⟩ := Option.bind_eq_some_iff.mp middle
  obtain ⟨between_eq, clean⟩ := appendHeaderValue_eq valued
  refine wrote_line ⟨by simp [plain.1], unbroken_append.mpr ⟨plain.2, clean⟩⟩ ?_
  rw [append_eq ended, between_eq, append_eq named, List.append_assoc out]

theorem appendNumberField_wrote {number : Nat} (plain : PlainLine label)
    (written : appendNumberField capacity label number out = some after) :
    Wrote [label ++ decimal number] out after := by
  obtain ⟨between, middle, ended⟩ := Option.bind_eq_some_iff.mp written
  obtain ⟨labelled, named, numbered⟩ := Option.bind_eq_some_iff.mp middle
  refine wrote_line ⟨by simp [plain.1], unbroken_append.mpr ⟨plain.2, decimal_unbroken number⟩⟩ ?_
  rw [append_eq ended, appendUnsigned_eq numbered, append_eq named, List.append_assoc out]

theorem append_line_wrote {text : Bytes} (plain : PlainLine text)
    (written : append capacity (text ++ crlf) out = some after) : Wrote [text] out after :=
  wrote_line plain (by rw [append_eq written, List.append_assoc])

theorem appendWhen_wrote {asked : Bool} {write : Bytes → Option Bytes}
    (each : write out = some after → Wrote lines out after)
    (written : appendWhen asked write out = some after) :
    Wrote (if asked = true then lines else []) out after := by
  unfold appendWhen at written
  split at written
  · next on =>
      rw [if_pos on]
      exact each written
  · next off =>
      rw [if_neg off]
      cases written
      exact wrote_nil

theorem targetByte_visible (byte : UInt8) :
    ∀ shown ∈ targetByte byte, 0x21 ≤ shown ∧ shown ≤ 0x7e ∧ shown ≠ chr '#' := by
  have every : ∀ number : Fin 256, (targetByte (UInt8.ofFin number)).all (fun shown =>
      decide (0x21 ≤ shown ∧ shown ≤ 0x7e ∧ shown ≠ chr '#')) = true := by decide +kernel
  intro shown member
  have all := every byte.toFin
  rw [UInt8.ofFin_toFin] at all
  exact of_decide_eq_true (List.all_eq_true.mp all shown member)

theorem requestTarget_visible (url : ParsedUrl) :
    ∀ shown ∈ requestTarget url, 0x21 ≤ shown ∧ shown ≤ 0x7e ∧ shown ≠ chr '#' := by
  intro shown member
  rcases List.mem_append.mp member with slash | escaped
  · split at slash
    · obtain rfl := List.mem_singleton.mp slash
      decide
    · cases slash
  · obtain ⟨byte, -, inside⟩ := List.mem_flatMap.mp escaped
    exact targetByte_visible byte shown inside

theorem requestTarget_unbroken (url : ParsedUrl) : Unbroken (requestTarget url) := by
  intro byte member
  have visible := (requestTarget_visible url byte member).1
  constructor <;> rintro rfl <;> revert visible <;> decide

theorem appendRequestTarget_eq {path : Bytes}
    (written : appendRequestTarget capacity path out = some after) :
    after = out ++ path.flatMap targetByte := by
  unfold appendRequestTarget at written
  induction path generalizing out with
  | nil => exact (Option.some_inj.mp written).symm.trans (List.append_nil out).symm
  | cons byte path induction =>
    rw [List.foldlM_cons] at written
    obtain ⟨between, one, more⟩ := Option.bind_eq_some_iff.mp written
    have between_eq : between = out ++ targetByte byte := by
      unfold appendTargetByte at one
      unfold targetByte
      split at one
      · next shown => rw [appendByte_eq one, if_pos shown]
      · next hidden => rw [append_eq one, if_neg hidden]
    rw [induction more, between_eq, List.flatMap_cons, List.append_assoc]

theorem CustomField.Valid.plain (valid : field.Valid) : PlainLine field.line := by
  obtain ⟨tokens, solid⟩ := (Bool.and_eq_true _ _).mp valid.1
  refine ⟨by simp [CustomField.line, ascii], ?_⟩
  refine unbroken_append.mpr ⟨unbroken_append.mpr ⟨fun byte member => ?_, by decide⟩,
    unbroken_of_clean valid.2⟩
  have parts := isTokenByte_ne (List.all_eq_true.mp tokens byte member)
  exact ⟨parts.1, parts.2.1⟩

theorem appendSerializedHeaders_wrote {serialized : Bytes}
    (written : appendSerializedHeaders capacity serialized out = some after) :
    ∃ custom : List CustomField, serialized = custom.flatMap CustomField.source ∧
      (∀ field ∈ custom, field.Valid) ∧ Wrote (custom.map CustomField.line) out after := by
  induction size : serialized.length using Nat.strong_induction_on generalizing serialized out with
  | _ number induction =>
  rw [appendSerializedHeaders.eq_def] at written
  split at written
  · cases written
    exact ⟨[], rfl, by simp, wrote_nil⟩
  next first rest =>
  split at written
  · cases written
  next relative_end ended =>
  dsimp only at written
  split at written
  · cases written
  next colon colon_found =>
  split at written
  · cases written
  next named =>
  obtain ⟨-, line_eq⟩ := idxOf?_split ended
  obtain ⟨-, name_eq⟩ := idxOf?_split colon_found
  obtain ⟨labelled, label_written, written⟩ := Option.bind_eq_some_iff.mp written
  obtain ⟨parted, colon_written, written⟩ := Option.bind_eq_some_iff.mp written
  obtain ⟨valued, value_written, written⟩ := Option.bind_eq_some_iff.mp written
  obtain ⟨closed, end_written, written⟩ := Option.bind_eq_some_iff.mp written
  have shorter : ((first :: rest).drop (relative_end + 1)).length < number := by
    rw [← size, List.length_drop, List.length_cons]
    omega
  obtain ⟨custom, rest_eq, valid, wrote⟩ := induction _ shorter written rfl
  obtain ⟨valued_eq, clean⟩ := appendHeaderValue_eq value_written
  have field_valid : CustomField.Valid ⟨((first :: rest).take relative_end).take colon,
      ((first :: rest).take relative_end).drop (colon + 1)⟩ := by
    refine ⟨?_, ?_⟩
    · simpa using (not_or.mp named).2
    · unfold appendHeaderValue at value_written
      split at value_written
      · cases value_written
      · next clean => exact Bool.eq_false_iff.mpr clean
  refine ⟨_ :: custom, ?_, List.forall_mem_cons.mpr ⟨field_valid, valid⟩,
    (wrote_line field_valid.plain ?_).trans wrote⟩
  · rw [List.flatMap_cons, ← rest_eq, CustomField.source, List.append_assoc _ [colonByte],
      List.singleton_append, ← name_eq, List.append_assoc, List.singleton_append, ← line_eq]
  · rw [append_eq end_written, valued_eq, append_eq colon_written, append_eq label_written,
      CustomField.line]
    simp

theorem containsSerializedHeader_source (valid : field.Valid) (rest wanted : Bytes) :
    containsSerializedHeader (field.source ++ rest) wanted =
      (equalsIgnoreCase field.name wanted || containsSerializedHeader rest wanted) := by
  obtain ⟨tokens, solid⟩ := (Bool.and_eq_true _ _).mp valid.1
  have token (byte : UInt8) (member : byte ∈ field.name) :=
    isTokenByte_ne (List.all_eq_true.mp tokens byte member)
  have unbroken := unbroken_of_clean valid.2
  have source_eq : field.source ++ rest =
      (field.name ++ colonByte :: field.value) ++ newline :: rest := by
    simp [CustomField.source]
  have ended : (field.source ++ rest).idxOf? newline =
      some (field.name ++ colonByte :: field.value).length := by
    rw [source_eq]
    refine idxOf?_append fun member => ?_
    rcases List.mem_append.mp member with inside | inside
    · exact (token _ inside).2.1 rfl
    · rcases List.mem_cons.mp inside with same | inside
      · exact absurd same (by decide)
      · exact (unbroken _ inside).2 rfl
  have colon_found : (field.name ++ colonByte :: field.value).idxOf? colonByte =
      some field.name.length := idxOf?_append fun member => (token _ member).2.2 rfl
  have line_eq : (field.source ++ rest).take (field.name ++ colonByte :: field.value).length =
      field.name ++ colonByte :: field.value := by
    rw [source_eq, List.take_left]
  have rest_eq : (field.source ++ rest).drop ((field.name ++ colonByte :: field.value).length + 1) =
      rest := by
    rw [source_eq, ← List.drop_drop, List.drop_left]
    rfl
  rw [containsSerializedHeader.eq_def]
  split
  · next blank => simp [source_eq] at blank
  next whole =>
  rw [← whole, ended]
  dsimp only
  rw [line_eq, colon_found]
  dsimp only
  rw [List.take_left, rest_eq]
  cases equalsIgnoreCase field.name wanted
  · rfl
  · rfl

theorem containsSerializedHeader_custom {custom : List CustomField}
    (valid : ∀ field ∈ custom, field.Valid) (wanted : Bytes) :
    containsSerializedHeader (custom.flatMap CustomField.source) wanted = hasCustom custom wanted := by
  induction custom with
  | nil =>
    rw [containsSerializedHeader.eq_def]
    rfl
  | cons field custom induction =>
    obtain ⟨field_valid, others⟩ := List.forall_mem_cons.mp valid
    rw [List.flatMap_cons, containsSerializedHeader_source field_valid, induction others]
    rfl

variable {method : Method} {url : ParsedUrl} {options : RequestOptions} {custom : List CustomField}

theorem hostText_unbroken (host : url.host.all isHostByte = true) : Unbroken (hostText url) := by
  refine unbroken_append.mpr ⟨fun byte member => ?_, ?_⟩
  · exact isHostByte_ne (List.all_eq_true.mp host byte member)
  · split
    · exact unbroken_append.mpr ⟨by decide, decimal_unbroken _⟩
    · exact unbroken_nil

theorem requestLine_plain (method : Method) (url : ParsedUrl) : PlainLine (requestLine method url) := by
  refine ⟨by simp [requestLine, ascii], ?_⟩
  refine unbroken_append.mpr ⟨unbroken_append.mpr ⟨unbroken_append.mpr ⟨?_, by decide⟩,
    requestTarget_unbroken url⟩, by decide⟩
  cases method <;> decide

theorem appendRequestLine_eq (written : appendRequestLine capacity method url out = some after) :
    after = out ++ requestLine method url ++ crlf ++ ascii "Host: " ++ url.host := by
  obtain ⟨first, first_written, written⟩ := Option.bind_eq_some_iff.mp written
  obtain ⟨second, second_written, written⟩ := Option.bind_eq_some_iff.mp written
  obtain ⟨third, third_written, written⟩ := Option.bind_eq_some_iff.mp written
  obtain ⟨fourth, fourth_written, written⟩ := Option.bind_eq_some_iff.mp written
  obtain ⟨fifth, fifth_written, written⟩ := Option.bind_eq_some_iff.mp written
  have third_eq : third = second ++ if url.query_only then [chr '/'] else [] := by
    unfold appendWhen at third_written
    split at third_written
    · next slash => rw [appendByte_eq third_written, if_pos slash]
    · next bare =>
        rw [if_neg bare, List.append_nil]
        exact (Option.some_inj.mp third_written).symm
  rw [append_eq written, append_eq fifth_written, appendRequestTarget_eq fourth_written, third_eq,
    appendByte_eq second_written, append_eq first_written, requestLine, requestTarget]
  simp

theorem appendPort_eq (written : appendPort capacity url (out ++ url.host) = some after) :
    after = out ++ hostText url := by
  unfold appendPort appendWhen at written
  rw [hostText]
  split at written
  · next shown =>
      obtain ⟨between, colon_written, written⟩ := Option.bind_eq_some_iff.mp written
      rw [if_pos shown, appendUnsigned_eq written, appendByte_eq colon_written]
      simp
  · next hidden =>
      rw [if_neg hidden, List.append_nil]
      exact (Option.some_inj.mp written).symm

theorem appendBodyFields_wrote
    (known : ∀ wanted, containsSerializedHeader options.headers wanted = hasCustom custom wanted)
    (written : appendBodyFields capacity options out = some after) :
    Wrote (bodyLines options custom) out after := by
  obtain ⟨between, type_written, written⟩ := Option.bind_eq_some_iff.mp written
  rw [known] at type_written
  exact (appendWhen_wrote (appendField_wrote (by decide)) type_written).trans
    (appendNumberField_wrote (by decide) written)

theorem appendRequest_eq (host : url.host.all isHostByte = true)
    (written : appendRequest capacity method url options = some after) :
    ∃ custom : List CustomField, options.headers = custom.flatMap CustomField.source ∧
      (∀ field ∈ custom, field.Valid) ∧ ∃ lines : Bytes,
        Wrote (requestLine method url :: fieldLines url options custom) [] lines ∧
        after = lines ++ crlf ++ options.body := by
  obtain ⟨first, line_written, written⟩ := Option.bind_eq_some_iff.mp written
  obtain ⟨second, port_written, written⟩ := Option.bind_eq_some_iff.mp written
  obtain ⟨third, label_written, written⟩ := Option.bind_eq_some_iff.mp written
  obtain ⟨fourth, agent_written, written⟩ := Option.bind_eq_some_iff.mp written
  obtain ⟨fifth, end_written, written⟩ := Option.bind_eq_some_iff.mp written
  obtain ⟨sixth, accept_written, written⟩ := Option.bind_eq_some_iff.mp written
  obtain ⟨seventh, encoding_written, written⟩ := Option.bind_eq_some_iff.mp written
  obtain ⟨eighth, cookie_written, written⟩ := Option.bind_eq_some_iff.mp written
  obtain ⟨ninth, origin_written, written⟩ := Option.bind_eq_some_iff.mp written
  obtain ⟨tenth, custom_written, written⟩ := Option.bind_eq_some_iff.mp written
  obtain ⟨eleventh, body_written, written⟩ := Option.bind_eq_some_iff.mp written
  obtain ⟨twelfth, close_written, written⟩ := Option.bind_eq_some_iff.mp written
  obtain ⟨thirteenth, blank_written, written⟩ := Option.bind_eq_some_iff.mp written
  obtain ⟨custom, headers, valid, custom_wrote⟩ : ∃ custom : List CustomField,
      options.headers = custom.flatMap CustomField.source ∧ (∀ field ∈ custom, field.Valid) ∧
      Wrote (custom.map CustomField.line) ninth tenth := by
    unfold appendWhen at custom_written
    split at custom_written
    · exact appendSerializedHeaders_wrote custom_written
    · next empty =>
        cases custom_written
        exact ⟨[], by simpa using empty, nofun, wrote_nil⟩
  have known (wanted : Bytes) :
      containsSerializedHeader options.headers wanted = hasCustom custom wanted := by
    rw [headers]
    exact containsSerializedHeader_custom valid wanted
  refine ⟨custom, headers, valid, twelfth, ?_, ?_⟩
  · obtain ⟨agent_eq, agent_unbroken⟩ := appendHeaderValue_eq agent_written
    rw [appendRequestLine_eq line_written] at port_written
    have second_eq := appendPort_eq port_written
    have leading : Wrote [requestLine method url, ascii "Host: " ++ hostText url,
        ascii "User-Agent: " ++ options.user_agent] [] fifth := by
      refine ⟨?_, ?_⟩
      · rw [append_eq end_written, agent_eq, append_eq label_written, second_eq]
        simp [unlinesCrlf_cons, unlinesCrlf_nil]
      · refine List.forall_mem_cons.mpr ⟨requestLine_plain method url, List.forall_mem_cons.mpr
          ⟨?_, List.forall_mem_singleton.mpr ?_⟩⟩
        · exact ⟨by simp [ascii], unbroken_append.mpr ⟨by decide, hostText_unbroken host⟩⟩
        · exact ⟨by simp [ascii], unbroken_append.mpr ⟨by decide, agent_unbroken⟩⟩
    rw [known] at accept_written
    have accept_wrote := appendWhen_wrote (appendField_wrote (by decide)) accept_written
    have encoding_wrote := append_line_wrote (by decide) encoding_written
    have cookie_wrote := appendWhen_wrote (appendField_wrote (by decide)) cookie_written
    have origin_wrote := appendWhen_wrote (appendField_wrote (by decide)) origin_written
    have body_wrote := appendWhen_wrote (appendBodyFields_wrote known) body_written
    have close_wrote := appendWhen_wrote (append_line_wrote (by decide)) close_written
    have all := (((((((leading.trans accept_wrote).trans encoding_wrote).trans cookie_wrote).trans
      origin_wrote).trans custom_wrote).trans body_wrote).trans close_wrote)
    simp only [decide_eq_true_eq] at all
    exact all
  · have body_eq : after = thirteenth ++ options.body := by
      unfold appendWhen at written
      split at written
      · exact append_eq written
      · next empty =>
          rw [show options.body = [] by simpa using empty, List.append_nil]
          exact (Option.some_inj.mp written).symm
    rw [body_eq, append_eq blank_written]

/-- What a request that was built says. -/
def Serialised (method : Method) (url : ParsedUrl) (options : RequestOptions) (bytes : Bytes) : Prop :=
  (∃ custom : List CustomField, options.headers = custom.flatMap CustomField.source ∧
    (∀ field ∈ custom, field.Valid) ∧
    Splits bytes (requestLine method url :: fieldLines url options custom) options.body ∧
    (options.body ≠ [] → ascii "Content-Length: " ++ decimal options.body.length ∈
      fieldLines url options custom)) ∧
  ∀ byte ∈ requestTarget url, 0x21 ≤ byte ∧ byte ≤ 0x7e ∧ byte ≠ chr '#'

theorem buildRequest_eq {bytes : Bytes} (built : buildRequest capacity method url options = .bytes bytes) :
    url.host.all isHostByte = true ∧ appendRequest capacity method url options = some bytes := by
  unfold buildRequest at built
  split at built
  · cases built
  split at built
  · cases built
  split at built
  · cases built
  next host =>
  split at built
  · cases built
  split at built
  · next written =>
      cases built
      exact ⟨by simpa using host, written⟩
  · cases built

theorem contentLength_mem (body : options.body ≠ []) :
    ascii "Content-Length: " ++ decimal options.body.length ∈ fieldLines url options custom := by
  rw [fieldLines, if_pos body, bodyLines]
  simp

theorem buildRequest_serialised {bytes : Bytes}
    (built : buildRequest capacity method url options = .bytes bytes) :
    Serialised method url options bytes := by
  obtain ⟨host, written⟩ := buildRequest_eq built
  obtain ⟨custom, headers, valid, lines, ⟨lines_eq, plain⟩, bytes_eq⟩ := appendRequest_eq host written
  refine ⟨⟨custom, headers, valid, ?_, contentLength_mem⟩, requestTarget_visible url⟩
  rw [bytes_eq, lines_eq, List.nil_append]
  exact splits_block (List.cons_ne_nil _ _) plain _

def fieldName (line : Bytes) : Bytes := line.takeWhile (· ≠ colonByte)

def holdsField (wanted line : Bytes) : Bool := equalsIgnoreCase (fieldName line) wanted

/-- The line that announces how a body is framed. -/
def framingLine : RequestFraming → Bytes
  | .content_length length => ascii "Content-Length: " ++ decimal length.toNat
  | .chunked => ascii "Transfer-Encoding: chunked"

/-- The lines between the first line of a streamed request and its end. -/
def streamLines (url : ParsedUrl) (options : RequestOptions) (framing : RequestFraming)
    (custom : List CustomField) : List Bytes :=
  fieldLines url { options with body := [], connection_close := true } custom ++
  (if options.content_type ≠ [] ∧ hasCustom custom (ascii "content-type") = false then
    [ascii "Content-Type: " ++ options.content_type] else []) ++ [framingLine framing]

/-- The labels that the builder writes in front of values. -/
def labels : List Bytes :=
  [ascii "Host: ", ascii "User-Agent: ", ascii "Accept: ", ascii "Accept-Encoding: identity",
    ascii "Cookie: ", ascii "Origin: ", ascii "Content-Type: "]

theorem fieldName_append (parted : colonByte ∈ label) : fieldName (label ++ value) = fieldName label := by
  unfold fieldName
  induction label with
  | nil => cases parted
  | cons byte label induction =>
    by_cases colon : byte = colonByte
    · rw [List.cons_append, List.takeWhile_cons_of_neg (by simp [colon]),
        List.takeWhile_cons_of_neg (by simp [colon])]
    · rw [List.cons_append, List.takeWhile_cons_of_pos (by simp [colon]),
        List.takeWhile_cons_of_pos (by simp [colon]),
        induction ((List.mem_cons.mp parted).resolve_left (Ne.symm colon))]

theorem holdsField_append {wanted : Bytes} (parted : colonByte ∈ label) :
    holdsField wanted (label ++ value) = holdsField wanted label := by
  rw [holdsField, holdsField, fieldName_append parted]

theorem holdsField_custom (valid : field.Valid) (wanted : Bytes) :
    holdsField wanted field.line = equalsIgnoreCase field.name wanted := by
  obtain ⟨tokens, -⟩ := (Bool.and_eq_true _ _).mp valid.1
  have name_eq : fieldName field.line = field.name := by
    rw [CustomField.line, List.append_assoc, fieldName, List.takeWhile_append_of_pos]
    · exact List.append_nil _
    · intro byte member
      exact decide_eq_true (isTokenByte_ne (List.all_eq_true.mp tokens byte member)).2.2
  rw [holdsField, name_eq]

theorem custom_countP (valid : ∀ field ∈ custom, field.Valid) {wanted : Bytes}
    (absent : hasCustom custom wanted = false) :
    (custom.map CustomField.line).countP (holdsField wanted) = 0 := by
  refine List.countP_eq_zero.mpr fun line member => ?_
  obtain ⟨field, inside, rfl⟩ := List.mem_map.mp member
  rw [holdsField_custom (valid field inside)]
  exact List.any_eq_false.mp absent field inside

/-- A field that the builder does not write stands only where the framing of a streamed request or the
end of its connection names it. -/
theorem streamLines_countP (valid : ∀ field ∈ custom, field.Valid)
    {wanted : Bytes} (absent : hasCustom custom wanted = false)
    (foreign : ∀ label ∈ labels, holdsField wanted label = false) :
    (streamLines url options framing custom).countP (holdsField wanted) =
      (if holdsField wanted (ascii "Connection: close") then 1 else 0) +
        if holdsField wanted (framingLine framing) then 1 else 0 := by
  have unnamed {label value : Bytes} (member : label ∈ labels) (parted : colonByte ∈ label) :
      [label ++ value].countP (holdsField wanted) = 0 := by
    rw [List.countP_singleton, holdsField_append parted]
    exact if_neg (Bool.eq_false_iff.mp (foreign label member))
  have optional {asked : Prop} [Decidable asked] {label value : Bytes} (member : label ∈ labels)
      (parted : colonByte ∈ label) :
      (if asked then [label ++ value] else []).countP (holdsField wanted) = 0 := by
    split
    · exact unnamed member parted
    · rfl
  have pair {first second : Bytes} : [first, second] = [first] ++ [second] := rfl
  have encoding : [ascii "Accept-Encoding: identity"].countP (holdsField wanted) = 0 := by
    have none := @unnamed (ascii "Accept-Encoding: identity") [] (by decide) (by decide)
    rwa [List.append_nil] at none
  rw [streamLines, fieldLines, pair]
  simp only [List.countP_append, ne_eq, not_true_eq_false, if_false, if_true, List.countP_nil]
  rw [unnamed (by decide) (by decide), unnamed (by decide) (by decide),
    optional (by decide) (by decide), encoding, optional (by decide) (by decide),
    optional (by decide) (by decide), custom_countP valid absent, optional (by decide) (by decide)]
  simp

theorem appendStreamFields_eq
    (known : ∀ wanted, containsSerializedHeader options.headers wanted = hasCustom custom wanted)
    (wrote : Wrote lines [] out) (written : appendStreamFields capacity options framing out = some after) :
    ∃ between, Wrote (lines ++
      (if options.content_type ≠ [] ∧ hasCustom custom (ascii "content-type") = false then
        [ascii "Content-Type: " ++ options.content_type] else []) ++ [framingLine framing]) [] between ∧
      after = between ++ crlf := by
  obtain ⟨typed, type_written, written⟩ := Option.bind_eq_some_iff.mp written
  obtain ⟨framed, framing_written, written⟩ := Option.bind_eq_some_iff.mp written
  rw [known] at type_written
  have type_wrote := appendWhen_wrote (appendField_wrote (by decide)) type_written
  simp only [Bool.and_eq_true, decide_eq_true_eq, Bool.not_eq_true'] at type_wrote
  have framing_wrote : Wrote [framingLine framing] typed framed := by
    unfold appendFraming at framing_written
    split at framing_written
    · exact appendNumberField_wrote (by decide) framing_written
    · exact append_line_wrote (by decide) framing_written
  exact ⟨framed, (wrote.trans type_wrote).trans framing_wrote, append_eq written⟩

/-- What the head of a streamed request says. -/
def StreamSerialised (method : Method) (url : ParsedUrl) (options : RequestOptions)
    (framing : RequestFraming) (bytes : Bytes) : Prop :=
  ∃ custom : List CustomField, options.headers = custom.flatMap CustomField.source ∧
    (∀ field ∈ custom, field.Valid) ∧
    Splits bytes (requestLine method url :: streamLines url options framing custom) [] ∧
    (streamLines url options framing custom).countP (holdsField (ascii "content-length")) +
      (streamLines url options framing custom).countP (holdsField (ascii "transfer-encoding")) = 1 ∧
    (streamLines url options framing custom).countP (holdsField (ascii "connection")) = 1

theorem buildStreamRequestHead_serialised {bytes : Bytes}
    (built : buildStreamRequestHead capacity method url options framing = .bytes bytes) :
    StreamSerialised method url options framing bytes := by
  unfold buildStreamRequestHead at built
  split at built
  · cases built
  next foreign =>
  split at built
  · cases built
  · cases built
  next head head_built =>
  split at built
  next after written =>
    cases built
    obtain ⟨host, head_written⟩ := buildRequest_eq head_built
    obtain ⟨custom, headers, valid, lines, wrote, head_eq⟩ := appendRequest_eq host head_written
    have known (wanted : Bytes) :
        containsSerializedHeader options.headers wanted = hasCustom custom wanted := by
      rw [show options.headers = custom.flatMap CustomField.source from headers]
      exact containsSerializedHeader_custom valid wanted
    have trimmed : head.take (head.length - 2) = lines := by
      rw [head_eq, List.append_nil, List.length_append]
      exact List.take_left
    rw [trimmed] at written
    obtain ⟨between, ⟨between_eq, plain⟩, bytes_eq⟩ := appendStreamFields_eq known wrote written
    simp only [known, Bool.or_eq_true, not_or, Bool.not_eq_true] at foreign
    obtain ⟨⟨⟨length_absent, encoding_absent⟩, -⟩, connection_absent⟩ := foreign
    have length_parted : colonByte ∈ ascii "Content-Length: " := by decide
    refine ⟨custom, headers, valid, ?_, ?_, ?_⟩
    · have text_eq : bytes = unlinesCrlf (requestLine method url ::
          streamLines url options framing custom) ++ crlf ++ [] := by
        rw [bytes_eq, between_eq, List.append_nil]
        rfl
      rw [text_eq]
      exact splits_block (List.cons_ne_nil _ _) plain []
    · rw [streamLines_countP valid length_absent (by decide),
        streamLines_countP valid encoding_absent (by decide)]
      cases framing with
      | content_length length =>
        simp only [framingLine, holdsField_append length_parted]
        decide
      | chunked => decide
    · rw [streamLines_countP valid connection_absent (by decide)]
      cases framing with
      | content_length length =>
        rw [framingLine, holdsField_append length_parted]
        decide
      | chunked => decide
  · cases built

/-- No option can add a line to a request, end its head early or change where its body begins. -/
theorem request_not_injected :
    (∀ (capacity : Nat) (method : Method) (url : ParsedUrl) (options : RequestOptions) (bytes : Bytes),
      buildRequest capacity method url options = .bytes bytes →
      Serialised method url options bytes) ∧
    ∀ (capacity : Nat) (method : Method) (url : ParsedUrl) (options : RequestOptions)
      (framing : RequestFraming) (bytes : Bytes),
      buildStreamRequestHead capacity method url options framing = .bytes bytes →
      StreamSerialised method url options framing bytes :=
  ⟨fun _ _ _ _ _ built => buildRequest_serialised built,
    fun _ _ _ _ _ _ built => buildStreamRequestHead_serialised built⟩

end Writing

/-- The address of a page. -/
def sampleUrl : ParsedUrl := ⟨.https, ascii "a.b", 8443, ascii "?q=[", false, true⟩

/-- Options with a custom field and a body. -/
def sampleOptions : RequestOptions where
  cookie := ascii "k=v"
  headers := ascii "X-Test:1\nACCEPT:*/*\n"
  body := ascii "x=1"

def BuildResult.written : BuildResult → Bytes
  | .bytes value => value
  | _ => []

def StreamHeadResult.written : StreamHeadResult → Bytes
  | .bytes value => value
  | _ => []

theorem request_not_injected_sample :
    Serialised .post sampleUrl sampleOptions
      (buildRequest 512 .post sampleUrl sampleOptions).written ∧
    StreamSerialised .put sampleUrl sampleOptions .chunked
      (buildStreamRequestHead 512 .put sampleUrl sampleOptions .chunked).written :=
  ⟨request_not_injected.1 512 .post sampleUrl sampleOptions _ (by decide +kernel),
    request_not_injected.2 512 .put sampleUrl sampleOptions .chunked _ (by decide +kernel)⟩

end R4OS.Http
