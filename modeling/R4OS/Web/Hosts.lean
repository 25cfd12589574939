import R4OS.Incremental.Checks
import R4OS.Web.Navigation

/-!
# Hosts and ports

The text between the user and the path of an address is a host name with a port or without one.  A name
in brackets may contain anything but a closing bracket; another name may contain colons when a port is
written behind it.
-/

namespace R4OS.Web

open Incremental Text Navigation

/-- A name in brackets. -/
def Bracketed (hostname : Bytes) : Prop :=
  ∃ inner, hostname = inner ++ [chr ']'] ∧ chr ']' ∉ inner ∧ inner.head? = some (chr '[')

/-- A port behind a host name. -/
def portText (port : Bytes) : Bytes := if port = [] then [] else chr ':' :: port

/-- A text is a host name with a port. -/
structure HostPort (host_port hostname port : Bytes) : Prop where
  text : host_port = hostname ++ portText port
  named : hostname ≠ []
  first : hostname.head? ≠ some (chr ':')
  valid : port ≠ [] → validPort port = true
  bracket : hostname.head? = some (chr '[') → Bracketed hostname
  plain : hostname.head? ≠ some (chr '[') → port = [] → chr ':' ∉ hostname

section Hosts

variable {host_port hostname port : Bytes}

@[simp] theorem portText_nil : portText [] = [] := rfl

theorem portText_of_ne (written : port ≠ []) : portText port = chr ':' :: port := if_neg written

theorem validPort_clear (valid : validPort port = true) : chr ':' ∉ port := by
  intro member
  unfold validPort at valid
  rw [decide_eq_true_eq, List.all_eq_true] at valid
  exact absurd (valid.1 _ member) (by decide)

theorem Bracketed.head (bracketed : Bracketed hostname) : hostname.head? = some (chr '[') := by
  obtain ⟨inner, rfl, -, head⟩ := bracketed
  cases inner with
  | nil => cases head
  | cons first rest => exact head

/-- A host does not end with a colon. -/
theorem HostPort.last (host : HostPort host_port hostname port) :
    host_port.getLast? ≠ some (chr ':') := by
  intro last
  rw [host.text] at last
  by_cases written : port = []
  · rw [written, portText_nil, List.append_nil] at last
    by_cases start : hostname.head? = some (chr '[')
    · obtain ⟨inner, rfl, -, -⟩ := host.bracket start
      rw [List.getLast?_concat] at last
      exact absurd (Option.some.inj last) (by decide)
    · exact host.plain start written (List.mem_of_getLast? last)
  · rw [portText_of_ne written, List.getLast?_append_of_ne_nil _ (List.cons_ne_nil _ _),
      List.getLast?_cons_of_ne_nil written] at last
    exact validPort_clear (host.valid written) (List.mem_of_getLast? last)

theorem cutHostPort_cases (start : host_port.head? ≠ some (chr ':')) (some_text : host_port ≠ [])
    (done : cutHostPort host_port = .ok (hostname, port)) :
    hostname.head? = host_port.head? ∧ hostname ≠ [] ∧
      (host_port = hostname ++ portText port ∨ (port = [] ∧ host_port = hostname ++ [chr ':'])) ∧
      (hostname.head? = some (chr '[') → Bracketed hostname) ∧
      (hostname.head? ≠ some (chr '[') → port = [] → host_port = hostname → chr ':' ∉ hostname) := by
  unfold cutHostPort at done
  split at done
  · next bracket =>
    split at done
    · cases done
    · next inner after found =>
      obtain ⟨rfl, clear⟩ := cut_eq_some.mp found
      have head : inner.head? = some (chr '[') := by
        cases inner with
        | nil => exact absurd (Option.some.inj bracket) (by decide)
        | cons first rest => exact bracket
      have bracketed : Bracketed (inner ++ [chr ']']) := ⟨inner, rfl, clear, head⟩
      split at done
      · next empty =>
        cases done
        exact ⟨bracketed.head.trans bracket.symm, by simp, .inl (by simp [empty]), fun _ => bracketed,
          fun other => absurd bracketed.head other⟩
      · split at done
        · next more colon =>
          cases done
          obtain ⟨tail, rfl⟩ : ∃ tail, after = chr ':' :: tail := by
            cases after with
            | nil => cases colon
            | cons first rest => exact ⟨rest, by rw [Option.some.inj colon]⟩
          refine ⟨bracketed.head.trans bracket.symm, by simp, ?_, fun _ => bracketed,
            fun other => absurd bracketed.head other⟩
          by_cases last : tail = []
          · exact .inr ⟨by simp [last], by simp [last]⟩
          · exact .inl (by simp [portText_of_ne last])
        · cases done
  · next plain =>
    cases found : cutLast (chr ':') host_port with
    | none =>
      rw [found] at done
      cases done
      exact ⟨rfl, some_text, .inl (by simp), fun bracket => absurd bracket plain,
        fun _ _ _ => cutLast_eq_none.mp found⟩
    | some parts =>
      rw [found] at done
      cases done
      obtain ⟨rfl, clear⟩ := cutLast_eq_some.mp found
      have named : hostname ≠ [] := by
        rintro rfl
        exact start rfl
      have head : hostname.head? = (hostname ++ chr ':' :: port).head? := by
        rw [List.head?_append_of_ne_nil _ named]
      refine ⟨head, named, ?_, fun bracket => absurd (head ▸ bracket) plain, fun _ _ same => ?_⟩
      · by_cases last : port = []
        · exact .inr ⟨last, by rw [last]⟩
        · exact .inl (by rw [portText_of_ne last])
      · simp at same

theorem splitHostPort_iff : splitHostPort host_port = .ok (hostname, port) ↔
    HostPort host_port hostname port := by
  constructor
  · intro split
    unfold splitHostPort at split
    split at split
    · cases split
    next start =>
    rw [not_or] at start
    obtain ⟨⟨name, digits⟩, parts, checked⟩ := bind_eq_ok.mp split
    obtain ⟨head, named, text, bracket, plain⟩ := cutHostPort_cases start.2 start.1 parts
    dsimp only at checked
    rw [if_neg named] at checked
    split at checked
    · next written =>
      split at checked
      · next valid =>
        cases checked
        refine ⟨text.resolve_right fun empty => written empty.1, named, ?_, fun _ => valid, bracket,
          fun _ empty => absurd empty written⟩
        rw [head]
        exact start.2
      · cases checked
    · next empty =>
      rw [not_not] at empty
      split at checked
      · cases checked
      · next last =>
        cases checked
        have whole : host_port = hostname ++ portText port := by
          refine text.resolve_right fun colon => last ?_
          rw [colon.2, List.getLast?_concat]
        refine ⟨whole, named, ?_, fun written => absurd empty written, bracket, fun other _ => ?_⟩
        · rw [head]
          exact start.2
        · exact plain other empty (by rw [whole, empty, portText_nil, List.append_nil])
  · rintro ⟨rfl, named, first, valid, bracket, plain⟩
    have head : (hostname ++ portText port).head? = hostname.head? :=
      List.head?_append_of_ne_nil _ named
    have cut_eq : cutHostPort (hostname ++ portText port) = .ok (hostname, port) := by
      rw [cutHostPort, head]
      split
      · next start =>
        obtain ⟨inner, rfl, clear, -⟩ := bracket start
        rw [List.append_assoc, List.singleton_append, cut_append clear]
        dsimp only
        by_cases written : port = []
        · rw [written, portText_nil, if_pos rfl]
        · rw [portText_of_ne written, if_neg (List.cons_ne_nil _ _)]
          rfl
      · next other =>
        by_cases written : port = []
        · rw [written, portText_nil, List.append_nil, cutLast_eq_none.mpr (plain other written)]
          rfl
        · rw [portText_of_ne written, cutLast_eq_some.mpr ⟨rfl, validPort_clear (valid written)⟩]
          rfl
    have solid : ¬ (hostname ++ portText port = [] ∨
        (hostname ++ portText port).head? = some (chr ':')) := by
      rw [head]
      simp [named, first]
    have final := HostPort.last ⟨rfl, named, first, valid, bracket, plain⟩
    rw [splitHostPort, if_neg solid, cut_eq]
    refine (if_neg named).trans ?_
    by_cases written : port = []
    · exact (if_neg (not_not.mpr written)).trans (if_neg final)
    · exact (if_pos written).trans (if_pos (valid written))

end Hosts

end R4OS.Web
