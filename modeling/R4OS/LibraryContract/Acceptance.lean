import R4OS.LibraryContract.Bindings
import R4OS.Incremental.Checks

/-!
# Accepted contracts

What the checks of a contract establish: names that are not repeated, slots in order, and layouts
that follow from those that the contract declares for the types of the fields.
-/

namespace R4OS.LibraryContract

open CLayout Incremental Text

section Checks

variable {Value : Type} {check : List Value → Value → Except ContractError Unit}
  {prior values : List Value} {condition : Prop} [Decidable condition] {error : ContractError}

theorem refuse_eq_ok : refuse condition error = .ok () ↔ ¬ condition := by
  unfold refuse
  split <;> simp_all

theorem checkEach_iff : checkEach check prior values = .ok () ↔
    ∀ before value after, values = before ++ value :: after →
      check (prior ++ before) value = .ok () := by
  induction values generalizing prior with
  | nil => simp [checkEach]
  | cons value rest induction =>
    unfold checkEach
    rw [bind_eq_ok]
    constructor
    · rintro ⟨⟨⟩, first, others⟩ before other after split
      cases before with
      | nil =>
        cases split
        rwa [List.append_nil]
      | cons head before =>
        cases split
        have checked := induction.mp others before other after rfl
        rwa [List.append_assoc] at checked
    · intro every
      refine ⟨(), ?_, induction.mpr fun before other after split => ?_⟩
      · have checked := every [] value rest rfl
        rwa [List.append_nil] at checked
      · have checked := every (value :: before) other after (by rw [split]; rfl)
        rwa [List.append_assoc]

theorem checkEach_mem {value : Value} (checked : checkEach check [] values = .ok ())
    (member : value ∈ values) : ∃ before, check before value = .ok () := by
  obtain ⟨before, after, split⟩ := List.append_of_mem member
  exact ⟨[] ++ before, checkEach_iff.mp checked before value after split⟩

theorem checkEach_pairwise {related : Value → Value → Prop}
    (tests : ∀ before value, check before value = .ok () → ∀ other ∈ before, related other value)
    (checked : checkEach check [] values = .ok ()) : values.Pairwise related := by
  have every := checkEach_iff.mp checked
  rw [List.pairwise_iff_getElem]
  intro first second first_inside second_inside smaller
  have split : values = values.take second ++ values[second] :: values.drop (second + 1) := by
    rw [List.getElem_cons_drop, List.take_append_drop]
  refine tests _ _ (every _ _ _ split) values[first] (List.mem_append_right _ ?_)
  exact List.mem_take_iff_getElem.mpr ⟨first, by omega, rfl⟩

end Checks

section Structures

variable {contract : Contract} {typ : StructContract}

theorem primitiveLayout_aligned {name : Bytes} {layout : Layout}
    (found : primitiveLayout name = some layout) : layout.alignment.isPowerOfTwo := by
  unfold primitiveLayout at found
  split at found
  · cases found
    exact ⟨0, rfl⟩
  split at found
  · cases found
    exact ⟨0, rfl⟩
  split at found
  · cases found
    exact ⟨1, rfl⟩
  split at found
  · cases found
    exact ⟨2, rfl⟩
  split at found
  · cases found
    exact ⟨3, rfl⟩
  · cases found

/-- The structures of a contract have alignments that are powers of two. -/
def Aligned (contract : Contract) : Prop :=
  ∀ typ ∈ contract.types, typ.alignment.isPowerOfTwo

theorem valueLayout_aligned (aligned : Aligned contract) {name : Bytes} {layout : Layout}
    (found : valueLayout contract name = .ok layout) : layout.alignment.isPowerOfTwo := by
  unfold valueLayout at found
  split at found
  · next primitive =>
    cases found
    exact primitiveLayout_aligned primitive
  split at found
  · next typ listed =>
    cases found
    exact aligned typ (List.mem_of_find?_eq_some listed)
  · cases found

theorem typeLayout_value {type_ref : TypeRef} (value : type_ref.pointer = .value) :
    typeLayout contract type_ref = valueLayout contract type_ref.name := by
  unfold typeLayout
  cases valueLayout contract type_ref.name with
  | error error => rfl
  | ok layout => exact if_pos value

theorem alignForward_ok {value alignment result : Nat} (power : alignment.isPowerOfTwo)
    (done : alignForward value alignment = .ok result) : result = alignUp value alignment := by
  unfold alignForward at done
  split at done
  · cases done
  next small =>
  cases done
  obtain ⟨bits, rfl⟩ := power
  have narrow : 2 ^ bits < 2 ^ 32 := by omega
  exact land_mask (by omega) ((Nat.pow_lt_pow_iff_right (by omega)).mp narrow).le

theorem addU32_ok {a b result : Nat} (done : addU32 a b = .ok result) : result = a + b := by
  unfold addU32 at done
  split at done
  · cases done
  · cases done
    rfl

/-- What a field that is accepted does to the place behind it. -/
theorem validateField_ok (aligned : Aligned contract) {prior : List FieldContract}
    {state after : FieldCursor} {field : FieldContract}
    (done : validateField contract prior state field = .ok after) :
    (∀ other ∈ prior, field.name ≠ other.name) ∧
    ∃ layout, valueLayout contract field.type.name = .ok layout ∧
      field.offset = alignUp state.cursor layout.alignment ∧
      after = ⟨field.offset + layout.size, max state.max_alignment layout.alignment⟩ := by
  unfold validateField at done
  obtain ⟨-, -, done⟩ := bind_eq_ok.mp done
  obtain ⟨⟨⟩, plain, done⟩ := bind_eq_ok.mp done
  obtain ⟨⟨⟩, fresh, done⟩ := bind_eq_ok.mp done
  obtain ⟨layout, found, done⟩ := bind_eq_ok.mp done
  obtain ⟨place, moved, done⟩ := bind_eq_ok.mp done
  obtain ⟨⟨⟩, placed, done⟩ := bind_eq_ok.mp done
  obtain ⟨next, added, done⟩ := bind_eq_ok.mp done
  cases done
  rw [refuse_eq_ok] at plain fresh placed
  rw [not_not] at placed
  have value : field.type.pointer = .value := by
    by_contra other
    exact plain (.inr (.inl other))
  rw [typeLayout_value value] at found
  refine ⟨fun other member same => fresh ⟨other, member, same⟩, layout, found, ?_, ?_⟩
  · rw [placed]
    exact alignForward_ok (valueLayout_aligned aligned found) moved
  · rw [placed, addU32_ok added]

def Laid (contract : Contract) (fields : List FieldContract) (layouts : List Layout) : Prop :=
  List.Forall₂ (fun field layout => valueLayout contract field.type.name = .ok layout) fields
    layouts

theorem validateFields_ok (aligned : Aligned contract) {prior fields : List FieldContract}
    {state after : FieldCursor} (done : validateFields contract prior state fields = .ok after)
    (apart : (prior.map FieldContract.name).Nodup) :
    ((prior ++ fields).map FieldContract.name).Nodup ∧
    ∃ layouts, Laid contract fields layouts ∧
      fields.map FieldContract.offset = offsets state.cursor layouts ∧
      after = ⟨stop state.cursor layouts, strictest state.max_alignment layouts⟩ := by
  induction fields generalizing prior state with
  | nil =>
    cases done
    exact ⟨by rwa [List.append_nil], [], .nil, rfl, rfl⟩
  | cons field rest induction =>
    unfold validateFields at done
    obtain ⟨middle, first, done⟩ := bind_eq_ok.mp done
    obtain ⟨fresh, layout, found, placed, rfl⟩ := validateField_ok aligned first
    have apart_more : ((prior ++ [field]).map FieldContract.name).Nodup := by
      rw [List.map_append, List.nodup_append]
      refine ⟨apart, List.nodup_singleton _, fun name member other single => ?_⟩
      obtain ⟨earlier, stored, rfl⟩ := List.mem_map.mp member
      rw [List.map_singleton, List.mem_singleton] at single
      rw [single]
      exact (fresh earlier stored).symm
    obtain ⟨whole, layouts, laid, places, ended⟩ := induction done apart_more
    refine ⟨by rwa [List.append_assoc] at whole, layout :: layouts, .cons found laid, ?_, ?_⟩
    · rw [List.map_cons, places, placed, offsets]
    · rw [ended, placed, stop, strictest]

/-- A structure of an accepted contract is laid out by the layouts that the contract declares. -/
structure Follows (contract : Contract) (typ : StructContract) : Prop where
  names : (typ.fields.map FieldContract.name).Nodup
  laid : ∃ layouts, Laid contract typ.fields layouts ∧
    typ.fields.map FieldContract.offset = offsets 0 layouts ∧ typ.layout = ofMembers layouts

theorem validateType_ok {prior : List StructContract} (aligned : Aligned contract)
    (done : validateType contract prior typ = .ok ()) : Follows contract typ := by
  unfold validateType at done
  obtain ⟨-, -, done⟩ := bind_eq_ok.mp done
  obtain ⟨⟨⟩, shaped, done⟩ := bind_eq_ok.mp done
  obtain ⟨-, -, done⟩ := bind_eq_ok.mp done
  obtain ⟨state, fields, done⟩ := bind_eq_ok.mp done
  obtain ⟨size, moved, done⟩ := bind_eq_ok.mp done
  rw [refuse_eq_ok] at shaped done
  push Not at shaped done
  obtain ⟨names, layouts, laid, places, ended⟩ := validateFields_ok aligned fields List.nodup_nil
  rw [ended] at done moved
  refine ⟨names, layouts, laid, places, ?_⟩
  have same : typ.alignment = strictest 1 layouts := done.1
  have power : (strictest 1 layouts).isPowerOfTwo := by
    rw [← same]
    exact shaped.2.2.1
  unfold StructContract.layout ofMembers
  rw [same, done.2, alignForward_ok power moved]

end Structures

/-- Constants and errors are named in one way. -/
def Contract.namedValues (contract : Contract) : List NamedValue :=
  contract.constants ++ contract.errors

/-- What the checks of a contract establish. -/
structure Accepted (contract : Contract) : Prop where
  types : ∀ typ ∈ contract.types, Follows contract typ
  type_names : (contract.types.map StructContract.name).Nodup
  zig_values : (contract.namedValues.map NamedValue.zig_name).Nodup
  c_values : (contract.namedValues.map NamedValue.c_name).Nodup
  zig_interfaces : (contract.interfaces.map InterfaceContract.zig_name).Nodup
  zig_tables : (contract.interfaces.map InterfaceContract.zig_type).Nodup
  c_tables : (contract.interfaces.map InterfaceContract.c_type).Nodup
  slots : ∀ interface ∈ contract.interfaces, ∀ index (function : FunctionContract),
    interface.functions[index]? = some function → function.slot = index
  functions : ∀ interface ∈ contract.interfaces, interface.memberNames.Nodup
  c_functions : ∀ interface ∈ contract.interfaces,
    (interface.functions.map FunctionContract.c_name).Nodup

section Contracts

variable {contract : Contract}

theorem validateType_aligned {prior : List StructContract} {typ : StructContract}
    (done : validateType contract prior typ = .ok ()) :
    typ.alignment.isPowerOfTwo ∧ ∀ other ∈ prior, other.name ≠ typ.name := by
  unfold validateType at done
  obtain ⟨-, -, done⟩ := bind_eq_ok.mp done
  obtain ⟨⟨⟩, shaped, done⟩ := bind_eq_ok.mp done
  obtain ⟨⟨⟩, fresh, done⟩ := bind_eq_ok.mp done
  rw [refuse_eq_ok] at shaped fresh
  push Not at shaped fresh
  exact ⟨shaped.2.2.1, fun other member => (fresh other member).symm⟩

theorem validateNamedValue_ok {require_negative : Bool} {prior : List NamedValue}
    {value : NamedValue}
    (done : validateNamedValue contract require_negative prior value = .ok ()) :
    ∀ other ∈ prior, other.zig_name ≠ value.zig_name ∧ other.c_name ≠ value.c_name := by
  unfold validateNamedValue at done
  obtain ⟨-, -, done⟩ := bind_eq_ok.mp done
  obtain ⟨-, -, done⟩ := bind_eq_ok.mp done
  obtain ⟨-, -, done⟩ := bind_eq_ok.mp done
  obtain ⟨-, -, done⟩ := bind_eq_ok.mp done
  obtain ⟨-, -, fresh⟩ := bind_eq_ok.mp done
  rw [refuse_eq_ok] at fresh
  push Not at fresh
  exact fun other member => ⟨(fresh other member).1.symm, (fresh other member).2.1.symm⟩

/-- The names of constants and of errors differ among themselves. -/
theorem validateNamedValues_ok {values : List NamedValue} {require_negative : Bool}
    (done : validateNamedValues contract values require_negative = .ok ()) :
    (values.map NamedValue.zig_name).Nodup ∧ (values.map NamedValue.c_name).Nodup :=
  ⟨List.pairwise_map.mpr (checkEach_pairwise
      (fun _ _ checked other member => (validateNamedValue_ok checked other member).1) done),
    List.pairwise_map.mpr (checkEach_pairwise
      (fun _ _ checked other member => (validateNamedValue_ok checked other member).2) done)⟩

theorem namedValues_nodup {name : NamedValue → Bytes}
    (constants : (contract.constants.map name).Nodup) (errors : (contract.errors.map name).Nodup)
    (apart : ∀ constant ∈ contract.constants, ∀ err ∈ contract.errors, name constant ≠ name err) :
    (contract.namedValues.map name).Nodup := by
  unfold Contract.namedValues
  rw [List.map_append, List.nodup_append]
  refine ⟨constants, errors, fun first first_member second second_member => ?_⟩
  obtain ⟨constant, constant_member, rfl⟩ := List.mem_map.mp first_member
  obtain ⟨err, err_member, rfl⟩ := List.mem_map.mp second_member
  exact apart constant constant_member err err_member

theorem validateFunction_ok {interface : InterfaceContract} {prior : List FunctionContract}
    {function : FunctionContract}
    (done : validateFunction contract interface prior function = .ok ()) :
    function.slot = prior.length ∧
      ∀ other ∈ prior, other.name ≠ function.name ∧ other.c_name ≠ function.c_name := by
  unfold validateFunction at done
  obtain ⟨-, -, done⟩ := bind_eq_ok.mp done
  obtain ⟨-, -, done⟩ := bind_eq_ok.mp done
  obtain ⟨-, -, done⟩ := bind_eq_ok.mp done
  obtain ⟨⟨⟩, shaped, done⟩ := bind_eq_ok.mp done
  obtain ⟨-, -, done⟩ := bind_eq_ok.mp done
  obtain ⟨-, -, done⟩ := bind_eq_ok.mp done
  obtain ⟨-, -, done⟩ := bind_eq_ok.mp done
  obtain ⟨⟨⟩, fresh, done⟩ := bind_eq_ok.mp done
  rw [refuse_eq_ok] at shaped fresh
  push Not at shaped fresh
  exact ⟨shaped.1, fun other member =>
    ⟨(fresh other member).1.symm, (fresh other member).2.1.symm⟩⟩

/-- Interfaces differ from those before them in their names and in those of their tables. -/
theorem validateInterface_ok {prior : List InterfaceContract} {interface : InterfaceContract}
    (done : validateInterface contract prior interface = .ok ()) :
    (∀ other ∈ prior, other.zig_name ≠ interface.zig_name ∧
      other.zig_type ≠ interface.zig_type ∧ other.c_type ≠ interface.c_type) ∧
    checkEach (validateFunction contract interface) [] interface.functions = .ok () := by
  unfold validateInterface at done
  obtain ⟨-, -, done⟩ := bind_eq_ok.mp done
  obtain ⟨-, -, done⟩ := bind_eq_ok.mp done
  obtain ⟨-, -, done⟩ := bind_eq_ok.mp done
  obtain ⟨-, -, done⟩ := bind_eq_ok.mp done
  obtain ⟨-, -, done⟩ := bind_eq_ok.mp done
  obtain ⟨-, -, done⟩ := bind_eq_ok.mp done
  obtain ⟨⟨⟩, fresh, done⟩ := bind_eq_ok.mp done
  rw [refuse_eq_ok] at fresh
  push Not at fresh
  refine ⟨fun other member => ?_, done⟩
  obtain ⟨-, -, zig_name, zig_type, c_type⟩ := fresh other member
  exact ⟨zig_name.symm, zig_type.symm, c_type.symm⟩

theorem validateContract_accepted (done : validateContract contract = .ok ()) :
    Accepted contract := by
  unfold validateContract at done
  obtain ⟨-, -, done⟩ := bind_eq_ok.mp done
  obtain ⟨-, -, done⟩ := bind_eq_ok.mp done
  obtain ⟨-, -, done⟩ := bind_eq_ok.mp done
  obtain ⟨-, -, done⟩ := bind_eq_ok.mp done
  obtain ⟨-, -, done⟩ := bind_eq_ok.mp done
  obtain ⟨-, -, done⟩ := bind_eq_ok.mp done
  obtain ⟨⟨⟩, types, done⟩ := bind_eq_ok.mp done
  obtain ⟨⟨⟩, constants, done⟩ := bind_eq_ok.mp done
  obtain ⟨⟨⟩, errors, done⟩ := bind_eq_ok.mp done
  obtain ⟨⟨⟩, apart, done⟩ := bind_eq_ok.mp done
  obtain ⟨⟨⟩, interfaces, -⟩ := bind_eq_ok.mp done
  rw [refuse_eq_ok] at apart
  push Not at apart
  have aligned : Aligned contract := fun typ member => by
    obtain ⟨before, checked⟩ := checkEach_mem types member
    exact (validateType_aligned checked).1
  have functions : ∀ interface ∈ contract.interfaces,
      checkEach (validateFunction contract interface) [] interface.functions = .ok () :=
    fun interface member => by
      obtain ⟨before, checked⟩ := checkEach_mem interfaces member
      exact (validateInterface_ok checked).2
  constructor
  case types =>
    intro typ member
    obtain ⟨before, checked⟩ := checkEach_mem types member
    exact validateType_ok aligned checked
  case type_names =>
    exact List.pairwise_map.mpr
      (checkEach_pairwise (fun before typ checked => (validateType_aligned checked).2) types)
  case zig_values =>
    exact namedValues_nodup (validateNamedValues_ok constants).1 (validateNamedValues_ok errors).1
      fun constant member err err_member => (apart constant member err err_member).1
  case c_values =>
    exact namedValues_nodup (validateNamedValues_ok constants).2 (validateNamedValues_ok errors).2
      fun constant member err err_member => (apart constant member err err_member).2
  case zig_interfaces =>
    exact List.pairwise_map.mpr (checkEach_pairwise
      (fun _ _ checked other member => ((validateInterface_ok checked).1 other member).1) interfaces)
  case zig_tables =>
    exact List.pairwise_map.mpr (checkEach_pairwise
      (fun _ _ checked other member => ((validateInterface_ok checked).1 other member).2.1)
      interfaces)
  case c_tables =>
    exact List.pairwise_map.mpr (checkEach_pairwise
      (fun _ _ checked other member => ((validateInterface_ok checked).1 other member).2.2)
      interfaces)
  case slots =>
    intro interface member index function listed
    obtain ⟨inside, rfl⟩ := List.getElem?_eq_some_iff.mp listed
    have split : interface.functions = interface.functions.take index ++
        interface.functions[index] :: interface.functions.drop (index + 1) := by
      rw [List.getElem_cons_drop, List.take_append_drop]
    have checked := checkEach_iff.mp (functions interface member) _ _ _ split
    rw [(validateFunction_ok checked).1, List.nil_append, List.length_take]
    omega
  case functions =>
    exact fun interface member => List.pairwise_map.mpr (checkEach_pairwise
      (fun _ _ checked other prior => ((validateFunction_ok checked).2 other prior).1)
      (functions interface member))
  case c_functions =>
    exact fun interface member => List.pairwise_map.mpr (checkEach_pairwise
      (fun _ _ checked other prior => ((validateFunction_ok checked).2 other prior).2)
      (functions interface member))

end Contracts

end R4OS.LibraryContract
