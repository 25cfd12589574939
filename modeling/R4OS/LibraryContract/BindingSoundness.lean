import R4OS.LibraryContract.BindingNames

/-!
# Well-formed bindings

An accepted contract has well-formed bindings exactly when no value is void, the structures stand in
the order in which they are used, and the derived names differ.  None of this is checked.
-/

namespace R4OS.LibraryContract

open CLayout Incremental Text

/-- A primitive type that has values. -/
def IsPrimitive (name : Bytes) : Prop :=
  name ≠ ascii "void" ∧ (primitiveLayout name).isSome = true

/-- The layout of a primitive type or of one of some structures. -/
def fieldLayout (declared : List (Bytes × Layout)) (name : Bytes) : Option Layout :=
  if name = ascii "void" then none
  else match primitiveLayout name with
    | some layout => some layout
    | none => declared.lookup name

/-- Structures have the layouts that follow from the structures before them by the rules of C. -/
def Realised (declared : List (Bytes × Layout)) : List StructContract → Prop
  | [] => True
  | typ :: rest => ∃ layouts,
      typ.fields.mapM (fun field => fieldLayout declared field.type.name) = some layouts ∧
      typ.fields.map FieldContract.offset = offsets 0 layouts ∧ typ.layout = ofMembers layouts ∧
      Realised (declared ++ [(typ.name, ofMembers layouts)]) rest

/-- No value is void. -/
structure Solid (contract : Contract) : Prop where
  fields : ∀ typ ∈ contract.types, ∀ field ∈ typ.fields, field.type.name ≠ ascii "void"
  parameters : ∀ interface ∈ contract.interfaces, ∀ function ∈ interface.functions,
    ∀ parameter ∈ function.parameters, parameter.type.pointer = .value →
      parameter.type.name ≠ ascii "void"
  values : ∀ value ∈ contract.constants ++ contract.errors, value.type ≠ ascii "void"

/-- The layouts of the members of a table: its header and a pointer for every function. -/
def tableMembers (interface : InterfaceContract) : List Layout :=
  ⟨interface_header_size, pointer_size⟩ ::
    List.replicate interface.functions.length ⟨pointer_size, pointer_size⟩

/-- A layout that can be realised, and bindings that are well formed. -/
structure WellFormed (contract : Contract) : Prop where
  fields : ∀ before typ after, contract.types = before ++ typ :: after →
    ∀ field ∈ typ.fields, IsPrimitive field.type.name ∨
      ∃ other ∈ before, other.name = field.type.name
  realised : Realised [] contract.types
  slots : ∀ interface ∈ contract.interfaces, ∀ index (function : FunctionContract),
    interface.functions[index]? = some function →
    (offsets 0 (tableMembers interface))[index + 1]? = some (slotOffset function)
  tables : ∀ interface ∈ contract.interfaces,
    (ofMembers (tableMembers interface)).size = tableSize interface
  solid : Solid contract
  zig : Distinct (renderBindingZig contract)
  c : Distinct (renderBindingC contract)

/-- What the checks of a contract leave out: void values, the order of structures, reserved names of
functions, and collisions of generated names. -/
structure Compatible (contract : Contract) : Prop where
  solid : Solid contract
  ordered : ∀ before typ after, contract.types = before ++ typ :: after →
    ∀ field ∈ typ.fields, (primitiveLayout field.type.name).isSome = true ∨
      ∃ other ∈ before, other.name = field.type.name
  unreserved : ∀ interface ∈ contract.interfaces,
    ascii "header" ∉ interface.memberNames ∧ ascii "init" ∉ interface.memberNames
  zig_types : (contract.types.map StructContract.name).Disjoint
    (ascii "InterfaceHeader" ::
      (contract.interfaces.map InterfaceContract.zig_type ++ zigClientNames contract))
  zig_tables : (contract.interfaces.map InterfaceContract.zig_type).Disjoint
    (ascii "InterfaceHeader" :: zigClientNames contract)
  zig_values : (contract.namedValues.map NamedValue.zig_name).Disjoint
    (ascii "r4os" :: ascii "module_name" :: zigInterfaceConstants contract)
  zig_function_types : (functionTypeNames contract InterfaceContract.zig_type).Nodup
  c_types : (contract.types.map StructContract.name).Disjoint
    (contract.interfaces.map InterfaceContract.c_type ++ cClientNames contract)
  c_tables : (contract.interfaces.map InterfaceContract.c_type).Disjoint (cClientNames contract)
  c_values : (contract.namedValues.map NamedValue.c_name).Disjoint
    (guardName contract :: cMacroNames contract)
  c_macros : (contract.interfaces.map fun interface => upperIdentifier interface.zig_name).Nodup
  c_function_types : (functionTypeNames contract InterfaceContract.c_type).Nodup
  c_functions : contract.interfaces.Pairwise fun first second =>
    (first.functions.map FunctionContract.c_name).Disjoint
      (second.functions.map FunctionContract.c_name)
  c_inits : (contract.interfaces.flatMap fun interface =>
    interface.functions.map FunctionContract.c_name).Disjoint (cInitNames contract)

section Layouts

variable {contract : Contract}

variable {before rest : List StructContract}

theorem lookup_declared (types : List StructContract) (name : Bytes) :
    (types.map fun typ => (typ.name, typ.layout)).lookup name =
      (types.find? (·.name = name)).map StructContract.layout := by
  induction types with
  | nil => rfl
  | cons typ rest induction =>
    rw [List.map_cons, List.lookup_cons, List.find?_cons, induction]
    by_cases same : typ.name = name
    · simp [same]
    · have distinct : (name == typ.name) = false := by simpa using Ne.symm same
      simp [same, distinct]

theorem fieldLayout_eq (split : contract.types = before ++ rest) {name : Bytes} {layout : Layout}
    (solid : name ≠ ascii "void")
    (known : (primitiveLayout name).isSome = true ∨ ∃ other ∈ before, other.name = name)
    (found : valueLayout contract name = .ok layout) :
    fieldLayout (before.map fun typ => (typ.name, typ.layout)) name = some layout := by
  unfold fieldLayout
  unfold valueLayout at found
  rw [if_neg solid]
  cases primitive : primitiveLayout name with
  | some own =>
    rw [primitive] at found
    cases found
    rfl
  | none =>
    rw [primitive] at found known
    obtain ⟨other, stored, named⟩ := known.resolve_left (by simp)
    dsimp only at found ⊢
    rw [lookup_declared]
    rw [split, List.find?_append] at found
    cases listed : before.find? (·.name = name) with
    | none =>
      have absent := List.find?_eq_none.mp listed other stored
      simp [named] at absent
    | some typ =>
      rw [listed] at found
      cases found
      rfl

theorem mapM_eq_some {fields : List FieldContract} {layouts : List Layout}
    {layout_of : FieldContract → Option Layout}
    (every : List.Forall₂ (fun field layout => layout_of field = some layout) fields layouts) :
    fields.mapM layout_of = some layouts := by
  induction every with
  | nil => rfl
  | cons found _ induction => rw [List.mapM_cons, found, induction]; rfl

/-- The structures before some fields give them the layouts that the contract declares. -/
theorem laid_from (split : contract.types = before ++ rest)
    {fields : List FieldContract} {layouts : List Layout}
    (solid : ∀ field ∈ fields, field.type.name ≠ ascii "void")
    (known : ∀ field ∈ fields, (primitiveLayout field.type.name).isSome = true ∨
      ∃ other ∈ before, other.name = field.type.name)
    (laid : Laid contract fields layouts) :
    List.Forall₂ (fun (field : FieldContract) layout =>
      fieldLayout (before.map fun typ => (typ.name, typ.layout)) field.type.name = some layout)
      fields layouts := by
  induction laid with
  | nil => exact .nil
  | cons found _ induction =>
    rw [List.forall_mem_cons] at solid known
    exact .cons (fieldLayout_eq split solid.1 known.1 found) (induction solid.2 known.2)

theorem realised_from (accepted : Accepted contract) (solid : Solid contract)
    (ordered : ∀ before typ after, contract.types = before ++ typ :: after →
      ∀ field ∈ typ.fields, (primitiveLayout field.type.name).isSome = true ∨
        ∃ other ∈ before, other.name = field.type.name) (split : contract.types = before ++ rest) :
    Realised (before.map fun typ => (typ.name, typ.layout)) rest := by
  induction rest generalizing before with
  | nil => trivial
  | cons typ rest induction =>
    have member : typ ∈ contract.types := by
      rw [split]
      exact List.mem_append_right _ (.head _)
    obtain ⟨layouts, laid, places, whole⟩ := (accepted.types typ member).laid
    have split_after : contract.types = (before ++ [typ]) ++ rest := by
      rw [split, List.append_assoc]
      rfl
    have next := induction split_after
    rw [List.map_append, List.map_singleton, whole] at next
    exact ⟨layouts, mapM_eq_some (laid_from split
      (fun field listed => solid.fields typ member field listed)
      (fun field listed => ordered before typ rest split field listed) laid), places, whole, next⟩

theorem slots_realised (accepted : Accepted contract) {interface : InterfaceContract}
    (member : interface ∈ contract.interfaces) {index : Nat} {function : FunctionContract}
    (listed : interface.functions[index]? = some function) :
    (offsets 0 (tableMembers interface))[index + 1]? = some (slotOffset function) := by
  have inside := (List.getElem?_eq_some_iff.mp listed).1
  unfold tableMembers slotOffset
  rw [offsets, List.getElem?_cons_succ, accepted.slots interface member index function listed]
  have header : alignUp 0 pointer_size + interface_header_size = interface_header_size := rfl
  rw [header, Nat.mul_comm index]
  exact offsets_replicate (by decide) (by decide) interface.functions.length index inside

theorem tables_realised (interface : InterfaceContract) :
    (ofMembers (tableMembers interface)).size = tableSize interface := by
  have header : alignUp 0 pointer_size + interface_header_size = interface_header_size := rfl
  have positive : 0 < pointer_size := by decide
  have aligned : pointer_size ∣ interface_header_size + pointer_size * interface.functions.length :=
    Nat.dvd_add (by decide) (Nat.dvd_mul_right _ _)
  have strict : max 1 pointer_size = pointer_size := rfl
  unfold tableMembers ofMembers
  dsimp [stop, strictest]
  rw [header, stop_replicate positive (by decide), strict,
    strictest_replicate interface.functions.length (Nat.le_refl pointer_size),
    alignUp_of_dvd positive aligned, tableSize, Nat.mul_comm]

end Layouts

section Members

variable {contract : Contract}

theorem forall_mem_flatMap {Value Result : Type} {values : List Value}
    {declare : Value → List Result} {good : Result → Prop} :
    (∀ result ∈ values.flatMap declare, good result) ↔
      ∀ value ∈ values, ∀ result ∈ declare value, good result := by
  constructor
  · exact fun all value member result declared =>
      all result (List.mem_flatMap.mpr ⟨value, member, declared⟩)
  · intro all result member
    obtain ⟨value, value_member, declared⟩ := List.mem_flatMap.mp member
    exact all value value_member result declared

variable (accepted : Accepted contract)

include accepted

theorem table_members_nodup {interface : InterfaceContract}
    (member : interface ∈ contract.interfaces) (name : Bytes) :
    (tableDeclaration name interface).members.Nodup ↔ ascii "header" ∉ interface.memberNames := by
  rw [tableDeclaration, List.nodup_cons]
  exact and_iff_left (accepted.functions interface member)

theorem client_members_nodup {interface : InterfaceContract}
    (member : interface ∈ contract.interfaces) : (renderZigClient interface).members.Nodup ↔
      ascii "header" ∉ interface.memberNames ∧ ascii "init" ∉ interface.memberNames := by
  have reserved : ascii "header" ≠ ascii "init" := by decide
  rw [renderZigClient, List.nodup_cons, List.nodup_cons, List.mem_cons, not_or]
  simp [reserved, accepted.functions interface member]

/-- Members of Zig structures differ when no function has a reserved name. -/
theorem zig_members_nodup :
    (∀ declaration ∈ renderBindingZig contract, declaration.members.Nodup) ↔
      ∀ interface ∈ contract.interfaces,
        ascii "header" ∉ interface.memberNames ∧ ascii "init" ∉ interface.memberNames := by
  constructor
  · intro distinct interface member
    refine (client_members_nodup accepted member).mp (distinct _ ?_)
    exact List.mem_append_right _ (List.mem_map_of_mem member)
  · intro unreserved
    simp only [renderBindingZig, renderZigDefinitions, renderZigInterface, List.forall_mem_append,
      List.forall_mem_cons, List.forall_mem_map, forall_mem_flatMap]
    have plain : (constant []).members.Nodup := List.nodup_nil
    refine ⟨⟨⟨plain, plain, List.forall_mem_nil _⟩,
      ⟨⟨⟨⟨plain, List.forall_mem_nil _⟩, ?_⟩, fun _ _ => plain⟩, fun _ _ => plain⟩, ?_⟩, ?_⟩
    · exact fun typ member => (accepted.types typ member).names
    · exact fun interface member =>
        ⟨⟨⟨plain, plain, plain, List.forall_mem_nil _⟩, fun _ _ => plain⟩,
          (table_members_nodup accepted member _).mpr (unreserved interface member).1,
          List.forall_mem_nil _⟩
    · exact fun interface member =>
        (client_members_nodup accepted member).mpr (unreserved interface member)

theorem c_members_nodup
    (unreserved : ∀ interface ∈ contract.interfaces, ascii "header" ∉ interface.memberNames) :
    ∀ declaration ∈ renderBindingC contract, declaration.members.Nodup := by
  simp only [renderBindingC, renderCInterface, List.forall_mem_append, List.forall_mem_cons,
    List.forall_mem_map, forall_mem_flatMap]
  have plain : (constant []).members.Nodup := List.nodup_nil
  refine ⟨⟨⟨⟨⟨plain, List.forall_mem_nil _⟩, ?_⟩, fun _ _ => plain⟩, fun _ _ => plain⟩, ?_⟩
  · exact fun typ member => (accepted.types typ member).names
  · exact fun interface member => ⟨⟨⟨fun _ _ => plain, fun _ _ => plain⟩,
      (table_members_nodup accepted member _).mpr (unreserved interface member),
      List.nodup_singleton _, plain, plain, List.forall_mem_nil _⟩, fun _ _ => plain⟩

end Members

theorem forall_space {holds : Space → Prop} : (∀ space, holds space) ↔
    holds .type ∧ holds .function_type ∧ holds .constant ∧ holds .function := by
  constructor
  · exact fun all => ⟨all _, all _, all _, all _⟩
  · rintro ⟨types, function_types, constants, functions⟩ (_ | _ | _ | _)
    · exact types
    · exact function_types
    · exact constants
    · exact functions

def sample_interface : InterfaceContract where
  export_name := ascii "Sample"
  symbol := ascii "sample_table"
  zig_name := ascii "sample"
  zig_type := ascii "Sample"
  c_type := ascii "r4_sample"
  abi_major := 1
  revision := 1
  interface_id_lo := 1
  interface_id_hi := 0
  functions := []
  description := ascii "A sample."

def sampleContract (types : List StructContract) : Contract where
  schema_version := 1
  module_name := ascii "SAMPLE"
  zig_client := ascii "SampleClient"
  c_prefix_name := ascii "r4_sample"
  c_header := ascii "sample.h"
  description := ascii "A sample."
  interfaces := [sample_interface]
  types := types
  ownership_rules := [{ name := ascii "memory", text := ascii "The caller owns its memory." }]

/-- A structure that contains itself. -/
def endless : StructContract where
  name := ascii "Node"
  size := 8
  alignment := 8
  fields := [{
    name := ascii "next"
    offset := 0
    type := { name := ascii "Node" }
    description := ascii "The next node." }]
  description := ascii "A node."

end R4OS.LibraryContract
