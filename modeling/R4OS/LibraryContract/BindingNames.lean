import R4OS.LibraryContract.Acceptance
import R4OS.Text.DerivedNames

/-!
# Names of bindings

The names that a binding declares, kind by kind, and when the names of a kind differ.
-/

namespace R4OS.LibraryContract

open CLayout Incremental Text DerivedNames

def namesOf (space : Space) (declarations : List Declaration) : List Bytes :=
  (declarations.filter (·.space = space)).map Declaration.name

/-- Names of one kind differ, and so do the members of every structure. -/
structure Distinct (declarations : List Declaration) : Prop where
  names : ∀ space, (namesOf space declarations).Nodup
  members : ∀ declaration ∈ declarations, declaration.members.Nodup

/-- Generated structures beside those of the contract. -/
def zigClientNames (contract : Contract) : List Bytes :=
  contract.interfaces.map fun interface => clientName interface.zig_type

def cClientNames (contract : Contract) : List Bytes :=
  contract.interfaces.map fun interface => clientName interface.c_type

def zigInterfaceConstants (contract : Contract) : List Bytes :=
  contract.interfaces.flatMap fun interface =>
    [interface.zig_name ++ ascii "_export_name", interface.zig_name ++ ascii "_revision",
      interface.zig_name ++ ascii "_header"]

def cMacroNames (contract : Contract) : List Bytes :=
  contract.interfaces.flatMap fun interface => macro_endings.map (macroName contract interface)

/-- The functions that initialize clients. -/
def cInitNames (contract : Contract) : List Bytes :=
  contract.interfaces.flatMap fun interface =>
    [initName contract interface, initOptionalName contract interface]

/-- The function pointer types of interfaces that are called by some names. -/
def functionTypeNames (contract : Contract) (named : InterfaceContract → Bytes) : List Bytes :=
  contract.interfaces.flatMap fun interface =>
    interface.functions.map fun function => functionTypeName (named interface) function.name

section Names

variable {contract : Contract} {space : Space}

theorem namesOf_cons (declaration : Declaration) (rest : List Declaration) :
    namesOf space (declaration :: rest) =
      if declaration.space = space then declaration.name :: namesOf space rest
      else namesOf space rest := by
  unfold namesOf
  rw [List.filter_cons]
  split_ifs <;> simp_all

theorem namesOf_nil : namesOf space [] = [] := rfl

theorem namesOf_append (first second : List Declaration) :
    namesOf space (first ++ second) = namesOf space first ++ namesOf space second := by
  unfold namesOf
  rw [List.filter_append, List.map_append]

variable {Value : Type}

theorem namesOf_flatMap (values : List Value) (declare : Value → List Declaration) :
    namesOf space (values.flatMap declare) =
      values.flatMap fun value => namesOf space (declare value) := by
  induction values with
  | nil => rfl
  | cons value rest induction =>
    rw [List.flatMap_cons, List.flatMap_cons, namesOf_append, induction]

theorem namesOf_map {values : List Value} {declare : Value → Declaration} {kind : Space}
    (same : ∀ value, (declare value).space = kind) :
    namesOf space (values.map declare) =
      if kind = space then values.map fun value => (declare value).name else [] := by
  induction values with
  | nil => simp [namesOf]
  | cons value rest induction =>
    rw [List.map_cons, namesOf_cons, induction, same]
    split_ifs <;> rfl

theorem namesOf_structures (types : List StructContract) :
    namesOf space (types.map StructContract.declaration) =
      if Space.type = space then types.map StructContract.name else [] :=
  namesOf_map fun _ => rfl

theorem namesOf_constants (values : List Value) (name : Value → Bytes) :
    namesOf space (values.map fun value => constant (name value)) =
      if Space.constant = space then values.map name else [] :=
  namesOf_map fun _ => rfl

theorem namesOf_functionTypes (interface_name : Bytes) (functions : List FunctionContract) :
    namesOf space (functions.map (functionType interface_name)) =
      if Space.function_type = space then
        functions.map fun function => functionTypeName interface_name function.name
      else [] :=
  namesOf_map fun _ => rfl

theorem namesOf_clients (interfaces : List InterfaceContract) :
    namesOf space (interfaces.map renderZigClient) =
      if Space.type = space then interfaces.map fun interface => clientName interface.zig_type
      else [] :=
  namesOf_map fun _ => rfl

theorem namesOf_functions (functions : List FunctionContract) :
    namesOf space (functions.map fun function => { space := .function, name := function.c_name }) =
      if Space.function = space then functions.map FunctionContract.c_name else [] :=
  namesOf_map fun _ => rfl

theorem flatMap_empty {Result : Type} (values : List Value) :
    (values.flatMap fun _ => ([] : List Result)) = [] := by
  induction values with
  | nil => rfl
  | cons _ _ induction => rw [List.flatMap_cons, induction]; rfl

theorem flatMap_single {Result : Type} (values : List Value) (name : Value → Result) :
    (values.flatMap fun value => [name value]) = values.map name :=
  List.flatMap_pure_eq_map name values

theorem constant_space (name : Bytes) : (constant name).space = .constant := rfl

theorem constant_name (name : Bytes) : (constant name).name = name := rfl

theorem zigInterface_names (interface : InterfaceContract) :
    namesOf .type (renderZigInterface interface) = [interface.zig_type] ∧
    namesOf .function_type (renderZigInterface interface) =
      (interface.functions.map fun function =>
        functionTypeName interface.zig_type function.name) ∧
    namesOf .constant (renderZigInterface interface) =
      [interface.zig_name ++ ascii "_export_name", interface.zig_name ++ ascii "_revision",
        interface.zig_name ++ ascii "_header"] ∧
    namesOf .function (renderZigInterface interface) = [] := by
  refine ⟨?_, ?_, ?_, ?_⟩ <;>
    simp [renderZigInterface, namesOf_append, namesOf_cons, namesOf_nil, namesOf_functionTypes,
      constant_space, constant_name, tableDeclaration]

theorem zig_type_names : namesOf .type (renderBindingZig contract) =
    ascii "InterfaceHeader" :: (contract.types.map StructContract.name ++
      (contract.interfaces.map InterfaceContract.zig_type ++ zigClientNames contract)) := by
  simp [renderBindingZig, renderZigDefinitions, namesOf_cons, namesOf_append, namesOf_flatMap,
    namesOf_structures, namesOf_constants, namesOf_clients, constant_space,
    zigInterface_names, flatMap_single, zigClientNames]

theorem zig_function_type_names : namesOf .function_type (renderBindingZig contract) =
    functionTypeNames contract InterfaceContract.zig_type := by
  simp [renderBindingZig, renderZigDefinitions, namesOf_cons, namesOf_append, namesOf_flatMap,
    namesOf_structures, namesOf_constants, namesOf_clients, constant_space,
    zigInterface_names, functionTypeNames]

theorem zig_constant_names : namesOf .constant (renderBindingZig contract) =
    ascii "r4os" :: ascii "module_name" :: (contract.namedValues.map NamedValue.zig_name ++
      zigInterfaceConstants contract) := by
  simp [renderBindingZig, renderZigDefinitions, namesOf_cons, namesOf_append, namesOf_flatMap,
    namesOf_structures, namesOf_constants, namesOf_clients, constant_space,
    constant_name, zigInterface_names, zigInterfaceConstants, Contract.namedValues]

theorem zig_function_names : namesOf .function (renderBindingZig contract) = [] := by
  simp [renderBindingZig, renderZigDefinitions, namesOf_cons, namesOf_append, namesOf_flatMap,
    namesOf_structures, namesOf_constants, namesOf_clients, constant_space,
    zigInterface_names, flatMap_empty]

theorem cInterface_names (interface : InterfaceContract) :
    namesOf .type (renderCInterface contract interface) =
      [interface.c_type, clientName interface.c_type] ∧
    namesOf .function_type (renderCInterface contract interface) =
      (interface.functions.map fun function =>
        functionTypeName interface.c_type function.name) ∧
    namesOf .constant (renderCInterface contract interface) =
      macro_endings.map (macroName contract interface) ∧
    namesOf .function (renderCInterface contract interface) =
      [initName contract interface, initOptionalName contract interface] ++
        interface.functions.map FunctionContract.c_name := by
  refine ⟨?_, ?_, ?_, ?_⟩ <;>
    simp [renderCInterface, namesOf_append, namesOf_cons, namesOf_functionTypes,
      namesOf_constants, namesOf_functions, tableDeclaration]

theorem c_type_names : namesOf .type (renderBindingC contract) =
    contract.types.map StructContract.name ++
      contract.interfaces.flatMap fun interface =>
        [interface.c_type, clientName interface.c_type] := by
  simp [renderBindingC, namesOf_cons, namesOf_append, namesOf_flatMap,
    namesOf_structures, namesOf_constants, constant_space, cInterface_names]

theorem c_function_type_names : namesOf .function_type (renderBindingC contract) =
    functionTypeNames contract InterfaceContract.c_type := by
  simp [renderBindingC, namesOf_cons, namesOf_append, namesOf_flatMap,
    namesOf_structures, namesOf_constants, constant_space, cInterface_names, functionTypeNames]

theorem c_constant_names : namesOf .constant (renderBindingC contract) =
    guardName contract :: (contract.namedValues.map NamedValue.c_name ++ cMacroNames contract) := by
  simp [renderBindingC, namesOf_cons, namesOf_append, namesOf_flatMap,
    namesOf_structures, namesOf_constants, constant_space, constant_name, cInterface_names,
    cMacroNames, Contract.namedValues]

theorem c_function_names : namesOf .function (renderBindingC contract) =
    contract.interfaces.flatMap fun interface =>
      [initName contract interface, initOptionalName contract interface] ++
        interface.functions.map FunctionContract.c_name := by
  simp [renderBindingC, namesOf_cons, namesOf_append, namesOf_flatMap,
    namesOf_structures, namesOf_constants, constant_space, cInterface_names]

end Names

section Different

variable {contract : Contract}

def constant_endings : List Bytes :=
  [ascii "_export_name", ascii "_revision", ascii "_header"]

def init_endings : List Bytes := [ascii "_init", ascii "_init_optional"]

theorem constant_endings_free : SuffixFree constant_endings := by
  unfold SuffixFree constant_endings
  decide

theorem init_endings_free : SuffixFree init_endings := by
  unfold SuffixFree init_endings
  decide

theorem macro_endings_free : SuffixFree macro_endings := by
  unfold SuffixFree macro_endings
  decide

theorem zigInterfaceConstants_eq : zigInterfaceConstants contract =
    derived (contract.interfaces.map InterfaceContract.zig_name) constant_endings := by
  unfold zigInterfaceConstants derived constant_endings
  rw [List.flatMap_map]
  rfl

theorem cMacroNames_eq : cMacroNames contract =
    derived (contract.interfaces.map fun interface =>
      upperIdentifier contract.module_name ++ [chr '_'] ++ upperIdentifier interface.zig_name)
      macro_endings := by
  unfold cMacroNames derived
  rw [List.flatMap_map]
  rfl

theorem cInitNames_eq : cInitNames contract =
    derived (contract.interfaces.map fun interface =>
      contract.c_prefix_name ++ [chr '_'] ++ interface.zig_name) init_endings := by
  unfold cInitNames derived
  rw [List.flatMap_map]
  rfl

theorem not_mem_derived {names endings : List Bytes} (start : Bytes) {ending : Bytes}
    (free : ∀ other ∈ endings, ¬ other <:+ ending ∧ ¬ ending <:+ other) :
    start ++ ending ∉ derived names endings := by
  intro member
  obtain ⟨name, -, derived_mem⟩ := List.mem_flatMap.mp member
  obtain ⟨other, listed, same⟩ := List.mem_map.mp derived_mem
  exact append_ne_append (free other listed) same

theorem map_append_nodup {Value : Type} {values : List Value} {name : Value → Bytes}
    {start : Bytes} : (values.map fun value => start ++ name value).Nodup ↔
      (values.map name).Nodup := by
  have shifted : ((values.map name).map (start ++ ·)).Nodup ↔ (values.map name).Nodup :=
    List.nodup_map_iff (List.append_right_injective start)
  rwa [List.map_map] at shifted

theorem clientNames_nodup {Value : Type} {values : List Value} {name : Value → Bytes}
    (distinct : (values.map name).Nodup) :
    (values.map fun value => clientName (name value)).Nodup := by
  have clients := distinct.map (List.append_left_injective (ascii "Client"))
  rwa [List.map_map] at clients

theorem header_not_client : ascii "InterfaceHeader" ∉ zigClientNames contract := by
  intro member
  obtain ⟨interface, -, same⟩ := List.mem_map.mp member
  have split : ascii "InterfaceHeader" = ascii "Interface" ++ ascii "Header" := rfl
  rw [split] at same
  exact append_ne_append (by decide) same

variable (accepted : Accepted contract)

include accepted

theorem zig_types_nodup :
    (namesOf .type (renderBindingZig contract)).Nodup ↔
      (contract.types.map StructContract.name).Disjoint
        (ascii "InterfaceHeader" ::
          (contract.interfaces.map InterfaceContract.zig_type ++ zigClientNames contract)) ∧
      (contract.interfaces.map InterfaceContract.zig_type).Disjoint
        (ascii "InterfaceHeader" :: zigClientNames contract) := by
  have clients : (zigClientNames contract).Nodup := clientNames_nodup accepted.zig_tables
  rw [zig_type_names, List.nodup_cons, List.nodup_append', List.nodup_append']
  simp only [List.mem_append, not_or, List.disjoint_cons_right, accepted.type_names,
    accepted.zig_tables, clients, header_not_client, not_false_eq_true, true_and, and_true]
  tauto

theorem zig_constants_nodup :
    (namesOf .constant (renderBindingZig contract)).Nodup ↔
      (contract.namedValues.map NamedValue.zig_name).Disjoint
        (ascii "r4os" :: ascii "module_name" :: zigInterfaceConstants contract) := by
  have derived_nodup : (zigInterfaceConstants contract).Nodup := by
    rw [zigInterfaceConstants_eq, nodup_derived constant_endings_free (by decide)]
    exact accepted.zig_interfaces
  have no_r4os : ascii "r4os" ∉ zigInterfaceConstants contract := by
    rw [zigInterfaceConstants_eq]
    exact not_mem_derived [] (by decide)
  have no_module_name : ascii "module_name" ∉ zigInterfaceConstants contract := by
    rw [zigInterfaceConstants_eq]
    exact not_mem_derived [] (by decide)
  have apart : ascii "r4os" ≠ ascii "module_name" := by decide
  rw [zig_constant_names, List.nodup_cons, List.nodup_cons, List.nodup_append']
  simp [accepted.zig_values, derived_nodup, no_r4os, no_module_name, apart]

theorem c_types_nodup :
    (namesOf .type (renderBindingC contract)).Nodup ↔
      (contract.types.map StructContract.name).Disjoint
        (contract.interfaces.map InterfaceContract.c_type ++ cClientNames contract) ∧
      (contract.interfaces.map InterfaceContract.c_type).Disjoint (cClientNames contract) := by
  have clients : (cClientNames contract).Nodup := clientNames_nodup accepted.c_tables
  have order : (contract.interfaces.flatMap fun interface =>
      [interface.c_type, clientName interface.c_type]).Perm
      (contract.interfaces.map InterfaceContract.c_type ++ cClientNames contract) := by
    have together := List.map_append_flatMap_perm contract.interfaces InterfaceContract.c_type
      fun interface => [clientName interface.c_type]
    rw [flatMap_single] at together
    exact together.symm
  rw [c_type_names, (order.append_left _).nodup_iff, List.nodup_append', List.nodup_append']
  simp only [accepted.type_names, accepted.c_tables, clients, true_and]
  tauto

theorem c_constants_nodup :
    (namesOf .constant (renderBindingC contract)).Nodup ↔
      (contract.namedValues.map NamedValue.c_name).Disjoint
        (guardName contract :: cMacroNames contract) ∧
      (contract.interfaces.map fun interface => upperIdentifier interface.zig_name).Nodup := by
  have macros : (cMacroNames contract).Nodup ↔
      (contract.interfaces.map fun interface => upperIdentifier interface.zig_name).Nodup := by
    rw [cMacroNames_eq, nodup_derived macro_endings_free (by decide), map_append_nodup]
  have no_guard : guardName contract ∉ cMacroNames contract := by
    rw [cMacroNames_eq]
    exact not_mem_derived _ (by decide)
  rw [c_constant_names, List.nodup_cons, List.nodup_append']
  simp only [List.mem_append, not_or, List.disjoint_cons_right, accepted.c_values, macros, no_guard,
    not_false_eq_true, true_and, and_true]
  tauto

theorem c_functions_nodup :
    (namesOf .function (renderBindingC contract)).Nodup ↔
      (contract.interfaces.Pairwise fun first second =>
        (first.functions.map FunctionContract.c_name).Disjoint
          (second.functions.map FunctionContract.c_name)) ∧
      (contract.interfaces.flatMap fun interface =>
        interface.functions.map FunctionContract.c_name).Disjoint (cInitNames contract) := by
  have inits : (cInitNames contract).Nodup := by
    rw [cInitNames_eq, nodup_derived init_endings_free (by decide), map_append_nodup]
    exact accepted.zig_interfaces
  have order := (List.flatMap_append_perm contract.interfaces
    (fun interface => [initName contract interface, initOptionalName contract interface])
    fun interface => interface.functions.map FunctionContract.c_name).symm
  rw [c_function_names, order.nodup_iff, List.nodup_append', List.nodup_flatMap,
    List.nodup_flatMap, List.disjoint_comm]
  have own : ∀ interface ∈ contract.interfaces,
      (interface.functions.map FunctionContract.c_name).Nodup := accepted.c_functions
  have inits_parts := List.nodup_flatMap.mp inits
  constructor
  · rintro ⟨-, ⟨-, apart⟩, disjoint⟩
    exact ⟨apart, disjoint⟩
  · rintro ⟨apart, disjoint⟩
    exact ⟨inits_parts, ⟨own, apart⟩, disjoint⟩

end Different

end R4OS.LibraryContract
