import R4OS.Numeric.CLayout
import R4OS.SystemInventory.Entry

/-!
# Library contracts

A library declares structures, constants and interfaces in a contract.  Every identifier and every
layout of a contract is checked before bindings are generated from it.
-/

namespace R4OS.LibraryContract

open CLayout Text
open SystemInventory (isAlphabetic isAlphanumeric)
open Update.Batch (eqlIgnoreCase)

def interface_header_size : Nat := 32

def pointer_size : Nat := 8

inductive PointerKind
  | value
  | single
  | many
  deriving DecidableEq

inductive Direction
  | value
  | input
  | output
  | inout
  deriving DecidableEq

inductive Ownership
  | none
  | borrowed
  | caller_owned
  | library_owned
  deriving DecidableEq

inductive Lifetime
  | none
  | call
  | handle
  | provider_generation
  deriving DecidableEq

structure TypeRef where
  name : Bytes
  pointer : PointerKind := .value
  is_const : Bool := false
  nullable : Bool := false

structure Parameter where
  name : Bytes
  type : TypeRef
  direction : Direction
  ownership : Ownership
  lifetime : Lifetime
  length_by : Option Bytes := none
  description : Bytes

structure Operation where
  error_domain : Bytes
  ownership : Bytes

structure FunctionContract where
  name : Bytes
  c_name : Bytes
  symbol : Bytes
  slot : Nat
  since_revision : Nat
  returns : TypeRef
  parameters : List Parameter
  operation : Operation
  description : Bytes

structure InterfaceContract where
  export_name : Bytes
  symbol : Bytes
  zig_name : Bytes
  zig_type : Bytes
  c_type : Bytes
  abi_major : Nat
  revision : Nat
  interface_id_lo : Nat
  interface_id_hi : Nat
  known_required_flags : Nat := 0
  functions : List FunctionContract
  description : Bytes

structure FieldContract where
  name : Bytes
  offset : Nat
  type : TypeRef
  description : Bytes

structure StructContract where
  name : Bytes
  size : Nat
  alignment : Nat
  fields : List FieldContract
  description : Bytes

structure NamedValue where
  zig_name : Bytes
  c_name : Bytes
  type : Bytes
  value : Int
  description : Bytes

structure Rule where
  name : Bytes
  text : Bytes

structure Contract where
  schema_version : Nat
  module_name : Bytes
  zig_client : Bytes
  c_prefix_name : Bytes
  c_header : Bytes
  description : Bytes
  interfaces : List InterfaceContract
  types : List StructContract := []
  constants : List NamedValue := []
  errors : List NamedValue := []
  ownership_rules : List Rule

inductive ContractError
  | unsupported_schema_version
  | invalid_module_name
  | invalid_identifier
  | invalid_export_name
  | invalid_c_header
  | incomplete_contract
  | invalid_type_layout
  | duplicate_type
  | invalid_struct_field
  | duplicate_field
  | struct_field_offset_drift
  | struct_layout_drift
  | unknown_abi_type
  | invalid_named_value
  | error_must_be_negative
  | duplicate_value
  | duplicate_value_name
  | invalid_interface
  | duplicate_interface
  | invalid_function
  | incomplete_return_pointer_contract
  | invalid_return_contract
  | duplicate_function
  | invalid_parameter
  | duplicate_parameter
  | invalid_value_parameter
  | incomplete_pointer_contract
  | missing_buffer_length
  | bad_buffer_length_reference
  | invalid_ownership_rule
  | duplicate_ownership_rule
  -- arithmetic left the words of the generator
  | overflow
  deriving DecidableEq

def refuse (condition : Prop) [Decidable condition] (error : ContractError) :
    Except ContractError Unit :=
  if condition then .error error else .ok ()

/-- Check values in order, each with those before it. -/
def checkEach {Value : Type} (check : List Value → Value → Except ContractError Unit)
    (prior : List Value) : List Value → Except ContractError Unit
  | [] => .ok ()
  | value :: rest => do
      check prior value
      checkEach check (prior ++ [value]) rest

def isUpper (byte : UInt8) : Bool := chr 'A' ≤ byte && byte ≤ chr 'Z'

def validateModuleName (name : Bytes) : Except ContractError Unit :=
  refuse (name = [] ∨ 31 < name.length ∨ ∃ byte ∈ name, ¬ (isUpper byte = true ∨
    isDigit byte = true ∨ byte = chr '_' ∨ byte = chr '-')) .invalid_module_name

/-- Bytes behind the first one of an identifier. -/
def isWordByte (byte : UInt8) : Bool := isAlphanumeric byte || byte == chr '_'

def validateExportName (name : Bytes) : Except ContractError Unit :=
  refuse (31 < name.length ∨ name.head?.any isAlphabetic = false ∨
    (name.drop 1).all isWordByte = false) .invalid_export_name

def validateIdentifier (name : Bytes) : Except ContractError Unit :=
  refuse (name.head?.any (fun byte => isAlphabetic byte || byte == chr '_') = false ∨
    (name.drop 1).all isWordByte = false) .invalid_identifier

/-- The extension of a file name, with its dot. -/
def extension (path : Bytes) : Bytes :=
  let name := (path.rdropWhile (· = chr '/')).rtakeWhile (· ≠ chr '/')
  let ending := name.rtakeWhile (· ≠ chr '.')
  if name.length ≤ ending.length + 1 then [] else chr '.' :: ending

def primitiveLayout (name : Bytes) : Option Layout :=
  if name = ascii "void" then some ⟨0, 1⟩
  else if name = ascii "u8" ∨ name = ascii "i8" then some ⟨1, 1⟩
  else if name = ascii "u16" ∨ name = ascii "i16" then some ⟨2, 2⟩
  else if name = ascii "u32" ∨ name = ascii "i32" then some ⟨4, 4⟩
  else if name = ascii "u64" ∨ name = ascii "i64" then some ⟨8, 8⟩
  else none

def StructContract.layout (typ : StructContract) : Layout := ⟨typ.size, typ.alignment⟩

/-- The layout of a type that is not a pointer. -/
def valueLayout (contract : Contract) (name : Bytes) : Except ContractError Layout :=
  match primitiveLayout name with
  | some layout => .ok layout
  | none =>
    match contract.types.find? (·.name = name) with
    | some typ => .ok typ.layout
    | none => .error .unknown_abi_type

def typeLayout (contract : Contract) (type_ref : TypeRef) : Except ContractError Layout := do
  let layout ← valueLayout contract type_ref.name
  if type_ref.pointer = .value then return layout else return ⟨pointer_size, pointer_size⟩

def alignForward (value alignment : Nat) : Except ContractError Nat :=
  if alignment = 0 ∨ 2 ^ 32 ≤ value + alignment then .error .overflow
  else .ok ((value + alignment - 1) &&& ((2 ^ 32 - 1) ^^^ (alignment - 1)))

def addU32 (a b : Nat) : Except ContractError Nat :=
  if 2 ^ 32 ≤ a + b then .error .overflow else .ok (a + b)

def tableSize (interface : InterfaceContract) : Nat :=
  interface_header_size + interface.functions.length * pointer_size

/-- The place of a function in the table of its interface. -/
def slotOffset (function : FunctionContract) : Nat :=
  interface_header_size + function.slot * pointer_size

/-- The place behind the fields so far, and the strictest alignment of them. -/
structure FieldCursor where
  cursor : Nat := 0
  max_alignment : Nat := 1

def validateField (contract : Contract) (prior : List FieldContract) (state : FieldCursor)
    (field : FieldContract) : Except ContractError FieldCursor := do
  validateIdentifier field.name
  refuse (field.description = [] ∨ field.type.pointer ≠ .value ∨ field.type.nullable = true ∨
    field.type.is_const = true) .invalid_struct_field
  refuse (∃ other ∈ prior, field.name = other.name) .duplicate_field
  let layout ← typeLayout contract field.type
  let cursor ← alignForward state.cursor layout.alignment
  refuse (field.offset ≠ cursor) .struct_field_offset_drift
  let cursor ← addU32 cursor layout.size
  return { cursor, max_alignment := max state.max_alignment layout.alignment }

def validateFields (contract : Contract) (prior : List FieldContract) (state : FieldCursor) :
    List FieldContract → Except ContractError FieldCursor
  | [] => .ok state
  | field :: rest => do
      let state ← validateField contract prior state field
      validateFields contract (prior ++ [field]) state rest

def validateType (contract : Contract) (prior : List StructContract) (typ : StructContract) :
    Except ContractError Unit := do
  validateIdentifier typ.name
  refuse (typ.size = 0 ∨ typ.alignment = 0 ∨ ¬ typ.alignment.isPowerOfTwo ∨ typ.description = [])
    .invalid_type_layout
  refuse (∃ other ∈ prior, typ.name = other.name) .duplicate_type
  let state ← validateFields contract [] {} typ.fields
  let size ← alignForward state.cursor state.max_alignment
  refuse (typ.alignment ≠ state.max_alignment ∨ typ.size ≠ size) .struct_layout_drift

def validateNamedValue (contract : Contract) (require_negative : Bool) (prior : List NamedValue)
    (value : NamedValue) : Except ContractError Unit := do
  validateIdentifier value.zig_name
  validateIdentifier value.c_name
  refuse (value.description = []) .invalid_named_value
  let _ ← typeLayout contract { name := value.type }
  refuse (require_negative = true ∧ 0 ≤ value.value) .error_must_be_negative
  refuse (∃ other ∈ prior, value.zig_name = other.zig_name ∨ value.c_name = other.c_name ∨
    (require_negative = true ∧ value.value = other.value)) .duplicate_value

def validateNamedValues (contract : Contract) (values : List NamedValue)
    (require_negative : Bool) : Except ContractError Unit :=
  checkEach (validateNamedValue contract require_negative) [] values

def validateLength (parameters : List Parameter) (parameter : Parameter) :
    Except ContractError Unit :=
  match parameter.length_by with
  | none => .error .missing_buffer_length
  | some length_name =>
    refuse (¬ ∃ candidate ∈ parameters, candidate.name = length_name) .bad_buffer_length_reference

def validatePassing (parameters : List Parameter) (parameter : Parameter) :
    Except ContractError Unit :=
  if parameter.type.pointer = .value then
    refuse (parameter.direction ≠ .value ∨ parameter.ownership ≠ .none ∨
      parameter.lifetime ≠ .none ∨ parameter.length_by ≠ none ∨ parameter.type.nullable = true ∨
      parameter.type.is_const = true) .invalid_value_parameter
  else do
    refuse (parameter.direction = .value ∨ parameter.ownership = .none ∨
      parameter.lifetime = .none) .incomplete_pointer_contract
    if parameter.type.pointer = .many then validateLength parameters parameter else .ok ()

def validateParameter (contract : Contract) (parameters prior : List Parameter)
    (parameter : Parameter) : Except ContractError Unit := do
  validateIdentifier parameter.name
  refuse (parameter.description = []) .invalid_parameter
  let _ ← typeLayout contract parameter.type
  refuse (∃ other ∈ prior, parameter.name = other.name) .duplicate_parameter
  validatePassing parameters parameter

def validateFunction (contract : Contract) (interface : InterfaceContract)
    (prior : List FunctionContract) (function : FunctionContract) : Except ContractError Unit := do
  validateIdentifier function.name
  validateIdentifier function.c_name
  validateIdentifier function.symbol
  refuse (function.slot ≠ prior.length ∨ function.since_revision = 0 ∨
    interface.revision < function.since_revision ∨ function.description = [] ∨
    function.operation.error_domain = [] ∨ function.operation.ownership = []) .invalid_function
  refuse (function.returns.pointer ≠ .value) .incomplete_return_pointer_contract
  refuse (function.returns.nullable = true ∨ function.returns.is_const = true)
    .invalid_return_contract
  let _ ← typeLayout contract function.returns
  refuse (∃ other ∈ prior, function.name = other.name ∨ function.c_name = other.c_name ∨
    function.symbol = other.symbol) .duplicate_function
  checkEach (validateParameter contract function.parameters) [] function.parameters

def validateInterface (contract : Contract) (prior : List InterfaceContract)
    (interface : InterfaceContract) : Except ContractError Unit := do
  validateExportName interface.export_name
  validateIdentifier interface.symbol
  validateIdentifier interface.zig_name
  validateIdentifier interface.zig_type
  validateIdentifier interface.c_type
  refuse (interface.abi_major = 0 ∨ interface.revision = 0 ∨
    (interface.interface_id_lo = 0 ∧ interface.interface_id_hi = 0) ∨
    interface.known_required_flags &&& 0xff00 ≠ 0 ∨ interface.description = []) .invalid_interface
  refuse (∃ other ∈ prior, eqlIgnoreCase interface.export_name other.export_name = true ∨
    interface.symbol = other.symbol ∨ interface.zig_name = other.zig_name ∨
    interface.zig_type = other.zig_type ∨ interface.c_type = other.c_type) .duplicate_interface
  checkEach (validateFunction contract interface) [] interface.functions

def validateRule (prior : List Rule) (rule : Rule) : Except ContractError Unit := do
  refuse (rule.name = [] ∨ rule.text = []) .invalid_ownership_rule
  refuse (∃ other ∈ prior, rule.name = other.name) .duplicate_ownership_rule

def validateContract (contract : Contract) : Except ContractError Unit := do
  refuse (contract.schema_version ≠ 1) .unsupported_schema_version
  validateModuleName contract.module_name
  validateIdentifier contract.zig_client
  validateIdentifier contract.c_prefix_name
  refuse (contract.c_header = [] ∨ eqlIgnoreCase (extension contract.c_header) (ascii ".h") = false)
    .invalid_c_header
  refuse (contract.description = [] ∨ contract.interfaces = [] ∨ contract.ownership_rules = [])
    .incomplete_contract
  checkEach (validateType contract) [] contract.types
  validateNamedValues contract contract.constants false
  validateNamedValues contract contract.errors true
  refuse (∃ constant ∈ contract.constants, ∃ err ∈ contract.errors,
    constant.zig_name = err.zig_name ∨ constant.c_name = err.c_name) .duplicate_value_name
  checkEach (validateInterface contract) [] contract.interfaces
  checkEach validateRule [] contract.ownership_rules

end R4OS.LibraryContract
