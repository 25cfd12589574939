import R4OS.LibraryContract.Contract

/-!
# Generated bindings

The declarations that the generator writes for a contract, with the names of members of structures.
Function pointer types and macros have names that are derived from those of the contract.
-/

namespace R4OS.LibraryContract

open Text

/-- Words after underscores start in upper case, and underscores are left out. -/
def pascalFrom (upper : Bool) : Bytes → Bytes
  | [] => []
  | byte :: rest =>
    if byte = chr '_' then pascalFrom true rest
    else (if upper then toUpper byte else byte) :: pascalFrom false rest

def pascal (value : Bytes) : Bytes := pascalFrom true value

def functionTypeName (interface_name function_name : Bytes) : Bytes :=
  interface_name ++ pascal function_name ++ ascii "Fn"

def upperIdentifier (value : Bytes) : Bytes :=
  value.map fun byte => if byte = chr '-' then chr '_' else toUpper byte

def macroName (contract : Contract) (interface : InterfaceContract) (ending : Bytes) : Bytes :=
  upperIdentifier contract.module_name ++ [chr '_'] ++ upperIdentifier interface.zig_name ++ ending

def guardName (contract : Contract) : Bytes :=
  upperIdentifier contract.module_name ++ ascii "_R4L_BINDING_H"

/-- The structure of a client. -/
def clientName (type_name : Bytes) : Bytes := type_name ++ ascii "Client"

def initName (contract : Contract) (interface : InterfaceContract) : Bytes :=
  contract.c_prefix_name ++ [chr '_'] ++ interface.zig_name ++ ascii "_init"

def initOptionalName (contract : Contract) (interface : InterfaceContract) : Bytes :=
  contract.c_prefix_name ++ [chr '_'] ++ interface.zig_name ++ ascii "_init_optional"

/-- The kinds of names in a binding. -/
inductive Space
  | type
  | function_type
  | constant
  | function
  deriving DecidableEq

/-- A name that a binding declares, and the members of a structure. -/
structure Declaration where
  space : Space
  name : Bytes
  members : List Bytes := []

def constant (name : Bytes) : Declaration := { space := .constant, name }

def InterfaceContract.memberNames (interface : InterfaceContract) : List Bytes :=
  interface.functions.map FunctionContract.name

def StructContract.declaration (typ : StructContract) : Declaration where
  space := .type
  name := typ.name
  members := typ.fields.map FieldContract.name

def tableDeclaration (name : Bytes) (interface : InterfaceContract) : Declaration where
  space := .type
  name := name
  members := ascii "header" :: interface.memberNames

def functionType (interface_name : Bytes) (function : FunctionContract) : Declaration where
  space := .function_type
  name := functionTypeName interface_name function.name

def renderZigInterface (interface : InterfaceContract) : List Declaration :=
  [constant (interface.zig_name ++ ascii "_export_name"),
    constant (interface.zig_name ++ ascii "_revision"),
    constant (interface.zig_name ++ ascii "_header")] ++
  interface.functions.map (functionType interface.zig_type) ++
  [tableDeclaration interface.zig_type interface]

def renderZigDefinitions (contract : Contract) : List Declaration :=
  [constant (ascii "module_name")] ++
  contract.types.map StructContract.declaration ++
  contract.constants.map (fun value => constant value.zig_name) ++
  contract.errors.map (fun value => constant value.zig_name) ++
  contract.interfaces.flatMap renderZigInterface

/-- The client of an interface has methods beside its header. -/
def renderZigClient (interface : InterfaceContract) : Declaration where
  space := .type
  name := clientName interface.zig_type
  members := ascii "header" :: ascii "init" :: interface.memberNames

def renderBindingZig (contract : Contract) : List Declaration :=
  [constant (ascii "r4os"), { space := .type, name := ascii "InterfaceHeader" }] ++
  renderZigDefinitions contract ++
  contract.interfaces.map renderZigClient

def macro_endings : List Bytes :=
  [ascii "_EXPORT_NAME", ascii "_ABI_MAJOR", ascii "_REVISION", ascii "_INTERFACE_ID_LO",
    ascii "_INTERFACE_ID_HI", ascii "_TABLE_SIZE", ascii "_HEADER_INITIALIZER"]

def renderCInterface (contract : Contract) (interface : InterfaceContract) : List Declaration :=
  macro_endings.map (fun ending => constant (macroName contract interface ending)) ++
  interface.functions.map (functionType interface.c_type) ++
  [tableDeclaration interface.c_type interface,
    { space := .type, name := clientName interface.c_type, members := [ascii "header"] },
    { space := .function, name := initName contract interface },
    { space := .function, name := initOptionalName contract interface }] ++
  interface.functions.map fun function => { space := .function, name := function.c_name }

def renderBindingC (contract : Contract) : List Declaration :=
  [constant (guardName contract)] ++
  contract.types.map StructContract.declaration ++
  contract.constants.map (fun value => constant value.c_name) ++
  contract.errors.map (fun value => constant value.c_name) ++
  contract.interfaces.flatMap (renderCInterface contract)

end R4OS.LibraryContract
