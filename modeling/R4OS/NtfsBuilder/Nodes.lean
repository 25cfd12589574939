import R4OS.NtfsBuilder.DirectoryIndex
import R4OS.Update.Batch

/-!
# The tree of a new volume

Directories and files are added to a builder one by one.  A name is checked when it is added, so a
builder holds valid names only.
-/

namespace R4OS.NtfsBuilder

open Text Block NtfsFormat
open Update.Batch (eqlIgnoreCase)

def SECTOR : Nat := 512
def CLUSTER : Nat := 4096
def RECORD : Nat := 1024
def FIRST_USER_RECORD : Nat := 27
def MFT_RECORD_ROOT : Nat := 5
def UPCASE_BYTES : Nat := 131072

/-- The depth at which directories take no children. -/
def max_path_segments : Nat := 24

/-- The templates of the system files. -/
structure Meta where
  upcase : Bytes
  upcase_info : Bytes
  attrdef : Bytes
  sds_prefix : Bytes
  sdh_root : Bytes
  sii_root : Bytes
  sdh_alloc : Bytes
  sii_alloc : Bytes
  sdh_bitmap : Bytes
  sii_bitmap : Bytes
  objid_o_root : Bytes
  quota_o_root : Bytes
  quota_q_root : Bytes
  reparse_r_root : Bytes
  root_sd : Bytes
  boot_sd : Bytes
  security_id_file : Nat := 265
  security_id_dir : Nat := 264
  security_id_sys : Nat := 256
  security_id_sys_dir : Nat := 257

/-- A directory or a file.  The fields behind its children are filled in by the layout. -/
structure Node where
  name : Bytes
  is_dir : Bool
  data : Bytes := []
  parent : Nat := 0
  depth : Nat := 0
  children : List Nat := []
  record : Nat := 0
  data_lcn : Nat := 0
  data_clusters : Nat := 0
  index : DirIndex := {}

structure Builder where
  info : Meta
  label : Bytes
  partition_lba : Nat
  total_bytes : Nat
  timestamp : Nat
  serial : Nat
  nodes : List Node
  prepared_once : Bool

def Builder.init (total_bytes : Nat) (label : Bytes) (partition_lba : Nat) (info : Meta)
    (timestamp_filetime serial : Nat) : Builder where
  info := info
  label := label
  partition_lba := partition_lba
  total_bytes := total_bytes
  timestamp := timestamp_filetime
  serial := serial
  nodes := [{ name := [], is_dir := true, record := MFT_RECORD_ROOT }]
  prepared_once := false

/-- The characters that names are without. -/
def refusedCharacters : Bytes := ascii "\"*/:<>?\\|"

def validName (name : Bytes) : Bool :=
  !name.isEmpty && name.length ≤ 255 && name != ascii "." && name != ascii ".." &&
    name.all fun character =>
      0x20 ≤ character && character ≤ 0x7E && !refusedCharacters.contains character

/-- The names that the root directory has already. -/
def reservedNames : List Bytes :=
  [ascii "$MFT", ascii "$MFTMirr", ascii "$LogFile", ascii "$Volume", ascii "$AttrDef",
    ascii "$Bitmap", ascii "$Boot", ascii "$BadClus", ascii "$Secure", ascii "$UpCase",
    ascii "$Extend"]

/-- The characters of short names beside letters and digits. -/
def shortCharacters : Bytes := ascii "_-~$@!#%&'()\x7b\x7d^`"

/-- Whether a character stands in short names. -/
def upperOk (character : UInt8) : Bool :=
  (chr 'A' ≤ character && character ≤ chr 'Z') || (chr '0' ≤ character && character ≤ chr '9') ||
    shortCharacters.contains character

def is83Safe (name : Bytes) : Bool :=
  let base := name.takeWhile (· != chr '.')
  let rest := name.dropWhile (· != chr '.')
  base.all upperOk && 0 < base.length && base.length ≤ 8 &&
    (rest.isEmpty || (rest.tail.all upperOk && 0 < rest.tail.length && rest.tail.length ≤ 3))

/-- Check a child of a node before it is added. -/
def Builder.checkNewChild (builder : Builder) (parent : Nat) (name : Bytes) :
    Except BuilderError Unit :=
  if builder.prepared_once then .error .AlreadyPrepared
  else
    match builder.nodes[parent]? with
    | none => .error .NameInvalid
    | some node =>
      if !node.is_dir || !validName name then .error .NameInvalid
      else if max_path_segments ≤ node.depth then .error .PathTooDeep
      else if parent = 0 ∧ reservedNames.any (eqlIgnoreCase name) then .error .NameInvalid
      else if node.children.any fun child =>
          builder.nodes[child]?.any fun sibling => eqlIgnoreCase sibling.name name then
        .error .NameInvalid
      else .ok ()

/-- The depth of the children of a node. -/
def Builder.childDepth (builder : Builder) (parent : Nat) : Nat :=
  (builder.nodes[parent]?.map Node.depth).getD 0 + 1

def Builder.append (builder : Builder) (parent : Nat) (node : Node) : Builder where
  __ := builder
  nodes := (builder.nodes ++ [node]).modify parent fun directory =>
    { directory with children := directory.children ++ [builder.nodes.length] }

def Builder.addDirectory (builder : Builder) (parent : Nat) (name : Bytes) :
    Except BuilderError (Builder × Nat) :=
  match builder.checkNewChild parent name with
  | .error error => .error error
  | .ok () => .ok (builder.append parent {
      name := name, is_dir := true, parent := parent, depth := builder.childDepth parent },
      builder.nodes.length)

def Builder.addFile (builder : Builder) (parent : Nat) (name data : Bytes) :
    Except BuilderError Builder :=
  match builder.checkNewChild parent name with
  | .error error => .error error
  | .ok () => .ok (builder.append parent {
      name := name, is_dir := false, data := data, parent := parent,
      depth := builder.childDepth parent })

/-- What is added to a builder. -/
inductive Addition
  | directory (parent : Nat) (name : Bytes)
  | file (parent : Nat) (name data : Bytes)

def Builder.add (builder : Builder) : Addition → Except BuilderError Builder
  | .directory parent name =>
    match builder.addDirectory parent name with
    | .error error => .error error
    | .ok (added, _) => .ok added
  | .file parent name data => builder.addFile parent name data

/-- Add everything, up to a refusal. -/
def Builder.addAll : Builder → List Addition → Except BuilderError Builder
  | builder, [] => .ok builder
  | builder, addition :: rest =>
    match builder.add addition with
    | .error error => .error error
    | .ok added => added.addAll rest

/-- A node without clusters, of which the children are in the tree. -/
structure Linked (count : Nat) (node : Node) : Prop where
  children : ∀ child ∈ node.children, 0 < child ∧ child < count
  distinct : node.children.Nodup
  unplaced : node.data_clusters = 0

/-- A tree that a builder can hold before it is prepared. -/
structure ValidTree (builder : Builder) : Prop where
  fresh : builder.prepared_once = false
  root : ∃ root rest, builder.nodes = root :: rest ∧ root.is_dir = true ∧
    root.record = MFT_RECORD_ROOT ∧ Linked builder.nodes.length root ∧
    ∀ node ∈ rest, validName node.name = true ∧ Linked builder.nodes.length node

theorem validName_length {name : Bytes} (valid : validName name = true) :
    1 ≤ name.length ∧ name.length ≤ 255 := by
  unfold validName at valid
  simp only [Bool.and_eq_true, Bool.not_eq_true', List.isEmpty_eq_false_iff, decide_eq_true_eq]
    at valid
  exact ⟨List.length_pos_iff.mpr valid.1.1.1.1, valid.1.1.1.2⟩

section Additions

variable {builder added : Builder} {parent : Nat} {node : Node} {name : Bytes}

theorem checkNewChild_ok (checked : builder.checkNewChild parent name = .ok ()) :
    builder.prepared_once = false ∧ parent < builder.nodes.length ∧ validName name = true := by
  unfold Builder.checkNewChild at checked
  split at checked
  · cases checked
  next fresh =>
  split at checked
  · cases checked
  next directory found =>
  split at checked
  · cases checked
  next valid =>
  simp only [Bool.or_eq_true, Bool.not_eq_true', not_or, Bool.not_eq_false] at valid
  exact ⟨Bool.eq_false_of_not_eq_true fresh, (List.getElem?_eq_some_iff.mp found).1, valid.2⟩

theorem Linked.few {count : Nat} (linked : Linked count node) :
    node.children.length ≤ count - 1 := by
  have inside : node.children ⊆ List.range' 1 (count - 1) := by
    intro child member
    have bounds := linked.children child member
    rw [List.mem_range'_1]
    omega
  have fewer := (linked.distinct.subperm inside).length_le
  rwa [List.length_range'] at fewer

theorem Linked.wider {count : Nat} (linked : Linked count node) : Linked (count + 1) node :=
  ⟨fun child member => ⟨(linked.children child member).1,
    Nat.lt_succ_of_lt (linked.children child member).2⟩, linked.distinct, linked.unplaced⟩

/-- A node takes one child more. -/
theorem Linked.adopt {count : Nat} (linked : Linked count node) (positive : 0 < count) :
    Linked (count + 1) { node with children := node.children ++ [count] } := by
  refine ⟨?_, ?_, linked.unplaced⟩
  · dsimp only
    rw [List.forall_mem_append, List.forall_mem_singleton]
    exact ⟨linked.wider.children, positive, Nat.lt_succ_self _⟩
  · refine List.nodup_append.mpr ⟨linked.distinct, List.nodup_singleton _, ?_⟩
    intro child member other new
    rw [List.mem_singleton.mp new]
    exact Nat.ne_of_lt (linked.children child member).2

theorem ValidTree.append (tree : ValidTree builder) (named : validName node.name = true)
    (childless : node.children = []) (unplaced : node.data_clusters = 0) :
    ValidTree (builder.append parent node) := by
  obtain ⟨root, rest, nodes_eq, root_dir, root_record, root_linked, valid⟩ := tree.root
  have count : (builder.append parent node).nodes.length = builder.nodes.length + 1 := by
    rw [Builder.append, List.length_modify, List.length_append, List.length_singleton]
  have positive : 0 < builder.nodes.length := by
    rw [nodes_eq, List.length_cons]
    exact Nat.succ_pos _
  have new : Linked builder.nodes.length node :=
    ⟨childless ▸ List.forall_mem_nil _, childless ▸ List.nodup_nil, unplaced⟩
  have others : ∀ other ∈ rest ++ [node],
      validName other.name = true ∧ Linked builder.nodes.length other := by
    rw [List.forall_mem_append, List.forall_mem_singleton]
    exact ⟨valid, named, new⟩
  refine ⟨tree.fresh, ?_⟩
  rw [count]
  cases parent with
  | zero =>
    refine ⟨{ root with children := root.children ++ [builder.nodes.length] }, rest ++ [node], ?_,
      root_dir, root_record, root_linked.adopt positive,
      fun other member => ⟨(others other member).1, (others other member).2.wider⟩⟩
    change ((builder.nodes ++ [node]).modify 0 _) = _
    rw [nodes_eq]
    rfl
  | succ place =>
    refine ⟨root, (rest ++ [node]).modify place fun directory =>
      { directory with children := directory.children ++ [builder.nodes.length] }, ?_, root_dir,
      root_record, root_linked.wider, fun other member => ?_⟩
    · change ((builder.nodes ++ [node]).modify (place + 1) _) = _
      rw [nodes_eq]
      rfl
    · obtain ⟨index, bound, rfl⟩ := List.getElem_of_mem member
      rw [List.getElem_modify]
      rw [List.length_modify] at bound
      have old := others _ (List.getElem_mem bound)
      split
      · exact ⟨old.1, old.2.adopt positive⟩
      · exact ⟨old.1, old.2.wider⟩

theorem ValidTree.add {addition : Addition} (tree : ValidTree builder)
    (done : builder.add addition = .ok added) : ValidTree added := by
  cases addition with
  | directory parent name =>
    simp only [Builder.add, Builder.addDirectory] at done
    split at done
    · cases done
    next added' index adding =>
    split at adding
    · cases adding
    next checked =>
    cases adding
    cases done
    exact tree.append (checkNewChild_ok checked).2.2 rfl rfl
  | file parent name data =>
    simp only [Builder.add, Builder.addFile] at done
    split at done
    · cases done
    next checked =>
    cases done
    exact tree.append (checkNewChild_ok checked).2.2 rfl rfl

theorem ValidTree.addAll {additions : List Addition} (tree : ValidTree builder)
    (done : builder.addAll additions = .ok added) : ValidTree added := by
  induction additions generalizing builder with
  | nil =>
    cases done
    exact tree
  | cons addition rest induction =>
    rw [Builder.addAll] at done
    split at done
    · cases done
    · next middle adding => exact induction (tree.add adding) done

theorem validTree_init (total_bytes : Nat) (label : Bytes) (partition_lba : Nat) (info : Meta)
    (timestamp_filetime serial : Nat) :
    ValidTree (.init total_bytes label partition_lba info timestamp_filetime serial) :=
  ⟨rfl, _, [], rfl, rfl, rfl, ⟨List.forall_mem_nil _, List.nodup_nil, rfl⟩,
    List.forall_mem_nil _⟩

end Additions

end R4OS.NtfsBuilder
