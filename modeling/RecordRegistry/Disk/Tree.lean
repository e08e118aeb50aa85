import RecordRegistry.Disk

/-!
# A disk in memory

A tree of files and directories with a working directory. Every node stands under the names that
lead to it from the root, and the root is always a directory.
-/

namespace RecordRegistry

/-- A file with its bytes, or a directory. -/
inductive Node where
  | file (bytes : List UInt8)
  | directory
deriving DecidableEq, Repr

/-- The nodes below the root in the order in which they were made, and the working directory. -/
structure Tree where
  working : List Text
  nodes : List (List Text × Node)
deriving DecidableEq, Repr

namespace Tree

/-- A tree that holds its working directory and nothing else. -/
def empty (working : Text) : Tree := ⟨[working], [([working], .directory)]⟩

/-- The node at a place. -/
def node? (tree : Tree) : List Text → Option Node
  | [] => some .directory
  | place => tree.nodes.lookup place

/-- The nodes with a new one at a place, or with the old one there replaced. -/
def put (place : List Text) (node : Node) :
    List (List Text × Node) → List (List Text × Node)
  | [] => [(place, node)]
  | (other, old) :: rest =>
    if other = place then (place, node) :: rest else (other, old) :: put place node rest

/-- How many bytes the disk takes for a name. -/
def byteCount (name : Text) : Nat :=
  name.toList.foldl (fun count c => count + (c.char?.elim 1 Char.utf8Size)) 0

/-- The most bytes that a name may have. -/
def nameLimit : Nat := 255

/-- The most bytes that the text of a path may have. -/
def pathLimit : Nat := 4095

/-- The place that names lead to from another one. Each step needs a directory; what the last one
leads to may be missing. -/
def walk (tree : Tree) (place : List Text) : List Text → Except FileFault (List Text)
  | [] => .ok place
  | name :: names =>
    match tree.node? place with
    | none => .error .notFound
    | some (.file _) => .error .notADirectory
    | some .directory =>
      if nameLimit < byteCount name then .error .nameTooLong
      else if name = ".." then tree.walk place.dropLast names
      else tree.walk (place ++ [name]) names

/-- The place of a path. -/
def locate (tree : Tree) (path : Path) : Except FileFault (List Text) :=
  match Path.firstUnwritable 0 path.toText.toList with
  | some e => .error (.surrogate e)
  | none =>
    if path.toText.toList.contains '\x00' then .error .nullCharacter
    else if pathLimit < byteCount path.toText then .error .nameTooLong
    else tree.walk (if path.start = .here then tree.working else []) path.names

/-- The bytes of the file at a path. -/
def read (tree : Tree) (path : Path) : Except FileFault (List UInt8) :=
  match tree.locate path with
  | .error fault => .error fault
  | .ok place =>
    match tree.node? place with
    | none => .error .notFound
    | some .directory => .error .isADirectory
    | some (.file bytes) => .ok bytes

/-- Whether a path leads to a directory. -/
def isDirectory (tree : Tree) (path : Path) : Bool :=
  match tree.locate path with
  | .error _ => false
  | .ok place => tree.node? place = some .directory

/-- A tree with a new directory. -/
def makeDirectory (tree : Tree) (path : Path) : Except FileFault Tree :=
  match tree.locate path with
  | .error fault => .error fault
  | .ok place =>
    match tree.node? place with
    | none => .ok { tree with nodes := put place .directory tree.nodes }
    | some _ => .error .alreadyExists

/-- A tree with a new file, or with the bytes of an old one replaced. -/
def write (tree : Tree) (path : Path) (bytes : List UInt8) : Except FileFault Tree :=
  match tree.locate path with
  | .error fault => .error fault
  | .ok place =>
    if tree.node? place = some .directory then .error .isADirectory
    else .ok { tree with nodes := put place (.file bytes) tree.nodes }

/-- Goes on with a changed tree, or names the path at which the change failed. -/
def change (path : Path) (f : Tree → Except FileFault Tree) :
    StateM Tree (Except FileError Unit) := fun tree =>
  match f tree with
  | .ok changed => (.ok (), changed)
  | .error fault => (.error ⟨fault, path⟩, tree)

/-- The tree that is the state serves as a disk. -/
def disk : Disk (StateM Tree) where
  read path := fun tree => ((tree.read path).mapError (⟨·, path⟩), tree)
  makeDirectory path := change path (·.makeDirectory path)
  isDirectory path := fun tree => (tree.isDirectory path, tree)
  write path bytes := change path (·.write path bytes)

end Tree

end RecordRegistry
