import ViewMarkup.Path

namespace ViewMarkup

/-- The names that lead from the root to a file or directory. -/
abbrev Location := List Text

/-- Whether a text comes before another by the code points of its characters. -/
def Text.comesBefore : Text → Text → Bool
  | _, [] => false
  | [], _ :: _ => true
  | c :: t, d :: u => if c = d then comesBefore t u else c.toNat < d.toNat

/-- Whether a location comes before another, name by name. -/
def Location.comesBefore : Location → Location → Bool
  | _, [] => false
  | [], _ :: _ => true
  | a :: l, b :: m => if a = b then comesBefore l m else Text.comesBefore a b

/-- Why an operation on a file fails. -/
inductive FileFault where
  | missing
  | taken
  | notDirectory
  | isDirectory
  deriving DecidableEq, Repr

namespace FileFault

/-- The number of a fault. -/
def number : FileFault → Nat
  | missing => 2
  | taken => 17
  | notDirectory => 20
  | isDirectory => 21

/-- The text of a fault. -/
def text : FileFault → Text
  | missing => "No such file or directory"
  | taken => "File exists"
  | notDirectory => "Not a directory"
  | isDirectory => "Is a directory"

end FileFault

/-- A fault at a path. -/
structure FileError where
  fault : FileFault
  path : Path
  deriving DecidableEq, Repr

/-- The message of an error. -/
def FileError.message (error : FileError) : Text :=
  "[Errno " ++ Text.ofNat error.fault.number ++ "] " ++ error.fault.text ++ ": " ++
    Text.quoted error.path.toText

/-- Files with their bytes, and directories that are there even if nothing is in them. -/
structure Tree where
  files : List (Location × List UInt8)
  directories : List Location
  /-- The current directory, from which paths start. -/
  here : Location
  deriving Repr

namespace Tree

/-- Nothing but the root. -/
def empty : Tree := ⟨[], [], []⟩

/-- The bytes of the file at a location. -/
def bytes? (tree : Tree) (location : Location) : Option (List UInt8) :=
  tree.files.lookup location

/-- Whether a directory is at a location: the root, a directory that was made, or what is above a file or
directory. -/
def isDirectoryAt (tree : Tree) (location : Location) : Bool :=
  location == [] || tree.directories.any (fun directory => (Path.below? directory location).isSome) ||
    tree.files.any fun file => ((Path.below? file.1 location).any (· != []))

/-- Whether something is at a location. -/
def isTaken (tree : Tree) (location : Location) : Bool :=
  tree.isDirectoryAt location || (tree.bytes? location).isSome

/-- The location reached from another by names; two dots go up. Every name but the last has to be that of
a directory. -/
def walk (tree : Tree) : Location → List Text → Except FileFault Location
  | location, [] => .ok location
  | location, name :: names =>
    if !tree.isDirectoryAt location then
      .error (if (tree.bytes? location).isSome then .notDirectory else .missing)
    else walk tree (if name = ['.', '.'] then location.dropLast else location ++ [name]) names

/-- The location of a path. -/
def locate (tree : Tree) (path : Path) : Except FileFault Location :=
  tree.walk (if path.anchor = .here then tree.here else []) path.names

/-- Whether a path leads to a file. -/
def isFile (tree : Tree) (path : Path) : Bool :=
  match tree.locate path with
  | .ok location => (tree.bytes? location).isSome
  | .error _ => false

/-- Whether a path leads to a directory. -/
def isDirectory (tree : Tree) (path : Path) : Bool :=
  match tree.locate path with
  | .ok location => tree.isDirectoryAt location
  | .error _ => false

/-- Whether a path leads anywhere. -/
def contains (tree : Tree) (path : Path) : Bool :=
  tree.isFile path || tree.isDirectory path

/-- The bytes of a file. -/
def read (tree : Tree) (path : Path) : Except FileError (List UInt8) :=
  match tree.locate path with
  | .error fault => .error ⟨fault, path⟩
  | .ok location =>
    if tree.isDirectoryAt location then .error ⟨.isDirectory, path⟩
    else match tree.bytes? location with
      | some bytes => .ok bytes
      | none => .error ⟨.missing, path⟩

/-- Files with the bytes of one set; a new file comes last. -/
def putBytes (location : Location) (bytes : List UInt8) :
    List (Location × List UInt8) → List (Location × List UInt8)
  | [] => [(location, bytes)]
  | file :: files =>
    if file.1 = location then (location, bytes) :: files else file :: putBytes location bytes files

/-- The tree with the bytes of one file set. -/
def put (tree : Tree) (location : Location) (bytes : List UInt8) : Tree :=
  { tree with files := putBytes location bytes tree.files }

/-- Writes a file. Its directory has to be there. -/
def write (tree : Tree) (path : Path) (bytes : List UInt8) : Except FileError Tree :=
  match tree.locate path with
  | .error fault => .error ⟨fault, path⟩
  | .ok location =>
    if tree.isDirectoryAt location then .error ⟨.isDirectory, path⟩ else .ok (tree.put location bytes)

/-- Makes one directory. Its parent has to be there. -/
def makeDirectory (tree : Tree) (path : Path) : Except FileFault Tree :=
  match tree.locate path with
  | .error fault => .error fault
  | .ok location =>
    if tree.isTaken location then .error .taken
    else .ok { tree with directories := tree.directories ++ [location] }

/-- Makes a directory with those above it, unless it is there; its names come from the last to the
first. -/
def makeDirectoriesUp (tree : Tree) (anchor : Anchor) : List Text → Except FileError Tree
  | [] => .ok tree
  | name :: above =>
    let path : Path := ⟨anchor, (name :: above).reverse⟩
    if tree.isDirectory path then .ok tree
    else match tree.makeDirectory path with
      | .ok tree => .ok tree
      | .error .missing => do
        let tree ← makeDirectoriesUp tree anchor above
        if tree.isDirectory path then return tree
        (tree.makeDirectory path).mapError fun fault => ⟨fault, path⟩
      | .error fault => .error ⟨fault, path⟩

/-- Makes a directory with those above it, unless it is there. -/
def makeDirectories (tree : Tree) (path : Path) : Except FileError Tree :=
  tree.makeDirectoriesUp path.anchor path.names.reverse

/-- The files below a location, each with the names that lead to it from there. -/
def filesBelow (tree : Tree) (location : Location) : List Location :=
  tree.files.filterMap fun file => (Path.below? file.1 location).filter (· ≠ [])

end Tree

end ViewMarkup
