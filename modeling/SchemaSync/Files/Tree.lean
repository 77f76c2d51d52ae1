import SchemaSync.Files.Path
import SchemaSync.Text.Quoted

/-! A directory tree as a value: which places hold directories and which hold files. A path is
followed component by component, so each operation fails as it would on a disk. There are no links,
and permissions are all or nothing. -/

namespace SchemaSync

/-- A place in the tree, as the names on the way from the root. -/
abbrev Location := List String

/-- What stands at a place. Permissions keep everyone out of what is locked: a locked directory is
neither listed nor entered, and a locked file neither read nor written. -/
inductive Node
  | directory
  | file (content : List UInt8)
  | lockedDirectory
  | lockedFile
  deriving DecidableEq, Repr

def Node.isDirectory : Node → Bool
  | .directory | .lockedDirectory => true
  | .file _ | .lockedFile => false

def Node.isFile (node : Node) : Bool :=
  !node.isDirectory

inductive FileFault
  | notFound
  | alreadyExists
  | notADirectory
  | isADirectory
  | nameTooLong
  | denied
  | nulInName
  deriving DecidableEq, Repr

structure FileError where
  fault : FileFault
  path : String
  deriving DecidableEq, Repr

namespace FileFault

def describe : FileFault → String
  | .notFound => "[Errno 2] No such file or directory"
  | .alreadyExists => "[Errno 17] File exists"
  | .notADirectory => "[Errno 20] Not a directory"
  | .isADirectory => "[Errno 21] Is a directory"
  | .nameTooLong => "[Errno 36] File name too long"
  | .denied => "[Errno 13] Permission denied"
  | .nulInName => "embedded null byte"

/-- Whether a path with this fault leads to nothing. With any other fault, nobody can tell. -/
def meansAbsent : FileFault → Bool
  | .notFound | .notADirectory | .nulInName => true
  | .alreadyExists | .isADirectory | .nameTooLong | .denied => false

end FileFault

/-- The fault, with the path unless the path could not be used at all. -/
def FileError.message (error : FileError) : String :=
  match error.fault with
  | .nulInName => error.fault.describe
  | fault => fault.describe ++ ": " ++ Text.quoted error.path

/-- Directories and files. `base` is the place that relative paths start from. The root is always
a directory and has no entry. -/
structure Tree where
  base : Location
  entries : List (Location × Node)
  deriving DecidableEq, Repr

namespace Tree

/-- The tree with nothing but the working directory and what leads to it. -/
def empty (base : Location) : Tree where
  base := base
  entries := (List.range base.length).map fun n => (base.take (n + 1), .directory)

def find? (t : Tree) (place : Location) : Option Node :=
  if place.isEmpty then some .directory else t.entries.lookup place

/-- The longest name that a directory can hold, in bytes. -/
def maxNameBytes : Nat := 255

/-- The longest path that can be followed, in bytes. -/
def maxPathBytes : Nat := 4095

/-- Follows components from a place that must be a directory as long as any are left. -/
def walk (t : Tree) (place : Location) : List String → Except FileFault Location
  | [] => .ok place
  | part :: rest =>
    match t.find? place with
    | none => .error .notFound
    | some (.file _) | some .lockedFile => .error .notADirectory
    | some .lockedDirectory => .error .denied
    | some .directory =>
      -- Above the root there is the root itself.
      if part == ".." then t.walk place.dropLast rest
      else if part.utf8ByteSize > maxNameBytes then .error .nameTooLong
      else t.walk (place ++ [part]) rest

/-- The place that a path names. It need not exist, but the directory it is in does. -/
def locate (t : Tree) (p : Path) : Except FileFault Location :=
  if p.parts.any (·.toList.contains '\x00') then .error .nulInName
  -- A path is measured as it is given, with its double dots and without the working directory.
  else if p.toString.utf8ByteSize > maxPathBytes then .error .nameTooLong
  else t.walk (if p.isAbsolute then [] else t.base) p.parts

def lookup (t : Tree) (p : Path) : Except FileFault Node := do
  match t.find? (← t.locate p) with
  | some node => .ok node
  | none => .error .notFound

/-- What a path leads to, if anything. -/
def lookup? (t : Tree) (p : Path) : Except FileError (Option Node) :=
  match t.lookup p with
  | .ok node => .ok (some node)
  | .error fault => if fault.meansAbsent then .ok none else .error ⟨fault, p.toString⟩

def isDirectory (t : Tree) (p : Path) : Except FileError Bool :=
  return (← t.lookup? p).any Node.isDirectory

def isPresent (t : Tree) (p : Path) : Except FileError Bool :=
  return (← t.lookup? p).isSome

def read (t : Tree) (p : Path) : Except FileError (List UInt8) :=
  match t.lookup p with
  | .ok (.file content) => .ok content
  | .ok .lockedFile | .ok .lockedDirectory => .error ⟨.denied, p.toString⟩
  | .ok .directory => .error ⟨.isADirectory, p.toString⟩
  | .error fault => .error ⟨fault, p.toString⟩

/-- Puts a node at a place, instead of what stands there. -/
def put (t : Tree) (place : Location) (node : Node) : Tree :=
  if t.entries.any (·.1 == place) then
    { t with entries := t.entries.map fun entry =>
        if entry.1 == place then (place, node) else entry }
  else { t with entries := t.entries ++ [(place, node)] }

/-- Writes a file into a directory that must exist. -/
def write (t : Tree) (p : Path) (content : List UInt8) : Except FileError Tree :=
  match t.locate p with
  | .error fault => .error ⟨fault, p.toString⟩
  | .ok place =>
    match t.find? place with
    | some .directory | some .lockedDirectory => .error ⟨.isADirectory, p.toString⟩
    | some .lockedFile => .error ⟨.denied, p.toString⟩
    | some (.file _) | none => .ok (t.put place (.file content))

/-- Makes one directory, in a directory that must exist. -/
def makeDirectory (t : Tree) (p : Path) : Except FileError Tree :=
  match t.locate p with
  | .error fault => .error ⟨fault, p.toString⟩
  | .ok place =>
    if (t.find? place).isSome then .error ⟨.alreadyExists, p.toString⟩
    else .ok (t.put place .directory)

def ensureDirectory (t : Tree) (p : Path) : Except FileError Tree :=
  match t.makeDirectory p with
  | .ok t' => .ok t'
  | .error error => do if ← t.isDirectory p then .ok t else .error error

/-- Makes the directory whose components are given last first, after those above it if need be. -/
def ensureAll (t : Tree) (anchor : String) : List String → Except FileError Tree
  | [] => t.ensureDirectory ⟨anchor, []⟩
  | part :: above =>
    let p : Path := ⟨anchor, (part :: above).reverse⟩
    match t.makeDirectory p with
    | .ok t' => .ok t'
    | .error ⟨.notFound, _⟩ => do (← t.ensureAll anchor above).ensureDirectory p
    -- Any other failure is none if the directory is there.
    | .error _ => t.ensureDirectory p

/-- Makes a directory and all directories above it that are missing. -/
def ensureDirectories (t : Tree) (p : Path) : Except FileError Tree :=
  t.ensureAll p.anchor p.parts.reverse

/-- Removes what a path leads to, with everything below. -/
def remove (t : Tree) (p : Path) : Except FileError Tree := do
  match t.locate p with
  | .error fault => .error ⟨fault, p.toString⟩
  | .ok place =>
    if (t.find? place).isNone then .error ⟨.notFound, p.toString⟩
    else .ok { t with entries := t.entries.filter fun entry => !place.isPrefixOf entry.1 }

/-- The order of names: by code point. -/
def nameLe (left right : String) : Bool :=
  !decide (right < left)

def names (t : Tree) (place : Location) : List String :=
  let below := t.entries.filterMap fun entry =>
    if entry.1.dropLast == place then entry.1.getLast? else none
  below.mergeSort nameLe

/-- All paths below the working directory, in order; those of directories end with a slash. -/
def listing (t : Tree) : List String :=
  let below := t.entries.filterMap fun entry =>
    if t.base.isPrefixOf entry.1 && entry.1.length > t.base.length then
      let text := String.intercalate "/" (entry.1.drop t.base.length)
      some (if entry.2.isDirectory then text ++ "/" else text)
    else none
  below.mergeSort nameLe

/-- The components of an absolute path, with each double dot taking back the one before it. -/
def flatten (parts : List String) : List String :=
  parts.foldl (fun done part => if part == ".." then done.dropLast else done ++ [part]) []

/-- The absolute path, from a single slash and without double dots, that a path stands for, whether
or not it exists. -/
def absolute (t : Tree) (p : Path) : Except FileError Path :=
  if p.parts.any (·.toList.contains '\x00') then .error ⟨.nulInName, p.toString⟩
  else .ok ⟨"/", flatten (if p.isAbsolute then p.parts else t.base ++ p.parts)⟩

/-- The paths of what a directory holds, in the order of their names. A locked one shows nothing. -/
def children (t : Tree) (p : Path) : List Path :=
  match t.locate p with
  | .ok place =>
    if t.find? place = some .lockedDirectory then []
    else (t.names place).map fun name => { p with parts := p.parts ++ [name] }
  | .error _ => []

end Tree

end SchemaSync
