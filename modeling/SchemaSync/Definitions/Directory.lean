import SchemaSync.Definitions.ScriptSet
import SchemaSync.Run.Event

/-! Definition sets in a directory. Scripts are UTF-8 files whose names end in `.sql`. They lie in
the subdirectories of their kinds or, if those hold none, in the directory itself. Blank scripts do
not count, and a file that cannot be read is passed over; but a path that cannot be followed ends
the search. -/

namespace SchemaSync

namespace Definitions

variable {σ : Type}

/-- The directory of a definition set: it has to be named, and to be there. -/
def validateRoot (files : Tree) (root : String) : Except Error Path :=
  if Text.isBlankText root then .error (.argument (.blankPlace .scriptsDirectory))
  else
    let path := Path.ofString root
    match files.isDirectory path with
    | .ok true => .ok path
    | .ok false => .error (.definitionsNotFound path.toString)
    | .error error => .error (.file error)

def extension : List Char := ".sql".toList

def isScriptName (name : String) : Bool :=
  extension.isSuffixOf name.toList

/-- What stands in the way of telling whether a path leads to a file, if anything does. -/
def obstacle? (files : Tree) (path : Path) : Option FileError :=
  match files.lookup? path with
  | .ok _ => none
  | .error error => some error

def isFile (files : Tree) (path : Path) : Bool :=
  match files.lookup path with
  | .ok node => node.isFile
  | .error _ => false

/-- What a directory holds under the names of scripts, in the order of the names. -/
def candidates (files : Tree) (directory : Path) : List Path :=
  (files.children directory).filter fun path => isScriptName path.name

/-- The scripts in a directory, in the order of their names, up to the first obstacle. -/
def scriptPaths (files : Tree) (directory : Path) : List Path :=
  ((candidates files directory).takeWhile fun path => (obstacle? files path).isNone).filter
    (isFile files)

/-- The text of a script, with every line end a line feed. -/
def readScript (files : Tree) (path : Path) : Except Error String :=
  match files.read path with
  | .error error => .error (.file error)
  | .ok bytes =>
    match Text.Utf8.decodeMarked bytes with
    | .error error => .error (.undecodable error)
    | .ok chars => .ok (String.ofList (Text.withLineFeeds chars))

/-- What reading the scripts in a directory gives, and the obstacle that ended it, if one did. -/
structure Reading where
  scripts : List ScriptFile
  failed : List (Path × Error)
  obstacle : Option FileError
  deriving Repr

/-- Reads the scripts in a directory. Blank ones are dropped. -/
def readDirectory (files : Tree) (directory : Path) : Reading :=
  let read := (scriptPaths files directory).map fun path => (path, readScript files path)
  { scripts := read.filterMap fun (path, result) =>
      match result with
      | .ok text => if Text.isBlankText text then none else some { path, text }
      | .error _ => none
    failed := read.filterMap fun (path, result) =>
      match result with
      | .ok _ => none
      | .error error => some (path, error)
    obstacle := (candidates files directory).findSome? (obstacle? files) }

namespace Reading

def skipped (reading : Reading) : List Path :=
  reading.failed.map Prod.fst

/-- A line of the log for each file that could not be read. -/
def complaints (reading : Reading) : List LogRecord :=
  reading.failed.map fun (path, error) =>
    ⟨.warning, "Could not read " ++ path.toString ++ ": " ++ error.message⟩

end Reading

def readScripts (directory : Path) : Action LogRecord σ Reading := do
  let files ← Action.files
  let reading := readDirectory files directory
  -- What was read before an obstacle has been complained about by then.
  Action.recordAll reading.complaints
  match reading.obstacle with
  | some error => Action.fail (.file error)
  | none => return reading

def readKind (root : Path) (kind : ObjectKind) : Action LogRecord σ Reading := do
  let files ← Action.files
  let directory := root.child kind.directory
  match files.isDirectory directory with
  | .error error => Action.fail (.file error)
  | .ok false => return { scripts := [], failed := [], obstacle := none }
  | .ok true =>
    let reading ← readScripts directory
    Action.log .debug ("Loaded " ++ toString reading.scripts.length ++ " " ++ kind.directory ++
      " script(s) from " ++ directory.toString)
    return reading

def find (root : String) : Action LogRecord σ FoundScripts := do
  let files ← Action.files
  let path ← Action.ofExcept (validateRoot files root)
  let domains ← readKind path .domain
  let tables ← readKind path .table
  let procedures ← readKind path .procedure
  let groups : ScriptGroups := {
    domains := domains.scripts, tables := tables.scripts, procedures := procedures.scripts }
  let skipped := domains.skipped ++ tables.skipped ++ procedures.skipped
  -- Directories whose scripts are all blank or could not be read make no groups.
  if groups.total ≠ 0 then return { groups := some groups, skipped }
  else
    Action.log .info
      ("No script sub-directories found; classifying files in " ++ path.toString)
    let flat ← readScripts path
    return { flat := flat.scripts, skipped := skipped ++ flat.skipped }

abbrev Finder (σ : Type) : Type :=
  (root : String) → Action LogRecord σ FoundScripts

def load (finder : Finder σ) (root : String) : Action LogRecord σ ScriptSet := do
  let found ← finder root
  Action.recordAll (found.undetected.map fun warning => ⟨.warning, warning⟩)
  let set := ScriptSet.ofFound found
  Action.log .info ("Loaded " ++ toString set.total ++ " script(s): " ++
    toString set.groups.domains.length ++ " domain, " ++
    toString set.groups.tables.length ++ " table, " ++
    toString set.groups.procedures.length ++ " procedure")
  return set

end Definitions

end SchemaSync
