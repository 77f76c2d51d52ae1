import SchemaSync.CommandLine.Plain
import SchemaSync.CommandLine.Program

/-! The program on a disk. What the arguments name is read into a tree before the run, and what the
run changed in the tree is written back after it. A run depends on nothing else, so when it asks its
user a question it is simply run again with the answer. No database driver is built in: a run that
needs one fails to connect. -/

namespace SchemaSync.CommandLine

def absentDriver : Firebird.Driver :=
  let reason := "no database driver is available"
  { connect := fun _ _ => .error reason
    create := fun _ _ => .error reason
    fetch := fun _ _ => .error reason
    execute := fun _ _ => .error reason }

def settingVariables : List String :=
  Settings.fileVariable :: settingOptions.map fun (_, key) => key.variable

def readEnvironment : IO Settings.Environment := do
  let values ← settingVariables.mapM fun name => do
    return (← IO.getEnv name).map (name, ·)
  return values.filterMap id

def pathTexts (arguments : List String) : List String :=
  arguments.flatMap fun argument =>
    let cs := argument.toList
    [argument, String.ofList ((cs.dropWhile (· != '=')).drop 1), String.ofList (cs.drop 2)]

/-- A tree with one more node, and all directories above it. -/
def withNode (files : Tree) (path : Path) (node : Node) : Tree :=
  let result : Except FileError Tree := match node with
    | .directory => files.ensureDirectories path
    | node => do
      let files ← files.ensureDirectories path.parent
      let place ← (files.locate path).mapError fun fault => ⟨fault, path.toString⟩
      return files.put place node
  result.toOption.getD files

/-- The result of a read, unless permissions or the disk forbid it. -/
def allowed? {α : Type} (read : IO α) : IO (Option α) := do
  try return some (← read) catch _ => return none

def loadPath (files : Tree) (name : String) : IO Tree := do
  let place := (← IO.currentDir) / name
  if name.isEmpty || !(← place.pathExists) then return files
  let below ← if ← place.isDir then
      place.walkDir fun directory => do return (← allowed? directory.readDir).isSome
    else pure #[]
  (#[place] ++ below).foldlM (fun files found => do
    let node : Node ←
      if ← found.isDir then
        pure (if (← allowed? found.readDir).isSome then .directory else .lockedDirectory)
      else match ← allowed? (IO.FS.readBinFile found) with
        | some bytes => pure (.file bytes.toList)
        | none => pure .lockedFile
    return withNode files (.ofString found.toString) node) files

def saveChanges (before after : Tree) : IO Unit := do
  for (place, node) in after.entries do
    if before.find? place != some node then
      let path := "/" ++ String.intercalate "/" place
      match node with
      | .directory => IO.FS.createDirAll path
      | .file content => IO.FS.writeBinFile path ⟨content.toArray⟩
      | .lockedDirectory | .lockedFile => pure ()

def printItems (items : List Item) : IO Unit :=
  items.forM fun item => item.plainLines.forM IO.println

/-- How many arrays and objects of a settings file may stand inside each other. -/
def maxDepth : Nat := 985

def readConsent : IO Bool := do
  let line ← (← IO.getStdin).getLine
  return (Text.trim line).toList.head?.any fun c => c == 'y' || c == 'Y'

def runOnDisk (arguments : List String) : IO UInt32 := do
  let environment ← readEnvironment
  let here := Path.ofString (← IO.currentDir).toString
  let names := pathTexts arguments ++ (environment.map Prod.snd)
  let files ← names.foldlM loadPath (Tree.empty here.parts)
  let answered (consent : Bool) :=
    (run ⟨environment, absentDriver, plainScreen, consent, maxDepth⟩ arguments).perform
      ⟨files, [], []⟩
  let (result, world) := answered false
  let (asked, unasked) := world.journal.span (!·.isQuestion)
  let (result, world, shown) ←
    if unasked.isEmpty then pure (result, world, 0)
    else do
      printItems (asked ++ unasked.take 1)
      let (result, world) := answered (← readConsent)
      pure (result, world, asked.length + 1)
  printItems (world.journal.drop shown)
  saveChanges files world.files
  match result with
  | .ok code => return code.toUInt32
  | .error error =>
    IO.eprintln error.message
    return 1

end SchemaSync.CommandLine

def main (arguments : List String) : IO UInt32 :=
  SchemaSync.CommandLine.runOnDisk arguments
