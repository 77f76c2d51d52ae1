import SchemaSync.Run.Event
import SchemaSync.Script.Render

/-! Writing a schema as a definition set: a directory for each kind of object that there is, and in
it a script for each object, named after it. -/

namespace SchemaSync

namespace Definitions

variable {σ : Type}

/-- Writes a script into a directory, which is made if need be. -/
def writeScript (directory : Path) (name script : String) : Action LogRecord σ Path := do
  Action.changeFiles (·.ensureDirectories directory)
  let path := directory.child (name ++ ".sql")
  Action.changeFiles (·.write path (Text.Utf8.encode script.toList))
  return path

def writeScripts (directory : Path) : List (String × String) → Action LogRecord σ (List Path)
  | [] => pure []
  | (name, script) :: rest => do
    let path ← writeScript directory name script
    return path :: (← writeScripts directory rest)

def namedScripts (snapshot : Snapshot) : ObjectKind → List (String × String)
  | .domain => snapshot.domains.map fun d => (d.name, d.script)
  | .table => snapshot.tables.map fun t => (t.name, t.script)
  | .procedure => snapshot.procedures.map fun p => (p.name, p.script)

def saveKinds (root : Path) (snapshot : Snapshot) : List ObjectKind → Action LogRecord σ (List Path)
  | [] => pure []
  | kind :: rest => do
    let written ← writeScripts (root.child kind.directory) (namedScripts snapshot kind)
    return written ++ (← saveKinds root snapshot rest)

/-- Writes a snapshot as a definition set, and says which files were written, in order. -/
def save (root : Path) (snapshot : Snapshot) : Action LogRecord σ (List Path) := do
  Action.changeFiles (·.ensureDirectories root)
  let written ← saveKinds root snapshot ObjectKind.all
  Action.log .info
    ("Wrote " ++ toString written.length ++ " script file(s) to " ++ root.toString)
  return written

/-- The directory that a definition set is written to: it has to be named. -/
def outputRoot (root : String) : Except Error Path :=
  if Text.isBlankText root then .error (.argument (.blankPlace .outputDirectory))
  else .ok (.ofString root)

end Definitions

end SchemaSync
