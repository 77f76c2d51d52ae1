import SchemaSync.Definitions.Desired
import SchemaSync.Definitions.Save
import SchemaSync.Run.Reconcile

/-! Writing the schema of a database as a definition set. A database without objects leaves the
files alone. -/

namespace SchemaSync

structure ExportReport where
  root : Path
  snapshot : Snapshot
  files : List Path
  deriving DecidableEq, Repr

namespace Export

variable {σ : Type}

def run (source : SchemaSource σ) (target root : String) : Action Entry σ ExportReport := do
  Action.ofExcept (Reconcile.requireTarget target)
  let path ← Action.ofExcept (Definitions.outputRoot root)
  let files ← Action.files
  let root ← Action.ofExcept ((files.absolute path).mapError .file)
  Action.announce .stage "Extracting metadata"
  let snapshot ← Action.logged (source.snapshot target)
  if snapshot.total = 0 then
    Action.announce .warning "No metadata found in the database; nothing to export"
    return { root, snapshot, files := [] }
  else
    Action.announce .info ("Found " ++ toString snapshot.total ++ " object(s): " ++
      Definitions.countsByKind snapshot)
    Action.announce .stage ("Writing scripts to " ++ root.toString)
    let written ← Action.logged (Definitions.save root snapshot)
    Action.emit { kind := .done, message := "Wrote " ++ toString written.length ++ " file(s)"
                  total := some (written.length : Nat) }
    return { root, snapshot, files := written }

end Export

end SchemaSync
