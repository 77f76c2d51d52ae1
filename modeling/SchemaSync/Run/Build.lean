import SchemaSync.Definitions.Desired
import SchemaSync.Run.Apply

/-! Building a new database from a definition set. There is nothing to compare with, so every script
runs as it stands, on a database that is created empty. -/

namespace SchemaSync

structure BuildReport where
  location : String
  domains : Nat
  tables : Nat
  procedures : Nat
  warnings : List String
  deriving DecidableEq, Repr

namespace BuildReport

def total (report : BuildReport) : Nat :=
  report.domains + report.tables + report.procedures

end BuildReport

namespace Build

variable {σ : Type}

def stepsOfKind (groups : ScriptGroups) (kind : ObjectKind) : List Step :=
  (groups.ofKind kind).map fun script =>
    { category := kind.name, action := "create", objectName := script.path.stem
      sql := script.text }

/-- The steps that run all scripts: domains, then tables, then procedures. -/
def steps (groups : ScriptGroups) : List Step :=
  ObjectKind.all.flatMap (stepsOfKind groups)

def requireLocation (location : String) : Except Error Unit :=
  if Text.isBlankText location then .error (.argument (.blankPlace .databaseLocation)) else .ok ()

def noScripts : String := "No scripts found to execute"

/-- Creates a database and runs all scripts on it. -/
def run (create : Creator σ) (execute : Executor σ) (finder : Definitions.Finder σ)
    (location root : String) : Action Entry σ BuildReport := do
  Action.ofExcept (requireLocation location)
  let files ← Action.files
  let _ ← Action.ofExcept (Definitions.validateRoot files root)
  -- Nothing is created before both arguments have been checked.
  Action.announce .stage ("Creating empty database " ++ location)
  Action.logged (create location)
  Action.announce .stage "Loading definition scripts"
  let set ← Action.logged (Definitions.load finder root)
  Action.recordAll (set.warnings.flatMap fun warning => (Event.plain .warning warning).entries)
  if set.total = 0 then
    Action.announce .warning noScripts
    return { location, domains := 0, tables := 0, procedures := 0
             warnings := set.warnings ++ [noScripts] }
  else
    Action.announce .stage ("Executing " ++ toString set.total ++ " script(s)")
    let _ ← Apply.steps execute location (steps set.groups)
    let report : BuildReport := {
      location
      domains := set.groups.domains.length
      tables := set.groups.tables.length
      procedures := set.groups.procedures.length
      warnings := set.warnings }
    Action.announce .done ("Database built: " ++ toString report.domains ++ " domain(s), " ++
      toString report.tables ++ " table(s), " ++ toString report.procedures ++ " procedure(s)")
    return report

end Build

end SchemaSync
