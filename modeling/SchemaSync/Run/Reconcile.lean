import SchemaSync.Plan.Plan
import SchemaSync.Run.Apply

/-! Bringing a database in line with a definition set. A plan is worked out without touching the
database, and then it is applied or, in a dry run, only reported. -/

namespace SchemaSync

namespace Reconcile

variable {σ : Type}

def requireTarget (target : String) : Except Error Unit :=
  if Text.isBlankText target then .error (.argument (.blankPlace .targetDatabase)) else .ok ()

def noDefinitions : String := "No definition scripts found"

def plan (source : SchemaSource σ) (finder : Definitions.Finder σ) (target root : String) :
    Action Entry σ Plan := do
  Action.ofExcept (requireTarget target)
  let files ← Action.files
  let _ ← Action.ofExcept (Definitions.validateRoot files root)
  -- The database is asked for nothing before both arguments have been checked.
  Action.announce .stage "Extracting existing metadata"
  let existing ← Action.logged (source.snapshot target)
  Action.announce .info ("Found " ++ Definitions.countsByKind existing)
  Action.announce .stage "Loading definition scripts"
  let desired ← Definitions.desired finder root
  let missing := if desired.snapshot.total = 0 then [noDefinitions] else []
  Action.recordAll (missing.flatMap fun warning => (Event.plain .warning warning).entries)
  Action.announce .stage "Analyzing changes"
  let changes := ChangeSet.between existing desired
  Action.announce .info ("Planned " ++ toString changes.total ++ " statement(s)")
  return { target, existing, desired := desired.snapshot, changes
           warnings := desired.warnings ++ missing }

def apply (execute : Executor σ) (plan : Plan) : Action Entry σ Report := do
  if plan.changes.total = 0 then
    Action.announce .done "No changes detected; database is up to date"
    return .ofPlan plan 0 false
  else
    Action.announce .stage ("Applying " ++ toString plan.changes.total ++ " change(s)")
    let executed ← Apply.steps execute plan.target plan.changes.steps
    Action.emit { kind := .done, message := "Executed " ++ toString executed ++ " statement(s)"
                  total := some (executed : Nat) }
    return .ofPlan plan executed false

/-- Works out a plan and applies it, unless the run is dry. -/
def run (source : SchemaSource σ) (execute : Executor σ) (finder : Definitions.Finder σ)
    (target root : String) (dryRun : Bool) : Action Entry σ Report := do
  let plan ← plan source finder target root
  if dryRun then
    Action.announce .done
      ("Dry run: " ++ toString plan.changes.total ++ " statement(s) not applied")
    return .ofPlan plan 0 true
  else apply execute plan

end Reconcile

end SchemaSync
