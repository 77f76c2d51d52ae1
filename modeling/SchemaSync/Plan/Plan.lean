import SchemaSync.Plan.ChangeSet

/-! A plan for one database, and the report about carrying it out. -/

namespace SchemaSync

/-- What is to be done to the database at `target`, and what that was worked out from. -/
structure Plan where
  target : String
  existing : Snapshot
  desired : Snapshot
  changes : ChangeSet
  warnings : List String
  deriving DecidableEq, Repr

/-- What came of a plan. A dry run executes nothing. -/
structure Report where
  domainsCreated : Nat
  domainsAltered : Nat
  tablesCreated : Nat
  tablesAltered : Nat
  proceduresReplaced : Nat
  statementsPlanned : Nat
  statementsExecuted : Nat
  dryRun : Bool
  warnings : List String
  deriving DecidableEq, Repr

namespace Report

def totalChanges (report : Report) : Nat :=
  report.domainsCreated + report.domainsAltered + report.tablesCreated + report.tablesAltered +
    report.proceduresReplaced

def inSync (report : Report) : Bool :=
  report.statementsPlanned == 0

/-- The report about a plan of which `executed` steps were carried out. -/
def ofPlan (plan : Plan) (executed : Nat) (dryRun : Bool) : Report where
  domainsCreated := ChangeSet.objectsAffected plan.changes.domainCreates
  domainsAltered := ChangeSet.objectsAffected plan.changes.domainAlters
  tablesCreated := ChangeSet.objectsAffected plan.changes.tableCreates
  tablesAltered := ChangeSet.objectsAffected (plan.changes.columnAdds ++ plan.changes.columnAlters)
  proceduresReplaced := ChangeSet.objectsAffected plan.changes.procedures
  statementsPlanned := plan.changes.total
  statementsExecuted := executed
  dryRun := dryRun
  warnings := plan.warnings

end Report

end SchemaSync
