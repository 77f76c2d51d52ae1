import SchemaSync.Definitions.Desired
import SchemaSync.Plan.Difference

/-! The steps that turn an existing schema into a desired one. Domains come before the tables that
use them, tables before their columns change, and procedures last. -/

namespace SchemaSync

structure ChangeSet where
  domainCreates : List Step
  domainAlters : List Step
  tableCreates : List Step
  columnAdds : List Step
  columnAlters : List Step
  procedures : List Step
  deriving DecidableEq, Repr

namespace ChangeSet

/-- All steps, in the order in which a database can take them. -/
def steps (changes : ChangeSet) : List Step :=
  changes.domainCreates ++ changes.domainAlters ++ changes.tableCreates ++ changes.columnAdds ++
    changes.columnAlters ++ changes.procedures

def total (changes : ChangeSet) : Nat :=
  changes.steps.length

def objectsAffected (steps : List Step) : Nat :=
  (steps.map fun step => NameKey.of step.objectName).eraseDups.length

/-- The step that creates an object of a kind from the script it was read from. -/
def createStep (desired : DesiredSchema) (kind : ObjectKind) (name : String) : Step where
  category := kind.name
  action := "create"
  objectName := name
  sql := desired.scriptFor kind name

def replaceStep (desired : DesiredSchema) (name : String) : Step where
  category := ObjectKind.procedure.name
  action := "create or alter"
  objectName := name
  sql := Script.toCreateOrAlter (desired.scriptFor .procedure name)

def alterDomainSteps (plan : AlterPlan) : List Step :=
  plan.statements.map fun statement =>
    { category := ObjectKind.domain.name, action := "alter", objectName := plan.name
      sql := statement }

def addColumnSteps (changes : ColumnChanges) : List Step :=
  changes.toAdd.map fun column =>
    { category := ObjectKind.table.name, action := "add column", objectName := changes.table
      sql := ColumnChanges.addStatement changes.table column, detail := some column.name }

def alterColumnSteps (changes : ColumnChanges) : List Step :=
  changes.toAlter.flatMap fun plan => plan.statements.map fun statement =>
    { category := ObjectKind.table.name, action := "alter column", objectName := changes.table
      sql := statement, detail := some plan.name }

/-- The steps for the differences of domains and of tables, and for the procedures that differ. -/
def ofChanges (existing : Snapshot) (desired : DesiredSchema) (domains : DomainChanges)
    (tables : TableChanges) : ChangeSet where
  domainCreates := domains.toCreate.map fun d => createStep desired .domain d.name
  domainAlters := domains.toAlter.flatMap alterDomainSteps
  tableCreates := tables.toCreate.map fun t => createStep desired .table t.name
  columnAdds := tables.toAlter.flatMap addColumnSteps
  columnAlters := tables.toAlter.flatMap alterColumnSteps
  -- One statement serves both a procedure that is missing and one that differs.
  procedures := (desired.snapshot.procedures.filter fun p =>
    procedureChanged (existing.procedure? p.name) p).map fun p => replaceStep desired p.name

/-- The steps from an existing schema to a desired one. -/
def between (existing : Snapshot) (desired : DesiredSchema) : ChangeSet :=
  ofChanges existing desired (compareDomains existing.domains desired.snapshot.domains)
    (compareTables existing.tables desired.snapshot.tables)

end ChangeSet

end SchemaSync
