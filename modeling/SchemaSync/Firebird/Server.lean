import SchemaSync.Firebird.Driver
import SchemaSync.Run.Database
import SchemaSync.Script.Statement

/-! A database server as runs see it. Each action opens a connection of its own and closes it in any
case. Every statement of a batch is committed by itself. -/

namespace SchemaSync.Firebird

structure Server where
  connection : Connection
  driver : Driver

namespace Server

variable {α : Type} (server : Server)

/-- The text that names the database at a location, which must not be blank. -/
def dsn (location : String) : Except Error String :=
  if Text.isBlankText location then .error (.argument (.blankPlace .databaseLocation))
  else .ok (server.connection.dsn (Text.trim location))

def login (dsn : String) : Login where
  dsn := dsn
  user := server.connection.user
  password := server.connection.password
  charset := server.connection.charset

def withConnection (target : String) (action : Session α) : Session α := do
  let dsn ← Action.ofExcept (server.dsn target)
  let login := server.login dsn
  match ← Driver.ask (.connect login) (server.driver.connect · login) with
  | .error reason => Action.fail (.database (.cannotConnect dsn reason))
  | .ok () =>
    -- The connection is closed before a failure of the action goes on.
    let result ← action.attempt
    Driver.tell .close
    Action.ofExcept result

def fetch (target : String) (query : Query) : Session (List query.Row) :=
  server.withConnection target do
    match ← Driver.ask (.query query) (server.driver.fetch · query) with
    | .error reason => Action.fail (.database (.cannotRead query.subject target reason))
    | .ok rows =>
      Driver.tell .commit
      return rows

def logExtracted (count : Nat) (kind : ObjectKind) (target : String) : Session Unit :=
  Action.log .debug
    ("Extracted " ++ toString count ++ " " ++ kind.name ++ "(s) from " ++ target)

def domains (target : String) : Session (List Domain) := do
  let rows ← server.fetch target .domains
  let domains ← Action.ofExcept (rows.mapM DomainRow.domain)
  logExtracted domains.length .domain target
  return domains

def tables (target : String) : Session (List Table) := do
  let rows ← server.fetch target .columns
  let tables ← Action.ofExcept (tablesOfRows rows)
  logExtracted tables.length .table target
  return tables

/-- The procedures that rows describe. One without a source is passed over. -/
def proceduresOfRows (parameters : List ParameterRow) : List ProcedureRow → Session (List Procedure)
  | [] => pure []
  | row :: rest => do
    match row.procedure? parameters with
    | none =>
      Action.log .warning
        ("Procedure " ++ row.name.getD "None" ++ " has no stored source; skipped")
      proceduresOfRows parameters rest
    | some result =>
      let procedure ← Action.ofExcept result
      return procedure :: (← proceduresOfRows parameters rest)

def procedures (target : String) : Session (List Procedure) := do
  let parameters ← server.fetch target .parameters
  let rows ← server.fetch target .procedures
  let procedures ← proceduresOfRows parameters rows
  logExtracted procedures.length .procedure target
  return procedures

/-- Runs one statement and commits it, or takes it back. -/
def runStatement (statement : String) : Session Nat := do
  match ← Driver.ask (.execute statement) (server.driver.execute · statement) with
  | .ok affected =>
    Driver.tell .commit
    -- A negative number stands for one that is not known, and counts as zero.
    return (affected.getD 0).toNat
  | .error reason =>
    Driver.tell .rollback
    Action.log .debug ("Statement failed: " ++ statement)
    Action.fail (.database (.rejected reason))

def runStatements : List String → Session Nat
  | [] => pure 0
  | statement :: rest => do
    let first ← server.runStatement statement
    return first + (← runStatements rest)

def execute (target batch : String) : Session Nat :=
  match Script.splitStatements batch with
  | [] => Action.fail (.argument .emptyBatch)
  | statements => server.withConnection target (server.runStatements statements)

/-- Makes room for a new database that is opened as a file: nothing may stand there yet, and the
directory it goes to is made. -/
def prepareFile (location : String) : Session Unit := do
  let path := Path.ofString location
  let files ← Action.files
  match files.isPresent path with
  | .error error => Action.fail (.file error)
  | .ok true => Action.fail (.database (.alreadyExists path.toString))
  | .ok false => Action.changeFiles (·.ensureDirectories path.parent)

def createEmpty (location : String) : Session Unit := do
  let dsn ← Action.ofExcept (server.dsn location)
  -- Where the files of another machine are is its own business.
  if server.connection.server?.isNone then prepareFile location
  let login := server.login dsn
  match ← Driver.ask (.createDatabase login false) (server.driver.create · login) with
  | .error reason => Action.fail (.database (.cannotCreate dsn reason))
  | .ok () =>
    Driver.tell .close
    Action.log .info ("Created database " ++ dsn)

def source : SchemaSource (List Call) where
  domains := server.domains
  tables := server.tables
  procedures := server.procedures

def executor : Executor (List Call) :=
  fun target batch => do
    let _ ← server.execute target batch

def creator : Creator (List Call) :=
  server.createEmpty

end Server

end SchemaSync.Firebird
