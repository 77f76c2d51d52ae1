import SchemaSync.Files.Tree
import SchemaSync.Plan.Step
import SchemaSync.Schema.Name
import SchemaSync.Settings.Json
import SchemaSync.Text.Utf8

/-! Everything that can go wrong, as causes. The wording of an error and its exit code are functions
of the cause. -/

namespace SchemaSync

/-- Things that have a name of their own. -/
inductive Named
  | object (kind : ObjectKind)
  | column
  deriving DecidableEq, Repr

def Named.title : Named → String
  | .object kind => kind.title
  | .column => "Column"

inductive Place
  | scriptsDirectory
  | outputDirectory
  | targetDatabase
  | databaseLocation
  deriving DecidableEq, Repr

def Place.title : Place → String
  | .scriptsDirectory => "Scripts directory"
  | .outputDirectory => "Output directory"
  | .targetDatabase => "Target database"
  | .databaseLocation => "Database location"

inductive ArgumentError
  | blankName (what : Named)
  | columnType (column : String)
  | noColumns (table : String)
  | repeatedPosition (table : String)
  | noSource (procedure : String)
  | blankScript (kind : ObjectKind)
  | absent (kind : ObjectKind)
  | blankPlace (place : Place)
  | emptyBatch
  deriving DecidableEq, Repr

def ArgumentError.message : ArgumentError → String
  | .blankName what => what.title ++ " name must not be empty."
  | .columnType column =>
    "Column " ++ column ++ " must define exactly one of domain_name or data_type."
  | .noColumns table => "Table " ++ table ++ " has no columns."
  | .repeatedPosition table => "Table " ++ table ++ " has duplicate column positions."
  | .noSource procedure => "Procedure " ++ procedure ++ " has no source code."
  | .blankScript kind => kind.title ++ " script must not be empty."
  | .absent kind => kind.title ++ " must not be None."
  | .blankPlace place => place.title ++ " must not be empty."
  | .emptyBatch => "SQL batch contains no statements."

/-- How a script differs from the statement it should be. `line` is its first line, shortened. -/
inductive ScriptError
  | noDomain (line : String)
  | noTable (line : String)
  | noColumnList (table line : String)
  | noColumns (table : String)
  | noProcedure (line : String)
  | noBody (procedure : String)
  deriving DecidableEq, Repr

def ScriptError.message : ScriptError → String
  | .noDomain line => "Cannot parse domain script: " ++ line
  | .noTable line => "Cannot parse table name: " ++ line
  | .noColumnList table line => "Cannot parse columns of table " ++ table ++ ": " ++ line
  | .noColumns table => "Table " ++ table ++ " defines no columns."
  | .noProcedure line => "Cannot parse procedure script: " ++ line
  | .noBody procedure => "Procedure " ++ procedure ++ " has no body."

/-- Why no connection settings result. `fault` is a fault of the file's JSON with its place. -/
inductive SettingsError
  | unreadable (file : String) (error : FileError)
  | malformed (file fault : String)
  | notAnObject (file : String)
  | connectionNotAnObject (file : String)
  | noUser
  | noPassword
  | badPort (value : String)
  deriving DecidableEq, Repr

def SettingsError.message : SettingsError → String
  | .unreadable file error => "Cannot read settings file " ++ file ++ ": " ++ error.message
  | .malformed file fault => "Settings file " ++ file ++ " is not valid JSON: " ++ fault
  | .notAnObject file => "Settings file " ++ file ++ " must contain a JSON object."
  | .connectionNotAnObject file =>
    "Settings file " ++ file ++ ": 'connection' must be an object."
  | .noUser => "Database user is not configured (use --user or DBMETA_USER)."
  | .noPassword => "Database password is not configured (use --password or DBMETA_PASSWORD)."
  | .badPort value => "Invalid port: " ++ value

/-- Failures of a database or its driver, with the driver's own words. -/
inductive DatabaseError
  | cannotConnect (dsn reason : String)
  | cannotRead (what target reason : String)
  | rejected (reason : String)
  | alreadyExists (path : String)
  | cannotCreate (dsn reason : String)
  deriving DecidableEq, Repr

def DatabaseError.message : DatabaseError → String
  | .cannotConnect dsn reason => "Cannot connect to " ++ dsn ++ ": " ++ reason
  | .cannotRead what target reason =>
    "Failed to read " ++ what ++ " from " ++ target ++ ": " ++ reason
  | .rejected reason => reason
  | .alreadyExists path => "Database already exists: " ++ path
  | .cannotCreate dsn reason => "Cannot create database " ++ dsn ++ ": " ++ reason

/-- A run that stopped at a step, with what had been done by then: `succeeded` of
`categoryTotal` steps of the same category, and `executed` of all `total` steps. -/
structure StepFailure where
  step : Step
  cause : String
  succeeded : Nat
  categoryTotal : Nat
  executed : Nat
  total : Nat
  deriving DecidableEq, Repr

def StepFailure.message (failure : StepFailure) : String :=
  "Failed to " ++ failure.step.label ++ ": " ++ failure.cause ++ ". " ++
    toString failure.succeeded ++ " of " ++ toString failure.categoryTotal ++ " " ++
    failure.step.category ++ " statement(s) succeeded before the failure (" ++
    toString failure.executed ++ " of " ++ toString failure.total ++ " overall). Script: " ++
    batchPreview failure.step.sql

/-- Any failure. The first six are declared: callers may show their words to users. The others
come from outside and stop a program. -/
inductive Error
  | argument (error : ArgumentError)
  | definitionsNotFound (path : String)
  | settings (error : SettingsError)
  | script (error : ScriptError)
  | step (failure : StepFailure)
  | database (error : DatabaseError)
  | file (error : FileError)
  | undecodable (error : Text.Utf8.DecodeError)
  | infinitePort
  | longNumeral
  | deepNesting
  | unprintable (reason : String)
  | foreign (text : String)
  deriving DecidableEq, Repr

def Text.Utf8.DecodeError.message (error : Text.Utf8.DecodeError) : String :=
  let reason := match error.reason with
    | .invalidStart => "invalid start byte"
    | .invalidContinuation => "invalid continuation byte"
    | .endOfData => "unexpected end of data"
  match error.bytes with
  | [byte] =>
    "'utf-8' codec can't decode byte 0x" ++ String.ofList (Text.hexDigits 2 byte.toNat) ++
      " in position " ++ toString error.position ++ ": " ++ reason
  | bytes =>
    "'utf-8' codec can't decode bytes in position " ++ toString error.position ++ "-" ++
      toString (error.position + bytes.length - 1) ++ ": " ++ reason

def Error.message : Error → String
  | .argument error => error.message
  | .definitionsNotFound path => "Scripts directory not found: " ++ path
  | .settings error => error.message
  | .script error => error.message
  | .step failure => failure.message
  | .database error => error.message
  | .file error => error.message
  | .undecodable error => error.message
  | .infinitePort => "cannot convert float infinity to integer"
  | .longNumeral => "Exceeds the limit for integer string conversion"
  | .deepNesting => "maximum recursion depth exceeded"
  | .unprintable reason => reason
  | .foreign text => text

inductive ErrorKind
  | declared
  | invalidArgument
  | definitionsNotFound
  | settings
  | script
  | step
  | database
  | fileNotFound
  | fileExists
  | notADirectory
  | isADirectory
  | permission
  | system
  | undecodable
  | overflow
  | value
  | recursion
  | markup
  | runtime
  deriving DecidableEq, Repr

def Error.kind : Error → ErrorKind
  | .argument _ => .invalidArgument
  | .definitionsNotFound _ => .definitionsNotFound
  | .settings _ => .settings
  | .script _ => .script
  | .step _ => .step
  | .database _ => .database
  | .file error => match error.fault with
    | .notFound => .fileNotFound
    | .alreadyExists => .fileExists
    | .notADirectory => .notADirectory
    | .isADirectory => .isADirectory
    | .nameTooLong => .system
    | .denied => .permission
    | .nulInName => .value
  | .undecodable _ => .undecodable
  | .infinitePort => .overflow
  | .longNumeral => .value
  | .deepNesting => .recursion
  | .unprintable _ => .markup
  | .foreign _ => .runtime

/-- The broad families that kinds belong to. -/
inductive ErrorFamily
  | declared
  | value
  | fileNotFound
  | runtime
  | system
  deriving DecidableEq, Repr

namespace ErrorKind

/-- The families of a kind, the nearest first. -/
def families : ErrorKind → List ErrorFamily
  | .declared => [.declared]
  | .invalidArgument | .script => [.declared, .value]
  | .definitionsNotFound => [.declared, .fileNotFound, .system]
  | .settings | .step | .database => [.declared, .runtime]
  | .fileNotFound => [.fileNotFound, .system]
  | .fileExists | .notADirectory | .isADirectory | .permission | .system => [.system]
  | .undecodable | .value => [.value]
  | .overflow | .markup => []
  | .recursion | .runtime => [.runtime]

/-- Whether callers may show the words of such failures to users. -/
def isDeclared (kind : ErrorKind) : Bool :=
  kind.families.contains .declared

/-- The exit code for a failure: two if what the user passed in is wrong, else one. -/
def exitCode : ErrorKind → Nat
  | .invalidArgument | .definitionsNotFound | .settings | .script => 2
  | _ => 1

end ErrorKind

end SchemaSync
