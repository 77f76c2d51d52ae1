import SchemaSync.CommandLine.Command
import SchemaSync.CommandLine.Screen
import SchemaSync.Firebird.Server
import SchemaSync.Run.Export

/-! The program. A command line leads to a command, the command shows what it does, and the exit
code tells how it ended: zero for success, one for a failure, two for wrong input. -/

namespace SchemaSync.CommandLine

open Firebird

/-- What a program meets besides its command line and the world: the environment, the driver of the
database, the screen, whether its user says yes when asked, and how many arrays and objects it has
room for inside each other. -/
structure Setting where
  environment : Settings.Environment
  driver : Driver
  screen : Screen
  consent : Bool
  maxDepth : Nat

/-- A part of the program that shows something and talks to a driver. -/
abbrev Show : Type → Type :=
  Action Item (List Call)

namespace Show

variable {α : Type} (screen : Screen)

/-- Shows an item. What the screen refuses breaks the program off. -/
def item (item : Item) : Show Unit :=
  match screen.refusal? item with
  | none => Action.record item
  | some reason => Action.fail (.unprintable reason)

def items : List Item → Show Unit
  | [] => pure ()
  | next :: rest => do
    item screen next
    items rest

def exitWith (last : List Item) (code : Nat) : Show Nat := do
  items screen last
  return code

/-- Ends the program with a failure that may be shown to users. Other failures break it off. -/
def exitOnError (error : Error) : Show Nat :=
  if error.kind.isDeclared then exitWith screen [.failure error.message] error.kind.exitCode
  else Action.fail error

def exitOnRunError (error : Error) : Show Nat :=
  match error with
  | .step failure => exitWith screen (Item.ofFailure failure) (Error.step failure).kind.exitCode
  | error => exitOnError screen error

/-- Carries out a run in sight of the user. Lines for events are escaped, so none is refused. -/
def follow (verbose : Bool) (run : Action Entry (List Call) α) : Show (Except Error α) :=
  (Action.within (Item.ofEntry screen.escape verbose) run).attempt

end Show

section Commands

variable (screen : Screen)

def runBuild (server : Server) (verbose : Bool) (directory : Path) (name : String)
    (scripts : Path) : Show Nat := do
  let files ← Action.files
  let path ← Action.ofExcept ((files.absolute (directory.child name)).mapError .file)
  let location := path.toString
  Show.items screen
    (Item.ofCommand "Build database" [("Database", location), ("Scripts", scripts.toString)])
  match ← Show.follow screen verbose
    (Build.run server.creator server.executor Definitions.find location scripts.toString) with
  | .error error => Show.exitOnRunError screen error
  | .ok report =>
    Show.item screen (.ofBuildReport report)
    if report.total = 0 then
      Show.exitWith screen [.warning "Database created, but no scripts were executed."] 0
    else Show.exitWith screen [.success ("Database built: " ++ location)] 0

def runExport (server : Server) (verbose : Bool) (database : String) (output : Path) :
    Show Nat := do
  Show.items screen
    (Item.ofCommand "Export database" [("Database", database), ("Output", output.toString)])
  match ← Show.follow screen verbose (Export.run server.source database output.toString) with
  | .error error => Show.exitOnError screen error
  | .ok report =>
    if report.files.isEmpty then Show.exitWith screen [.warning "Nothing to export."] 0
    else
      Show.item screen (.ofSnapshot "Exported objects" report.snapshot)
      Show.exitWith screen [.success ("Wrote " ++ toString report.files.length ++ " file(s) to " ++
        report.root.toString)] 0

def readDefinitions (scripts : Path) : Action Entry (List Call) DesiredSchema := do
  let files ← Action.files
  let _ ← Action.ofExcept (Definitions.validateRoot files scripts.toString)
  Definitions.desired Definitions.find scripts.toString

def checkItems (scripts : Path) (desired : DesiredSchema) : List Item :=
  let snapshot := desired.snapshot
  let head := Item.ofCommand "Definition scripts" [
    ("Directory", scripts.toString),
    ("Domains", toString snapshot.domains.length),
    ("Tables", toString snapshot.tables.length),
    ("Procedures", toString snapshot.procedures.length)]
  let objects := if snapshot.total ≠ 0 then [.ofSnapshot "Parsed objects" snapshot] else []
  let last : List Item :=
    if !desired.warnings.isEmpty then
      desired.warnings.map .warning ++
        [.warning (toString desired.warnings.length ++ " problem(s) found.")]
    else if snapshot.total = 0 then [.warning "No definition scripts found."]
    else [.success "All scripts parsed."]
  head ++ objects ++ last

/-- The exit code for a definition set. Only a strict check minds problems. -/
def checkCode (strict : Bool) (desired : DesiredSchema) : Nat :=
  if strict && (!desired.warnings.isEmpty || desired.snapshot.total == 0) then 1 else 0

def runCheck (verbose : Bool) (scripts : Path) (strict : Bool) : Show Nat := do
  match ← (Action.within (Item.ofEntryLog verbose) (readDefinitions scripts)).attempt with
  | .error error => Show.exitOnError screen error
  | .ok desired => Show.exitWith screen (checkItems scripts desired) (checkCode strict desired)

end Commands

section Update

variable (setting : Setting) (server : Server) (verbose : Bool) (request : UpdateRequest)

def question (steps : List Step) : String :=
  "Apply " ++ toString steps.length ++ " statement(s) to " ++ request.database ++ "?"

/-- Whether the steps of an update may be applied. The user is asked unless the answer was given in
advance. -/
def mayApply (steps : List Step) : Show Bool := do
  if request.yes then return true
  else
    Show.items setting.screen (Item.confirmation (question request steps))
    return setting.consent

def applyPlan (plan : Plan) : Show Nat := do
  match ← Show.follow setting.screen verbose (Reconcile.apply server.executor plan) with
  | .error error => Show.exitOnRunError setting.screen error
  | .ok report =>
    Show.exitWith setting.screen
      [.ofReport report, .success ("Database updated: " ++ request.database)] 0

def stepItems (steps : List Step) : List Item :=
  .ofSteps steps :: if request.showSql || request.dryRun then Item.statements steps else []

/-- Shows the steps of a plan, and applies them unless the run is dry or the user declines. -/
def carryOut (plan : Plan) : Show Nat := do
  let steps := plan.changes.steps
  if steps.isEmpty then
    Show.exitWith setting.screen [.info "Database is up to date; nothing to apply."] 0
  else
    Show.items setting.screen (stepItems request steps)
    if request.dryRun then
      Show.exitWith setting.screen
        [.info ("Dry run: " ++ toString steps.length ++ " statement(s) not applied.")] 0
    else if ← mayApply setting request steps then applyPlan setting server verbose request plan
    else Show.exitWith setting.screen [.warning "Aborted. Nothing was applied."] 0

def runUpdate : Show Nat := do
  Show.items setting.screen (Item.ofCommand "Update database"
    [("Database", request.database), ("Scripts", request.scripts.toString)])
  match ← Show.follow setting.screen verbose
    (Reconcile.plan server.source Definitions.find request.database request.scripts.toString) with
  | .error error => Show.exitOnError setting.screen error
  | .ok plan => carryOut setting server verbose request plan

end Update

/-- Ends the program early. Help is a success. -/
def exitEarly (stop : Stop) : Show Nat :=
  match stop with
  | .usage => pure 2
  | .help => pure 0

def goOn {α : Type} (reading : Except Stop α) (next : α → Show Nat) : Show Nat :=
  match reading with
  | .error stop => exitEarly stop
  | .ok value => next value

/-- What an unknown command leads to. If it looks like an option, it may still ask for help. -/
def unknownCommand (known : List OptionName) (arguments : List String) : Stop :=
  match readOptions known false arguments with
  | .error stop => stop
  | .ok _ => .usage

def runDatabaseCommand (setting : Setting) (server : Server) (verbose : Bool) :
    DatabaseCommand → Show Nat
  | .build directory name scripts => runBuild setting.screen server verbose directory name scripts
  | .update request => runUpdate setting server verbose request
  | .export database output => runExport setting.screen server verbose database output

def runScriptsCommand (screen : Screen) (verbose : Bool) : ScriptsCommand → Show Nat
  | .check scripts strict => runCheck screen verbose scripts strict

/-- Runs the commands on databases. The settings of the connection come first, and without a command
there is only help. -/
def runDatabase (setting : Setting) (verbose : Bool) (arguments : List String) : Show Nat :=
  goOn (readOptions connectionOptions false arguments) fun given =>
  goOn (explicitOf setting.environment given) fun explicit =>
  match given.arguments with
  | [] => pure 0
  | name :: rest =>
    match databaseCommands.lookup name with
    | none => exitEarly (unknownCommand connectionOptions (name :: rest))
    | some read => do
      let files ← Action.files
      -- The options of the command are read after this, so its help needs a connection as well.
      match Settings.connection setting.maxDepth explicit setting.environment files with
      | .error (.settings error) => Show.exitWith setting.screen [.failure error.message] 2
      | .error error => Action.fail error
      | .ok connection =>
        goOn (read rest) (runDatabaseCommand setting ⟨connection, setting.driver⟩ verbose)

def runScripts (screen : Screen) (verbose : Bool) (arguments : List String) : Show Nat :=
  goOn (readOptions [] false arguments) fun given =>
  match given.arguments with
  | [] => exitEarly .usage
  | name :: rest =>
    match scriptsCommands.lookup name with
    | none => exitEarly (unknownCommand [] (name :: rest))
    | some read => goOn (read rest) (runScriptsCommand screen verbose)

def run (setting : Setting) (arguments : List String) : Show Nat :=
  goOn (readOptions [.verbose] false arguments) fun given =>
  let verbose := given.has .verbose
  match given.arguments with
  | [] => exitEarly .usage
  | name :: rest =>
    if name == "db" then runDatabase setting verbose rest
    else if name == "scripts" then runScripts setting.screen verbose rest
    else exitEarly (unknownCommand [.verbose] (name :: rest))

end SchemaSync.CommandLine
