import SchemaSync.CommandLine.Arguments
import SchemaSync.Files.Path
import SchemaSync.Settings.Resolve

/-! The commands, with what each of them is given. -/

namespace SchemaSync.CommandLine

structure UpdateRequest where
  database : String
  scripts : Path
  dryRun : Bool
  yes : Bool
  showSql : Bool
  deriving DecidableEq, Repr

inductive DatabaseCommand
  | build (directory : Path) (name : String) (scripts : Path)
  | update (request : UpdateRequest)
  | export (database : String) (output : Path)
  deriving DecidableEq, Repr

inductive ScriptsCommand
  | check (scripts : Path) (strict : Bool)
  deriving DecidableEq, Repr

def require (given : Given) (option : OptionName) : Except Stop String :=
  match given.value? option with
  | some value => .ok value
  | none => .error .usage

def requirePath (given : Given) (option : OptionName) : Except Stop Path :=
  Path.ofString <$> require given option

def defaultDatabaseName : String := "database.fdb"

def readBuild (arguments : List String) : Except Stop DatabaseCommand := do
  let given ← readOptions [.databaseDirectory, .scriptsDirectory, .databaseName] true arguments
  let directory ← requirePath given .databaseDirectory
  let scripts ← requirePath given .scriptsDirectory
  checkArguments 0 given
  return .build directory ((given.value? .databaseName).getD defaultDatabaseName) scripts

def readUpdate (arguments : List String) : Except Stop DatabaseCommand := do
  let given ← readOptions [.database, .scriptsDirectory, .dryRun, .yes, .showSql] true arguments
  let database ← require given .database
  let scripts ← requirePath given .scriptsDirectory
  checkArguments 0 given
  return .update { database, scripts, dryRun := given.has .dryRun, yes := given.has .yes
                   showSql := given.has .showSql }

def readExport (arguments : List String) : Except Stop DatabaseCommand := do
  let given ← readOptions [.database, .outputDirectory] true arguments
  let database ← require given .database
  let output ← requirePath given .outputDirectory
  checkArguments 0 given
  return .export database output

/-- Whether a check is strict: it is, unless the last word on it says otherwise. -/
def isStrict (given : Given) : Bool :=
  (given.options.reverse.find? fun entry => entry.1 == .strict || entry.1 == .lenient).all
    (·.1 == .strict)

def readCheck (arguments : List String) : Except Stop ScriptsCommand := do
  let given ← readOptions [.strict, .lenient] true arguments
  checkArguments 1 given
  match given.arguments with
  | directory :: _ => return .check (.ofString directory) (isStrict given)
  | [] => .error .usage

def databaseCommands : List (String × (List String → Except Stop DatabaseCommand)) := [
  ("build", readBuild), ("update", readUpdate), ("export", readExport)]

def scriptsCommands : List (String × (List String → Except Stop ScriptsCommand)) := [
  ("check", readCheck)]

def settingOptions : List (OptionName × Settings.Key) := [
  (.host, .host), (.port, .port), (.user, .user), (.password, .password), (.charset, .charset)]

def connectionOptions : List OptionName :=
  settingOptions.map Prod.fst ++ [.config]

/-- A setting in an option that is given, or else in a variable that is not empty. -/
def settingText? (environment : Settings.Environment) (given : Given) (option : OptionName)
    (key : Settings.Key) : Option String :=
  (given.value? option).or (environment.value? key.variable)

/-- The value of a setting. A port is a number. -/
def settingValue (key : Settings.Key) (text : String) : Except Stop Json :=
  match key with
  | .port => match wholeNumber? text.toList with
    | some number => .ok (.int number)
    | none => .error .usage
  | _ => .ok (.string text)

def explicitSettings (environment : Settings.Environment) (given : Given) :
    List (OptionName × Settings.Key) → Except Stop (List (Settings.Key × Json))
  | [] => .ok []
  | (option, key) :: rest => do
    let settings ← explicitSettings environment given rest
    match settingText? environment given option key with
    | none => return settings
    | some text => return (key, ← settingValue key text) :: settings

def explicitOf (environment : Settings.Environment) (given : Given) :
    Except Stop Settings.Explicit := do
  let settings ← explicitSettings environment given settingOptions
  let file := (given.value? .config).or (environment.value? Settings.fileVariable)
  return { settings, file := file.map fun file => (Path.ofString file).toString }

end SchemaSync.CommandLine
