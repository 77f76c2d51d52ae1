import SchemaSync.CommandLine.WholeNumber

/-! Options on a command line. Long names start with two hyphens and take their value after an
equals sign or as the next argument. Short names may stand together after one hyphen, and the last
of them takes what is left, or the next argument, as its value. Two hyphens alone end the options.
-/

namespace SchemaSync.CommandLine

inductive OptionName
  | help
  | verbose
  | host
  | port
  | user
  | password
  | charset
  | config
  | databaseDirectory
  | databaseName
  | scriptsDirectory
  | database
  | outputDirectory
  | dryRun
  | yes
  | showSql
  | strict
  | lenient
  deriving DecidableEq, Repr

/-- What the value of an option, or of a plain argument, has to be. -/
inductive ValueKind
  | text
  | integer
  | path
  deriving DecidableEq, Repr

namespace OptionName

def spellings : OptionName → List String
  | .help => ["--help"]
  | .verbose => ["--verbose", "-v"]
  | .host => ["--host"]
  | .port => ["--port"]
  | .user => ["--user", "-u"]
  | .password => ["--password"]
  | .charset => ["--charset"]
  | .config => ["--config"]
  | .databaseDirectory => ["--db-dir"]
  | .databaseName => ["--db-name"]
  | .scriptsDirectory => ["--scripts-dir", "-s"]
  | .database => ["--database", "-d"]
  | .outputDirectory => ["--output-dir", "-o"]
  | .dryRun => ["--dry-run"]
  | .yes => ["--yes", "-y"]
  | .showSql => ["--show-sql"]
  | .strict => ["--strict"]
  | .lenient => ["--no-strict"]

def value? : OptionName → Option ValueKind
  | .port => some .integer
  | .config | .databaseDirectory | .scriptsDirectory | .outputDirectory => some .path
  | .host | .user | .password | .charset | .databaseName | .database => some .text
  | .help | .verbose | .dryRun | .yes | .showSql | .strict | .lenient => none

end OptionName

/-- Why a command line leads to no command: it is wrong, or it asks for help. -/
inductive Stop
  | usage
  | help
  deriving DecidableEq, Repr

/-- Options as they were given, in order, and the other arguments. A value is empty for an option
that takes none. -/
structure Given where
  options : List (OptionName × String)
  arguments : List String
  deriving DecidableEq, Repr

namespace Given

def has (given : Given) (option : OptionName) : Bool :=
  given.options.any (·.1 == option)

def value? (given : Given) (option : OptionName) : Option String :=
  given.options.reverse.lookup option

end Given

/-- What one argument says: options without values, and perhaps one more that takes a value, with
the value if it is in the same argument. -/
structure ArgumentReading where
  plain : List OptionName
  valued : Option (OptionName × Option String)
  deriving DecidableEq, Repr

def named? (known : List OptionName) (spelling : String) : Option OptionName :=
  known.find? (·.spellings.contains spelling)

def readShort (known : List OptionName) : List Char → Option ArgumentReading
  | [] => some ⟨[], none⟩
  | c :: rest => do
    let option ← named? known (String.ofList ['-', c])
    if option.value?.isSome then
      -- What follows the name of such an option in its argument is the value.
      return ⟨[], some (option, if rest.isEmpty then none else some (String.ofList rest))⟩
    else
      let reading ← readShort known rest
      return { reading with plain := option :: reading.plain }

def readOption (known : List OptionName) (argument : String) : Option ArgumentReading :=
  let cs := argument.toList
  let name := cs.takeWhile (· != '=')
  let isLong := ['-', '-'].isPrefixOf cs
  match if isLong then named? known (String.ofList name) else none with
  | some option =>
    let value := if name.length == cs.length then none
      else some (String.ofList (cs.drop (name.length + 1)))
    if option.value?.isSome then some ⟨[], some (option, value)⟩
    -- A value for an option that takes none is wrong, also an empty one.
    else if value.isSome then none
    else some ⟨[option], none⟩
  | none => if isLong then none else readShort known (cs.drop 1)

def looksLikeOption (argument : String) : Bool :=
  match argument.toList with
  | '-' :: _ :: _ => true
  | _ => false

/-- Splits a command line. Unless options may stand between other arguments, the first other
argument ends them. -/
def split (known : List OptionName) (between : Bool) : List String → Option Given
  | [] => some ⟨[], []⟩
  | argument :: rest =>
    if argument == "--" then some ⟨[], rest⟩
    else if looksLikeOption argument then do
      let reading ← readOption known argument
      let plain := reading.plain.map (·, "")
      match reading.valued, rest with
      | none, rest =>
        let given ← split known between rest
        return { given with options := plain ++ given.options }
      | some (option, some value), rest =>
        let given ← split known between rest
        return { given with options := plain ++ (option, value) :: given.options }
      | some _, [] => none
      | some (option, none), value :: rest =>
        let given ← split known between rest
        return { given with options := plain ++ (option, value) :: given.options }
    else if between then do
      let given ← split known between rest
      return { given with arguments := argument :: given.arguments }
    else some ⟨[], argument :: rest⟩

/-- Whether a value is of a kind. No path holds a NUL. -/
def ValueKind.admits (kind : ValueKind) (value : String) : Bool :=
  match kind with
  | .text => true
  | .integer => (wholeNumber? value.toList).isSome
  | .path => !value.toList.contains '\x00'

def checkValue (kind : ValueKind) (value : String) : Except Stop Unit :=
  if kind.admits value then .ok () else .error .usage

/-- Checks the values of options, each at the place where it is given first. -/
def checkOptions (given : Given) : Except Stop Unit :=
  (given.options.map Prod.fst).eraseDups.forM fun option =>
    match option.value?, given.value? option with
    | some kind, some value => checkValue kind value
    | _, _ => .ok ()

/-- Checks other arguments, which are paths: as many as there should be, and no more. -/
def checkArguments (count : Nat) (given : Given) : Except Stop Unit := do
  (given.arguments.take count).forM (checkValue .path)
  if given.arguments.length = count then .ok () else .error .usage

def readOptions (known : List OptionName) (between : Bool) (arguments : List String) :
    Except Stop Given :=
  match split (.help :: known) between arguments with
  | none => .error .usage
  | some given =>
    if given.has .help then .error .help
    else do
      checkOptions given
      return given

end SchemaSync.CommandLine
