import SchemaSync.Error
import SchemaSync.Settings.Connection

/-! Connection settings from three sources: values that are given explicitly, variables of the
environment, and a settings file in JSON. A setting is taken from the first source that has it. -/

namespace SchemaSync

namespace Json

mutual

def shown : Json → String
  | .null => "None"
  | .bool value => if value then "True" else "False"
  | .int value => toString value
  | .float value => value.text
  | .string value => Text.quoted value
  | .array items => "[" ++ shownItems items ++ "]"
  | .object members => "\x7b" ++ shownMembers members ++ "\x7d"

def shownItems : List Json → String
  | [] => ""
  | [item] => shown item
  | item :: rest => shown item ++ ", " ++ shownItems rest

def shownMembers : List (String × Json) → String
  | [] => ""
  | [(name, value)] => Text.quoted name ++ ": " ++ shown value
  | (name, value) :: rest => Text.quoted name ++ ": " ++ shown value ++ ", " ++ shownMembers rest

end

/-- A value as text: a string is its own text. -/
def asText : Json → String
  | .string value => value
  | other => other.shown

/-- Whether a value says something: it is not null, false, zero or empty. -/
def isFilled : Json → Bool
  | .null => false
  | .bool value => value
  | .int value => value != 0
  | .float value => !value.isZero
  | .string value => !value.isEmpty
  | .array items => !items.isEmpty
  | .object members => !members.isEmpty

def member? (members : List (String × Json)) (name : String) : Option Json :=
  members.lookup name

end Json

namespace Settings

inductive Key
  | host
  | port
  | user
  | password
  | charset
  deriving DecidableEq, Repr

def Key.name : Key → String
  | .host => "host"
  | .port => "port"
  | .user => "user"
  | .password => "password"
  | .charset => "charset"

def Key.variable : Key → String
  | .host => "DBMETA_HOST"
  | .port => "DBMETA_PORT"
  | .user => "DBMETA_USER"
  | .password => "DBMETA_PASSWORD"
  | .charset => "DBMETA_CHARSET"

def fileVariable : String := "DBMETA_CONFIG"

abbrev Environment : Type :=
  List (String × String)

/-- The value of a variable, unless it is empty. -/
def Environment.value? (environment : Environment) (name : String) : Option String :=
  (environment.lookup name).filter (!·.isEmpty)

structure Explicit where
  settings : List (Key × Json) := []
  file : Option String := none

/-- A setting that is given explicitly, unless it is null or an empty text. -/
def Explicit.value? (explicit : Explicit) (key : Key) : Option Json :=
  match explicit.settings.lookup key with
  | none | some .null => none
  | some (.string value) => if value.isEmpty then none else some (.string value)
  | some value => some value

/-- A settings file with one JSON object, which may have the settings in a member of its own. -/
def sectionOf (file : String) : Json → Except Error (List (String × Json))
  | .object members =>
    match Json.member? members "connection" with
    | none => .ok members
    | some (.object settings) => .ok settings
    | some _ => .error (.settings (.connectionNotAnObject file))
  | _ => .error (.settings (.notAnObject file))

def readFile (maxDepth : Nat) (files : Tree) (path : Path) :
    Except Error (List (String × Json)) :=
  match files.read path with
  | .error error =>
    if error.fault = .nulInName then .error (.file error)
    else .error (.settings (.unreadable path.toString error))
  | .ok bytes =>
    match Text.Utf8.decode bytes with
    | .error error => .error (.undecodable error)
    | .ok chars =>
      let text := Text.withLineFeeds chars
      match Json.parse maxDepth text with
      | .error (.malformed fault left) =>
        .error (.settings (.malformed path.toString (Json.placedFault text fault left)))
      | .error .longNumeral => .error .longNumeral
      | .error .tooDeep => .error .deepNesting
      | .ok json => sectionOf path.toString json

/-- A setting from the first source that has it, or null. -/
def resolve (explicit : Explicit) (environment : Environment) (file : List (String × Json))
    (key : Key) : Json :=
  match explicit.value? key with
  | some value => value
  | none =>
    match environment.value? key.variable with
    | some value => .string value
    | none => (Json.member? file key.name).getD .null

def maxPort : Int := 65535

/-- The error for a value that is no port. An integer is shown only if it is not too long to be
written as a numeral. -/
def badPort (value : Json) : Error :=
  match value with
  | .int number =>
    if Text.maxNumeralDigits < (Nat.toDigits 10 number.natAbs).length then .longNumeral
    else .settings (.badPort value.shown)
  | value => .settings (.badPort value.shown)

def portNumber (value : Json) : Except Error Int :=
  let bad := .error (badPort value)
  match value with
  | .bool flag => .ok (if flag then 1 else 0)
  | .int number => .ok number
  | .float (.infinite _) => .error .infinitePort
  | .float number => match number.truncate? with
    | some number => .ok number
    | none => bad
  | .string text => match Text.intOfChars? text.toList with
    | some number => .ok number
    | none => bad
  | _ => bad

/-- The port that a setting gives. Null and an empty text give none. -/
def portOf (value : Json) : Except Error (Option Int) :=
  match value with
  | .null | .string "" => .ok none
  | value => do
    let number ← portNumber value
    if 0 < number ∧ number ≤ maxPort then .ok (some number)
    else .error (badPort value)

def hostOf (value : Json) : Option String :=
  let text := Text.trim (if value.isFilled then value.asText else "")
  if text.isEmpty then none else some text

def defaultCharset : String := "UTF8"

def file? (explicit : Explicit) (environment : Environment) : Option String :=
  (explicit.file.filter (!·.isEmpty)).or (environment.value? fileVariable)

def connection (maxDepth : Nat) (explicit : Explicit) (environment : Environment) (files : Tree) :
    Except Error Connection := do
  let file ← match file? explicit environment with
    | some file => readFile maxDepth files (.ofString file)
    | none => .ok []
  let setting := resolve explicit environment file
  if !(setting .user).isFilled then .error (.settings .noUser)
  else if !(setting .password).isFilled then .error (.settings .noPassword)
  else
    -- A wrong port is only noticed when there are a user and a password.
    let port ← portOf (setting .port)
    return {
      user := (setting .user).asText
      password := (setting .password).asText
      host := hostOf (setting .host)
      port
      charset := if (setting .charset).isFilled then (setting .charset).asText else defaultCharset }

end Settings

end SchemaSync
