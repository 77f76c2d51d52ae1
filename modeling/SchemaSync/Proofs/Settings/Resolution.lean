import Mathlib.Data.Nat.Digits.Defs
import SchemaSync.Proofs.Settings.JsonReading
import SchemaSync.Proofs.Text.Trim
import SchemaSync.Settings.Resolve

/-! What comes of resolving settings. A connection that results has each setting from the first source that gives it,
and can be used. A failure is one that is declared for settings unless the settings file cannot be read as a text, is
too long in a numeral or too deep, or a port is a number that cannot be converted or shown. -/

namespace SchemaSync

open Text (isBlankText maxNumeralDigits trim trimChars)

namespace Double

theorem layOut_ne_nil (layout : Layout) (digits : List Char) (place : Int) : layOut layout digits place ≠ [] := by
  unfold layOut
  repeat' split
  all_goals simp

theorem text_ne_empty (value : Double) : value.text ≠ "" := by
  unfold text
  split
  · decide
  · split <;> decide
  · split <;> decide
  · simp [layOut_ne_nil]

end Double

namespace Json

/-- Whether a source that has a value gives the setting: null and an empty text give nothing. -/
def isGiven : Json → Bool
  | .null => false
  | .string value => !value.isEmpty
  | _ => true

def orNull (value : Json) : Json :=
  if value.isGiven then value else .null

/-- A number for a port that is not converted to an integer, or not shown when it is no port. -/
def IsBeyondPort : Json → Prop
  | .float (.infinite _) => True
  | .int number => maxNumeralDigits < (Nat.toDigits 10 number.natAbs).length
  | _ => False

theorem eq_null_or_empty {value : Json} (missing : value.isGiven = false) : value = .null ∨ value = .string "" := by
  cases value with
  | null => exact .inl rfl
  | string value => exact .inr (by simpa [isGiven] using missing)
  | _ => cases missing

/-- What makes no difference between null and an empty text makes none for a value that gives nothing. -/
theorem orNull_congr {α : Type} (f : Json → α) (same : f .null = f (.string "")) (value : Json) :
    f value.orNull = f value := by
  unfold orNull
  cases given : value.isGiven with
  | true => rfl
  | false =>
    rcases eq_null_or_empty given with rfl | rfl
    · rfl
    · exact same

theorem isFilled_orNull (value : Json) : value.orNull.isFilled = value.isFilled :=
  orNull_congr isFilled rfl value

theorem orNull_of_isFilled {value : Json} (filled : value.isFilled = true) : value.orNull = value := by
  cases given : value.isGiven with
  | true => rw [orNull, given, if_pos rfl]
  | false => rcases eq_null_or_empty given with rfl | rfl <;> cases filled

theorem asText_ne_empty {value : Json} (filled : value.isFilled = true) : value.asText ≠ "" := by
  cases value with
  | null => cases filled
  | bool value => cases value <;> decide
  | int value => cases value <;> simp [asText, shown, toString, Int.repr]
  | float value => exact value.text_ne_empty
  | string value => simpa [isFilled, asText] using filled
  | array items => simp [asText, shown]
  | object members => simp [asText, shown]

end Json

namespace Settings

/-- What the sources of a setting have for it, the first source to ask first. -/
def sources (explicit : Explicit) (environment : Environment) (file : List (String × Json)) (key : Key) : List Json :=
  (explicit.settings.lookup key).toList ++ ((environment.lookup key.variable).map .string).toList ++
    (Json.member? file key.name).toList

def firstGiven (explicit : Explicit) (environment : Environment) (file : List (String × Json)) (key : Key) : Json :=
  ((sources explicit environment file key).find? Json.isGiven).getD .null

def fileSettings (maxDepth : Nat) (explicit : Explicit) (environment : Environment) (files : Tree) :
    Except Error (List (String × Json)) :=
  match file? explicit environment with
  | some file => readFile maxDepth files (.ofString file)
  | none => .ok []

def complete (setting : Key → Json) : Except Error Connection :=
  if !(setting .user).isFilled then .error (.settings .noUser)
  else if !(setting .password).isFilled then .error (.settings .noPassword)
  else do
    let port ← portOf (setting .port)
    return {
      user := (setting .user).asText
      password := (setting .password).asText
      host := hostOf (setting .host)
      port
      charset := if (setting .charset).isFilled then (setting .charset).asText else defaultCharset }

structure Resolved (setting : Key → Json) (c : Connection) : Prop where
  user : (setting .user).isFilled = true ∧ c.user = (setting .user).asText ∧ c.user ≠ ""
  password : (setting .password).isFilled = true ∧ c.password = (setting .password).asText ∧ c.password ≠ ""
  host : c.host = hostOf (setting .host) ∧ ∀ host, c.host = some host → isBlankText host = false
  port : portOf (setting .port) = .ok c.port ∧ ∀ port, c.port = some port → 0 < port ∧ port ≤ 65535
  charset : c.charset = (if (setting .charset).isFilled then (setting .charset).asText else "UTF8") ∧ c.charset ≠ ""

def Escapes {α : Type} (result : Except Error α) : Prop :=
  ∃ error, result = .error error ∧ error.kind ≠ .settings

/-- A settings file that gives no JSON for another reason than a fault in it. -/
inductive Unread (maxDepth : Nat) (files : Tree) (path : Path) : Prop
  | nulInName {error : FileError} (read : files.read path = .error error) (fault : error.fault = .nulInName)
  | undecodable {bytes : List UInt8} {error : Text.Utf8.DecodeError} (read : files.read path = .ok bytes)
      (decoded : Text.Utf8.decode bytes = .error error)
  | longNumeral {bytes : List UInt8} {chars : List Char} (read : files.read path = .ok bytes)
      (decoded : Text.Utf8.decode bytes = .ok chars)
      (parsed : Json.parse maxDepth (Text.withLineFeeds chars) = .error .longNumeral)
      (there : Json.HasLongNumeral (Text.withLineFeeds chars))
  | tooDeep {bytes : List UInt8} {chars : List Char} (read : files.read path = .ok bytes)
      (decoded : Text.Utf8.decode bytes = .ok chars)
      (parsed : Json.parse maxDepth (Text.withLineFeeds chars) = .error .tooDeep)
      (there : maxDepth < Json.deepest 0 .plain (Text.withLineFeeds chars))

inductive Beyond (maxDepth : Nat) (explicit : Explicit) (environment : Environment) (files : Tree) : Prop
  | file {file : String} (named : file? explicit environment = some file)
      (unread : Unread maxDepth files (.ofString file))
  | port {file : List (String × Json)} (read : fileSettings maxDepth explicit environment files = .ok file)
      (user : (firstGiven explicit environment file .user).isFilled = true)
      (password : (firstGiven explicit environment file .password).isFilled = true)
      (port : (firstGiven explicit environment file .port).IsBeyondPort)

section Sources

variable (explicit : Explicit) (environment : Environment) (file : List (String × Json)) (key : Key)

theorem explicit_value? : explicit.value? key = (explicit.settings.lookup key).filter Json.isGiven := by
  unfold Explicit.value?
  cases explicit.settings.lookup key with
  | none => rfl
  | some value =>
    cases value with
    | string text => cases given : text.isEmpty <;> simp [Option.filter_some, Json.isGiven, given]
    | _ => rfl

theorem environment_value? (name : String) : (environment.value? name).map Json.string =
    ((environment.lookup name).map .string).filter Json.isGiven := by
  unfold Environment.value?
  cases environment.lookup name with
  | none => rfl
  | some text => cases given : text.isEmpty <;> simp [Option.filter_some, Json.isGiven, given]

theorem find?_toList (value : Option Json) : value.toList.find? Json.isGiven = value.filter Json.isGiven := by
  cases value with
  | none => rfl
  | some value => cases given : value.isGiven <;> simp [Option.filter_some, given]

/-- The last source is asked without looking whether it gives the setting. -/
theorem firstGiven_eq :
    firstGiven explicit environment file key = (resolve explicit environment file key).orNull := by
  rw [firstGiven, sources, List.find?_append, List.find?_append, find?_toList, find?_toList, find?_toList,
    ← explicit_value?, ← environment_value?, resolve]
  cases first : explicit.value? key with
  | some value =>
    rw [explicit_value?, Option.filter_eq_some_iff] at first
    simp [Json.orNull, first.2]
  | none =>
  cases second : environment.value? key.variable with
  | some value =>
    have given := Option.filter_eq_some_iff.mp second
    simp [Json.orNull, Json.isGiven, given.2]
  | none =>
  cases Json.member? file key.name with
  | none => rfl
  | some value =>
    rw [Option.filter_some, Option.getD_some, Json.orNull]
    cases value.isGiven <;> rfl

end Sources

section Completion

variable {setting : Key → Json}

theorem complete_orNull (setting : Key → Json) : complete (fun key => (setting key).orNull) = complete setting := by
  -- The texts of user and password differ for an empty text, but are asked for only when they are filled.
  have host := Json.orNull_congr hostOf rfl (setting .host)
  have port := Json.orNull_congr portOf rfl (setting .port)
  have charset := Json.orNull_congr (fun value => if value.isFilled then value.asText else defaultCharset) rfl
    (setting .charset)
  simp only [complete, Json.isFilled_orNull] at charset ⊢
  cases user : (setting .user).isFilled with
  | false => rfl
  | true =>
  cases password : (setting .password).isFilled with
  | false => rfl
  | true => rw [Json.orNull_of_isFilled user, Json.orNull_of_isFilled password, host, port, charset]

theorem connection_eq (maxDepth : Nat) (explicit : Explicit) (environment : Environment) (files : Tree) :
    connection maxDepth explicit environment files = fileSettings maxDepth explicit environment files >>=
      fun file => complete (firstGiven explicit environment file) := by
  have given (file : List (String × Json)) : complete (resolve explicit environment file) =
      complete (firstGiven explicit environment file) := by
    rw [← complete_orNull]
    exact congrArg complete (funext fun key => (firstGiven_eq explicit environment file key).symm)
  simp only [← given]
  unfold connection fileSettings
  cases file? explicit environment <;> rfl

theorem isBlankText_trim {text : String} (given : (trim text).isEmpty = false) : isBlankText (trim text) = false := by
  rw [← Bool.not_eq_true, isBlankText, List.all_eq_true]
  intro blank
  have all : trimChars ((trim text).toList ++ []) = [] := Text.trimChars_blanks blank
  rw [List.append_nil, trim, String.toList_ofList, Text.trimChars_trimChars] at all
  rw [trim, all] at given
  cases given

theorem isBlankText_hostOf {value : Json} {host : String} (read : hostOf value = some host) :
    isBlankText host = false := by
  simp only [hostOf, Option.ite_none_left_eq_some, Bool.not_eq_true] at read
  obtain ⟨given, same⟩ := read
  rw [← Option.some.inj same]
  exact isBlankText_trim given

theorem portOf_range {value : Json} {port : Option Int} (read : portOf value = .ok port) :
    ∀ n, port = some n → 0 < n ∧ n ≤ maxPort := by
  unfold portOf at read
  split at read
  · cases read
    nofun
  · cases read
    nofun
  · cases number : portNumber value with
    | error error =>
      rw [number] at read
      cases read
    | ok n =>
      rw [number] at read
      dsimp only [Bind.bind, Except.bind] at read
      split at read
      · next range =>
        cases read
        rintro _ ⟨⟩
        exact range
      · cases read

theorem charset_ne_empty (value : Json) : (if value.isFilled then value.asText else defaultCharset) ≠ "" := by
  split
  · next filled => exact Json.asText_ne_empty filled
  · decide

theorem complete_of_filled (user : (setting .user).isFilled = true) (password : (setting .password).isFilled = true) :
    complete setting = do
      let port ← portOf (setting .port)
      return ⟨(setting .user).asText, (setting .password).asText, hostOf (setting .host), port,
        if (setting .charset).isFilled then (setting .charset).asText else defaultCharset⟩ := by
  rw [complete, user, password]
  rfl

theorem filled_of_complete {c : Connection} (read : complete setting = .ok c) :
    (setting .user).isFilled = true ∧ (setting .password).isFilled = true := by
  unfold complete at read
  cases user : (setting .user).isFilled with
  | false => simp [user] at read
  | true =>
  cases password : (setting .password).isFilled with
  | false => simp [user, password] at read
  | true => exact ⟨rfl, rfl⟩

theorem complete_eq_ok_iff {c : Connection} : complete setting = .ok c ↔ Resolved setting c := by
  constructor
  · intro read
    obtain ⟨user, password⟩ := filled_of_complete read
    rw [complete_of_filled user password] at read
    cases port : portOf (setting .port) with
    | error error =>
      rw [port] at read
      cases read
    | ok number =>
    rw [port] at read
    cases read
    constructor <;> dsimp only
    · exact ⟨user, rfl, Json.asText_ne_empty user⟩
    · exact ⟨password, rfl, Json.asText_ne_empty password⟩
    · exact ⟨rfl, fun host => isBlankText_hostOf⟩
    · exact ⟨port, portOf_range port⟩
    · exact ⟨rfl, charset_ne_empty (setting .charset)⟩
  · intro resolved
    have charset : (if (setting .charset).isFilled then (setting .charset).asText else defaultCharset) = c.charset :=
      resolved.charset.1.symm
    rw [complete_of_filled resolved.user.1 resolved.password.1, resolved.port.1, charset, ← resolved.user.2.1,
      ← resolved.password.2.1, ← resolved.host.1]
    rfl

end Completion

section Failures

variable {α β : Type}

theorem escapes_error_iff (error : Error) : Escapes (.error error : Except Error α) ↔ error.kind ≠ .settings :=
  ⟨fun ⟨_, same, kind⟩ => by cases same; exact kind, fun kind => ⟨error, rfl, kind⟩⟩

theorem not_escapes_ok (value : α) : ¬Escapes (.ok value : Except Error α) := by
  rintro ⟨_, ⟨⟩, _⟩

theorem escapes_bind_iff {first : Except Error α} {next : α → Except Error β} :
    Escapes (first >>= next) ↔ Escapes first ∨ ∃ value, first = .ok value ∧ Escapes (next value) := by
  cases first with
  | error error =>
    refine (escapes_error_iff error).trans ((escapes_error_iff error).symm.trans ⟨.inl, ?_⟩)
    rintro (escapes | ⟨_, ⟨⟩, _⟩)
    exact escapes
  | ok value =>
    refine ⟨fun escapes => .inr ⟨value, rfl, escapes⟩, ?_⟩
    rintro (escapes | ⟨_, ⟨⟩, escapes⟩)
    · exact absurd escapes (not_escapes_ok value)
    · exact escapes

theorem not_escapes_settings (error : SettingsError) : ¬Escapes (.error (.settings error) : Except Error α) :=
  fun escapes => (escapes_error_iff _).mp escapes rfl

theorem not_escapes_sectionOf (file : String) (json : Json) : ¬Escapes (sectionOf file json) := by
  unfold sectionOf
  repeat' split
  · exact not_escapes_ok _
  · exact not_escapes_ok _
  · exact not_escapes_settings _
  · exact not_escapes_settings _

theorem Unread.of_escapes {maxDepth : Nat} {files : Tree} {path : Path}
    (escapes : Escapes (readFile maxDepth files path)) : Unread maxDepth files path := by
  unfold readFile at escapes
  cases read : files.read path with
  | error error =>
    rw [read] at escapes
    dsimp only at escapes
    split at escapes
    · next fault => exact .nulInName read fault
    · exact absurd escapes (not_escapes_settings _)
  | ok bytes =>
  rw [read] at escapes
  dsimp only at escapes
  cases decoded : Text.Utf8.decode bytes with
  | error error => exact .undecodable read decoded
  | ok chars =>
  rw [decoded] at escapes
  dsimp only at escapes
  cases parsed : Json.parse maxDepth (Text.withLineFeeds chars) with
  | ok json =>
    rw [parsed] at escapes
    exact absurd escapes (not_escapes_sectionOf _ json)
  | error failure =>
    rcases Json.parse_error parsed with ⟨fault, left, rfl⟩ | ⟨rfl, long⟩ | ⟨rfl, deep⟩
    · rw [parsed] at escapes
      exact absurd escapes (not_escapes_settings _)
    · exact .longNumeral read decoded parsed long
    · exact .tooDeep read decoded parsed deep

theorem escapes_readFile_iff {maxDepth : Nat} {files : Tree} {path : Path} :
    Escapes (readFile maxDepth files path) ↔ Unread maxDepth files path := by
  refine ⟨.of_escapes, fun unread => ?_⟩
  unfold readFile
  cases unread with
  | nulInName read fault =>
    rw [read]
    dsimp only
    rw [if_pos fault, escapes_error_iff, Error.kind, fault]
    nofun
  | undecodable read decoded =>
    rw [read]
    dsimp only
    rw [decoded, escapes_error_iff]
    nofun
  | longNumeral read decoded parsed =>
    rw [read]
    dsimp only
    rw [decoded]
    dsimp only
    rw [parsed, escapes_error_iff]
    nofun
  | tooDeep read decoded parsed =>
    rw [read]
    dsimp only
    rw [decoded]
    dsimp only
    rw [parsed, escapes_error_iff]
    nofun

theorem escapes_fileSettings_iff {maxDepth : Nat} {explicit : Explicit} {environment : Environment} {files : Tree} :
    Escapes (fileSettings maxDepth explicit environment files) ↔
      ∃ file, file? explicit environment = some file ∧ Unread maxDepth files (.ofString file) := by
  unfold fileSettings
  cases file? explicit environment with
  | none => simp [not_escapes_ok]
  | some file => simp [escapes_readFile_iff]

theorem escapes_badPort_iff {value : Json} : Escapes (.error (badPort value) : Except Error α) ↔
    ∃ number : Int, value = .int number ∧ maxNumeralDigits < (Nat.toDigits 10 number.natAbs).length := by
  rw [escapes_error_iff]
  cases value with
  | int number =>
    by_cases long : maxNumeralDigits < (Nat.toDigits 10 number.natAbs).length
    · rw [badPort, if_pos long]
      exact ⟨fun _ => ⟨number, rfl, long⟩, fun _ => nofun⟩
    · rw [badPort, if_neg long]
      refine ⟨fun other => absurd rfl other, ?_⟩
      rintro ⟨_, ⟨⟩, there⟩
      exact absurd there long
  | _ => exact ⟨fun other => absurd rfl other, by rintro ⟨_, ⟨⟩, _⟩⟩

theorem escapes_portNumber_iff {value : Json} :
    Escapes (portNumber value) ↔ ∃ negative, value = .float (.infinite negative) := by
  have bad {value : Json} (other : ∀ number, value ≠ .int number) :
      ¬Escapes (.error (badPort value) : Except Error Int) := by
    rw [escapes_badPort_iff]
    rintro ⟨number, same, _⟩
    exact other number same
  cases value with
  | float number =>
    cases number with
    | infinite negative => exact ⟨fun _ => ⟨negative, rfl⟩, fun _ => (escapes_error_iff _).mpr nofun⟩
    | finite => exact ⟨fun escapes => absurd escapes (not_escapes_ok _), by rintro ⟨_, ⟨⟩⟩⟩
    | undefined => exact ⟨fun escapes => absurd escapes (bad nofun), by rintro ⟨_, ⟨⟩⟩⟩
  | string text =>
    refine ⟨fun escapes => ?_, by rintro ⟨_, ⟨⟩⟩⟩
    unfold portNumber at escapes
    dsimp only at escapes
    split at escapes
    · exact absurd escapes (not_escapes_ok _)
    · exact absurd escapes (bad nofun)
  | bool => exact ⟨fun escapes => absurd escapes (not_escapes_ok _), by rintro ⟨_, ⟨⟩⟩⟩
  | int => exact ⟨fun escapes => absurd escapes (not_escapes_ok _), by rintro ⟨_, ⟨⟩⟩⟩
  | _ => exact ⟨fun escapes => absurd escapes (bad nofun), by rintro ⟨_, ⟨⟩⟩⟩

theorem not_port_of_long {number : Int} (long : maxNumeralDigits < (Nat.toDigits 10 number.natAbs).length) :
    ¬(0 < number ∧ number ≤ maxPort) := by
  intro range
  have few : (Nat.toDigits 10 number.natAbs).length ≤ 5 := by
    apply Nat.toDigits_length _ _ _ (by decide)
    have top : maxPort = 65535 := rfl
    omega
  exact absurd (Nat.lt_of_lt_of_le long few) (by decide)

theorem escapes_portOf_iff {value : Json} : Escapes (portOf value) ↔ value.IsBeyondPort := by
  unfold portOf
  split
  · exact ⟨fun escapes => absurd escapes (not_escapes_ok _), nofun⟩
  · exact ⟨fun escapes => absurd escapes (not_escapes_ok _), nofun⟩
  rw [escapes_bind_iff]
  constructor
  · rintro (escapes | ⟨number, _, escapes⟩)
    · obtain ⟨negative, rfl⟩ := escapes_portNumber_iff.mp escapes
      trivial
    · split at escapes
      · exact absurd escapes (not_escapes_ok _)
      · obtain ⟨number, rfl, long⟩ := escapes_badPort_iff.mp escapes
        exact long
  · intro beyond
    cases value with
    | float number =>
      cases number with
      | infinite negative => exact .inl (escapes_portNumber_iff.mpr ⟨negative, rfl⟩)
      | _ => cases beyond
    | int number =>
      refine .inr ⟨number, rfl, ?_⟩
      rw [if_neg (not_port_of_long beyond), escapes_badPort_iff]
      exact ⟨number, rfl, beyond⟩
    | _ => cases beyond

theorem escapes_complete_iff {setting : Key → Json} : Escapes (complete setting) ↔
    (setting .user).isFilled = true ∧ (setting .password).isFilled = true ∧ (setting .port).IsBeyondPort := by
  unfold complete
  cases (setting .user).isFilled with
  | false => simp [not_escapes_settings]
  | true =>
  cases (setting .password).isFilled with
  | false => simp [not_escapes_settings]
  | true =>
    rw [Bool.not_true, if_neg Bool.false_ne_true, if_neg Bool.false_ne_true, escapes_bind_iff, escapes_portOf_iff]
    simp [Pure.pure, Except.pure, not_escapes_ok]

end Failures

/-- Resolving gives a connection just if the settings make one that can be used, each from the first source that gives
it, and else a failure that is declared for settings. Another failure comes only, and always, from a file that is not
read as JSON for another reason than a fault in it, which may be that it is nested deeper than there is room for, and
from a port that is an infinity or an integer too long to be shown. -/
theorem connection_declared (maxDepth : Nat) (explicit : Explicit) (environment : Environment) (files : Tree) :
    (∀ c, connection maxDepth explicit environment files = .ok c ↔ ∃ file,
      fileSettings maxDepth explicit environment files = .ok file ∧
        Resolved (firstGiven explicit environment file) c) ∧
    (Escapes (connection maxDepth explicit environment files) ↔ Beyond maxDepth explicit environment files) := by
  rw [connection_eq]
  constructor
  · intro c
    simp only [← complete_eq_ok_iff]
    cases fileSettings maxDepth explicit environment files with
    | error error => exact ⟨nofun, by rintro ⟨_, ⟨⟩, _⟩⟩
    | ok file => exact ⟨fun read => ⟨file, rfl, read⟩, by rintro ⟨_, ⟨⟩, read⟩; exact read⟩
  · rw [escapes_bind_iff, escapes_fileSettings_iff]
    simp only [escapes_complete_iff]
    constructor
    · rintro (⟨file, named, unread⟩ | ⟨file, read, user, password, port⟩)
      · exact .file named unread
      · exact .port read user password port
    · rintro (⟨named, unread⟩ | ⟨read, user, password, port⟩)
      · exact .inl ⟨_, named, unread⟩
      · exact .inr ⟨_, read, user, password, port⟩

theorem connection_declared_infinity :
    let text (port : String) := "\x7b\"user\": \"CLERK\", \"password\": \"key\", \"port\": " ++ port ++ "\x7d"
    let files (port : String) : Tree := ⟨[], [(["db.json"], .file ((text port).toList.map (·.toNat.toUInt8)))]⟩
    let explicit : Explicit := ⟨[(.host, .string " db ")], some "db.json"⟩
    let environment : Environment := [("DBMETA_USER", "SYSDBA"), ("DBMETA_CHARSET", "")]
    let c : Connection := ⟨"SYSDBA", "key", some "db", some 3050, "UTF8"⟩
    connection 985 explicit environment (files "3050") = .ok c ∧
      (∃ file, fileSettings 985 explicit environment (files "3050") = .ok file ∧
        Resolved (firstGiven explicit environment file) c) ∧
      connection 985 explicit environment (files "Infinity") = .error .infinitePort ∧
      Beyond 985 explicit environment (files "Infinity") := by
  intro text files explicit environment c
  have read : connection 985 explicit environment (files "3050") = .ok c := by decide +kernel
  have failed : connection 985 explicit environment (files "Infinity") = .error .infinitePort := by decide +kernel
  have good := ((connection_declared 985 explicit environment (files "3050")).1 c).mp read
  have beyond := (connection_declared 985 explicit environment (files "Infinity")).2.mp ⟨_, failed, nofun⟩
  exact ⟨read, good, failed, beyond⟩

end Settings

end SchemaSync
