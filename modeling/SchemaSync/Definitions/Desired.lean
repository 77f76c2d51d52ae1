import SchemaSync.Definitions.Directory
import SchemaSync.Script.Definition

/-! The schema that a definition set asks for. Each script gives one object. A script that cannot be
read, and one whose object an earlier script gives already, is skipped with a warning. -/

namespace SchemaSync

/-- How scripts of one kind are read. `remarks` are what a reader notices besides. -/
structure ScriptReader (α : Type) where
  kind : ObjectKind
  read : String → Except Error α
  name : α → String
  remarks : String → List String

def Domain.reader : ScriptReader Domain where
  kind := .domain
  read := Domain.ofScript
  name := Domain.name
  remarks := fun _ => []

def Table.reader : ScriptReader Table where
  kind := .table
  read := Table.ofScript
  name := Table.name
  remarks := fun text => (Table.unrecognizedDefinitions text).map fun definition =>
    "Skipping unrecognized column definition: " ++ definition

def Procedure.reader : ScriptReader Procedure where
  kind := .procedure
  read := Procedure.ofScript
  name := Procedure.name
  remarks := fun _ => []

/-- What becomes of a script: it gives an object, or it is skipped with a warning. -/
inductive ScriptOutcome (α : Type)
  | accepted (object : α)
  | skipped (warning : String)
  deriving DecidableEq, Repr

namespace ScriptReader

variable {α : Type} (reader : ScriptReader α)

def key (object : α) : NameKey :=
  .of (reader.name object)

/-- What becomes of a script when objects with some keys are there already. -/
def outcome (taken : List NameKey) (script : ScriptFile) : ScriptOutcome α :=
  match reader.read script.text with
  | .error error =>
    .skipped ("Skipping " ++ reader.kind.name ++ " script " ++ script.path.name ++ ": " ++
      error.message)
  | .ok object =>
    if taken.contains (reader.key object) then
      .skipped ("Duplicate " ++ reader.kind.name ++ " " ++ reader.name object ++ " in " ++
        script.path.name ++ "; keeping the first")
    else .accepted object

def outcomes (taken : List NameKey) : List ScriptFile → List (ScriptFile × ScriptOutcome α)
  | [] => []
  | script :: rest =>
    let result := reader.outcome taken script
    let taken := match result with
      | .accepted object => reader.key object :: taken
      | .skipped _ => taken
    (script, result) :: outcomes taken rest

end ScriptReader

namespace ScriptOutcome

variable {α : Type}

def object? : ScriptOutcome α → Option α
  | .accepted object => some object
  | .skipped _ => none

def warning? : ScriptOutcome α → Option String
  | .accepted _ => none
  | .skipped warning => some warning

end ScriptOutcome

abbrev Outcomes (α : Type) : Type :=
  List (ScriptFile × ScriptOutcome α)

namespace Outcomes

variable {α : Type}

def objects (outcomes : Outcomes α) : List α :=
  outcomes.filterMap fun entry => entry.2.object?

def warnings (outcomes : Outcomes α) : List String :=
  outcomes.filterMap fun entry => entry.2.warning?

/-- The text that each object comes from, under its kind and key. -/
def sources (reader : ScriptReader α) (outcomes : Outcomes α) :
    List ((ObjectKind × NameKey) × String) :=
  outcomes.filterMap fun entry =>
    entry.2.object?.map fun object => ((reader.kind, reader.key object), entry.1.text)

/-- What is reported about the scripts: the remarks of the reader, then the warning, if any. -/
def entries (reader : ScriptReader α) (outcomes : Outcomes α) : List Entry :=
  outcomes.flatMap fun entry =>
    (reader.remarks entry.1.text).map (fun remark => .log ⟨.warning, remark⟩) ++
      (entry.2.warning?.toList.flatMap fun warning => (Event.plain .warning warning).entries)

end Outcomes

/-- The schema that a definition set asks for, with the text that each object comes from. -/
structure DesiredSchema where
  snapshot : Snapshot
  scripts : List ((ObjectKind × NameKey) × String)
  warnings : List String
  deriving DecidableEq, Repr

structure SetReading where
  domains : Outcomes Domain
  tables : Outcomes Table
  procedures : Outcomes Procedure
  warnings : List String

namespace SetReading

def ofSet (set : ScriptSet) : SetReading where
  domains := Domain.reader.outcomes [] set.groups.domains
  tables := Table.reader.outcomes [] set.groups.tables
  procedures := Procedure.reader.outcomes [] set.groups.procedures
  warnings := set.warnings

def desired (reading : SetReading) : DesiredSchema where
  snapshot := {
    domains := reading.domains.objects
    tables := reading.tables.objects
    procedures := reading.procedures.objects }
  scripts := reading.domains.sources Domain.reader ++ reading.tables.sources Table.reader ++
    reading.procedures.sources Procedure.reader
  warnings := reading.warnings ++ reading.domains.warnings ++ reading.tables.warnings ++
    reading.procedures.warnings

/-- What is reported about a definition set: its own warnings, then the scripts, kind by kind. -/
def entries (reading : SetReading) : List Entry :=
  reading.warnings.flatMap (fun warning => (Event.plain .warning warning).entries) ++
    reading.domains.entries Domain.reader ++ reading.tables.entries Table.reader ++
    reading.procedures.entries Procedure.reader

end SetReading

namespace DesiredSchema

def scriptFor? (desired : DesiredSchema) (kind : ObjectKind) (name : String) : Option String :=
  desired.scripts.lookup (kind, .of name)

def scriptFor (desired : DesiredSchema) (kind : ObjectKind) (name : String) : String :=
  (desired.scriptFor? kind name).getD ""

end DesiredSchema

namespace Definitions

variable {σ : Type}

def countsByKind (snapshot : Snapshot) : String :=
  toString snapshot.domains.length ++ " domain(s), " ++ toString snapshot.tables.length ++
    " table(s), " ++ toString snapshot.procedures.length ++ " procedure(s)"

def desired (finder : Finder σ) (root : String) : Action Entry σ DesiredSchema := do
  let set ← Action.logged (load finder root)
  let reading := SetReading.ofSet set
  Action.recordAll reading.entries
  Action.announce .info ("Parsed " ++ countsByKind reading.desired.snapshot)
  return reading.desired

end Definitions

end SchemaSync
