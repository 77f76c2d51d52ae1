import SchemaSync.CommandLine.Progress
import SchemaSync.Plan.Plan
import SchemaSync.Run.Build

/-! What the program shows. -/

namespace SchemaSync.CommandLine

inductive Item
  | line (text : String)
  | table (title : String) (header : Option (List String)) (rows : List (List String))
  | code (sql : String)
  | question (text : String) (default : Bool)
  | log (record : LogRecord)
  deriving DecidableEq, Repr

namespace Item

def info (text : String) : Item :=
  .line (styled "title" "›" text)

def success (text : String) : Item :=
  .line (styled "ok" "✓" text)

def warning (text : String) : Item :=
  .line (styled "warn" "⚠" text)

def failure (text : String) : Item :=
  .line (styled "err" "✗" text)

def heading (text : String) : Item :=
  .line ("[title]" ++ text ++ "[/]")

def field (name value : String) : Item :=
  .line ("[meta]" ++ name ++ "[/]: " ++ value)

def ofCommand (title : String) (fields : List (String × String)) : List Item :=
  heading title :: fields.map fun (name, value) => field name value

def ofSnapshot (title : String) (snapshot : Snapshot) : Item :=
  .table title (some ["Kind", "Name", "Details"])
    (snapshot.domains.map (fun d =>
        ["domain", d.name, d.dataType ++ if d.isNullable then "" else " NOT NULL"]) ++
      snapshot.tables.map (fun t =>
        ["table", t.name, toString t.columns.length ++ " column(s)"]) ++
      snapshot.procedures.map (fun p => ["procedure", p.name, ""]))

def ofSteps (steps : List Step) : Item :=
  .table "Planned changes" (some ["#", "Category", "Action", "Object"])
    (steps.zipIdx.map fun (step, index) =>
      [toString (index + 1), step.category, step.action, step.target])

def statements (steps : List Step) : List Item :=
  steps.flatMap fun step =>
    [.line ("[meta]-- " ++ step.label ++ "[/]"), .code (Text.trim step.sql)]

def ofReport (report : Report) : Item :=
  .table "Update summary" none [
    ["Domains created", toString report.domainsCreated],
    ["Domains altered", toString report.domainsAltered],
    ["Tables created", toString report.tablesCreated],
    ["Tables altered", toString report.tablesAltered],
    ["Procedures replaced", toString report.proceduresReplaced],
    ["Statements planned", toString report.statementsPlanned],
    ["Statements executed", toString report.statementsExecuted],
    ["Dry run", if report.dryRun then "[ok]yes[/]" else "[meta]no[/]"]]

def ofFailure (failure : StepFailure) : List Item := [
  field "Category" failure.step.category,
  field "Succeeded in category"
    (toString failure.succeeded ++ " of " ++ toString failure.categoryTotal),
  field "Executed overall" (toString failure.executed),
  .failure ("Stopped after the first failure in " ++ failure.step.category ++ " statements.")]

def ofBuildReport (report : BuildReport) : Item :=
  .table "Build summary" none [
    ["Domains", toString report.domains],
    ["Tables", toString report.tables],
    ["Procedures", toString report.procedures],
    ["Total scripts", toString report.total]]

/-- A question to be answered with yes or no, after a line that says how. -/
def confirmation (question : String) : List Item :=
  [.line "[meta]Use y/n then Enter[/]", .question ("[dbmeta] " ++ question) false]

/-- A line of the log. Unless the run is verbose, only errors are shown. -/
def ofLog (verbose : Bool) (record : LogRecord) : List Item :=
  if verbose || record.level == .error then [.log record] else []

def isQuestion : Item → Bool
  | .question _ _ => true
  | _ => false

def ofEntry (escape : String → String) (verbose : Bool) : Entry → List Item
  | .log record => ofLog verbose record
  | .event event => if isShown verbose event then [.line (formatEvent escape event)] else []

/-- What an entry shows when nobody follows the events. -/
def ofEntryLog (verbose : Bool) (entry : Entry) : List Item :=
  entry.log?.toList.flatMap (ofLog verbose)

end Item

/-- A screen. Texts that are shown as they come may look like faulty markup, so a screen may refuse
an item, and then it gives the reason. It shows every escaped text and every line of the log. -/
structure Screen where
  escape : String → String
  refusal? : Item → Option String
  shows_escaped : ∀ style icon text, refusal? (.line (styled style icon (escape text))) = none
  shows_log : ∀ record, refusal? (.log record) = none

/-- A screen shows some items, whatever their texts are. -/
def Screen.Prints (screen : Screen) (items : List Item) : Prop :=
  ∀ item ∈ items, screen.refusal? item = none

end SchemaSync.CommandLine
