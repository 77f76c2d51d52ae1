import SchemaSync.Text.Blank

/-! One unit of work for a database: a statement or a batch of statements, with what it does and to
which object. -/

namespace SchemaSync

/-- Work on one object. `detail` names a part of it, such as a column. -/
structure Step where
  category : String
  action : String
  objectName : String
  sql : String
  detail : Option String := none
  deriving DecidableEq, Repr

namespace Step

/-- The object, and the part of it when one is named. -/
def target (step : Step) : String :=
  match step.detail with
  | some part => if part.isEmpty then step.objectName else step.objectName ++ "." ++ part
  | none => step.objectName

def label (step : Step) : String :=
  step.action ++ " " ++ step.category ++ " " ++ step.target

end Step

def previewLimit : Nat := 100

/-- The first line of a batch that is not blank, cut to `previewLimit` characters. -/
def batchPreview (sql : String) : String :=
  let lines := (Text.linesOf (Text.trimChars sql.toList)).map Text.trimChars
  match lines.filter (!·.isEmpty) with
  | [] => "[empty script]"
  | line :: _ =>
    if line.length ≤ previewLimit then String.ofList line
    else String.ofList (line.take previewLimit) ++ "..."

end SchemaSync
