import SchemaSync.Script.Comment
import SchemaSync.Script.Render

/-! What separates an existing schema from a desired one, attribute by attribute. Objects are only
ever created or altered: what exists and is not desired is left alone. -/

namespace SchemaSync

/-- The alterations of one object or column, in the order in which they apply. -/
structure AlterPlan where
  name : String
  statements : List String
  deriving DecidableEq, Repr

structure DomainChanges where
  toCreate : List Domain
  toAlter : List AlterPlan
  deriving DecidableEq, Repr

structure ColumnChanges where
  table : String
  toAdd : List Column
  toAlter : List AlterPlan
  deriving DecidableEq, Repr

structure TableChanges where
  toCreate : List Table
  toAlter : List ColumnChanges
  deriving DecidableEq, Repr

namespace DomainChanges

def hasChanges (changes : DomainChanges) : Bool :=
  !changes.toCreate.isEmpty || !changes.toAlter.isEmpty

end DomainChanges

namespace ColumnChanges

def hasChanges (changes : ColumnChanges) : Bool :=
  !changes.toAdd.isEmpty || !changes.toAlter.isEmpty

def addStatement (table : String) (column : Column) : String :=
  "ALTER TABLE " ++ table ++ " ADD " ++ column.definition

def addStatements (changes : ColumnChanges) : List String :=
  changes.toAdd.map (addStatement changes.table)

def alterStatements (changes : ColumnChanges) : List String :=
  changes.toAlter.flatMap (·.statements)

end ColumnChanges

namespace TableChanges

def hasChanges (changes : TableChanges) : Bool :=
  !changes.toCreate.isEmpty || !changes.toAlter.isEmpty

end TableChanges

/-- A default as it counts in a comparison: trimmed, in capitals, and empty when there is none. -/
def normalizeDefault (value : Option String) : String :=
  Text.upper (Text.trim (value.getD ""))

def normalizeType (type : Option String) : String :=
  Text.upper (Text.trim (type.getD ""))

/-- The attributes that a statement can alter one by one. -/
structure Attributes where
  type : Option String
  isNullable : Bool
  defaultValue : Option String
  deriving DecidableEq, Repr

/-- One statement for each attribute that differs: type, then nullability, then default. `head` is
the start of each statement, and the type only counts when `withType` is set. -/
def alterations (head : String) (withType : Bool) (existing desired : Attributes) : List String :=
  (if withType && normalizeType existing.type != normalizeType desired.type then
    [head ++ " TYPE " ++ desired.type.getD ""] else []) ++
  (if existing.isNullable != desired.isNullable then
    [head ++ (if desired.isNullable then " DROP NOT NULL" else " SET NOT NULL")] else []) ++
  (if normalizeDefault existing.defaultValue != normalizeDefault desired.defaultValue then
    [if normalizeDefault desired.defaultValue == "" then head ++ " DROP DEFAULT"
      else head ++ " SET DEFAULT " ++ Text.trim (desired.defaultValue.getD "")] else [])

def Domain.attributes (d : Domain) : Attributes :=
  ⟨some d.dataType, d.isNullable, d.defaultValue⟩

def Column.attributes (c : Column) : Attributes :=
  ⟨c.dataType, c.isNullable, c.defaultValue⟩

def Domain.alterations (existing desired : Domain) : List String :=
  SchemaSync.alterations ("ALTER DOMAIN " ++ existing.name) true existing.attributes
    desired.attributes

/-- The statements that make one column of a table the same as another. A column that is bound to a
domain, or is to be bound to one, keeps its type. -/
def Column.alterations (table : String) (existing desired : Column) : List String :=
  SchemaSync.alterations ("ALTER TABLE " ++ table ++ " ALTER COLUMN " ++ desired.name)
    (!isGiven existing.domainName && !isGiven desired.domainName) existing.attributes
    desired.attributes

def lastWith? {α : Type} (keyOf : α → NameKey) (key : NameKey) (objects : List α) : Option α :=
  objects.reverse.find? (keyOf · == key)

def compareDomains (existing desired : List Domain) : DomainChanges where
  toCreate := desired.filter fun d => (lastWith? Domain.key d.key existing).isNone
  toAlter := desired.filterMap fun d => do
    let statements := (← lastWith? Domain.key d.key existing).alterations d
    if statements.isEmpty then none else some { name := d.name, statements }

def compareColumns (existing desired : Table) : ColumnChanges where
  table := existing.name
  toAdd := desired.columns.filter fun c => (lastWith? Column.key c.key existing.columns).isNone
  toAlter := desired.columns.filterMap fun c => do
    let statements := (← lastWith? Column.key c.key existing.columns).alterations existing.name c
    if statements.isEmpty then none else some { name := c.name, statements }

def compareTables (existing desired : List Table) : TableChanges where
  toCreate := desired.filter fun t => (lastWith? Table.key t.key existing).isNone
  toAlter := desired.filterMap fun t => do
    let changes := compareColumns (← lastWith? Table.key t.key existing) t
    if changes.hasChanges then some changes else none

/-- The source of a procedure as it counts in a comparison: without comments, and with single spaces
for white space. -/
def normalizeSource (source : String) : String :=
  String.ofList ([' '].intercalate (Text.wordsOf (Script.stripCommentChars source.toList)))

def procedureChanged (existing : Option Procedure) (desired : Procedure) : Bool :=
  match existing with
  | none => true
  | some existing => normalizeSource existing.sourceCode != normalizeSource desired.sourceCode

end SchemaSync
