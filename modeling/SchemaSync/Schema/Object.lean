import SchemaSync.Error

/-! Schema objects: domains, tables with their columns, procedures, and the snapshot of a whole
schema. An object that exists is well formed; the functions named `create` refuse the others. -/

namespace SchemaSync

/-- A named column type: a base type with nullability and a default. `length` and `precision` are
both the first number of the type and `scale` is the second. -/
structure Domain where
  name : String
  dataType : String
  length : Option Int
  precision : Option Int
  scale : Option Int
  isNullable : Bool
  defaultValue : Option String
  named : Text.isBlankText name = false
  deriving DecidableEq, Repr

namespace Domain

def key (d : Domain) : NameKey :=
  .of d.name

def create (name dataType : String) (length precision scale : Option Int) (isNullable : Bool)
    (defaultValue : Option String) : Except Error Domain :=
  if named : Text.isBlankText name = false then
    .ok { name, dataType, length, precision, scale, isNullable, defaultValue, named }
  else .error (.argument (.blankName (.object .domain)))

end Domain

def isGiven (text : Option String) : Bool :=
  text.any (!·.isEmpty)

/-- A column of a table: either bound to a domain or declared with a type of its own. -/
structure Column where
  name : String
  position : Int
  domainName : Option String
  dataType : Option String
  isNullable : Bool
  defaultValue : Option String
  named : Text.isBlankText name = false
  typed : isGiven domainName ≠ isGiven dataType
  deriving DecidableEq, Repr

namespace Column

def key (c : Column) : NameKey :=
  .of c.name

def typeText (c : Column) : String :=
  if isGiven c.domainName then c.domainName.getD "" else c.dataType.getD ""

def create (name : String) (position : Int) (domainName dataType : Option String)
    (isNullable : Bool) (defaultValue : Option String) : Except Error Column :=
  if named : Text.isBlankText name = false then
    if typed : isGiven domainName ≠ isGiven dataType then
      .ok { name, position, domainName, dataType, isNullable, defaultValue, named, typed }
    else .error (.argument (.columnType name))
  else .error (.argument (.blankName .column))

end Column

/-- Columns in the order of their positions, no two at the same one. -/
abbrev Ascending (columns : List Column) : Prop :=
  columns.Pairwise fun first second => first.position < second.position

/-- A table and its columns, of which there is at least one. -/
structure Table where
  name : String
  columns : List Column
  named : Text.isBlankText name = false
  nonempty : columns ≠ []
  ascending : Ascending columns
  deriving DecidableEq, Repr

namespace Table

def key (t : Table) : NameKey :=
  .of t.name

def column? (t : Table) (name : String) : Option Column :=
  t.columns.find? (·.key == .of name)

def arrange (columns : List Column) : List Column :=
  columns.mergeSort fun first second => first.position ≤ second.position

/-- A table of columns in any order. -/
def create (name : String) (columns : List Column) : Except Error Table :=
  if named : Text.isBlankText name = false then
    if nonempty : arrange columns ≠ [] then
      if ascending : Ascending (arrange columns) then
        .ok { name, columns := arrange columns, named, nonempty, ascending }
      else .error (.argument (.repeatedPosition name))
    else .error (.argument (.noColumns name))
  else .error (.argument (.blankName (.object .table)))

end Table

/-- A stored procedure. The source is all that follows the name in its definition. -/
structure Procedure where
  name : String
  sourceCode : String
  description : Option String
  named : Text.isBlankText name = false
  sourced : Text.isBlankText sourceCode = false
  deriving DecidableEq, Repr

namespace Procedure

def key (p : Procedure) : NameKey :=
  .of p.name

def create (name sourceCode : String) (description : Option String) : Except Error Procedure :=
  if named : Text.isBlankText name = false then
    if sourced : Text.isBlankText sourceCode = false then
      .ok { name, sourceCode, description, named, sourced }
    else .error (.argument (.noSource name))
  else .error (.argument (.blankName (.object .procedure)))

end Procedure

structure Snapshot where
  domains : List Domain
  tables : List Table
  procedures : List Procedure
  deriving DecidableEq, Repr

namespace Snapshot

def empty : Snapshot := ⟨[], [], []⟩

def total (s : Snapshot) : Nat :=
  s.domains.length + s.tables.length + s.procedures.length

def procedure? (s : Snapshot) (name : String) : Option Procedure :=
  s.procedures.find? (·.key == .of name)

end Snapshot

def require {α : Type} (kind : ObjectKind) (object : Option α) : Except Error α :=
  match object with
  | some object => .ok object
  | none => .error (.argument (.absent kind))

end SchemaSync
