import SchemaSync.Text.Blank
import SchemaSync.Text.UpperCase

/-! Names of schema objects. Two names mean the same object when their keys are equal, and a key
does not see letter case or white space around the name. -/

namespace SchemaSync

structure NameKey where
  value : String
  deriving DecidableEq, Repr

/-- The key of a name: trimmed, in capitals. -/
def NameKey.of (name : String) : NameKey :=
  ⟨Text.upper (Text.trim name)⟩

/-- The kinds of object that a schema holds and a script can define. -/
inductive ObjectKind
  | domain
  | table
  | procedure
  deriving DecidableEq, Repr

namespace ObjectKind

/-- All kinds, in the order in which a database needs them. -/
def all : List ObjectKind := [.domain, .table, .procedure]

/-- The kind as a category of work. -/
def name : ObjectKind → String
  | .domain => "domain"
  | .table => "table"
  | .procedure => "procedure"

def title : ObjectKind → String
  | .domain => "Domain"
  | .table => "Table"
  | .procedure => "Procedure"

def directory : ObjectKind → String
  | .domain => "domains"
  | .table => "tables"
  | .procedure => "procedures"

end ObjectKind

end SchemaSync
