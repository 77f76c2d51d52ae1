import SchemaSync.Files.Path
import SchemaSync.Script.Kind

/-! The scripts of a definition set. A set comes in one of two layouts: either it has a group of
scripts for each kind of object, or it is flat and the kind of every script is told by its text. -/

namespace SchemaSync

structure ScriptFile where
  path : Path
  text : String
  deriving DecidableEq, Repr

structure ScriptGroups where
  domains : List ScriptFile := []
  tables : List ScriptFile := []
  procedures : List ScriptFile := []
  deriving DecidableEq, Repr

namespace ScriptGroups

def ofKind (groups : ScriptGroups) : ObjectKind → List ScriptFile
  | .domain => groups.domains
  | .table => groups.tables
  | .procedure => groups.procedures

def total (groups : ScriptGroups) : Nat :=
  groups.domains.length + groups.tables.length + groups.procedures.length

/-- Scripts of a flat layout in groups. Scripts of no known kind are in none. -/
def classify (scripts : List ScriptFile) : ScriptGroups :=
  let ofKind := fun kind => scripts.filter fun script => Script.kindOf? script.text == some kind
  { domains := ofKind .domain, tables := ofKind .table, procedures := ofKind .procedure }

end ScriptGroups

/-- Scripts as they were found: in groups, or flat. Files that could not be read were skipped. -/
structure FoundScripts where
  groups : Option ScriptGroups := none
  flat : List ScriptFile := []
  skipped : List Path := []
  deriving DecidableEq, Repr

namespace FoundScripts

def unread (found : FoundScripts) : List String :=
  found.skipped.map fun path => "Could not read " ++ path.name

def undetected (found : FoundScripts) : List String :=
  match found.groups with
  | some _ => []
  | none =>
    (found.flat.filter fun script => (Script.kindOf? script.text).isNone).map fun script =>
      "Cannot detect script type: " ++ script.path.name

end FoundScripts

structure ScriptSet where
  groups : ScriptGroups
  warnings : List String
  deriving DecidableEq, Repr

namespace ScriptSet

def total (set : ScriptSet) : Nat :=
  set.groups.total

/-- The definition set of scripts that were found. Groups count as they are, and then flat scripts
do not count. -/
def ofFound (found : FoundScripts) : ScriptSet where
  groups := found.groups.getD (.classify found.flat)
  warnings := found.unread ++ found.undetected

end ScriptSet

end SchemaSync
