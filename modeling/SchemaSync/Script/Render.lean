import SchemaSync.Schema.Object

/-! Schema objects as the scripts that define them, in the form that the reader of scripts takes
back. -/

namespace SchemaSync

namespace Script

/-- The clauses for a default and for `NOT NULL`, each after a space. -/
def attributes (defaultValue : Option String) (isNullable : Bool) : String :=
  let default := Text.trim (defaultValue.getD "")
  (if default.isEmpty then "" else " DEFAULT " ++ default) ++
    (if isNullable then "" else " NOT NULL")

/-- The terminator for procedures, whose bodies have semicolons of their own. -/
def procedureTerminator : String := "^"

end Script

open Script

def Domain.script (d : Domain) : String :=
  "CREATE DOMAIN " ++ d.name ++ " AS " ++ d.dataType ++
    attributes d.defaultValue d.isNullable ++ ";"

def Column.definition (c : Column) : String :=
  c.name ++ " " ++ c.typeText ++ attributes c.defaultValue c.isNullable

def Table.script (t : Table) : String :=
  "CREATE TABLE " ++ t.name ++ " (\n" ++
    String.intercalate ",\n" (t.columns.map ("    " ++ ·.definition)) ++ "\n);"

/-- The script that creates a procedure, between directives for a terminator of its own. -/
def Procedure.script (p : Procedure) : String :=
  "SET TERM " ++ procedureTerminator ++ " ;\n" ++
    "CREATE PROCEDURE " ++ p.name ++ "\n" ++
    Text.trim p.sourceCode ++ procedureTerminator ++ "\n" ++
    "SET TERM ; " ++ procedureTerminator ++ "\n"

end SchemaSync
