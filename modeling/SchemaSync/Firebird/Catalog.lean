import SchemaSync.Firebird.FieldType
import SchemaSync.Schema.Object
import SchemaSync.Script.Keyword
import SchemaSync.Text.Utf8

/-! The system catalog: the four queries that read it, the rows they give, and the schema objects
that the rows describe. -/

namespace SchemaSync.Firebird

/-- A value in a catalog row. Long texts arrive as streams. -/
inductive Cell
  | null
  | number (value : Int)
  | text (value : String)
  | bytes (value : List UInt8)
  | textStream (content : String)
  | byteStream (content : List UInt8)
  deriving DecidableEq, Repr

namespace Cell

def chars? : Cell → Option (List Char)
  | .null => none
  | .number value => some (toString value).toList
  | .text value | .textStream value => some value.toList
  | .bytes value | .byteStream value => some (Text.Utf8.decodeLossy value)

def trimmed? (cell : Cell) : Option (List Char) :=
  (cell.chars?.map Text.trimChars).filter (!·.isEmpty)

def text? (cell : Cell) : Option String :=
  cell.trimmed?.map String.ofList

def withoutKeyword (cs : List Char) : List Char :=
  (Script.afterWholePhrase? ["DEFAULT"] false cs).getD cs

/-- The value of a default, which the catalog keeps with its keyword. -/
def default? (cell : Cell) : Option String := do
  let value := Text.trimChars (withoutKeyword (← cell.trimmed?))
  if value.isEmpty then none else some (String.ofList value)

end Cell

structure DomainRow where
  name : String
  field : FieldType
  nullFlag : Option Int
  defaultSource : Cell
  deriving DecidableEq, Repr

structure ColumnRow where
  table : String
  name : String
  fieldSource : Option String
  nullFlag : Option Int
  defaultSource : Cell
  field : FieldType
  deriving DecidableEq, Repr

structure ParameterRow where
  procedure : Option String
  name : Option String
  direction : Option Int
  fieldSource : Option String
  field : FieldType
  deriving DecidableEq, Repr

structure ProcedureRow where
  name : Option String
  source : Cell
  description : Cell
  deriving DecidableEq, Repr

inductive Query
  | domains
  | columns
  | procedures
  | parameters
  deriving DecidableEq, Repr

namespace Query

abbrev Row : Query → Type
  | .domains => DomainRow
  | .columns => ColumnRow
  | .procedures => ProcedureRow
  | .parameters => ParameterRow

def subject : Query → String
  | .domains => "domains"
  | .columns => "tables"
  | .procedures => "procedures"
  | .parameters => "procedure parameters"

def lines : Query → List String
  | .domains => [
    "SELECT",
    "    TRIM(f.RDB$FIELD_NAME) AS FIELD_NAME,",
    "    f.RDB$FIELD_TYPE,",
    "    f.RDB$FIELD_SUB_TYPE,",
    "    f.RDB$FIELD_LENGTH,",
    "    f.RDB$CHARACTER_LENGTH,",
    "    f.RDB$FIELD_PRECISION,",
    "    f.RDB$FIELD_SCALE,",
    "    f.RDB$NULL_FLAG,",
    "    f.RDB$DEFAULT_SOURCE",
    "FROM RDB$FIELDS f",
    "WHERE f.RDB$FIELD_NAME NOT STARTING WITH 'RDB$'",
    "  AND COALESCE(f.RDB$SYSTEM_FLAG, 0) = 0",
    "ORDER BY f.RDB$FIELD_NAME"]
  | .columns => [
    "SELECT",
    "    TRIM(r.RDB$RELATION_NAME) AS TABLE_NAME,",
    "    TRIM(rf.RDB$FIELD_NAME) AS COLUMN_NAME,",
    "    TRIM(rf.RDB$FIELD_SOURCE) AS DOMAIN_NAME,",
    "    rf.RDB$NULL_FLAG,",
    "    rf.RDB$DEFAULT_SOURCE,",
    "    f.RDB$FIELD_TYPE,",
    "    f.RDB$FIELD_SUB_TYPE,",
    "    f.RDB$FIELD_LENGTH,",
    "    f.RDB$CHARACTER_LENGTH,",
    "    f.RDB$FIELD_PRECISION,",
    "    f.RDB$FIELD_SCALE",
    "FROM RDB$RELATIONS r",
    "JOIN RDB$RELATION_FIELDS rf ON rf.RDB$RELATION_NAME = r.RDB$RELATION_NAME",
    "JOIN RDB$FIELDS f ON f.RDB$FIELD_NAME = rf.RDB$FIELD_SOURCE",
    "WHERE COALESCE(r.RDB$SYSTEM_FLAG, 0) = 0",
    "  AND r.RDB$VIEW_BLR IS NULL",
    "ORDER BY r.RDB$RELATION_NAME, rf.RDB$FIELD_POSITION"]
  | .procedures => [
    "SELECT",
    "    TRIM(p.RDB$PROCEDURE_NAME) AS PROCEDURE_NAME,",
    "    p.RDB$PROCEDURE_SOURCE,",
    "    p.RDB$DESCRIPTION",
    "FROM RDB$PROCEDURES p",
    "WHERE COALESCE(p.RDB$SYSTEM_FLAG, 0) = 0",
    "  AND p.RDB$PACKAGE_NAME IS NULL",
    "ORDER BY p.RDB$PROCEDURE_NAME"]
  | .parameters => [
    "SELECT",
    "    TRIM(pp.RDB$PROCEDURE_NAME) AS PROCEDURE_NAME,",
    "    TRIM(pp.RDB$PARAMETER_NAME) AS PARAMETER_NAME,",
    "    pp.RDB$PARAMETER_TYPE,",
    "    TRIM(pp.RDB$FIELD_SOURCE) AS DOMAIN_NAME,",
    "    f.RDB$FIELD_TYPE,",
    "    f.RDB$FIELD_SUB_TYPE,",
    "    f.RDB$FIELD_LENGTH,",
    "    f.RDB$CHARACTER_LENGTH,",
    "    f.RDB$FIELD_PRECISION,",
    "    f.RDB$FIELD_SCALE",
    "FROM RDB$PROCEDURE_PARAMETERS pp",
    "JOIN RDB$FIELDS f ON f.RDB$FIELD_NAME = pp.RDB$FIELD_SOURCE",
    "WHERE pp.RDB$PACKAGE_NAME IS NULL",
    "ORDER BY pp.RDB$PROCEDURE_NAME, pp.RDB$PARAMETER_TYPE, pp.RDB$PARAMETER_NUMBER"]

def text (query : Query) : String :=
  String.intercalate "\n" query.lines

end Query

def isSet (flag : Option Int) : Bool :=
  flag.any (· ≠ 0)

def implicitStart : List Char := "RDB$".toList

/-- The domain that a field comes from, unless it has a type of its own. Such types are kept as
domains too, under names of the database's making. -/
def userDomain? (fieldSource : Option String) : Option String :=
  fieldSource.filter fun name =>
    !name.isEmpty && !implicitStart.isPrefixOf (Text.upperChars name.toList)

def declaredType (fieldSource : Option String) (field : FieldType) : String :=
  (userDomain? fieldSource).getD field.text

def DomainRow.domain (row : DomainRow) : Except Error Domain :=
  Domain.create row.name row.field.text row.field.size? row.field.precision
    (row.field.scale.map fun scale => (scale.natAbs : Int)) (!isSet row.nullFlag)
    row.defaultSource.default?

def ColumnRow.column (row : ColumnRow) (position : Nat) : Except Error Column :=
  Column.create row.name position (userDomain? row.fieldSource)
    (if (userDomain? row.fieldSource).isSome then none else some row.field.text)
    (!isSet row.nullFlag) row.defaultSource.default?

/-- The columns that rows describe, each with its table. Positions count the columns of the same
table before, of which `earlier` names one for each. -/
def columnsOfRows (earlier : List String) : List ColumnRow → Except Error (List (String × Column))
  | [] => .ok []
  | row :: rest => do
    let column ← row.column (earlier.count row.table)
    return (row.table, column) :: (← columnsOfRows (row.table :: earlier) rest)

/-- The tables that rows describe, in the order in which they appear first. -/
def tablesOfRows (rows : List ColumnRow) : Except Error (List Table) := do
  let columns ← columnsOfRows [] rows
  (columns.map Prod.fst).eraseDups.mapM fun name =>
    Table.create name ((columns.filter (·.1 == name)).map Prod.snd)

def inputDirection : Int := 0

def ParameterRow.declaration (row : ParameterRow) : String :=
  row.name.getD "None" ++ " " ++ declaredType row.fieldSource row.field

def ParameterRow.isInput (row : ParameterRow) : Bool :=
  row.direction == some inputDirection

/-- Parameters in parentheses after some words, on a line of their own, if there are any. -/
def signatureLines (words : String) (parameters : List String) : List String :=
  if parameters.isEmpty then []
  else [words ++ "(" ++ String.intercalate ", " parameters ++ ")"]

/-- The text that follows the name of a procedure in its definition. The catalog keeps the body
alone. -/
def procedureSource (inputs outputs : List String) (body : String) : String :=
  String.intercalate "\n"
    (signatureLines "" inputs ++ signatureLines "RETURNS " outputs ++ ["AS", Text.trim body])

/-- The procedure that a row describes, with its parameters, unless it has no source. -/
def ProcedureRow.procedure? (parameters : List ParameterRow) (row : ProcedureRow) :
    Option (Except Error Procedure) :=
  row.source.text?.map fun body =>
    -- Names of the catalog are compared as they are, not by their keys.
    let own := parameters.filter (·.procedure == row.name)
    let inputs := (own.filter (·.isInput)).map ParameterRow.declaration
    let outputs := (own.filter (!·.isInput)).map ParameterRow.declaration
    Procedure.create (row.name.getD "") (procedureSource inputs outputs body) row.description.text?

end SchemaSync.Firebird
