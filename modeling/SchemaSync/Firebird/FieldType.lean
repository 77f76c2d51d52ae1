/-! The types of fields as the catalog records them, and their texts. -/

namespace SchemaSync.Firebird

structure FieldType where
  code : Option Int
  subType : Option Int := none
  length : Option Int := none
  charLength : Option Int := none
  precision : Option Int := none
  scale : Option Int := none
  deriving DecidableEq, Repr

/-- The codes of exact numbers, each with its type and the digits it has when none are recorded. -/
def exactTypes : List (Int × String × Int) := [
  (7, "SMALLINT", 4), (8, "INTEGER", 9), (16, "BIGINT", 18), (26, "INT128", 38)]

def fixedTypes : List (Int × String) := [
  (10, "FLOAT"), (27, "DOUBLE PRECISION"), (12, "DATE"), (13, "TIME"), (35, "TIMESTAMP"),
  (28, "TIME WITH TIME ZONE"), (29, "TIMESTAMP WITH TIME ZONE"), (23, "BOOLEAN"),
  (24, "DECFLOAT(16)"), (25, "DECFLOAT(34)")]

def textTypes : List (Int × String) := [(14, "CHAR"), (37, "VARCHAR")]

def blobCode : Int := 261

namespace FieldType

def scaleOrZero (field : FieldType) : Int :=
  field.scale.getD 0

/-- Whether an exact number is a decimal fraction: it is declared as one, or it has a scale. -/
def isFraction (field : FieldType) : Bool :=
  field.subType == some 1 || field.subType == some 2 || decide (field.scaleOrZero < 0)

def digits (field : FieldType) (usual : Int) : Int :=
  (field.precision.filter (· ≠ 0)).getD usual

def exactText (field : FieldType) (plain : String) (usual : Int) : String :=
  if field.isFraction then
    (if field.subType == some 2 then "DECIMAL" else "NUMERIC") ++ "(" ++
      toString (field.digits usual) ++ "," ++ toString field.scaleOrZero.natAbs ++ ")"
  else plain

/-- The length of a text: in characters if that is recorded, else in bytes. -/
def size? (field : FieldType) : Option Int :=
  field.charLength.or field.length

def blobText (field : FieldType) : String :=
  match field.subType with
  | none | some 0 => "BLOB"
  | some 1 => "BLOB SUB_TYPE TEXT"
  | some other => "BLOB SUB_TYPE " ++ toString other

def text (field : FieldType) : String :=
  match field.code with
  | none => "UNKNOWN_TYPE_None"
  | some code =>
    match exactTypes.lookup code, fixedTypes.lookup code, textTypes.lookup code with
    | some (plain, usual), _, _ => field.exactText plain usual
    | none, some fixed, _ => fixed
    | none, none, some name =>
      match field.size? with
      | some size => name ++ "(" ++ toString size ++ ")"
      | none => name
    | none, none, none =>
      if code = blobCode then field.blobText else "UNKNOWN_TYPE_" ++ toString code

end FieldType

end SchemaSync.Firebird
