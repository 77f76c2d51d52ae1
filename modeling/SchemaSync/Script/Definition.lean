import SchemaSync.Schema.Object
import SchemaSync.Script.Attribute
import SchemaSync.Script.SetTerm
import SchemaSync.Script.TypeText

/-! Schema objects from the scripts that define them. Three statements are understood: `CREATE
DOMAIN`, `CREATE TABLE` and `CREATE [OR ALTER] PROCEDURE`. The first one of its kind in a script is
read, wherever it stands. -/

namespace SchemaSync

namespace Script

def lineLimit : Nat := 80

def firstLine (script : String) : String :=
  match Text.linesOf (Text.trimChars script.toList) with
  | [] => ""
  | line :: _ =>
    if lineLimit < line.length then String.ofList (line.take (lineLimit - 3)) ++ "..."
    else String.ofList line

def requireText (kind : ObjectKind) (script : String) : Except Error Unit :=
  if Text.isBlankText script then .error (.argument (.blankScript kind)) else .ok ()

/-- The part of a domain definition that says what the domain is. -/
structure DomainReading where
  name : List Char
  type : TypeReading
  deriving DecidableEq, Repr

/-- A domain definition at the front of a text. The word `AS` before the type may be left out. -/
def domainReading? (cs : List Char) : Option DomainReading := do
  let cs ← afterSpacedPhrase? ["CREATE", "DOMAIN"] cs
  let (name, cs) ← identifier? cs
  let cs ← afterBlanks? cs
  let type ← ((afterSpaced? "AS" cs).bind typeReading?).or (typeReading? cs)
  return { name, type }

def tableName? (cs : List Char) : Option (List Char × List Char) := do
  identifier? (← afterSpacedPhrase? ["CREATE", "TABLE"] cs)

def upToLastParenthesis? (cs : List Char) : Option (List Char) :=
  match cs.reverse.dropWhile (· != ')') with
  | _ :: body => some body.reverse
  | [] => none

/-- What stands in parentheses after the name of a table whose definition is at the front. -/
def tableBody? (cs : List Char) : Option (List Char) := do
  let (_, cs) ← tableName? cs
  match Text.trimStart cs with
  | '(' :: rest => upToLastParenthesis? rest
  | _ => none

/-- Splits a text at the commas that stand neither in parentheses nor between apostrophes. `depth`
parentheses are open, and `quoted` tells whether an apostrophe is. -/
def splitAtCommas (depth : Nat) (quoted : Bool) (cs : List Char) : List (List Char) :=
  match cs with
  | [] => [[]]
  | c :: rest =>
    if !quoted && c == ',' && depth == 0 then [] :: splitAtCommas depth quoted rest
    else
      let depth :=
        if quoted then depth
        else if c == '(' then depth + 1
        -- A parenthesis that closes nothing leaves the depth at zero.
        else if c == ')' then depth - 1
        else depth
      match splitAtCommas depth (quoted != (c == '\'')) rest with
      | [] => [[c]]
      | part :: parts => (c :: part) :: parts

def columnDefinitions (body : List Char) : List (List Char) :=
  ((splitAtCommas 0 false body).map Text.trimChars).filter (!·.isEmpty)

def splitColumnDefinitions (body : String) : List String :=
  (columnDefinitions body.toList).map String.ofList

def tableClauses : List (List String) := [
  ["PRIMARY", "KEY"], ["FOREIGN", "KEY"], ["CONSTRAINT"], ["CHECK"], ["UNIQUE"]]

def isTableClause (definition : List Char) : Bool :=
  let cs := Text.trimStart definition
  tableClauses.any fun phrase => (afterWholePhrase? phrase false cs).isSome

def columnReading? (definition : List Char) : Option DomainReading := do
  let (name, cs) ← identifier? (Text.trimChars definition)
  return { name, type := ← typeReading? (← afterBlanks? cs) }

/-- A definition that is neither a clause about the whole table nor the definition of a column. -/
def isUnrecognized (definition : List Char) : Bool :=
  !isTableClause definition && (columnReading? definition).isNone

def procedureReading? (cs : List Char) : Option (List Char × List Char) := do
  let cs ← afterSpaced? "CREATE" cs
  let cs := (afterSpacedPhrase? ["OR", "ALTER"] cs).getD cs
  identifier? (← afterSpaced? "PROCEDURE" cs)

def dropTerminator (terminator cs : List Char) : List Char :=
  if terminator.isSuffixOf cs then Text.trimEnd (cs.take (cs.length - terminator.length)) else cs

end Script

open Script

def Domain.ofScript (script : String) : Except Error Domain := do
  requireText .domain script
  match firstMatch? domainReading? (stripCommentChars script.toList) with
  | none => .error (.script (.noDomain (firstLine script)))
  | some reading =>
    let (first, second) := numericParameters reading.type.parameters
    Domain.create (String.ofList (Text.upperChars reading.name))
      (String.ofList (canonicalType reading.type.base reading.type.parameters))
      first first second (allowsNull reading.type.rest) (declaredDefault reading.type.rest)

/-- The column that a definition declares, unless it is something else. -/
def Column.ofDefinitionChars (definition : List Char) (position : Int) :
    Except Error (Option Column) :=
  if isTableClause definition then .ok none
  else match columnReading? definition with
    | none => .ok none
    | some { name, type } =>
      let known := isKnownTypeChars type.base
      some <$> Column.create (String.ofList (Text.upperChars name)) position
        (if known then none else some (String.ofList (Text.upperChars type.base)))
        (if known then some (String.ofList (canonicalType type.base type.parameters)) else none)
        (allowsNull type.rest) (declaredDefault type.rest)

def Column.ofDefinition (definition : String) (position : Int) : Except Error (Option Column) :=
  Column.ofDefinitionChars definition.toList position

/-- The columns that definitions declare, counted from a position on. A definition of something else
takes no position. -/
def Column.ofDefinitions (position : Int) : List (List Char) → Except Error (List Column)
  | [] => .ok []
  | definition :: rest => do
    match ← Column.ofDefinitionChars definition position with
    | some column => return column :: (← Column.ofDefinitions (position + 1) rest)
    | none => Column.ofDefinitions position rest

def Table.ofScript (script : String) : Except Error Table := do
  requireText .table script
  let text := stripCommentChars script.toList
  match firstMatch? tableName? text with
  | none => .error (.script (.noTable (firstLine script)))
  | some (nameChars, _) =>
    let name := String.ofList (Text.upperChars nameChars)
    -- If the first definition has no body, this is the body of the first one that has.
    match firstMatch? tableBody? text with
    | none => .error (.script (.noColumnList name (firstLine script)))
    | some body =>
      let columns ← Column.ofDefinitions 0 (columnDefinitions body)
      if columns.isEmpty then .error (.script (.noColumns name))
      else Table.create name columns

/-- The definitions in a table script that declare nothing that is understood. -/
def Table.unrecognizedDefinitions (script : String) : List String :=
  let text := stripCommentChars script.toList
  match firstMatch? tableName? text, firstMatch? tableBody? text with
  | some _, some body => ((columnDefinitions body).filter isUnrecognized).map String.ofList
  | _, _ => []

/-- The procedure that a script defines. Its source is all that follows the name, without `SET TERM`
directives and without the terminator at its end. -/
def Procedure.ofScript (script : String) : Except Error Procedure := do
  requireText .procedure script
  let bare := stripCommentChars script.toList
  let text := Text.trimChars (withoutDirectives 0 true bare)
  match firstMatch? procedureReading? text with
  | none => .error (.script (.noProcedure (firstLine script)))
  | some (nameChars, rest) =>
    let name := String.ofList (Text.upperChars nameChars)
    -- A semicolon before the terminator of the directive goes as well.
    let source := dropTerminator [';'] (dropTerminator (terminatorOf bare) (Text.trimChars rest))
    if source.isEmpty then .error (.script (.noBody name))
    else Procedure.create name (String.ofList source) none

end SchemaSync
