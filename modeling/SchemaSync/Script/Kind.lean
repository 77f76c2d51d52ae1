import SchemaSync.Schema.Name
import SchemaSync.Script.Comment
import SchemaSync.Script.Keyword

/-! The kind of object that a script defines, told by its statements outside comments. -/

namespace SchemaSync.Script

/-- The statements that define each kind. The kinds are tried in this order. -/
def definingPhrases : List (ObjectKind × List (List String)) := [
  (.domain, [["CREATE", "DOMAIN"]]),
  (.table, [["CREATE", "TABLE"]]),
  (.procedure, [["CREATE", "OR", "ALTER", "PROCEDURE"], ["CREATE", "PROCEDURE"]])]

def kindOf? (script : String) : Option ObjectKind :=
  let text := stripCommentChars script.toList
  (definingPhrases.find? fun entry => entry.2.any (hasWholePhrase · false text)).map Prod.fst

def createOrAlter : List Char :=
  "CREATE OR ALTER PROCEDURE".toList

/-- A text whose first `CREATE PROCEDURE` allows for a procedure that exists already. -/
def allowExisting (inWord : Bool) (cs : List Char) : List Char :=
  match cs with
  | [] => []
  | c :: rest =>
    -- The script is sent as it stands, so its comments and literals are searched as well.
    match afterWholePhrase? ["CREATE", "PROCEDURE"] inWord (c :: rest) with
    | some after => createOrAlter ++ after
    | none => c :: allowExisting (Text.isWordChar c) rest

/-- A script that also replaces the procedure it creates. -/
def toCreateOrAlter (script : String) : String :=
  String.ofList (allowExisting false script.toList)

end SchemaSync.Script
