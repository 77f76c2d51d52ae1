import SchemaSync.Script.Keyword
import SchemaSync.Text.Digit
import SchemaSync.Text.UpperCase

/-! The type of a domain or column in a script: one word, or one of the standard types of several
words, and the parameters in parentheses after it. The canonical text of a type is in capitals, with
single spaces between words and none between parameters. -/

namespace SchemaSync.Script

/-- The words that start a type of the database itself. Any other word names a domain. -/
def knownTypes : List String := [
  "INTEGER", "INT", "BIGINT", "SMALLINT", "INT128",
  "FLOAT", "DOUBLE", "REAL", "DECIMAL", "NUMERIC", "DECFLOAT",
  "VARCHAR", "CHAR", "CHARACTER", "BINARY", "VARBINARY",
  "DATE", "TIME", "TIMESTAMP",
  "BLOB", "BOOLEAN"]

def isKnownTypeChars (cs : List Char) : Bool :=
  match Text.wordsOf cs with
  | [] => false
  | word :: _ => knownTypes.contains (String.ofList (Text.upperChars word))

def isKnownType (typeName : String) : Bool :=
  isKnownTypeChars typeName.toList

def afterOptional (keyword : String) (cs : List Char) : List Char :=
  (afterKeyword? keyword.toList cs).getD cs

def afterDouble? (cs : List Char) : Option (List Char) :=
  afterPhrase? ["DOUBLE", "PRECISION"] cs

def afterVarying? (cs : List Char) : Option (List Char) := do
  let cs ← afterKeyword? "CHAR".toList cs
  let cs ← afterBlanks? (afterOptional "ACTER" cs)
  afterKeyword? "VARYING".toList cs

def afterZoned? (cs : List Char) : Option (List Char) := do
  let cs ← afterKeyword? "TIME".toList cs
  let cs ← afterBlanks? (afterOptional "STAMP" cs)
  let cs ← afterKeyword? "WITH".toList cs
  let cs ← afterBlanks? (afterOptional "OUT" cs)
  afterPhrase? ["TIME", "ZONE"] cs

def afterBlob? (cs : List Char) : Option (List Char) := do
  let cs ← afterSpacedPhrase? ["BLOB", "SUB_TYPE"] cs
  if startsInWord cs then some (cs.dropWhile Text.isWordChar) else none

/-- The text after a type: one of several words if possible, else one identifier. -/
def afterType? (cs : List Char) : Option (List Char) :=
  (afterDouble? cs).or <| (afterVarying? cs).or <| (afterZoned? cs).or <| (afterBlob? cs).or <|
    (identifier? cs).map Prod.snd

/-- The parameters in parentheses at the front of a text, and the text after them. White space may
stand before the parentheses. -/
def parameters? (cs : List Char) : Option (List Char × List Char) :=
  match Text.trimStart cs with
  | '(' :: rest =>
    match rest.dropWhile (· != ')') with
    | ')' :: after => some (rest.takeWhile (· != ')'), after)
    | _ => none
  | _ => none

structure TypeReading where
  base : List Char
  parameters : Option (List Char)
  rest : List Char
  deriving DecidableEq, Repr

def typeReading? (cs : List Char) : Option TypeReading :=
  (afterType? cs).map fun after =>
    let base := cs.take (cs.length - after.length)
    match parameters? after with
    | some (inside, rest) => { base, parameters := some inside, rest }
    | none => { base, parameters := none, rest := after }

def blobSubType (word : List Char) : List (List Char) :=
  if word == "0".toList || word == "BINARY".toList then []
  else if word == "1".toList || word == "TEXT".toList then ["SUB_TYPE".toList, "TEXT".toList]
  else ["SUB_TYPE".toList, word]

def canonicalWords (base : List Char) : List (List Char) :=
  match Text.wordsOf (Text.upperChars base) with
  | [first, second, third] =>
    if first == "BLOB".toList then first :: blobSubType third else [first, second, third]
  | words => words

def canonicalType (base : List Char) (parameters : Option (List Char)) : List Char :=
  let words := [' '].intercalate (canonicalWords base)
  match parameters with
  | none => words
  | some inside =>
    -- Parentheses with nothing in them are no parameters.
    if inside.all Text.isBlank then words
    else words ++ '(' :: [','].intercalate ((Text.piecesAt ',' inside).map Text.trimChars) ++ [')']

def numericParameter? (parameter : List Char) : Option Int :=
  Text.intOfChars? (Text.trimChars parameter)

def numericParameters (parameters : Option (List Char)) : Option Int × Option Int :=
  match parameters with
  | none => (none, none)
  | some inside =>
    match Text.piecesAt ',' inside with
    | first :: second :: _ => (numericParameter? first, numericParameter? second)
    | [first] => (numericParameter? first, none)
    | [] => (none, none)

end SchemaSync.Script
