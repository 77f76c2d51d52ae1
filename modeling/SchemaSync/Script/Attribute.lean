import SchemaSync.Script.Comment
import SchemaSync.Script.Keyword

/-! The clauses after a type: `NOT NULL` and `DEFAULT`. A default extends to the next clause that
can follow it, as long as that stands outside literals. -/

namespace SchemaSync.Script

/-- Whether a text allows null, that is, says `NOT NULL` nowhere outside literals. -/
def allowsNull (cs : List Char) : Bool :=
  !hasWholePhrase ["NOT", "NULL"] false (emptyLiterals cs)

def defaultStops : List (List String) := [
  ["NOT", "NULL"], ["CHECK"], ["COLLATE"], ["CHARACTER", "SET"], ["PRIMARY", "KEY"], ["UNIQUE"],
  ["REFERENCES"]]

/-- Whether a default ends here: a clause follows, or a semicolon, or nothing. -/
def stopsHere (inWord : Bool) (cs : List Char) : Bool :=
  cs.isEmpty || cs.head? == some ';' ||
    defaultStops.any fun phrase => (afterWholePhrase? phrase inWord cs).isSome

def stopsAhead (inWord : Bool) (cs : List Char) : Bool :=
  match cs with
  | [] => true
  | c :: _ =>
    if Text.isBlank c then stopsHere false (Text.trimStart cs) else stopsHere inWord cs

/-- The characters of a default up to its end. Nothing ends it before its first character, or when
`started` is set before its next one, and an apostrophe that opens no literal makes it fail. -/
def defaultChars? (started inWord : Bool) (cs : List Char) : Option (List Char) :=
  -- White space before a clause is no part of the default, so the test looks past it.
  if started && stopsAhead inWord cs then some []
  else
    match cs with
    | [] => none
    | c :: rest =>
      if c == '\'' then
        match _closed : closeLiteral? rest with
        | some (body, after) => (defaultChars? true false after).map (c :: body ++ ·)
        | none => none
      else (defaultChars? true (Text.isWordChar c) rest).map (c :: ·)
termination_by cs.length
decreasing_by
  · have := closeLiteral?_length _closed
    simp only [List.length_cons]
    omega
  · simp

/-- The default after its keyword. Where none can be read but more than one blank stands before a
place at which a default ends, the default is blank. -/
def defaultAfterKeyword? (cs : List Char) : Option (List Char) :=
  match cs with
  | c :: rest =>
    if Text.isBlank c then
      (defaultChars? false false (Text.trimStart rest)).or <|
        -- The first blank belongs to the keyword, so a blank default needs another one.
        if rest.head?.any Text.isBlank && stopsHere false (Text.trimStart rest) then some []
        else none
    else none
  | [] => none

def findDefault? (inWord : Bool) (cs : List Char) : Option (List Char) :=
  match cs with
  | [] => none
  | c :: rest =>
    let here :=
      if inWord then none
      else (afterKeyword? "DEFAULT".toList (c :: rest)).bind defaultAfterKeyword?
    here.or (findDefault? (Text.isWordChar c) rest)

def dropSemicolons (cs : List Char) : List Char :=
  (cs.reverse.dropWhile (· == ';')).reverse

/-- The default that a text declares. A default of nothing counts as none. -/
def declaredDefault (cs : List Char) : Option String :=
  (findDefault? false cs).bind fun value =>
    let value := Text.trimChars (dropSemicolons (Text.trimChars value))
    if value.isEmpty then none else some (String.ofList value)

end SchemaSync.Script
