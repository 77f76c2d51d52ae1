import SchemaSync.Text.Blank
import SchemaSync.Text.WordChar

/-! Keywords and phrases in the text of a script. A phrase is a list of keywords with white space
between them. Letter case is ignored, and with it the few letters outside ASCII that share a capital
or small form with an ASCII letter. -/

namespace SchemaSync.Script

/-- A character as it counts in a keyword. -/
def foldCase (c : Char) : Char :=
  if c == 'ı' || c == 'İ' then 'I'
  else if c == 'ſ' then 'S'
  else if c == '\u212A' then 'K'
  else c.toUpper

/-- The text after a keyword at its front. The keyword is given in capitals. -/
def afterKeyword? (keyword : List Char) (cs : List Char) : Option (List Char) :=
  match keyword, cs with
  | [], cs => some cs
  | _ :: _, [] => none
  | k :: keyword, c :: cs => if foldCase c == k then afterKeyword? keyword cs else none

/-- The text after white space at its front, of which there is some. -/
def afterBlanks? (cs : List Char) : Option (List Char) :=
  match cs with
  | c :: rest => if Text.isBlank c then some (Text.trimStart rest) else none
  | [] => none

def afterSpaced? (keyword : String) (cs : List Char) : Option (List Char) :=
  (afterKeyword? keyword.toList cs).bind afterBlanks?

def afterPhrase? (phrase : List String) (cs : List Char) : Option (List Char) :=
  match phrase with
  | [] => some cs
  | [keyword] => afterKeyword? keyword.toList cs
  | keyword :: phrase => (afterSpaced? keyword cs).bind (afterPhrase? phrase)

def afterSpacedPhrase? (phrase : List String) (cs : List Char) : Option (List Char) :=
  (afterPhrase? phrase cs).bind afterBlanks?

/-- Whether a text goes on inside a word. -/
def startsInWord (cs : List Char) : Bool :=
  cs.head?.any Text.isWordChar

/-- The text after a phrase of whole words at its front. `inWord` tells whether the character before
the text belongs to a word. -/
def afterWholePhrase? (phrase : List String) (inWord : Bool) (cs : List Char) :
    Option (List Char) :=
  if inWord then none
  else (afterPhrase? phrase cs).filter (!startsInWord ·)

/-- Whether a phrase stands somewhere in a text as whole words. -/
def hasWholePhrase (phrase : List String) (inWord : Bool) (cs : List Char) : Bool :=
  match cs with
  | [] => false
  | c :: rest =>
    (afterWholePhrase? phrase inWord (c :: rest)).isSome ||
      hasWholePhrase phrase (Text.isWordChar c) rest

def firstMatch? {α : Type} (read? : List Char → Option α) (cs : List Char) : Option α :=
  match cs with
  | [] => read? []
  | c :: rest => (read? (c :: rest)).or (firstMatch? read? rest)

def identifier? (cs : List Char) : Option (List Char × List Char) :=
  let name := cs.takeWhile Text.isIdentifierChar
  if name.isEmpty then none else some (name, cs.dropWhile Text.isIdentifierChar)

end SchemaSync.Script
