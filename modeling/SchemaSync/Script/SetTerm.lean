import SchemaSync.Script.Keyword

/-! `SET TERM` directives that stand on lines of their own. Such a directive names a new terminator
and the old one, and says nothing about the objects that a script defines. -/

namespace SchemaSync.Script

/-- The text after white space that ends a line here, or the whole text: what follows the white
space is nothing, or its last line feed is given back. -/
def afterLine? (cs : List Char) : Option (List Char) :=
  let blanks := cs.takeWhile Text.isBlank
  let rest := cs.dropWhile Text.isBlank
  if rest.isEmpty then some []
  else
    -- The white space after its last line feed starts the line of the text that follows.
    let tail := (blanks.reverse.takeWhile (· != '\n')).reverse
    if tail.length == blanks.length then none else some ('\n' :: tail ++ rest)

/-- A directive at the front of a line: the new terminator, and the text from the end of its line.
-/
def directive? (cs : List Char) : Option (List Char × List Char) := do
  let cs ← afterSpacedPhrase? ["SET", "TERM"] (Text.trimStart cs)
  let terminator := cs.takeWhile (!Text.isBlank ·)
  let cs ← afterBlanks? (cs.dropWhile (!Text.isBlank ·))
  if terminator.isEmpty || cs.isEmpty then none
  else return (terminator, ← afterLine? (cs.dropWhile (!Text.isBlank ·)))

/-- The first directive of a text, by its new terminator. `lineStart` tells whether the text starts
at the start of a line. -/
def firstTerminator? (lineStart : Bool) (cs : List Char) : Option (List Char) :=
  match cs with
  | [] => none
  | c :: rest =>
    let here := if lineStart then (directive? (c :: rest)).map Prod.fst else none
    here.or (firstTerminator? (c == '\n') rest)

/-- The text without its directives, given how many of its characters belong to one that has been
read already. -/
def withoutDirectives (skip : Nat) (lineStart : Bool) (cs : List Char) : List Char :=
  match cs with
  | [] => []
  | c :: rest =>
    match skip with
    | skip + 1 => withoutDirectives skip (c == '\n') rest
    | 0 =>
      match if lineStart then directive? (c :: rest) else none with
      -- The first character of a directive is left out here, and `skip` counts the others.
      | some (_, after) => withoutDirectives (rest.length - after.length) (c == '\n') rest
      | none => c :: withoutDirectives 0 (c == '\n') rest

/-- The terminator that the first directive of a text sets, without the semicolons at its end. -/
def terminatorOf (cs : List Char) : List Char :=
  match firstTerminator? true cs with
  | some terminator =>
    let bare := (terminator.reverse.dropWhile (· == ';')).reverse
    if bare.isEmpty then [';'] else bare
  | none => [';']

end SchemaSync.Script
