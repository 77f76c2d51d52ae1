import SchemaSync.Script.Comment
import SchemaSync.Script.Keyword

/-! Single statements from a batch. A statement ends at the terminator in force, which is a
semicolon until a `SET TERM` statement sets another one. Terminators inside quotes and comments end
nothing, and comments are left out of the statements. -/

namespace SchemaSync.Script

/-- A statement and the terminator that was in force when it was cut. -/
structure Cut where
  terminator : List Char
  text : List Char
  deriving DecidableEq, Repr

/-- The terminator that a statement sets, if it is a directive. -/
def newTerminator? (statement : List Char) : Option (List Char) := do
  let terminator ← afterSpacedPhrase? ["SET", "TERM"] statement
  if terminator.isEmpty || terminator.any Text.isBlank then none else some terminator

def terminatorAfter (terminator statement : List Char) : List Char :=
  (newTerminator? statement).getD terminator

/-- What a statement adds to the result: nothing if it is blank or a directive. -/
def cutOf (terminator statement : List Char) : List Cut :=
  if statement.isEmpty || (newTerminator? statement).isSome then [] else [⟨terminator, statement⟩]

/-- The text after a block comment that may be left open. -/
def afterBlock (cs : List Char) : List Char :=
  (closeBlock? cs).getD []

theorem afterBlock_length (cs : List Char) : (afterBlock cs).length ≤ cs.length := by
  unfold afterBlock
  cases found : closeBlock? cs with
  | none => simp
  | some after => exact Nat.le_of_lt (closeBlock?_length found)

/-- The statements of a text. `quote` is the quotation mark that is open, and `read` holds the
characters of the current statement, the last one first. -/
def cutsFrom (terminator : List Char) (quote : Option Char) (read : List Char) (cs : List Char) :
    List Cut :=
  match cs with
  | [] => cutOf terminator (Text.trimChars read.reverse)
  | c :: rest =>
    match quote with
    | some mark => cutsFrom terminator (if c == mark then none else some mark) (c :: read) rest
    | none =>
      if c == '\'' || c == '"' then cutsFrom terminator (some c) (c :: read) rest
      -- A line comment leaves the end of its line, and a block comment leaves a space.
      else if ['-', '-'].isPrefixOf (c :: rest) then cutsFrom terminator none read (dropLine rest)
      else if ['/', '*'].isPrefixOf (c :: rest) then
        cutsFrom terminator none (' ' :: read) (afterBlock (rest.drop 1))
      else if terminator.isPrefixOf (c :: rest) then
        let statement := Text.trimChars read.reverse
        cutOf terminator statement ++
          cutsFrom (terminatorAfter terminator statement) none []
            (rest.drop (terminator.length - 1))
      else cutsFrom terminator none (c :: read) rest
termination_by cs.length
decreasing_by
  · simp
  · simp
  · have := dropLine_length rest
    simp only [List.length_cons]
    omega
  · have := afterBlock_length (rest.drop 1)
    simp only [List.length_drop, List.length_cons] at *
    omega
  · simp only [List.length_drop, List.length_cons]
    omega
  · simp

def cuts (terminator cs : List Char) : List Cut :=
  cutsFrom terminator none [] cs

def splitStatements (batch : String) : List String :=
  (cuts [';'] batch.toList).map fun cut => String.ofList cut.text

end SchemaSync.Script
