import SchemaSync.Text.Blank

/-! Literals and comments. Everything between two apostrophes is a literal, in which an apostrophe
is written twice. Outside literals, two hyphens start a comment that the end of the line ends, and a
slash with a star starts one that a star with a slash ends. An apostrophe or a slash with a star
that nothing closes is plain text. -/

namespace SchemaSync.Script

/-- Splits off the rest of a literal, after its opening apostrophe. If only doubled apostrophes
follow, the first of the last pair closes the literal. -/
def closeLiteral? (cs : List Char) : Option (List Char × List Char) :=
  match cs with
  | [] => none
  | '\'' :: '\'' :: rest =>
    match closeLiteral? rest with
    | some (body, after) => some ('\'' :: '\'' :: body, after)
    -- No later apostrophe closes the literal, so the first one of this pair does.
    | none => some (['\''], '\'' :: rest)
  | c :: rest =>
    if c == '\'' then some (['\''], rest)
    else (closeLiteral? rest).map fun (body, after) => (c :: body, after)

/-- The text after a block comment, after its opening characters. -/
def closeBlock? (cs : List Char) : Option (List Char) :=
  match cs with
  | [] => none
  | '*' :: '/' :: rest => some rest
  | _ :: rest => closeBlock? rest

def dropLine (cs : List Char) : List Char :=
  cs.dropWhile (· != '\n')

theorem closeLiteral?_length {cs body after : List Char}
    (h : closeLiteral? cs = some (body, after)) :
    after.length < cs.length := by
  fun_induction closeLiteral? cs generalizing body after with
  | case1 => simp at h
  | case2 rest body' after' found ih =>
    obtain ⟨_, rfl⟩ := Prod.mk.inj (Option.some.inj h)
    have := ih found
    simp only [List.length_cons]
    omega
  | case3 rest none ih =>
    obtain ⟨_, rfl⟩ := Prod.mk.inj (Option.some.inj h)
    simp
  | case4 c rest _ closing =>
    obtain ⟨_, rfl⟩ := Prod.mk.inj (Option.some.inj h)
    simp
  | case5 c rest _ open_ ih =>
    obtain ⟨⟨body', after'⟩, found, same⟩ := Option.map_eq_some_iff.1 h
    obtain ⟨_, rfl⟩ := Prod.mk.inj same
    have := ih found
    simp only [List.length_cons]
    omega

theorem closeBlock?_length {cs after : List Char} (h : closeBlock? cs = some after) :
    after.length < cs.length := by
  fun_induction closeBlock? cs with
  | case1 => simp at h
  | case2 rest =>
    obtain rfl := Option.some.inj h
    simp only [List.length_cons]
    omega
  | case3 c rest _ ih =>
    have := ih h
    simp only [List.length_cons]
    omega

theorem dropLine_length (cs : List Char) : (dropLine cs).length ≤ cs.length :=
  (List.dropWhile_sublist _).length_le

/-- A piece of a script: a literal, a comment, or one plain character. -/
inductive Piece
  | literal (text : List Char)
  | comment
  | plain (c : Char)
  deriving DecidableEq, Repr

/-- The piece at the front of a text that starts with `c`, and the text after it. -/
def frontPiece (c : Char) (rest : List Char) : Piece × List Char :=
  match c, rest with
  | '\'', _ =>
    match closeLiteral? rest with
    | some (body, after) => (.literal ('\'' :: body), after)
    | none => (.plain '\'', rest)
  | '/', '*' :: rest' =>
    match closeBlock? rest' with
    | some after => (.comment, after)
    | none => (.plain '/', rest)
  | '-', '-' :: rest' => (.comment, dropLine rest')
  | c, rest => (.plain c, rest)

theorem frontPiece_length (c : Char) (rest : List Char) :
    (frontPiece c rest).2.length ≤ rest.length := by
  unfold frontPiece
  split
  · split
    · rename_i found
      exact Nat.le_of_lt (closeLiteral?_length found)
    · exact Nat.le_refl _
  · split
    · rename_i found
      have := closeBlock?_length found
      simp only [List.length_cons]
      omega
    · exact Nat.le_refl _
  · rename_i rest'
    have := dropLine_length rest'
    simp only [List.length_cons]
    omega
  · exact Nat.le_refl _

def pieces (cs : List Char) : List Piece :=
  match cs with
  | [] => []
  | c :: rest => (frontPiece c rest).1 :: pieces (frontPiece c rest).2
termination_by cs.length
decreasing_by
  have := frontPiece_length c rest
  simp only [List.length_cons]
  omega

/-- What a piece leaves in the text when comments are removed. -/
def Piece.kept : Piece → List Char
  | .literal text => text
  | .comment => []
  | .plain c => [c]

/-- A text without its comments and without white space at either end. -/
def stripCommentChars (cs : List Char) : List Char :=
  Text.trimChars ((pieces cs).flatMap Piece.kept)

def stripComments (script : String) : String :=
  String.ofList (stripCommentChars script.toList)

def emptyLiterals (cs : List Char) : List Char :=
  match cs with
  | [] => []
  | c :: rest =>
    if c == '\'' then
      match _closed : closeLiteral? rest with
      | some (_, after) => '\'' :: '\'' :: emptyLiterals after
      | none => c :: emptyLiterals rest
    else c :: emptyLiterals rest
termination_by cs.length
decreasing_by
  · have := closeLiteral?_length _closed
    simp only [List.length_cons]
    omega
  all_goals simp

end SchemaSync.Script
