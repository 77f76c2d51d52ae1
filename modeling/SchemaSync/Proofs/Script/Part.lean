import SchemaSync.Proofs.Script.SharedText

/-! Texts in parts: literals, comments, and plain text between them. Taking the comments out of such a text leaves the
literals and the plain text as they are, whatever stands in a literal or a comment. -/

namespace SchemaSync.Script

open Text

/-- A part of a text: a literal by its content, a comment by what it says, or plain text. -/
inductive Part
  | literal (content : List Char)
  | block (remark : List Char)
  | line (remark : List Char)
  | plain (text : List Char)
  deriving DecidableEq, Repr

def doubled (content : List Char) : List Char :=
  content.flatMap fun c => if c = '\'' then ['\'', '\''] else [c]

namespace Part

def text : Part → List Char
  | .literal content => '\'' :: (doubled content ++ ['\''])
  | .block remark => '/' :: '*' :: (remark ++ ['*', '/'])
  | .line remark => '-' :: '-' :: remark
  | .plain text => text

def kept : Part → List Char
  | .block _ | .line _ => []
  | part => part.text

/-- A part is what it says it is: nothing inside a comment ends it, and nothing in plain text starts another part. -/
def Whole : Part → Prop
  | .literal _ => True
  | .block remark => occursIn ['*', '/'] remark = false
  | .line remark => '\n' ∉ remark
  | .plain text => '\'' ∉ text ∧ occursIn ['-', '-'] text = false ∧ occursIn ['/', '*'] text = false

/-- A part may stand before another one. A comment up to the end of a line needs that end after it and no hyphen before
it, and all plain text between two other parts is one part. -/
def Joins : Part → Part → Prop
  | .line _, next => next.text.head? = some '\n'
  | .plain text, .line _ => text.getLast? ≠ some '-'
  | .plain _, .plain _ => False
  | _, _ => True

instance : DecidablePred Whole
  | .literal _ => inferInstanceAs (Decidable True)
  | .block _ => inferInstanceAs (Decidable (_ = _))
  | .line _ => inferInstanceAs (Decidable (¬_))
  | .plain _ => inferInstanceAs (Decidable (_ ∧ _ ∧ _))

instance : DecidableRel Joins
  | .line _, _ => inferInstanceAs (Decidable (_ = _))
  | .plain _, .line _ => inferInstanceAs (Decidable (_ ≠ _))
  | .plain _, .plain _ => inferInstanceAs (Decidable False)
  | .plain _, .literal _ | .plain _, .block _ | .literal _, _ | .block _, _ => inferInstanceAs (Decidable True)

end Part

def Assembled : List Part → Prop
  | [] => True
  | part :: rest => part.Whole ∧ (∀ next ∈ rest.head?, part.Joins next) ∧ Assembled rest

theorem literalRest_doubled (content : List Char) : LiteralRest (doubled content ++ ['\'']) := by
  induction content with
  | nil => exact .close
  | cons c content ih =>
    rw [doubled, List.flatMap_cons]
    split
    · exact ih.doubled
    · next other => exact ih.plain other

theorem LiteralRest.append {body more : List Char} (literal : LiteralRest body) (next : LiteralRest more) :
    LiteralRest (body ++ '\'' :: more) := by
  induction literal with
  | close => exact next.doubled
  | doubled _ ih => exact ih.doubled
  | plain other _ ih => exact ih.plain other

/-- Plain text is kept if its last character starts no comment with what follows. -/
theorem keptChars_text {text rest : List Char} (whole : (Part.plain text).Whole)
    (joint : ∀ c ∈ text.getLast?, ∀ d ∈ rest.head?, opensComment [c, d] = false) :
    keptChars (text ++ rest) = text ++ keptChars rest := by
  induction text with
  | nil => rfl
  | cons c text ih =>
    obtain ⟨unquoted, line, block⟩ := whole
    rw [List.mem_cons, not_or] at unquoted
    rw [occursIn, Bool.or_eq_false_iff] at line block
    have opens : opensComment (c :: (text ++ rest)) = false := by
      cases text with
      | nil =>
        cases rest with
        | nil => simp [opensComment]
        | cons d rest => exact joint c rfl d rfl
      | cons d text =>
        refine opensComment_eq_false_iff.mpr ⟨?_, ?_⟩
        · simpa [List.isPrefixOf] using line.1
        · simpa [List.isPrefixOf] using block.1
    rw [List.cons_append, keptChars_plain (Ne.symm unquoted.1) opens, ih ⟨unquoted.2, line.2, block.2⟩,
      List.cons_append]
    intro d last
    refine joint d ?_
    rw [List.getLast?_cons, Option.mem_def.mp last]
    rfl

/-- Plain text starts no comment with the part after it. -/
theorem Part.Joins.opensComment_eq {text : List Char} {next : Part} (joins : (Part.plain text).Joins next)
    (rest : List Char) : ∀ c ∈ text.getLast?, ∀ d ∈ (next.text ++ rest).head?, opensComment [c, d] = false := by
  intro c last d head
  cases next with
  | plain => exact joins.elim
  | literal | block =>
    cases head
    simp [opensComment]
  | line =>
    cases head
    have other : c ≠ '-' := fun same => joins (same ▸ last)
    simp [opensComment, other]

/-- Only the comments are taken out of parts, also when these follow a literal. -/
theorem keptChars_parts {parts : List Part} (assembled : Assembled parts) :
    keptChars (parts.flatMap Part.text) = parts.flatMap Part.kept ∧ ∀ body, LiteralRest body →
      keptChars ('\'' :: (body ++ parts.flatMap Part.text)) = '\'' :: (body ++ parts.flatMap Part.kept) := by
  induction parts with
  | nil =>
    refine ⟨keptChars_nil, fun body literal => ?_⟩
    rw [List.flatMap_nil, keptChars_literal literal (by simp), keptChars_nil, List.flatMap_nil]
  | cons part rest ih =>
    obtain ⟨whole, joins, later⟩ := assembled
    obtain ⟨alone, goesOn⟩ := ih later
    rw [List.flatMap_cons, List.flatMap_cons]
    -- What does not start with an apostrophe ends a literal before it.
    have afterLiteral (here : keptChars (part.text ++ rest.flatMap Part.text) = part.kept ++ rest.flatMap Part.kept)
        (apart : (part.text ++ rest.flatMap Part.text).head? ≠ some '\'') (body : List Char)
        (literal : LiteralRest body) :
        keptChars ('\'' :: (body ++ (part.text ++ rest.flatMap Part.text))) =
          '\'' :: (body ++ (part.kept ++ rest.flatMap Part.kept)) := by
      rw [keptChars_literal literal apart, here]
    cases part with
    | literal content =>
      -- Two literals side by side read as one, in which the apostrophes between them stand for one.
      refine ⟨by simpa [Part.text, Part.kept] using goesOn _ (literalRest_doubled content), fun body literal => ?_⟩
      simpa [Part.text, Part.kept] using goesOn _ (literal.append (literalRest_doubled content))
    | block remark =>
      have split : (Part.block remark).text ++ rest.flatMap Part.text =
          '/' :: '*' :: (remark ++ (['*', '/'] ++ rest.flatMap Part.text)) := by simp [Part.text]
      have here := (congrArg keptChars split).trans ((keptChars_block (closeBlock?_body _ whole)).trans alone)
      exact ⟨here, afterLiteral here (by simp [Part.text])⟩
    | line remark =>
      have ended : ∀ c ∈ (rest.flatMap Part.text).head?, c = '\n' := by
        cases rest with
        | nil => simp
        | cons next rest =>
          have start : next.text.head? = some '\n' := joins next rfl
          rw [List.flatMap_cons, List.head?_append, start, Option.some_or]
          exact fun c head => (Option.some.inj head).symm
      have here : keptChars ('-' :: '-' :: (remark ++ rest.flatMap Part.text)) = rest.flatMap Part.kept := by
        rw [keptChars_line, dropLine_ends whole ended, alone]
      exact ⟨here, afterLiteral here (by simp [Part.text])⟩
    | plain text =>
      have here : keptChars (text ++ rest.flatMap Part.text) = text ++ rest.flatMap Part.kept := by
        refine (keptChars_text whole ?_).trans (congrArg (text ++ ·) alone)
        cases rest with
        | nil => simp
        | cons next rest => exact (joins next rfl).opensComment_eq _
      refine ⟨here, ?_⟩
      cases text with
      | nil => exact goesOn
      | cons c text =>
        have other : c ≠ '\'' := fun same => whole.1 (same ▸ List.mem_cons_self)
        exact afterLiteral here (by simpa [Part.text] using other)

/-- Without its comments, a text in parts is its literals and its plain text, without white space at either end. -/
theorem stripComments_parts {parts : List Part} (assembled : Assembled parts) :
    stripComments (String.ofList (parts.flatMap Part.text)) = String.ofList (trimChars (parts.flatMap Part.kept)) := by
  rw [stripComments, String.toList_ofList, stripCommentChars_eq, (keptChars_parts assembled).1]

/-- A quote in a comment, openers of comments in literals and in each other, and literals side by side. -/
theorem stripComments_parts_sample :
    stripComments "--it's\nA -/* 'x -- */ B / 'it''s -- /*'''//***/--- /* '" = "A - B / 'it''s -- /*'''/" := by
  let sample : List Part := [.line "it's".toList, .plain "\nA -".toList, .block " 'x -- ".toList, .plain " B / ".toList,
    .literal "it's -- /*".toList, .literal [], .plain "/".toList, .block "*".toList, .line "- /* '".toList]
  have assembled : Assembled sample := by simp only [sample, Assembled]; decide
  exact (stripComments_parts assembled).trans (by decide)

end SchemaSync.Script
