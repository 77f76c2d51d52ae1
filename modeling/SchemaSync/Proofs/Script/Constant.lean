import SchemaSync.Proofs.Script.Default
import SchemaSync.Proofs.Script.SourceText
import SchemaSync.Proofs.Text.Rewriting

/-! The string constants of a text. A text whose literals are closed is its literals and the text around them, and a
rewriting that keeps apostrophes does to each part what it does to the whole. -/

namespace SchemaSync.Script

open Text

def literals (cs : List Char) : List (List Char) :=
  match cs with
  | [] => []
  | c :: rest =>
    if c == '\'' then
      match _closed : closeLiteral? rest with
      | some (body, after) => (c :: body) :: literals after
      | none => literals rest
    else literals rest
termination_by cs.length
decreasing_by
  all_goals simp only [List.length_cons]
  · have := closeLiteral?_length _closed
    omega
  · omega
  · omega

/-- The text with literals put in the place of empty ones. -/
def filled (around : List Char) (constants : List (List Char)) : List Char :=
  match around, constants with
  | '\'' :: '\'' :: rest, constant :: more => constant ++ filled rest more
  | c :: rest, more => c :: filled rest more
  | [], _ => []

theorem literals_plain {c : Char} (plain : c ≠ '\'') (rest : List Char) : literals (c :: rest) = literals rest := by
  rw [literals, if_neg (by simpa using plain)]

theorem literals_literal {body after : List Char} (literal : LiteralRest body) (apart : after.head? ≠ some '\'') :
    literals ('\'' :: (body ++ after)) = ('\'' :: body) :: literals after := by
  rw [literals, if_pos (by rfl)]
  split
  · next found =>
    rw [closeLiteral?_append literal apart] at found
    cases found
    rfl
  · next found =>
    rw [closeLiteral?_append literal apart] at found
    cases found

theorem literals_prepend {front : List Char} (none : '\'' ∉ front) (rest : List Char) :
    literals (front ++ rest) = literals rest := by
  induction front with
  | nil => rfl
  | cons c front ih =>
    rw [List.mem_cons, not_or] at none
    rw [List.cons_append, literals_plain (Ne.symm none.1), ih none.2]

theorem closed_prepend {front : List Char} (none : '\'' ∉ front) (rest : List Char) :
    closed false (front ++ rest) = closed false rest :=
  closed_append (closed_append_plain none false []) rest

theorem LiteralRest.prepend {front body : List Char} (literal : LiteralRest body) (none : '\'' ∉ front) :
    LiteralRest (front ++ body) := by
  induction front with
  | nil => exact literal
  | cons c front ih =>
    rw [List.mem_cons, not_or] at none
    exact (ih none.2).plain (Ne.symm none.1)

theorem literals_append {front rest : List Char} (whole : closed false front = true) (none : '\'' ∉ rest) :
    literals (front ++ rest) = literals front := by
  refine closed_induct (motive := fun front => literals (front ++ rest) = literals front) ?_ ?_ ?_ front whole
  · rw [List.nil_append, ← List.append_nil rest, literals_prepend none]
  · intro c front plain _ ih
    rw [List.cons_append, literals_plain plain, literals_plain plain, ih]
  · intro body after literal apart _ ih
    have later : (after ++ rest).head? ≠ some '\'' := by
      cases after with
      | nil => exact fun head => none (List.mem_of_mem_head? head)
      | cons c after => exact apart
    rw [List.cons_append, List.append_assoc, literals_literal literal later, literals_literal literal apart, ih]

theorem literals_single {front body rest : List Char} (first : '\'' ∉ front) (literal : LiteralRest body)
    (last : '\'' ∉ rest) : literals (front ++ '\'' :: (body ++ rest)) = ['\'' :: body] := by
  have whole : closed false ('\'' :: (body ++ [])) = true := by
    rw [closed_quote, Bool.not_false, closed_literal literal]
    rfl
  rw [List.append_nil] at whole
  rw [literals_prepend first, ← List.cons_append, literals_append whole last, ← List.append_nil body,
    literals_literal literal (by decide), literals, List.append_nil]

theorem literals_quoted {front inner rest : List Char} (first : '\'' ∉ front) (none : '\'' ∉ inner) (last : '\'' ∉ rest) :
    literals (front ++ '\'' :: ((inner ++ ['\'']) ++ rest)) = ['\'' :: (inner ++ ['\''])] :=
  literals_single first (LiteralRest.close.prepend none) last

private theorem trimChars_split (cs : List Char) : ∃ front back, '\'' ∉ front ∧ '\'' ∉ back ∧
    cs = front ++ (trimChars cs ++ back) := by
  obtain ⟨front, frontBlank, start⟩ := trimStart_split cs
  obtain ⟨back, backBlank, stop⟩ := trimEnd_split (trimStart cs)
  refine ⟨front, back, fun member => ?_, fun member => ?_, ?_⟩
  · cases frontBlank _ member
  · cases backBlank _ member
  · rw [trimChars, ← stop, ← start]

theorem closed_trimChars (cs : List Char) : closed false (trimChars cs) = closed false cs := by
  obtain ⟨front, back, first, last, split⟩ := trimChars_split cs
  conv => rhs; rw [split]
  rw [closed_prepend first, closed_append_plain last]

theorem literals_trimChars {cs : List Char} (whole : closed false cs = true) :
    literals (trimChars cs) = literals cs := by
  obtain ⟨front, back, first, last, split⟩ := trimChars_split cs
  have inner : closed false (trimChars cs) = true := (closed_trimChars cs).trans whole
  conv => rhs; rw [split]
  rw [literals_prepend first, literals_append inner last]

theorem filled_literals {cs : List Char} (whole : closed false cs = true) :
    filled (emptyLiterals cs) (literals cs) = cs := by
  refine closed_induct (motive := fun cs => filled (emptyLiterals cs) (literals cs) = cs) ?_ ?_ ?_ cs whole
  · rw [emptyLiterals, filled]
  · intro c rest plain _ ih
    rw [emptyLiterals_plain plain, literals_plain plain, filled, ih]
    rintro more constant others _ same _
    exact plain same
  · intro body after literal apart _ ih
    rw [emptyLiterals_literal literal apart, literals_literal literal apart, filled, ih]
    rfl

section Rewriting

variable {part : Char → Option Char → List Char} (keeps : KeepsApostrophes part)
include keeps

theorem rewrite_apostrophe (rest : List Char) : rewrite part ('\'' :: rest) = '\'' :: rewrite part rest := by
  rw [rewrite, keeps.same]
  rfl

theorem head?_rewrite {cs : List Char} (apart : cs.head? ≠ some '\'') : (rewrite part cs).head? ≠ some '\'' := by
  induction cs with
  | nil => exact apart
  | cons c rest ih =>
    rw [rewrite]
    cases kept : part c rest.head? with
    | nil => exact ih (keeps.gone c _ kept)
    | cons d more =>
      rintro ⟨⟩
      exact keeps.other c _ (fun same => apart (congrArg some same)) (kept ▸ List.mem_cons_self)

theorem rewrite_literal {body : List Char} (literal : LiteralRest body) (after : List Char) :
    rewrite part (body ++ after) = rewrite part body ++ rewrite part after := by
  induction literal with
  | close => rw [List.singleton_append, rewrite_apostrophe keeps, rewrite_apostrophe keeps]; rfl
  | doubled _ ih =>
    rw [List.cons_append, List.cons_append, rewrite_apostrophe keeps, rewrite_apostrophe keeps, ih,
      rewrite_apostrophe keeps, rewrite_apostrophe keeps]
    rfl
  | @plain c body _ literal ih =>
    have head : (body ++ after).head? = body.head? := by
      cases literal <;> rfl
    rw [List.cons_append, rewrite, ih, rewrite, head, List.append_assoc]

theorem literalRest_rewrite {body : List Char} (literal : LiteralRest body) : LiteralRest (rewrite part body) := by
  induction literal with
  | close => rw [rewrite_apostrophe keeps]; exact .close
  | doubled _ ih => rw [rewrite_apostrophe keeps, rewrite_apostrophe keeps]; exact ih.doubled
  | @plain c body other _ ih =>
    rw [rewrite]
    exact ih.prepend (keeps.other c _ other)

theorem literals_rewrite {cs : List Char} (whole : closed false cs = true) :
    literals (rewrite part cs) = (literals cs).map (rewrite part) := by
  refine closed_induct (motive := fun cs => literals (rewrite part cs) = (literals cs).map (rewrite part))
    ?_ ?_ ?_ cs whole
  · rw [rewrite, literals, List.map_nil]
  · intro c rest plain _ ih
    rw [rewrite, literals_prepend (keeps.other c _ plain), ih, literals_plain plain]
  · intro body after literal apart _ ih
    rw [rewrite_apostrophe keeps, rewrite_literal keeps literal,
      literals_literal (literalRest_rewrite keeps literal) (head?_rewrite keeps apart), ih,
      literals_literal literal apart, List.map_cons, rewrite_apostrophe keeps]

theorem emptyLiterals_rewrite {cs : List Char} (whole : closed false cs = true) :
    emptyLiterals (rewrite part cs) = rewrite part (emptyLiterals cs) := by
  refine closed_induct (motive := fun cs => emptyLiterals (rewrite part cs) = rewrite part (emptyLiterals cs))
    ?_ ?_ ?_ cs whole
  · rw [rewrite, emptyLiterals, rewrite]
  · intro c rest plain _ ih
    rw [rewrite, emptyLiterals_append (keeps.other c _ plain), ih, emptyLiterals_plain plain, rewrite,
      emptyLiterals_head]
  · intro body after literal apart _ ih
    rw [rewrite_apostrophe keeps, rewrite_literal keeps literal,
      emptyLiterals_literal (literalRest_rewrite keeps literal) (head?_rewrite keeps apart), ih,
      emptyLiterals_literal literal apart, rewrite_apostrophe keeps, rewrite_apostrophe keeps]

theorem closed_rewrite {cs : List Char} (whole : closed false cs = true) : closed false (rewrite part cs) = true := by
  refine closed_induct (motive := fun cs => closed false (rewrite part cs) = true) rfl ?_ ?_ cs whole
  · intro c rest plain _ ih
    rw [rewrite, closed_prepend (keeps.other c _ plain), ih]
  · intro body after literal _ _ ih
    rw [rewrite_apostrophe keeps, rewrite_literal keeps literal, closed_quote, Bool.not_false,
      closed_literal (literalRest_rewrite keeps literal), ih]

/-- A rewriting makes two texts equal exactly when it makes their literals equal, and the text around them. -/
theorem rewrite_eq_iff {one two : List Char} (first : closed false one = true) (second : closed false two = true) :
    rewrite part one = rewrite part two ↔
      (literals one).map (rewrite part) = (literals two).map (rewrite part) ∧
        rewrite part (emptyLiterals one) = rewrite part (emptyLiterals two) := by
  rw [← literals_rewrite keeps first, ← literals_rewrite keeps second, ← emptyLiterals_rewrite keeps first,
    ← emptyLiterals_rewrite keeps second]
  constructor
  · intro same
    rw [same]
    exact ⟨rfl, rfl⟩
  · rintro ⟨constants, around⟩
    rw [← filled_literals (closed_rewrite keeps first), ← filled_literals (closed_rewrite keeps second), constants,
      around]

end Rewriting

namespace Pieced

theorem of_bare {cs : List Char} (bare : Bare cs) : Pieced cs := by
  refine closed_induct (motive := fun cs => outside (fun _ cs => !opensComment cs) false false cs = true → Pieced cs)
    (fun _ => .nil) ?_ ?_ cs bare.closed bare.plain
  · intro c rest quote _ ih plain
    rw [outside_plain quote, outside_inWord, Bool.and_eq_true, Bool.not_eq_true'] at plain
    exact .plain quote plain.1 (ih plain.2)
  · intro body after literal apart _ ih plain
    rw [outside_literal (fun _ _ => rfl) literal] at plain
    exact .literal literal apart (ih plain)

theorem closed_keptChars {cs : List Char} (pieced : Pieced cs) : closed false (keptChars cs) = true := by
  induction pieced with
  | nil => rw [keptChars_nil]; rfl
  | literal literal apart _ ih =>
    rw [keptChars_literal literal apart, closed_quote, Bool.not_false, closed_literal literal, ih]
  | line _ ih => rw [keptChars_line, ih]
  | block closes _ ih => rw [keptChars_block closes, ih]
  | plain quote opens _ ih => rw [keptChars_plain quote opens, closed_plain quote, ih]

theorem closed_stripCommentChars {cs : List Char} (pieced : Pieced cs) : closed false (stripCommentChars cs) = true :=
  (closed_trimChars _).trans pieced.closed_keptChars

end Pieced

end SchemaSync.Script
