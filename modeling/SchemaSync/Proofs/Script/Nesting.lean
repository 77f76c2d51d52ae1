import SchemaSync.Proofs.Script.TypeText
import SchemaSync.Script.Definition

/-! Texts whose commas all stand in parentheses or literals, and the body of a table made of such
texts: splitting the body at its commas gives the texts back. -/

namespace SchemaSync.Script

open Text

/-- Whether every parenthesis of a text is matched and every comma stands in parentheses, literals
apart. `depth` parentheses are open, and `quoted` tells whether an apostrophe is. -/
def nested (depth : Nat) (quoted : Bool) (cs : List Char) : Bool :=
  match cs with
  | [] => depth == 0 && !quoted
  | c :: rest =>
    if quoted then nested depth (c != '\'') rest
    else if c == ',' then depth != 0 && nested depth false rest
    else if c == '(' then nested (depth + 1) false rest
    else if c == ')' then depth != 0 && nested (depth - 1) false rest
    else nested depth (c == '\'') rest

/-- How far a text is nested: the parentheses that are open, and whether an apostrophe is. -/
structure Nesting where
  depth : Nat
  quoted : Bool

namespace Nesting

def outer : Nesting := ⟨0, false⟩

def separates (n : Nesting) (c : Char) : Bool :=
  !n.quoted && c == ',' && n.depth == 0

/-- The nesting after one more character. A parenthesis that closes nothing changes nothing. -/
def next (n : Nesting) (c : Char) : Nesting where
  depth := if n.quoted then n.depth else if c == '(' then n.depth + 1 else if c == ')' then n.depth - 1 else n.depth
  quoted := n.quoted != (c == '\'')

/-- The nesting after a text, if nothing in it separates parts. -/
def through? (n : Nesting) : List Char → Option Nesting
  | [] => some n
  | c :: rest => if n.separates c then none else (n.next c).through? rest

variable {n m : Nesting}

theorem through?_append (front rest : List Char) :
    n.through? (front ++ rest) = (n.through? front).bind (·.through? rest) := by
  induction front generalizing n with
  | nil => rfl
  | cons c front ih =>
    rw [List.cons_append, through?, through?]
    split
    · rfl
    · exact ih

theorem through?_blanks {blanks : List Char} (blank : ∀ c ∈ blanks, isBlank c = true) : n.through? blanks = some n := by
  induction blanks with
  | nil => rfl
  | cons c blanks ih =>
    have here := blank c List.mem_cons_self
    have other (d : Char) (solid : isBlank d = false) : (c == d) = false := by
      rw [beq_eq_false_iff_ne]
      rintro rfl
      rw [here] at solid
      cases solid
    have stays : n.separates c = false := by simp [separates, other ',' rfl]
    have same : n.next c = n := by simp [next, other '(' rfl, other ')' rfl, other '\'' rfl]
    rw [through?, stays, if_neg Bool.false_ne_true, same]
    exact ih fun d member => blank d (List.mem_cons_of_mem c member)

theorem through?_trimChars (cs : List Char) : n.through? (trimChars cs) = n.through? cs := by
  obtain ⟨front, frontBlank, start⟩ := trimStart_split cs
  obtain ⟨back, backBlank, stop⟩ := trimEnd_split (trimStart cs)
  have split : cs = front ++ (trimChars cs ++ back) := by rw [trimChars, ← stop, ← start]
  conv => rhs; rw [split, through?_append, through?_blanks frontBlank, Option.bind_some, through?_append]
  cases n.through? (trimChars cs) with
  | none => rfl
  | some m => exact (through?_blanks backBlank).symm

end Nesting

/-- A text is nested if its first character encloses no comma and closes no parenthesis that is not open, and the rest
is nested where that leads. -/
theorem nested_cons_iff {n : Nesting} {c : Char} {cs : List Char} : nested n.depth n.quoted (c :: cs) = true ↔
    (n.quoted = false → c = ')' ∨ c = ',' → 0 < n.depth) ∧
      nested (n.next c).depth (n.next c).quoted cs = true := by
  obtain ⟨depth, quoted⟩ := n
  cases quoted with
  | true =>
    have inside : nested depth true (c :: cs) = nested depth (c != '\'') cs := by
      rw [nested, if_pos rfl]
    simp [inside, Nesting.next, bne]
  | false =>
    rw [nested, if_neg Bool.false_ne_true]
    by_cases comma : c = ','
    · subst comma
      simp [Nesting.next, Nat.pos_iff_ne_zero]
    by_cases opening : c = '('
    · subst opening
      simp [Nesting.next]
    by_cases closing : c = ')'
    · subst closing
      simp [Nesting.next, Nat.pos_iff_ne_zero]
    · simp [Nesting.next, comma, opening, closing]

/-- A character that says nothing about where a text can be split. -/
def isInert (c : Char) : Bool :=
  c != ',' && c != '(' && c != ')' && c != '\''

theorem nested_cons {c : Char} (inert : isInert c = true) (depth : Nat) (rest : List Char) :
    nested depth false (c :: rest) = nested depth false rest := by
  simp only [isInert, Bool.and_eq_true, bne_iff_ne] at inert
  obtain ⟨⟨⟨comma, opening⟩, closing⟩, quote⟩ := inert
  simp [nested, comma, opening, closing, beq_eq_false_iff_ne.mpr quote]

theorem nested_prepend {front : List Char} (inert : front.all isInert = true) (depth : Nat)
    (rest : List Char) : nested depth false (front ++ rest) = nested depth false rest := by
  induction front with
  | nil => rfl
  | cons c front ih =>
    rw [List.all_cons, Bool.and_eq_true] at inert
    rw [List.cons_append, nested_cons inert.1, ih inert.2]

theorem nested_append {front : List Char} {depth : Nat} {quoted : Bool}
    (whole : nested depth quoted front = true) (rest : List Char) :
    nested depth quoted (front ++ rest) = nested 0 false rest := by
  induction front generalizing depth quoted with
  | nil =>
    rw [nested, Bool.and_eq_true, Bool.not_eq_true', beq_iff_eq] at whole
    rw [whole.1, whole.2, List.nil_append]
  | cons c front ih =>
    obtain ⟨inside, later⟩ := (nested_cons_iff (n := ⟨depth, quoted⟩)).mp whole
    have step := @nested_cons_iff ⟨depth, quoted⟩ c (front ++ rest)
    rw [ih later] at step
    exact Bool.eq_iff_iff.mpr (step.trans (and_iff_right inside))

theorem splitAtCommas_cons {depth : Nat} {quoted : Bool} {cs part : List Char} {parts : List (List Char)}
    {c : Char} (goesOn : (!quoted && c == ',' && depth == 0) = false)
    (split : splitAtCommas (if quoted then depth else if c == '(' then depth + 1
      else if c == ')' then depth - 1 else depth) (quoted != (c == '\'')) cs = part :: parts) :
    splitAtCommas depth quoted (c :: cs) = (c :: part) :: parts := by
  rw [splitAtCommas, goesOn, if_neg Bool.false_ne_true]
  dsimp only
  rw [split]

namespace Nesting

variable {n m : Nesting}

/-- A text that goes through joins the first part of what follows it. -/
theorem splitAtCommas_through {front rest part : List Char} {parts : List (List Char)}
    (through : n.through? front = some m) (split : splitAtCommas m.depth m.quoted rest = part :: parts) :
    splitAtCommas n.depth n.quoted (front ++ rest) = (front ++ part) :: parts := by
  induction front generalizing n with
  | nil =>
    cases through
    exact split
  | cons c front ih =>
    rw [through?] at through
    split at through
    · cases through
    · next goesOn => exact splitAtCommas_cons (Bool.not_eq_true _ ▸ goesOn) (ih through)

/-- A nested text leaves nothing open, and nothing in it separates parts. -/
theorem through?_nested {cs : List Char} (whole : nested n.depth n.quoted cs = true) :
    n.through? cs = some outer := by
  induction cs generalizing n with
  | nil =>
    obtain ⟨depth, quoted⟩ := n
    rw [nested, Bool.and_eq_true, Bool.not_eq_true', beq_iff_eq] at whole
    obtain ⟨rfl, rfl⟩ := whole
    rfl
  | cons c cs ih =>
    obtain ⟨inside, later⟩ := nested_cons_iff.mp whole
    have goesOn : n.separates c = false := by
      rw [← Bool.not_eq_true]
      intro cuts
      simp only [separates, Bool.and_eq_true, Bool.not_eq_true', beq_iff_eq] at cuts
      have := inside cuts.1.1 (.inr cuts.1.2)
      omega
    rw [through?, goesOn, if_neg Bool.false_ne_true]
    exact ih later

end Nesting

/-- A nested text joins the first part of what follows it. -/
theorem splitAtCommas_append {front rest part : List Char} {parts : List (List Char)}
    (split : splitAtCommas 0 false rest = part :: parts) {depth : Nat} {quoted : Bool}
    (whole : nested depth quoted front = true) :
    splitAtCommas depth quoted (front ++ rest) = (front ++ part) :: parts :=
  Nesting.splitAtCommas_through (Nesting.through?_nested (n := ⟨depth, quoted⟩) whole) split

theorem nested_withLineFeeds {depth : Nat} {quoted : Bool} (cs : List Char) :
    nested depth quoted (withLineFeeds cs) = nested depth quoted cs := by
  have plain (d : Char) (same : d = '\r' ∨ d = '\n') (depth : Nat) (quoted : Bool) (rest : List Char) :
      nested depth quoted (d :: rest) = nested depth quoted rest := by
    rcases same with rfl | rfl <;> cases quoted <;> rfl
  refine lineFeeds_induct (motive := fun cs written => ∀ depth quoted,
    nested depth quoted written = nested depth quoted cs) (fun _ _ => rfl) ?_ ?_ ?_ cs depth quoted
  · intro c rest _ ih depth quoted
    simp only [nested, ih]
  · intro rest _ ih depth quoted
    rw [plain '\n' (.inr rfl), plain '\r' (.inl rfl), ih]
  · intro rest ih depth quoted
    rw [plain '\n' (.inr rfl), plain '\r' (.inl rfl), plain '\n' (.inr rfl), ih]

section Definition

private theorem isInert_of_plain {c : Char} (plain : (isNameChar c || c == ' ') = true) : isInert c = true := by
  simp only [isInert, Bool.and_eq_true, bne_iff_ne]
  refine ⟨⟨⟨?_, ?_⟩, ?_⟩, ?_⟩ <;> (rintro rfl; cases plain)

private theorem nested_parameters {inside : List Char} (numbers : IsParameters inside) (rest : List Char) :
    nested 1 false (inside ++ ')' :: rest) = nested 0 false rest := by
  have plain := numbers.all_isNameChar.2
  clear numbers
  induction inside with
  | nil => rfl
  | cons c inside ih =>
    rw [List.all_cons, Bool.and_eq_true, Bool.or_eq_true] at plain
    rcases plain.1 with name | comma
    · rw [List.cons_append, nested_cons (isInert_of_plain (by rw [name]; rfl)), ih plain.2]
    · rw [beq_iff_eq.mp comma]
      exact ih plain.2

theorem nested_type {base text : List Char} {parameters : Option (List Char)}
    (type : IsType base parameters text) (rest : List Char) :
    nested 0 false (text ++ rest) = nested 0 false rest := by
  have inert : base.all isInert = true := List.all_eq_true.mpr fun c member =>
    isInert_of_plain (List.all_eq_true.mp type.words.all_plain.1 c member)
  rw [type.text_eq, List.append_assoc, nested_prepend inert]
  cases parameters with
  | none => rfl
  | some inside =>
    rw [parameterText, Option.elim_some, List.cons_append, List.append_assoc]
    exact nested_parameters (type.numbers inside rfl) rest

theorem nested_name {name : List Char} (plain : IsName name) (rest : List Char) :
    nested 0 false (name ++ rest) = nested 0 false rest :=
  nested_prepend (List.all_eq_true.mpr fun c member =>
    isInert_of_plain (by rw [plain.isNameChar member]; rfl)) 0 rest

theorem nested_clauseChars {value : Option (List Char)} {isNullable terminated : Bool}
    (inside : ∀ v ∈ value, nested 0 false v = true) :
    nested 0 false (clauseChars value isNullable terminated) = true := by
  have tail : nested 0 false (afterDefault isNullable terminated) = true := by
    cases isNullable <;> cases terminated <;> decide
  cases value with
  | none => exact tail
  | some v =>
    rw [clauseChars, Option.elim_some, List.append_assoc, nested_prepend (by decide), nested_append (inside v rfl),
      tail]

end Definition

/-- The body of a table, with a line for each definition. -/
def rows (definitions : List (List Char)) : List Char :=
  match definitions with
  | [] => ['\n']
  | [definition] => "\n    ".toList ++ (definition ++ ['\n'])
  | definition :: rest => "\n    ".toList ++ (definition ++ ',' :: rows rest)

theorem rows_cons (definition : List Char) {rest : List (List Char)} (more : rest ≠ []) :
    rows (definition :: rest) = "\n    ".toList ++ (definition ++ ',' :: rows rest) := by
  rw [rows]
  exact more

theorem rows_eq {definitions : List (List Char)} (some : definitions ≠ []) :
    '\n' :: (",\n".toList.intercalate (definitions.map ("    ".toList ++ ·)) ++ ['\n']) = rows definitions := by
  induction definitions with
  | nil => exact absurd rfl some
  | cons definition rest ih =>
    cases rest with
    | nil =>
      rw [rows, List.map_singleton, List.intercalate_singleton, List.append_assoc]
      rfl
    | cons next rest =>
      rw [rows_cons definition (List.cons_ne_nil _ _), ← ih (List.cons_ne_nil _ _), List.map_cons, List.map_cons,
        List.intercalate_cons_cons]
      simp only [List.append_assoc]
      rfl

theorem bare_rows {definitions : List (List Char)} (bare : ∀ d ∈ definitions, Bare d) {rest : List Char}
    (more : Bare rest) : Bare (rows definitions ++ rest) := by
  induction definitions with
  | nil =>
    have line : Bare (['\n'] ++ rest) := more.prepend (by decide)
    exact line
  | cons definition others ih =>
    have here := bare definition List.mem_cons_self
    cases others with
    | nil =>
      rw [rows, List.append_assoc, List.append_assoc]
      have line : Bare (['\n'] ++ rest) := more.prepend (by decide)
      exact (here.append line (by simp)).prepend (by decide)
    | cons next others =>
      have later := ih fun d member => bare d (List.mem_cons_of_mem _ member)
      rw [rows_cons definition (List.cons_ne_nil _ _), List.append_assoc, List.append_assoc]
      have comma : Bare ([','] ++ (rows (next :: others) ++ rest)) := later.prepend (by decide)
      exact (here.append comma (by simp)).prepend (by decide)

theorem withLineFeeds_rows {definitions : List (List Char)} (trimmed : ∀ d ∈ definitions, Trimmed d)
    (rest : List Char) :
    withLineFeeds (rows definitions ++ rest) = rows (definitions.map withLineFeeds) ++ withLineFeeds rest := by
  induction definitions with
  | nil => rfl
  | cons definition others ih =>
    have stop : '\r' ∉ definition.getLast? := fun last => by
      cases (trimmed definition List.mem_cons_self).last _ last
    cases others with
    | nil =>
      rw [List.map_singleton, rows, rows, List.append_assoc, List.append_assoc, withLineFeeds_prepend (by decide),
        withLineFeeds_append stop, List.append_assoc, List.append_assoc]
      rfl
    | cons next others =>
      have later := ih fun d member => trimmed d (List.mem_cons_of_mem _ member)
      rw [List.map_cons, rows_cons definition (List.cons_ne_nil _ _),
        rows_cons (withLineFeeds definition) (by simp), List.append_assoc, List.append_assoc,
        withLineFeeds_prepend (by decide), withLineFeeds_append stop, List.cons_append,
        withLineFeeds_cons (by decide), later, List.append_assoc, List.append_assoc, List.cons_append]

section Definitions

variable {init : List (List Char)} {last rest part : List Char} {parts : List (List Char)}
  (whole : ∀ d ∈ init ++ [last], nested 0 false d = true ∧ Trimmed d ∧ d ≠ [])
include whole

/-- The last definition of a body joins the first part of what follows the body. -/
theorem splitAtCommas_rows (split : splitAtCommas 0 false rest = part :: parts) :
    splitAtCommas 0 false (rows (init ++ [last]) ++ rest) =
      init.map ("\n    ".toList ++ ·) ++ ("\n    ".toList ++ (last ++ '\n' :: part)) :: parts := by
  have lead : ("\n    ".toList).all isInert = true := by decide
  induction init with
  | nil =>
    have inside : nested 0 false ("\n    ".toList ++ (last ++ ['\n'])) = true := by
      rw [nested_prepend lead, nested_append (whole last List.mem_cons_self).1]
      rfl
    rw [List.nil_append, rows, splitAtCommas_append split inside, List.map_nil, List.nil_append, List.append_assoc,
      List.append_assoc, List.singleton_append]
  | cons d init ih =>
    rw [List.cons_append, List.forall_mem_cons] at whole
    have later := ih whole.2
    have inside : nested 0 false ("\n    ".toList ++ d) = true := by
      rw [nested_prepend lead, whole.1.1]
    have comma : splitAtCommas 0 false (',' :: (rows (init ++ [last]) ++ rest)) =
      [] :: splitAtCommas 0 false (rows (init ++ [last]) ++ rest) := rfl
    have first := splitAtCommas_append comma inside
    rw [List.append_nil] at first
    have more : init ++ [last] ≠ [] := List.append_ne_nil_of_right_ne_nil _ (List.cons_ne_nil _ _)
    rw [List.cons_append, rows_cons d more, List.append_assoc, List.append_assoc, List.cons_append, ← List.append_assoc,
      first, later, List.map_cons, List.cons_append]

theorem columnDefinitions_append (split : splitAtCommas 0 false rest = part :: parts) :
    columnDefinitions (rows (init ++ [last]) ++ rest) =
      init ++ trimChars (last ++ '\n' :: part) :: (parts.map trimChars).filter (!·.isEmpty) := by
  have lead : ∀ c ∈ "\n    ".toList, isBlank c = true :=
    List.all_eq_true.mp (show ("\n    ".toList).all isBlank = true by decide)
  have first : (init.map ("\n    ".toList ++ ·)).map trimChars = init := by
    rw [List.map_map]
    refine (List.map_congr_left fun d member => ?_).trans (List.map_id' init)
    have trimmed := (whole d (List.mem_append_left _ member)).2.1
    exact (trimChars_blanks lead).trans trimmed.trimChars_eq
  have kept : init.filter (!·.isEmpty) = init :=
    List.filter_eq_self.mpr fun d member => by simpa using (whole d (List.mem_append_left _ member)).2.2
  have more : trimChars (last ++ '\n' :: part) ≠ [] := by
    obtain ⟨_, trimmed, given⟩ := whole last (List.mem_append_right init List.mem_cons_self)
    rw [trimChars, trimStart_head (head_append given trimmed.head _), trimEnd_after trimmed.last]
    exact List.append_ne_nil_of_left_ne_nil given _
  rw [columnDefinitions, splitAtCommas_rows whole split, List.map_append, List.map_cons, first, trimChars_blanks lead,
    List.filter_append, kept, List.filter_cons_of_pos]
  simp [more]

end Definitions

theorem columnDefinitions_rows {definitions : List (List Char)} (some : definitions ≠ [])
    (whole : ∀ d ∈ definitions, nested 0 false d = true ∧ Trimmed d ∧ d ≠ []) :
    columnDefinitions (rows definitions) = definitions := by
  rw [← List.dropLast_concat_getLast some] at whole ⊢
  have alone : splitAtCommas 0 false [] = [[]] := rfl
  have line : ∀ c ∈ ['\n'], isBlank c = true := List.all_eq_true.mp rfl
  have trimmed := (whole _ (List.mem_append_right _ List.mem_cons_self)).2.1
  have read := columnDefinitions_append whole alone
  rw [List.append_nil] at read
  rw [read, trimChars_append_blanks line, trimmed.trimChars_eq]
  rfl

end SchemaSync.Script
