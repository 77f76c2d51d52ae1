import SchemaSync.Proofs.Text.WordChar
import SchemaSync.Proofs.Text.Words

/-! Texts rewritten character by character. Capitals and single spaces are such rewritings, and neither of them takes
an apostrophe away or puts one in. -/

namespace SchemaSync.Text

/-- A text in which `part` puts something in the place of each character. It sees the next one as well. -/
def rewrite (part : Char → Option Char → List Char) (cs : List Char) : List Char :=
  match cs with
  | [] => []
  | c :: rest => part c rest.head? ++ rewrite part rest

/-- A rewriting that keeps apostrophes apart from each other, and has no others. -/
structure KeepsApostrophes (part : Char → Option Char → List Char) : Prop where
  same : ∀ next, part '\'' next = ['\'']
  other : ∀ c next, c ≠ '\'' → '\'' ∉ part c next
  gone : ∀ c next, part c next = [] → next ≠ some '\''

def capital (c : Char) (_ : Option Char) : List Char :=
  upperChar c

/-- A single space for the last character of a run of white space. -/
def spaced (c : Char) (next : Option Char) : List Char :=
  if isBlank c then if next.any isBlank then [] else [' '] else [c]

theorem keepsApostrophes_capital : KeepsApostrophes capital where
  same _ := rfl
  other _ _ := apostrophe_not_mem_upperChar
  gone c _ empty := absurd empty (upperChar_ne_nil c)

theorem keepsApostrophes_spaced : KeepsApostrophes spaced where
  same _ := rfl
  other c next other := by
    rw [spaced]
    split
    · split <;> decide
    · exact fun member => other (List.mem_singleton.mp member).symm
  gone c next empty := by
    rw [spaced] at empty
    split at empty
    · split at empty
      · next blank =>
        rintro rfl
        cases blank
      · cases empty
    · cases empty

theorem upperChars_eq_rewrite (cs : List Char) : upperChars cs = rewrite capital cs := by
  induction cs with
  | nil => rfl
  | cons c rest ih => exact congrArg (upperChar c ++ ·) ih

private theorem last_rest {c : Char} {rest : List Char} (given : rest ≠ [])
    (stop : ∀ d ∈ (c :: rest).getLast?, isBlank d = false) : ∀ d ∈ rest.getLast?, isBlank d = false := by
  obtain ⟨d, more, rfl⟩ := List.exists_cons_of_ne_nil given
  rwa [List.getLast?_cons_cons] at stop

private theorem wordsOf_of_last {cs : List Char} (given : cs ≠ [])
    (stop : ∀ c ∈ cs.getLast?, isBlank c = false) : wordsOf cs ≠ [] :=
  wordsOf_ne_nil (List.getLast_mem given) (stop _ (List.getLast?_eq_some_getLast given))

/-- The words of a text that ends with one, joined by single spaces, are the text with a space for each run of white
space, except at the front. -/
theorem rewrite_spaced {cs : List Char} (stop : ∀ c ∈ cs.getLast?, isBlank c = false) :
    rewrite spaced cs = (if cs.head?.any isBlank then [' '] else []) ++ [' '].intercalate (wordsOf cs) := by
  fun_induction wordsOf cs with
  | case1 => rfl
  | case2 c rest blank ih =>
    have given : rest ≠ [] := by
      rintro rfl
      exact absurd blank (by simpa using stop c rfl)
    rw [rewrite, ih (last_rest given stop), spaced, if_pos blank, List.head?_cons, Option.any_some, if_pos blank]
    cases rest.head?.any isBlank <;> rfl
  | case3 c solid =>
    rw [rewrite, spaced, if_neg solid, List.head?_cons, Option.any_some, if_neg solid]
    rfl
  | case4 c solid d rest blank ih =>
    have later := last_rest (List.cons_ne_nil _ _) stop
    have joined : [' '].intercalate ([c] :: wordsOf (d :: rest)) =
        c :: ' ' :: [' '].intercalate (wordsOf (d :: rest)) := by
      obtain ⟨word, words, split⟩ := List.exists_cons_of_ne_nil (wordsOf_of_last (List.cons_ne_nil _ _) later)
      rw [split]
      simp [List.intercalate]
    rw [rewrite, ih later, joined, spaced, if_neg solid, List.head?_cons, Option.any_some, if_pos blank,
      List.head?_cons, Option.any_some, if_neg solid]
    rfl
  | case5 c solid d rest inner none ih =>
    exact absurd none (wordsOf_of_last (List.cons_ne_nil _ _) (last_rest (List.cons_ne_nil _ _) stop))
  | case6 c solid d rest inner word words found ih =>
    have joined : [' '].intercalate ((c :: word) :: words) = c :: [' '].intercalate (word :: words) := by
      cases words <;> simp [List.intercalate]
    rw [rewrite, ih (last_rest (List.cons_ne_nil _ _) stop), found, joined, spaced, if_neg solid, List.head?_cons,
      Option.any_some, if_neg inner, List.head?_cons, Option.any_some, if_neg solid]
    rfl

theorem joined_wordsOf {cs : List Char} (trimmed : Trimmed cs) :
    [' '].intercalate (wordsOf cs) = rewrite spaced cs := by
  have front : cs.head?.any isBlank = false := by
    cases start : cs.head? with
    | none => rfl
    | some c => exact trimmed.head c start
  rw [rewrite_spaced trimmed.last, front]
  rfl

end SchemaSync.Text
