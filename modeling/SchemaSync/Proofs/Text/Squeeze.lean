import SchemaSync.Proofs.Text.Trim

/-! A text without the spaces that stand in front of other white space. It has the same lines as before, and the
same words. -/

namespace SchemaSync.Text

def squeeze (cs : List Char) : List Char :=
  match cs with
  | [] => []
  | c :: rest => if c == ' ' && rest.head?.any isBlank then squeeze rest else c :: squeeze rest

theorem squeeze_space {rest : List Char} (blank : rest.head?.any isBlank = true) :
    squeeze (' ' :: rest) = squeeze rest := by
  rw [squeeze, blank]
  rfl

theorem squeeze_cons {c : Char} (other : c ≠ ' ') (rest : List Char) : squeeze (c :: rest) = c :: squeeze rest := by
  rw [squeeze, beq_eq_false_iff_ne.mpr other]
  rfl

theorem squeeze_solid {c : Char} (solid : isBlank c = false) (rest : List Char) :
    squeeze (c :: rest) = c :: squeeze rest := by
  apply squeeze_cons
  rintro rfl
  cases solid

theorem squeeze_sublist (cs : List Char) : (squeeze cs).Sublist cs := by
  fun_induction squeeze cs with
  | case1 => exact List.Sublist.refl _
  | case2 c rest dropped ih => exact ih.cons c
  | case3 c rest kept ih => exact ih.cons_cons c

theorem head_squeeze (cs : List Char) : (squeeze cs).head?.any isBlank = cs.head?.any isBlank := by
  fun_induction squeeze cs with
  | case1 => rfl
  | case2 c rest dropped ih =>
    simp only [Bool.and_eq_true, beq_iff_eq] at dropped
    rw [ih, dropped.2, dropped.1]
    rfl
  | case3 => rfl

/-- A text starts with the same character, or with other white space. -/
theorem head?_squeeze (cs : List Char) : (squeeze cs).head? = cs.head? ∨
    (∀ c ∈ (squeeze cs).head?, isBlank c = true) ∧ ∀ c ∈ cs.head?, isBlank c = true := by
  fun_induction squeeze cs with
  | case1 => exact .inl rfl
  | case2 c rest dropped ih =>
    simp only [Bool.and_eq_true, beq_iff_eq] at dropped
    obtain ⟨rfl, blank⟩ := dropped
    rw [← head_squeeze] at blank
    refine .inr ⟨fun c head => ?_, ?_⟩
    · rw [Option.mem_def.mp head] at blank
      exact blank
    · rintro c ⟨⟩
      rfl
  | case3 => exact .inl rfl

theorem getLast?_squeeze (cs : List Char) : (squeeze cs).getLast? = cs.getLast? := by
  fun_induction squeeze cs with
  | case1 => rfl
  | case2 c rest dropped ih =>
    cases rest with
    | nil => simp at dropped
    | cons d rest => rw [ih, List.getLast?_cons_cons]
  | case3 c rest kept ih => rw [List.getLast?_cons, List.getLast?_cons, ih]

theorem squeeze_eq_nil_iff {cs : List Char} : squeeze cs = [] ↔ cs = [] := by
  rw [← List.getLast?_eq_none_iff, getLast?_squeeze, List.getLast?_eq_none_iff]

theorem squeeze_append {rest : List Char} (solid : ∀ c ∈ rest.head?, isBlank c = false) (front : List Char) :
    squeeze (front ++ rest) = squeeze front ++ squeeze rest := by
  induction front with
  | nil => rfl
  | cons c front ih =>
    have same : (front ++ rest).head?.any isBlank = front.head?.any isBlank := by
      cases front with
      | cons d front => rfl
      | nil =>
        cases rest with
        | nil => rfl
        | cons d rest => simpa using solid d rfl
    rw [List.cons_append, squeeze, squeeze, same, ih]
    split
    · rfl
    · rw [List.cons_append]

theorem trimStart_squeeze (cs : List Char) : trimStart (squeeze cs) = squeeze (trimStart cs) := by
  fun_induction squeeze cs with
  | case1 => rfl
  | case2 c rest dropped ih =>
    simp only [Bool.and_eq_true, beq_iff_eq] at dropped
    rw [ih, dropped.1]
    rfl
  | case3 c rest kept ih =>
    cases blank : isBlank c with
    | true => simpa [trimStart, blank] using ih
    | false => simp [trimStart, blank, squeeze_solid blank]

theorem trimEnd_squeeze (cs : List Char) : trimEnd (squeeze cs) = squeeze (trimEnd cs) := by
  obtain ⟨blanks, blank, split⟩ := trimEnd_split cs
  have squeezed : ∀ c ∈ squeeze blanks, isBlank c = true := fun c member => blank c ((squeeze_sublist blanks).mem member)
  cases last : (trimEnd cs).getLast? with
  | none =>
    rw [List.getLast?_eq_none_iff] at last
    rw [last] at split
    rw [last, split, List.nil_append, ← List.nil_append (squeeze blanks), trimEnd_blanks squeezed]
    rfl
  | some d =>
    obtain ⟨front, shape⟩ := List.getLast?_eq_some_iff.mp last
    have solid : isBlank d = false := last_trimEnd cs d last
    have whole : squeeze cs = squeeze (trimEnd cs) ++ squeeze blanks := by
      have alone : squeeze (d :: blanks) = [d] ++ squeeze blanks := squeeze_solid solid blanks
      have start {rest : List Char} : ∀ c ∈ (d :: rest).head?, isBlank c = false := by
        rintro c ⟨⟩
        exact solid
      conv => lhs; rw [split, shape, List.append_assoc]
      rw [shape, squeeze_append start front, List.singleton_append, squeeze_append start front, alone,
        squeeze_solid solid, List.append_assoc]
      rfl
    rw [whole, trimEnd_blanks squeezed]
    apply trimEnd_last
    rw [getLast?_squeeze]
    exact last_trimEnd cs

theorem trimChars_squeeze (cs : List Char) : trimChars (squeeze cs) = squeeze (trimChars cs) := by
  rw [trimChars, trimStart_squeeze, trimEnd_squeeze, trimChars]

private theorem wordsOf_blank {c : Char} (blank : isBlank c = true) (rest : List Char) :
    wordsOf (c :: rest) = wordsOf rest := by
  rw [wordsOf.eq_def]
  exact if_pos blank

private theorem wordsOf_solid {c : Char} (solid : isBlank c = false) (d : Char) (rest : List Char) :
    wordsOf (c :: d :: rest) = if isBlank d then [c] :: wordsOf (d :: rest)
      else match wordsOf (d :: rest) with
        | [] => [[c]]
        | word :: words => (c :: word) :: words := by
  rw [wordsOf.eq_def]
  exact if_neg (Bool.eq_false_iff.mp solid)

theorem wordsOf_squeeze (cs : List Char) : wordsOf (squeeze cs) = wordsOf cs := by
  fun_induction squeeze cs with
  | case1 => rfl
  | case2 c rest dropped ih =>
    simp only [Bool.and_eq_true, beq_iff_eq] at dropped
    rw [ih, dropped.1, wordsOf_blank (by rfl)]
  | case3 c rest kept ih =>
    cases blank : isBlank c with
    | true => rw [wordsOf_blank blank, wordsOf_blank blank, ih]
    | false =>
      -- The word ends here as before, since white space follows as before.
      have next := head_squeeze rest
      cases rest with
      | nil => rfl
      | cons d rest =>
        cases front : squeeze (d :: rest) with
        | nil => cases squeeze_eq_nil_iff.mp front
        | cons e more =>
          rw [front] at next ih
          have same : isBlank e = isBlank d := by simpa using next
          rw [wordsOf_solid blank, wordsOf_solid blank, same, ih]

end SchemaSync.Text
