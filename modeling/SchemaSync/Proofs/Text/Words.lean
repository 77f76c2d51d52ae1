import SchemaSync.Proofs.Text.Trim

/-! What a text says apart from its white space: the characters that are not white space, and the words that
they make. -/

namespace SchemaSync.Text

def solids (cs : List Char) : List Char :=
  cs.filter (!isBlank ·)

theorem solids_append (front rest : List Char) : solids (front ++ rest) = solids front ++ solids rest :=
  List.filter_append front rest

theorem solids_cons (c : Char) (cs : List Char) :
    solids (c :: cs) = if isBlank c then solids cs else c :: solids cs := by
  cases blank : isBlank c <;> simp [solids, blank]

theorem solids_blanks {blanks : List Char} (blank : ∀ c ∈ blanks, isBlank c = true) : solids blanks = [] := by
  rw [solids, List.filter_eq_nil_iff]
  intro c member
  simp [blank c member]

theorem solids_trimChars (cs : List Char) : solids (trimChars cs) = solids cs := by
  obtain ⟨front, frontBlank, start⟩ := trimStart_split cs
  obtain ⟨back, backBlank, stop⟩ := trimEnd_split (trimStart cs)
  have split : cs = front ++ (trimChars cs ++ back) := by rw [trimChars, ← stop, ← start]
  conv => rhs; rw [split, solids_append, solids_append, solids_blanks frontBlank, solids_blanks backBlank]
  simp

/-- Words hold all characters that are not white space. -/
theorem flatten_wordsOf (cs : List Char) : (wordsOf cs).flatten = solids cs := by
  fun_induction wordsOf cs with
  | case1 => rfl
  | case2 c rest blank ih => rw [ih, solids_cons, if_pos blank]
  | case3 c solid => rw [solids_cons, if_neg solid]; rfl
  | case4 c solid d rest blank ih => rw [List.flatten_cons, ih, solids_cons c, if_neg solid]; rfl
  | case5 c solid d rest inner none ih => rw [solids_cons c, if_neg solid, ← ih, none]; rfl
  | case6 c solid d rest inner word words found ih => rw [solids_cons c, if_neg solid, ← ih, found]; rfl

theorem solids_joined {words : List (List Char)} (solid : ∀ word ∈ words, solids word = word) :
    solids ([' '].intercalate words) = words.flatten := by
  induction words with
  | nil => rfl
  | cons word words ih =>
    have here := solid word List.mem_cons_self
    have later := ih fun other member => solid other (List.mem_cons_of_mem word member)
    cases words with
    | nil => simpa [List.intercalate] using here
    | cons next words =>
      have split : [' '].intercalate (word :: next :: words) = word ++ (' ' :: [' '].intercalate (next :: words)) := by
        simp [List.intercalate]
      rw [split, solids_append, here, solids_cons, if_pos (by rfl), later]
      rfl

theorem isBlank_of_mem_wordsOf {cs word : List Char} (member : word ∈ wordsOf cs) {c : Char} (inside : c ∈ word) :
    isBlank c = false := by
  have here : c ∈ solids cs := flatten_wordsOf cs ▸ List.mem_flatten_of_mem member inside
  simpa using (List.mem_filter.mp here).2

theorem solids_of_mem_wordsOf {cs word : List Char} (member : word ∈ wordsOf cs) : solids word = word := by
  rw [solids, List.filter_eq_self]
  intro c inside
  rw [isBlank_of_mem_wordsOf member inside]
  rfl

theorem wordsOf_ne_nil {cs : List Char} {c : Char} (member : c ∈ cs) (solid : isBlank c = false) : wordsOf cs ≠ [] := by
  intro none
  have empty : solids cs = [] := by rw [← flatten_wordsOf, none, List.flatten_nil]
  have here : c ∈ solids cs := List.mem_filter.mpr ⟨member, by rw [solid]; rfl⟩
  rw [empty] at here
  cases here

theorem ne_nil_of_mem_wordsOf {cs word : List Char} (member : word ∈ wordsOf cs) : word ≠ [] := by
  fun_induction wordsOf cs with
  | case1 => cases member
  | case2 c rest blank ih => exact ih member
  | case3 c solid => exact List.mem_singleton.mp member ▸ List.cons_ne_nil c []
  | case4 c solid d rest blank ih =>
    rcases List.mem_cons.mp member with rfl | later
    · exact List.cons_ne_nil c []
    · exact ih later
  | case5 c solid d rest inner none ih =>
    rw [none] at member
    exact List.mem_singleton.mp member ▸ List.cons_ne_nil c []
  | case6 c solid d rest inner first words found ih =>
    rw [found] at ih member
    rcases List.mem_cons.mp member with rfl | later
    · exact List.cons_ne_nil c first
    · exact ih (List.mem_cons_of_mem first later)

end SchemaSync.Text
