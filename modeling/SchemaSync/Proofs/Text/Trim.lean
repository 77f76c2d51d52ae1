import SchemaSync.Text.Blank

/-! Trimming takes white space off both ends and nothing else. -/

namespace SchemaSync.Text

structure Trimmed (cs : List Char) : Prop where
  head : ∀ c, cs.head? = some c → isBlank c = false
  last : ∀ c, cs.getLast? = some c → isBlank c = false

theorem isBlankText_of_mem {cs : List Char} {c : Char} (member : c ∈ cs) (solid : isBlank c = false) :
    isBlankText (String.ofList cs) = false := by
  rw [isBlankText, String.toList_ofList, List.all_eq_false]
  exact ⟨c, member, by rw [solid]; exact Bool.false_ne_true⟩

theorem head_append {test : Char → Prop} {front : List Char} (given : front ≠ [])
    (start : ∀ c ∈ front.head?, test c) (rest : List Char) : ∀ c ∈ (front ++ rest).head?, test c := by
  obtain ⟨c, more, rfl⟩ := List.exists_cons_of_ne_nil given
  exact start

theorem last_append {test : Char → Prop} {rest : List Char} (given : rest ≠ [])
    (stop : ∀ c ∈ rest.getLast?, test c) (front : List Char) : ∀ c ∈ (front ++ rest).getLast?, test c := by
  intro c last
  rw [List.getLast?_append, List.getLast?_eq_some_getLast given, Option.some_or] at last
  exact stop c (List.getLast?_eq_some_getLast given ▸ last)

theorem trimStart_blanks {blanks cs : List Char} (blank : ∀ c ∈ blanks, isBlank c = true) :
    trimStart (blanks ++ cs) = trimStart cs :=
  List.dropWhile_append_of_pos blank

theorem trimStart_head {cs : List Char} (start : ∀ c, cs.head? = some c → isBlank c = false) :
    trimStart cs = cs := by
  cases cs with
  | nil => rfl
  | cons c rest => simp [trimStart, start c rfl]

theorem trimEnd_blanks {blanks cs : List Char} (blank : ∀ c ∈ blanks, isBlank c = true) :
    trimEnd (cs ++ blanks) = trimEnd cs := by
  rw [trimEnd, List.reverse_append, List.dropWhile_append_of_pos (by simpa using blank), trimEnd]

theorem trimEnd_last {cs : List Char} (stop : ∀ c, cs.getLast? = some c → isBlank c = false) :
    trimEnd cs = cs := by
  have front : trimStart cs.reverse = cs.reverse := trimStart_head (by simpa using stop)
  rw [trimStart] at front
  rw [trimEnd, front, List.reverse_reverse]

theorem trimStart_split (cs : List Char) :
    ∃ blanks, (∀ c ∈ blanks, isBlank c = true) ∧ cs = blanks ++ trimStart cs :=
  ⟨cs.takeWhile isBlank, List.all_eq_true.mp List.all_takeWhile, by
    rw [trimStart, List.takeWhile_append_dropWhile]⟩

theorem trimEnd_split (cs : List Char) :
    ∃ blanks, (∀ c ∈ blanks, isBlank c = true) ∧ cs = trimEnd cs ++ blanks := by
  obtain ⟨blanks, blank, split⟩ := trimStart_split cs.reverse
  refine ⟨blanks.reverse, by simpa using blank, ?_⟩
  have := congrArg List.reverse split
  rwa [List.reverse_reverse, List.reverse_append] at this

theorem head_trimStart (cs : List Char) (c : Char) (found : (trimStart cs).head? = some c) :
    isBlank c = false := by
  have := List.head?_dropWhile_not isBlank cs
  rw [trimStart] at found
  simpa [found] using this

theorem trimStart_append {cs : List Char} (solid : trimStart cs ≠ []) (rest : List Char) :
    trimStart (cs ++ rest) = trimStart cs ++ rest := by
  obtain ⟨blanks, blank, split⟩ := trimStart_split cs
  rw [split, List.append_assoc, trimStart_blanks blank, trimStart_head, ← split]
  intro c head
  obtain ⟨d, more, front⟩ := List.exists_cons_of_ne_nil solid
  rw [front] at head
  exact head_trimStart cs c (front ▸ head)

theorem blank_of_trimStart {cs : List Char} (empty : trimStart cs = []) : ∀ c ∈ cs, isBlank c = true := by
  obtain ⟨blanks, blank, split⟩ := trimStart_split cs
  rw [empty, List.append_nil] at split
  exact split ▸ blank

theorem last_trimEnd (cs : List Char) (c : Char) (found : (trimEnd cs).getLast? = some c) :
    isBlank c = false := by
  rw [trimEnd, List.getLast?_reverse] at found
  exact head_trimStart cs.reverse c found

theorem trimEnd_append {cs : List Char} (solid : trimEnd cs ≠ []) (front : List Char) :
    trimEnd (front ++ cs) = front ++ trimEnd cs := by
  have start : trimStart cs.reverse ≠ [] := fun empty => solid (by rw [trimEnd, ← trimStart, empty]; rfl)
  rw [trimEnd, List.reverse_append, ← trimStart, trimStart_append start, List.reverse_append, List.reverse_reverse]
  rfl

theorem trimEnd_front (cs : List Char) : trimEnd cs <+: cs := by
  obtain ⟨blanks, _, split⟩ := trimEnd_split cs
  exact ⟨blanks, split.symm⟩

/-- What is cut at the end of a text is cut from its last part, when the part before ends with
something other than white space. -/
theorem trimEnd_after {front : List Char} (stop : ∀ c, front.getLast? = some c → isBlank c = false)
    (rest : List Char) : trimEnd (front ++ rest) = front ++ trimEnd rest := by
  by_cases empty : trimEnd rest = []
  · obtain ⟨blanks, blank, split⟩ := trimEnd_split rest
    rw [empty, List.nil_append] at split
    rw [empty, split, trimEnd_blanks blank, trimEnd_last stop, List.append_nil]
  · exact trimEnd_append empty front

/-- A character that is not white space stays when the text after a front is trimmed. -/
theorem trimEnd_append_ne {c : Char} (solid : isBlank c = false) (front rest : List Char) :
    trimEnd (front ++ c :: rest) ≠ trimEnd front := by
  intro same
  have stop : ∀ d, (front ++ [c]).getLast? = some d → isBlank d = false := by
    intro d last
    rw [List.getLast?_concat] at last
    exact Option.some.inj last ▸ solid
  have shorter := (trimEnd_front front).length_le
  rw [← same, List.append_cons, trimEnd_after stop, List.length_append, List.length_append, List.length_singleton]
    at shorter
  omega

/-- White space at the end of a text does not count before anything is put in front of it. -/
theorem trimEnd_cons (c : Char) (cs : List Char) : trimEnd (c :: cs) = trimEnd (c :: trimEnd cs) := by
  obtain ⟨blanks, blank, split⟩ := trimEnd_split cs
  conv => lhs; rw [split, ← List.cons_append, trimEnd_blanks blank]

theorem trimEnd_head {cs : List Char} (start : ∀ c, cs.head? = some c → isBlank c = false)
    (c : Char) (found : (trimEnd cs).head? = some c) : isBlank c = false := by
  obtain ⟨blanks, _, split⟩ := trimEnd_split cs
  apply start c
  rw [split, List.head?_append, found, Option.some_or]

theorem trimmed_trimChars (cs : List Char) : Trimmed (trimChars cs) :=
  ⟨trimEnd_head (head_trimStart cs), last_trimEnd _⟩

theorem Trimmed.trimChars_eq {cs : List Char} (trimmed : Trimmed cs) : trimChars cs = cs := by
  rw [trimChars, trimStart_head trimmed.head, trimEnd_last trimmed.last]

theorem trimChars_trimChars (cs : List Char) : trimChars (trimChars cs) = trimChars cs :=
  (trimmed_trimChars cs).trimChars_eq

theorem trimChars_blanks {blanks cs : List Char} (blank : ∀ c ∈ blanks, isBlank c = true) :
    trimChars (blanks ++ cs) = trimChars cs := by
  rw [trimChars, trimStart_blanks blank, trimChars]

theorem trimChars_eq_nil_iff {cs : List Char} : trimChars cs = [] ↔ ∀ c ∈ cs, isBlank c = true := by
  constructor
  · intro empty
    obtain ⟨front, frontBlank, start⟩ := trimStart_split cs
    obtain ⟨back, backBlank, stop⟩ := trimEnd_split (trimStart cs)
    rw [← trimChars, empty, List.nil_append] at stop
    rw [start, stop]
    exact List.forall_mem_append.mpr ⟨frontBlank, backBlank⟩
  · intro blank
    rw [← List.append_nil cs, trimChars_blanks blank]
    rfl

theorem trimChars_append_blanks {blanks cs : List Char} (blank : ∀ c ∈ blanks, isBlank c = true) :
    trimChars (cs ++ blanks) = trimChars cs := by
  obtain ⟨front, frontBlank, split⟩ := trimStart_split cs
  have whole : trimChars (cs ++ blanks) = trimChars (trimStart cs ++ blanks) := by
    rw [split, List.append_assoc, trimChars_blanks frontBlank, ← split]
  rw [whole, trimChars, trimChars]
  cases solid : trimStart cs with
  | nil =>
    rw [List.nil_append, ← List.append_nil blanks, trimStart_blanks blank]
    rfl
  | cons c rest =>
    rw [trimStart_head, trimEnd_blanks blank]
    exact fun d head => head_trimStart cs d (solid ▸ head)

theorem trimChars_trimEnd (cs : List Char) : trimChars (trimEnd cs) = trimChars cs := by
  obtain ⟨blanks, blank, split⟩ := trimEnd_split cs
  conv => rhs; rw [split, trimChars_append_blanks blank]

/-- Only white space stands before what trimming at both ends leaves of a text. -/
theorem trimEnd_blanks_trimChars (cs : List Char) :
    ∃ blanks, (∀ c ∈ blanks, isBlank c = true) ∧ trimEnd cs = blanks ++ trimChars cs := by
  obtain ⟨front, blank, start⟩ := trimStart_split cs
  by_cases empty : trimEnd (trimStart cs) = []
  · obtain ⟨back, backBlank, stop⟩ := trimEnd_split (trimStart cs)
    rw [empty, List.nil_append] at stop
    have all : ∀ c ∈ front ++ back, isBlank c = true := List.forall_mem_append.mpr ⟨blank, backBlank⟩
    have ended : trimEnd ([] ++ (front ++ back)) = trimEnd [] := trimEnd_blanks all
    rw [List.nil_append, ← stop, ← start] at ended
    exact ⟨[], nofun, ended.trans empty.symm⟩
  · refine ⟨front, blank, ?_⟩
    conv => lhs; rw [start, trimEnd_append empty]
    rfl

theorem trim_trim (s : String) : trim (trim s) = trim s := by
  simp only [trim, String.toList_ofList, trimChars_trimChars]

end SchemaSync.Text
