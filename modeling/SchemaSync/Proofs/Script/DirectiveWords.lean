import SchemaSync.Proofs.Script.Batch
import SchemaSync.Script.SetTerm

/-! A directive is read word by word: its first two words say what it is, and the fourth one ends its line.
So a text without a directive at its front gets none from a directive on a later line. -/

namespace SchemaSync.Script

open Text

def nextWord (cs : List Char) : List Char × List Char :=
  ((trimStart cs).takeWhile (!isBlank ·), (trimStart cs).dropWhile (!isBlank ·))

section NextWord

theorem nextWord_blanks {blanks cs : List Char} (blank : ∀ c ∈ blanks, isBlank c = true) :
    nextWord (blanks ++ cs) = nextWord cs := by
  rw [nextWord, trimStart_blanks blank, nextWord]

theorem nextWord_split (cs : List Char) : (nextWord cs).1 ++ (nextWord cs).2 = trimStart cs :=
  List.takeWhile_append_dropWhile

theorem nextWord_solid (cs : List Char) : ∀ c ∈ (nextWord cs).1, (!isBlank c) = true :=
  List.all_eq_true.mp List.all_takeWhile

theorem nextWord_eq_nil_iff {cs : List Char} : (nextWord cs).1 = [] ↔ trimStart cs = [] := by
  constructor
  · intro none
    cases start : trimStart cs with
    | nil => rfl
    | cons c rest =>
      have solid : isBlank c = false := head_trimStart cs c (by rw [start]; rfl)
      rw [nextWord, start, List.takeWhile_cons_of_pos (by simp [solid])] at none
      cases none
  · intro none
    rw [nextWord, none]
    rfl

theorem nextWord_blank {cs : List Char} (none : trimStart cs = []) : nextWord cs = ([], []) := by
  rw [nextWord, none]
  rfl

theorem nextWord_stop (cs : List Char) : ∀ c ∈ (nextWord cs).2.head?, isBlank c = true := by
  intro c head
  have stop := List.head?_dropWhile_not (!isBlank ·) (trimStart cs)
  rw [nextWord, Option.mem_def] at head
  simpa [head] using stop

/-- A word that more text does not make longer. -/
theorem nextWord_append {cs : List Char} (ended : (nextWord cs).2 ≠ []) (rest : List Char) :
    nextWord (cs ++ rest) = ((nextWord cs).1, (nextWord cs).2 ++ rest) := by
  have solid : trimStart cs ≠ [] := fun none => ended (by rw [nextWord_blank none])
  have stays (front : List Char) (ended : front.dropWhile (!isBlank ·) ≠ []) :
      (front ++ rest).takeWhile (!isBlank ·) = front.takeWhile (!isBlank ·) ∧
        (front ++ rest).dropWhile (!isBlank ·) = front.dropWhile (!isBlank ·) ++ rest := by
    induction front with
    | nil => exact absurd rfl ended
    | cons c front ih =>
      cases blank : isBlank c with
      | true => simp [blank]
      | false =>
        have := ih (by simpa [blank] using ended)
        simp [blank, this]
  obtain ⟨word, after⟩ := stays (trimStart cs) ended
  rw [nextWord, trimStart_append solid, word, after, nextWord]

theorem nextWord_append_blank {cs rest : List Char} (solid : trimStart cs ≠ [])
    (start : ∀ c ∈ rest.head?, isBlank c = true) :
    nextWord (cs ++ rest) = ((nextWord cs).1, (nextWord cs).2 ++ rest) := by
  by_cases ended : (nextWord cs).2 = []
  · have whole : (nextWord cs).1 = trimStart cs := by rw [← nextWord_split, ended, List.append_nil]
    have all : ∀ c ∈ trimStart cs, (!isBlank c) = true := whole ▸ nextWord_solid cs
    rw [ended, whole, nextWord, trimStart_append solid, List.takeWhile_append_of_pos all,
      List.dropWhile_append_of_pos all]
    cases rest with
    | nil => simp
    | cons c rest => simp [start c rfl]
  · exact nextWord_append ended rest

/-- A word up to the end of a text goes on in the text after it. -/
theorem nextWord_joined {front rest : List Char} (goesOn : (nextWord front).2 = [])
    (solid : ∀ c ∈ rest.head?, isBlank c = false) :
    nextWord (front ++ rest) = ((nextWord front).1 ++ (nextWord rest).1, (nextWord rest).2) := by
  have start : trimStart rest = rest := trimStart_head solid
  by_cases none : trimStart front = []
  · rw [nextWord_blanks (blank_of_trimStart none), nextWord_blank none, List.nil_append]
  · have whole : (nextWord front).1 = trimStart front := by rw [← nextWord_split, goesOn, List.append_nil]
    have all : ∀ c ∈ trimStart front, (!isBlank c) = true := whole ▸ nextWord_solid front
    rw [whole, nextWord, trimStart_append none, List.takeWhile_append_of_pos all, List.dropWhile_append_of_pos all,
      nextWord, start]

theorem nextWord_word {blanks word rest : List Char} (blank : ∀ c ∈ blanks, isBlank c = true) (given : word ≠ [])
    (solid : ∀ c ∈ word, isBlank c = false) (start : ∀ c ∈ rest.head?, isBlank c = true) :
    nextWord (blanks ++ (word ++ rest)) = (word, rest) := by
  have whole : nextWord word = (word, []) := by
    have front : trimStart word = word := trimStart_head fun c head => solid c (List.mem_of_mem_head? head)
    have all : ∀ c ∈ word, (!isBlank c) = true := fun c member => by rw [solid c member]; rfl
    rw [nextWord, front, ← List.append_nil word, List.takeWhile_append_of_pos (by simpa using all),
      List.dropWhile_append_of_pos (by simpa using all)]
    simp
  have inside : trimStart word ≠ [] := fun none => given (by rw [← nextWord_eq_nil_iff.mpr none, whole])
  rw [nextWord_blanks blank, nextWord_append_blank inside start, whole]
  rfl

end NextWord

section Line

theorem afterLine?_append {cs : List Char} (goesOn : afterLine? cs = none) (rest : List Char) :
    afterLine? (cs ++ rest) = none := by
  have solid : cs.dropWhile isBlank ≠ [] := by
    intro none
    rw [afterLine?, none] at goesOn
    cases goesOn
  have front : (cs ++ rest).takeWhile isBlank = cs.takeWhile isBlank ∧
      (cs ++ rest).dropWhile isBlank = cs.dropWhile isBlank ++ rest := by
    clear goesOn
    induction cs with
    | nil => exact absurd rfl solid
    | cons c cs ih =>
      cases blank : isBlank c with
      | false => simp [blank]
      | true =>
        have := ih (by simpa [blank] using solid)
        simp [blank, this]
  rw [afterLine?, List.isEmpty_eq_false_iff.mpr solid, if_neg Bool.false_ne_true] at goesOn
  rw [afterLine?, front.1, front.2, List.isEmpty_eq_false_iff.mpr (List.append_ne_nil_of_left_ne_nil solid rest),
    if_neg Bool.false_ne_true]
  dsimp only at goesOn ⊢
  split at goesOn
  · next same => rw [if_pos same]
  · cases goesOn

theorem blanks_split {blanks rest : List Char} (blank : ∀ c ∈ blanks, isBlank c = true)
    (solid : ∀ c ∈ rest.head?, isBlank c = false) :
    (blanks ++ rest).takeWhile isBlank = blanks ∧ (blanks ++ rest).dropWhile isBlank = rest := by
  rw [List.takeWhile_append_of_pos blank, List.dropWhile_append_of_pos blank]
  cases rest with
  | nil => simp
  | cons c rest => simp [solid c rfl]

private theorem lastLine_of_not_mem {cs : List Char} (line : '\n' ∉ cs) (rest : List Char) :
    (cs.reverse ++ rest).takeWhile (· != '\n') = cs.reverse ++ rest.takeWhile (· != '\n') := by
  rw [List.takeWhile_append_of_pos]
  intro c member
  rw [bne_iff_ne]
  rintro rfl
  exact line (List.mem_reverse.mp member)

theorem afterLine?_within {blanks rest : List Char} (gap : Gap blanks) (line : '\n' ∉ blanks) (given : rest ≠ [])
    (solid : ∀ c ∈ rest.head?, isBlank c = false) : afterLine? (blanks ++ rest) = none := by
  have front := blanks_split (List.all_eq_true.mp gap.2) solid
  have whole : (blanks.reverse.takeWhile (· != '\n')).reverse = blanks := by
    rw [← List.append_nil blanks.reverse, lastLine_of_not_mem line]
    simp
  rw [afterLine?, front.1, front.2, List.isEmpty_eq_false_iff.mpr given, if_neg Bool.false_ne_true]
  dsimp only
  rw [whole, beq_self_eq_true, if_pos rfl]

/-- White space with a line feed ends a line, and its last line is left. -/
theorem afterLine?_ended {front tail rest : List Char} (frontBlank : ∀ c ∈ front, isBlank c = true)
    (tailBlank : ∀ c ∈ tail, isBlank c = true) (line : '\n' ∉ tail) (given : rest ≠ [])
    (solid : ∀ c ∈ rest.head?, isBlank c = false) :
    afterLine? (front ++ '\n' :: (tail ++ rest)) = some ('\n' :: (tail ++ rest)) := by
  have blank : ∀ c ∈ front ++ '\n' :: tail, isBlank c = true := by
    intro c member
    rcases List.mem_append.mp member with member | member
    · exact frontBlank c member
    · rcases List.mem_cons.mp member with rfl | member
      · rfl
      · exact tailBlank c member
  have split := blanks_split blank solid
  have shape : front ++ '\n' :: (tail ++ rest) = (front ++ '\n' :: tail) ++ rest := by simp
  have last : ((front ++ '\n' :: tail).reverse.takeWhile (· != '\n')).reverse = tail := by
    rw [List.reverse_append, List.reverse_cons, List.append_assoc, lastLine_of_not_mem line]
    simp
  have shorter : (tail.length == (front ++ '\n' :: tail).length) = false := by
    simp only [List.length_append, List.length_cons, beq_eq_false_iff_ne]
    omega
  rw [shape, afterLine?, split.1, split.2, List.isEmpty_eq_false_iff.mpr given, if_neg Bool.false_ne_true]
  dsimp only
  rw [last, shorter, if_neg Bool.false_ne_true, List.cons_append]

theorem afterLine?_length {cs after : List Char} (ends : afterLine? cs = some after) : after.length ≤ cs.length := by
  obtain ⟨blanks, blank, split⟩ := trimStart_split cs
  have parts := blanks_split blank (head_trimStart cs)
  rw [← split] at parts
  rw [afterLine?, parts.1, parts.2] at ends
  split at ends
  · cases ends
    exact Nat.zero_le _
  · have shorter : (blanks.reverse.takeWhile (· != '\n')).length ≤ blanks.reverse.length :=
      (List.takeWhile_sublist _).length_le
    dsimp only at ends
    split at ends
    · cases ends
    · next apart =>
      cases ends
      rw [beq_iff_eq] at apart
      conv => rhs; rw [split]
      simp only [List.length_append, List.length_cons, List.length_reverse] at apart shorter ⊢
      omega

/-- What ends a line before other text is the same before any text. -/
theorem afterLine?_uniform (front : List Char) : ∃ found : Option (List Char), ∀ rest : List Char, rest ≠ [] →
    (∀ c ∈ rest.head?, isBlank c = false) → afterLine? (front ++ rest) = found.map (· ++ rest) := by
  obtain ⟨blanks, blank, split⟩ := trimStart_split front
  refine ⟨if ((blanks.reverse.takeWhile (· != '\n')).reverse.length == blanks.length) = true then none
    else some ('\n' :: (blanks.reverse.takeWhile (· != '\n')).reverse ++ trimStart front), fun rest given solid => ?_⟩
  have start : ∀ c ∈ (trimStart front ++ rest).head?, isBlank c = false := by
    intro c head
    cases inside : trimStart front with
    | nil => exact solid c (by rwa [inside] at head)
    | cons d more => exact head_trimStart front c (by rwa [inside] at head ⊢)
  have parts := blanks_split blank start
  rw [← List.append_assoc, ← split] at parts
  rw [afterLine?, parts.1, parts.2, List.isEmpty_eq_false_iff.mpr (List.append_ne_nil_of_right_ne_nil _ given),
    if_neg Bool.false_ne_true]
  dsimp only
  split
  · rfl
  · rw [Option.map_some, List.append_assoc]

end Line

section Words

theorem afterSpaced?_nextWord {keyword : String} (letters : keyword.toList.all Char.isAlpha = true) (cs : List Char) :
    afterSpaced? keyword (trimStart cs) = if Spells keyword (nextWord cs).1 ∧ (nextWord cs).2 ≠ [] then
      some (trimStart (nextWord cs).2) else none := by
  by_cases spells : Spells keyword (nextWord cs).1
  · rw [← nextWord_split, afterSpaced?, afterKeyword?_append spells, Option.bind_some, afterBlanks?_eq]
    cases after : (nextWord cs).2 with
    | nil => simp
    | cons c rest =>
      have blank := nextWord_stop cs c (by rw [after]; rfl)
      simp [spells, blank]
  · rw [if_neg fun both => spells both.1, afterSpaced?]
    cases read : afterKeyword? keyword.toList (trimStart cs) with
    | none => rfl
    | some after =>
      obtain ⟨word, same, front⟩ := afterKeyword?_eq_some read
      have solid : ∀ c ∈ word, (!isBlank c) = true := fun c member => by
        rw [isBlank_of_letter (Spells.letter same letters member)]
        rfl
      cases after with
      | nil =>
        refine absurd ?_ spells
        rw [nextWord, front, List.takeWhile_append_of_pos solid, List.takeWhile_nil, List.append_nil]
        exact same
      | cons c rest =>
        cases blank : isBlank c with
        | false => simp [afterBlanks?, blank]
        | true =>
          refine absurd ?_ spells
          rw [nextWord, front, List.takeWhile_append_of_pos solid, List.takeWhile_cons_of_neg (by simp [blank]),
            List.append_nil]
          exact same

/-- The part of a directive after its first two words. -/
private theorem directiveEnd_words (cs : List Char) :
    ((afterBlanks? (nextWord cs).2).bind fun rest =>
      if (nextWord cs).1.isEmpty || rest.isEmpty then none
      else (afterLine? (rest.dropWhile (!isBlank ·))).bind fun after => some ((nextWord cs).1, after)) =
    if (nextWord (nextWord cs).2).1 ≠ [] then
      (afterLine? (nextWord (nextWord cs).2).2).map ((nextWord cs).1, ·) else none := by
  have stop := nextWord_stop cs
  have word : (nextWord cs).2 ≠ [] → (nextWord cs).1 ≠ [] := fun some none =>
    some (by rw [nextWord_blank (nextWord_eq_nil_iff.mp none)])
  cases rest : (nextWord cs).2 with
  | nil => rfl
  | cons c more =>
    have given := List.isEmpty_eq_false_iff.mpr (word (by rw [rest]; exact List.cons_ne_nil c more))
    rw [afterBlanks?_eq, List.head?_cons, Option.any_some, stop c (by rw [rest]; rfl), if_pos rfl,
      Option.bind_some, given, Bool.false_or]
    by_cases ended : trimStart (c :: more) = []
    · rw [ended, nextWord_blank ended]
      rfl
    · rw [List.isEmpty_eq_false_iff.mpr ended, if_neg Bool.false_ne_true,
        if_pos fun none => ended (nextWord_eq_nil_iff.mp none)]
      show (afterLine? (nextWord (c :: more)).2).bind _ = _
      cases afterLine? (nextWord (c :: more)).2 <;> rfl

/-- The text after some words at its front. -/
def dropWords (n : Nat) (cs : List Char) : List Char :=
  match n with
  | 0 => cs
  | n + 1 => (nextWord (dropWords n cs)).2

def wordAt (n : Nat) (cs : List Char) : List Char :=
  (nextWord (dropWords n cs)).1

/-- Whether the first, the second and the fourth word of a text make it a directive. -/
def AreDirective (set term old : List Char) : Prop :=
  Spells "SET" set ∧ Spells "TERM" term ∧ old ≠ []

instance (set term old : List Char) : Decidable (AreDirective set term old) :=
  inferInstanceAs (Decidable (_ ∧ _))

/-- A directive by its four words, the last of which is followed by the end of a line. -/
theorem directive?_words (cs : List Char) : directive? cs =
    if AreDirective (wordAt 0 cs) (wordAt 1 cs) (wordAt 3 cs) then
      (afterLine? (dropWords 4 cs)).map (wordAt 2 cs, ·) else none := by
  have phrase : afterSpacedPhrase? ["SET", "TERM"] (trimStart cs) =
      (afterSpaced? "SET" (trimStart cs)).bind (afterSpaced? "TERM") := by
    rw [afterSpacedPhrase?, afterPhrase?]
    · cases afterSpaced? "SET" (trimStart cs) <;> rfl
    · exact List.cons_ne_nil _ _
  -- A text that ends early has no fourth word.
  have short {rest : List Char} (none : rest = []) : (nextWord (nextWord (nextWord rest).2).2).1 = [] := by
    rw [none]
    rfl
  rw [directive?, phrase, afterSpaced?_nextWord (by decide)]
  by_cases first : Spells "SET" (nextWord cs).1 ∧ (nextWord cs).2 ≠ []
  · rw [if_pos first, Option.bind_some, afterSpaced?_nextWord (by decide)]
    by_cases second : Spells "TERM" (nextWord (nextWord cs).2).1 ∧ (nextWord (nextWord cs).2).2 ≠ []
    · rw [if_pos second]
      refine (directiveEnd_words (nextWord (nextWord cs).2).2).trans ?_
      simp only [AreDirective, wordAt, dropWords, first.1, second.1, true_and]
    · rw [if_neg second, if_neg]
      · rfl
      · rintro ⟨_, spells, given⟩
        exact second ⟨spells, fun none => given (congrArg (fun rest => (nextWord (nextWord rest).2).1) none)⟩
  · rw [if_neg first, if_neg]
    · rfl
    · rintro ⟨spells, _, given⟩
      exact first ⟨spells, fun none => given (short none)⟩

end Words

section Append

theorem dropWords_congr {one two : List Char} (same : nextWord one = nextWord two) (n : Nat) :
    nextWord (dropWords n one) = nextWord (dropWords n two) := by
  induction n with
  | zero => exact same
  | succ n ih => rw [dropWords, dropWords, ih]

theorem directive?_congr {one two : List Char} (same : nextWord one = nextWord two) :
    directive? one = directive? two := by
  have four (cs : List Char) : dropWords 4 cs = (nextWord (dropWords 3 cs)).2 := rfl
  simp only [directive?_words, wordAt, four, dropWords_congr same]

theorem solid_dropWords {n : Nat} {cs : List Char} (solid : trimStart (dropWords (n + 1) cs) ≠ []) :
    trimStart (dropWords n cs) ≠ [] :=
  fun none => solid (by rw [dropWords, nextWord_blank none]; rfl)

/-- Words that a text has are its words before more text that starts with white space. -/
theorem dropWords_append {n : Nat} {cs rest : List Char} (start : ∀ c ∈ rest.head?, isBlank c = true)
    (solid : trimStart (dropWords n cs) ≠ []) :
    wordAt n (cs ++ rest) = wordAt n cs ∧ dropWords (n + 1) (cs ++ rest) = dropWords (n + 1) cs ++ rest := by
  have here : nextWord (dropWords n (cs ++ rest)) = ((nextWord (dropWords n cs)).1, dropWords (n + 1) cs ++ rest) := by
    induction n with
    | zero => exact nextWord_append_blank solid start
    | succ n ih => rw [dropWords, ih (solid_dropWords solid), nextWord_append_blank solid start]; rfl
  exact ⟨by rw [wordAt, here, wordAt], by rw [dropWords, here]⟩

/-- Words that a text does not have are those of what follows. -/
theorem dropWords_short {n : Nat} {cs rest : List Char} (start : ∀ c ∈ rest.head?, isBlank c = true)
    (solid : trimStart cs ≠ []) (short : trimStart (dropWords n cs) = []) : ∃ k, k < n ∧
      wordAt n (cs ++ rest) = wordAt k rest ∧ dropWords (n + 1) (cs ++ rest) = dropWords (k + 1) rest := by
  have here : ∃ k, k < n ∧ nextWord (dropWords n (cs ++ rest)) = nextWord (dropWords k rest) := by
    induction n with
    | zero => exact absurd short solid
    | succ n ih =>
      by_cases before : trimStart (dropWords n cs) = []
      · obtain ⟨k, less, same⟩ := ih before
        exact ⟨k + 1, by omega, by rw [dropWords, same, dropWords]⟩
      · refine ⟨0, by omega, ?_⟩
        rw [(dropWords_append start before).2, nextWord_blanks (blank_of_trimStart short)]
        rfl
  obtain ⟨k, less, same⟩ := here
  exact ⟨k, less, by rw [wordAt, same, wordAt], by rw [dropWords, same, dropWords]⟩

/-- A text before more text that starts with white space has its own four words, or takes over the fourth. -/
theorem directive?_append {cs rest : List Char} (start : ∀ c ∈ rest.head?, isBlank c = true)
    (solid : trimStart cs ≠ []) (silent : directive? cs = none) (short : ∀ k, k < 3 →
      wordAt k rest = [] ∨ afterLine? (dropWords (k + 1) rest) = none) : directive? (cs ++ rest) = none := by
  rw [directive?_words] at silent ⊢
  by_cases four : trimStart (dropWords 3 cs) = []
  · obtain ⟨k, less, word, after⟩ := dropWords_short start solid four
    rw [word, after]
    rcases short k less with none | none
    · rw [if_neg fun words => words.2.2 none]
    · rw [none, Option.map_none, ite_self]
  · have third := solid_dropWords four
    have second := solid_dropWords third
    rw [(dropWords_append start (solid_dropWords second)).1, (dropWords_append start second).1, (dropWords_append start third).1,
      (dropWords_append start four).1, (dropWords_append start four).2]
    split at silent
    · next words => rw [if_pos words, afterLine?_append (Option.map_eq_none_iff.mp silent), Option.map_none]
    · next words => rw [if_neg words]

/-- White space after a text brings no directive about at its front. -/
theorem directive?_append_blanks {cs blanks : List Char} (blank : ∀ c ∈ blanks, isBlank c = true)
    (silent : directive? cs = none) : directive? (cs ++ blanks) = none := by
  have nothing : nextWord blanks = nextWord [] := by rw [← List.append_nil blanks, nextWord_blanks blank]
  have empty (n : Nat) : wordAt n [] = [] := by
    have none : dropWords n [] = [] := by
      induction n with
      | zero => rfl
      | succ n ih => rw [dropWords, ih]; rfl
    rw [wordAt, none]
    rfl
  by_cases solid : trimStart cs = []
  · rw [directive?_congr ((nextWord_blanks (blank_of_trimStart solid)).trans nothing)]
    rfl
  · refine directive?_append (fun c head => blank c (List.mem_of_mem_head? head)) solid silent fun k _ => .inl ?_
    rw [wordAt, dropWords_congr nothing]
    exact empty k

theorem dropWords_length {m n : Nat} (le : m ≤ n) (cs : List Char) :
    (dropWords n cs).length ≤ (dropWords m cs).length := by
  induction le with
  | refl => exact Nat.le_refl _
  | step _ ih =>
    refine Nat.le_trans ?_ ih
    exact ((List.dropWhile_sublist _).trans (List.dropWhile_sublist _)).length_le

/-- Words that end in a text are its words before any text. -/
theorem dropWords_within {n : Nat} {front : List Char} (more : dropWords n front ≠ []) (rest : List Char) :
    dropWords n (front ++ rest) = dropWords n front ++ rest ∧
      ∀ m, m < n → wordAt m (front ++ rest) = wordAt m front := by
  induction n with
  | zero => exact ⟨rfl, fun m less => absurd less (Nat.not_lt_zero m)⟩
  | succ n ih =>
    have before : dropWords n front ≠ [] := fun none => more (by rw [dropWords, none]; rfl)
    obtain ⟨text, words⟩ := ih before
    have here : nextWord (dropWords n (front ++ rest)) = (wordAt n front, dropWords (n + 1) front ++ rest) := by
      rw [text]
      exact nextWord_append more rest
    refine ⟨congrArg Prod.snd here, fun m less => ?_⟩
    rcases Nat.lt_succ_iff_lt_or_eq.mp less with less | rfl
    · exact words m less
    · rw [wordAt, here]

/-- A text that does not have so many words has one that goes on in the text after it. -/
theorem dropWords_joined {n : Nat} {front : List Char} (few : dropWords (n + 1) front = []) :
    ∃ k, k ≤ n ∧ ∀ rest : List Char, (∀ c ∈ rest.head?, isBlank c = false) →
      wordAt k (front ++ rest) = wordAt k front ++ wordAt 0 rest ∧
        dropWords (k + 1) (front ++ rest) = dropWords 1 rest := by
  induction n with
  | zero =>
    refine ⟨0, Nat.le_refl 0, fun rest solid => ?_⟩
    have here : nextWord (front ++ rest) = _ := nextWord_joined few solid
    exact ⟨by rw [wordAt, dropWords, here]; rfl, by rw [dropWords, dropWords, here]; rfl⟩
  | succ n ih =>
    by_cases before : dropWords (n + 1) front = []
    · obtain ⟨k, le, joined⟩ := ih before
      exact ⟨k, Nat.le_succ_of_le le, joined⟩
    · refine ⟨n + 1, Nat.le_refl _, fun rest solid => ?_⟩
      have here := nextWord_joined few solid
      rw [← (dropWords_within before rest).1] at here
      exact ⟨by rw [wordAt, here]; rfl, by rw [dropWords, here]; rfl⟩

/-- A character that makes a directive of the front of a text is in its fourth word, and what follows ends the
line. -/
theorem directive?_completed {cs : List Char} {c : Char} (solid : isBlank c = false) (silent : directive? cs = none)
    {found : List Char × List Char} (read : directive? (cs ++ [c]) = some found) {rest after : List Char}
    (start : ∀ d ∈ rest.head?, isBlank d = true) (line : afterLine? rest = some after) :
    trimStart cs ≠ [] ∧ directive? (cs ++ [c] ++ rest) = some (found.1, after) := by
  have stays {n : Nat} (more : dropWords (n + 1) cs ≠ []) :
      wordAt n (cs ++ [c]) = wordAt n cs ∧ dropWords (n + 1) (cs ++ [c]) = dropWords (n + 1) cs ++ [c] := by
    obtain ⟨text, words⟩ := dropWords_within more [c]
    exact ⟨words n (Nat.lt_succ_self n), text⟩
  have ends {n : Nat} (none : dropWords (n + 1) cs = []) : dropWords (n + 1) (cs ++ [c]) = [] := by
    obtain ⟨k, le, joined⟩ := dropWords_joined none
    have last : dropWords 1 [c] = [] := by simp [dropWords, nextWord, trimStart, solid]
    have shorter := dropWords_length (Nat.succ_le_succ le) (cs ++ [c])
    rw [(joined [c] (by rintro d ⟨⟩; exact solid)).2, last] at shorter
    exact List.eq_nil_of_length_eq_zero (Nat.le_zero.mp shorter)
  rw [directive?_words] at silent read
  split at read
  case isFalse => cases read
  next words =>
    by_cases four : dropWords 4 cs = []
    · have fourth : trimStart (dropWords 3 (cs ++ [c])) ≠ [] := fun none => words.2.2 (nextWord_eq_nil_iff.mpr none)
      have third := solid_dropWords fourth
      have second := solid_dropWords third
      refine ⟨fun none => ?_, ?_⟩
      · have empty : dropWords 1 cs = [] := congrArg Prod.snd (nextWord_blank none)
        exact second (by rw [ends empty]; rfl)
      · obtain ⟨_, _, same⟩ := Option.map_eq_some_iff.mp read
        rw [directive?_words, (dropWords_append start (solid_dropWords second)).1, (dropWords_append start second).1,
          (dropWords_append start third).1, (dropWords_append start fourth).1, (dropWords_append start fourth).2,
          ends four, if_pos words, List.nil_append, line, ← same]
        rfl
    · -- The fourth word would have ended before the character, and so would the line.
      have three : dropWords 3 cs ≠ [] := fun none => four (by rw [dropWords, none]; rfl)
      have two : dropWords 2 cs ≠ [] := fun none => three (by rw [dropWords, none]; rfl)
      have one : dropWords 1 cs ≠ [] := fun none => two (by rw [dropWords, none]; rfl)
      rw [(stays one).1, (stays two).1, (stays four).1] at words
      rw [if_pos words] at silent
      rw [(stays four).2, afterLine?_append (Option.map_eq_none_iff.mp silent)] at read
      cases read

/-- A directive whose words are ended before other text is the same before any text. -/
theorem directive?_uniform {front : List Char} (within : dropWords 4 front ≠ []) :
    ∃ found : Option (List Char × List Char), ∀ rest : List Char, rest ≠ [] →
      (∀ c ∈ rest.head?, isBlank c = false) →
      directive? (front ++ rest) = found.map fun (terminator, after) => (terminator, after ++ rest) := by
  obtain ⟨found, ends⟩ := afterLine?_uniform (dropWords 4 front)
  refine ⟨if AreDirective (wordAt 0 front) (wordAt 1 front) (wordAt 3 front) then found.map (wordAt 2 front, ·)
    else none, fun rest given solid => ?_⟩
  obtain ⟨text, words⟩ := dropWords_within within rest
  rw [directive?_words, text, words 0 (by omega), words 1 (by omega), words 2 (by omega), words 3 (by omega),
    ends rest given solid]
  split
  · cases found <;> rfl
  · rfl

/-- A directive that goes on in other text is not ended before it. -/
theorem directive?_joined {front rest terminator after : List Char} (few : dropWords 4 front = [])
    (more : rest ≠ []) (solid : ∀ c ∈ rest.head?, isBlank c = false) :
    directive? (front ++ rest) ≠ some (terminator, after ++ rest) := by
  intro read
  obtain ⟨k, le, joined⟩ := dropWords_joined few
  have start : trimStart rest = rest := trimStart_head solid
  have word : (wordAt 0 rest).length + (dropWords 1 rest).length = rest.length := by
    rw [← List.length_append]
    exact congrArg List.length ((nextWord_split rest).trans start)
  have some : 0 < (wordAt 0 rest).length :=
    List.length_pos_iff.mpr fun none => more (start ▸ nextWord_eq_nil_iff.mp none)
  have shorter : (dropWords 4 (front ++ rest)).length ≤ (dropWords (k + 1) (front ++ rest)).length :=
    dropWords_length (Nat.succ_le_succ le) _
  rw [(joined rest solid).2] at shorter
  rw [directive?_words] at read
  split at read
  · obtain ⟨left, ends, same⟩ := Option.map_eq_some_iff.mp read
    obtain ⟨_, rfl⟩ := Prod.mk.inj same
    have bound := afterLine?_length ends
    rw [List.length_append] at bound
    omega
  · cases read

end Append

namespace Directive

/-- The text of a directive that is ended by a terminator. -/
def text (d : Directive) (terminator : List Char) : List Char :=
  d.words ++ (d.afterTerminator ++ terminator)

structure OneLine (d : Directive) (terminator : List Char) : Prop where
  formed : d.WellFormed
  apart : Gap d.afterTerminator
  given : terminator ≠ []
  solid : ∀ c ∈ terminator, isBlank c = false
  line : '\n' ∉ d.words ++ d.afterTerminator

namespace OneLine

variable {d : Directive} {terminator : List Char} (line : d.OneLine terminator)
include line

private theorem words {blanks : List Char} (blank : ∀ c ∈ blanks, isBlank c = true) : ∃ one two three,
    nextWord (blanks ++ d.text terminator) = (d.set, one) ∧ nextWord one = (d.term, two) ∧
    nextWord two = (d.terminator, three) ∧ nextWord three = (terminator, []) ∧
    afterLine? one = none ∧ afterLine? two = none ∧ afterLine? three = none := by
  obtain ⟨set, afterSet, term, afterTerm, nonempty, solid⟩ := line.formed
  have letters {keyword : String} {word : List Char} (spells : Spells keyword word)
      (letters : keyword.toList.all Char.isAlpha = true) : ∀ c ∈ word, isBlank c = false :=
    fun c member => isBlank_of_letter (spells.letter letters member)
  have given {keyword : String} {word : List Char} (spells : Spells keyword word) (some : keyword.toList ≠ []) :
      word ≠ [] := fun none => some (by rw [← spells, none]; rfl)
  have start {gap rest : List Char} (blank : Gap gap) : ∀ c ∈ (gap ++ rest).head?, isBlank c = true := by
    obtain ⟨some, all⟩ := blank
    obtain ⟨c, more, rfl⟩ := List.exists_cons_of_ne_nil some
    rintro d ⟨⟩
    exact List.all_eq_true.mp all c List.mem_cons_self
  have head {word rest : List Char} (given : word ≠ []) (solid : ∀ c ∈ word, isBlank c = false) :
      word ++ rest ≠ [] ∧ ∀ c ∈ (word ++ rest).head?, isBlank c = false := by
    obtain ⟨c, more, rfl⟩ := List.exists_cons_of_ne_nil given
    refine ⟨List.cons_ne_nil _ _, ?_⟩
    rintro d ⟨⟩
    exact solid c List.mem_cons_self
  have mark : ∀ c ∈ d.terminator, isBlank c = false := fun c member => by
    simpa using List.any_eq_false.mp solid c member
  have within := line.line
  simp only [Directive.words, List.mem_append, not_or] at within
  obtain ⟨⟨_, lineSet, _, lineTerm, _⟩, lineTerminator⟩ := within
  have split : d.text terminator = d.set ++ (d.afterSet ++ (d.term ++ (d.afterTerm ++
      (d.terminator ++ (d.afterTerminator ++ (terminator ++ [])))))) := by
    simp only [text, Directive.words, List.append_assoc, List.append_nil]
  rw [split]
  exact ⟨_, _, _, nextWord_word blank (given set (by decide)) (letters set (by decide)) (start afterSet),
    nextWord_word (List.all_eq_true.mp afterSet.2) (given term (by decide)) (letters term (by decide))
      (start afterTerm),
    nextWord_word (List.all_eq_true.mp afterTerm.2) nonempty mark (start line.apart),
    nextWord_word (List.all_eq_true.mp line.apart.2) line.given line.solid (by simp),
    afterLine?_within afterSet lineSet (head (given term (by decide)) (letters term (by decide))).1
      (head (given term (by decide)) (letters term (by decide))).2,
    afterLine?_within afterTerm lineTerm (head nonempty mark).1 (head nonempty mark).2,
    afterLine?_within line.apart lineTerminator (head line.given line.solid).1 (head line.given line.solid).2⟩

theorem directive?_text {blanks : List Char} (blank : ∀ c ∈ blanks, isBlank c = true) :
    directive? (blanks ++ d.text terminator) = some (d.terminator, []) := by
  obtain ⟨one, two, three, first, second, third, fourth, _⟩ := line.words blank
  simp only [directive?_words, wordAt, dropWords, first, second, third, fourth]
  rw [if_pos ⟨line.formed.set, line.formed.term, line.given⟩]
  rfl

theorem directive?_text_append {rest : List Char} (start : ∀ c ∈ rest.head?, isBlank c = true) :
    directive? (d.text terminator ++ rest) = (afterLine? rest).map (d.terminator, ·) := by
  have none : ∀ c ∈ ([] : List Char), isBlank c = true := by simp
  obtain ⟨one, two, three, first, second, third, fourth, _⟩ := line.words none
  rw [List.nil_append] at first
  have last : dropWords 3 (d.text terminator) = three := by
    simp only [dropWords, first, second, third]
  have fourthSolid : trimStart (dropWords 3 (d.text terminator)) ≠ [] := by
    intro none
    rw [last, ← nextWord_eq_nil_iff, fourth] at none
    exact line.given none
  have thirdSolid := solid_dropWords fourthSolid
  have secondSolid := solid_dropWords thirdSolid
  rw [directive?_words, (dropWords_append start (solid_dropWords secondSolid)).1, (dropWords_append start secondSolid).1,
    (dropWords_append start thirdSolid).1, (dropWords_append start fourthSolid).1, (dropWords_append start fourthSolid).2]
  simp only [wordAt, dropWords, first, second, third, fourth, List.nil_append]
  exact if_pos ⟨line.formed.set, line.formed.term, line.given⟩

/-- Where no directive stands at the front of a text, a later line that is one brings none about: one that took
its words from that line would end inside the line. -/
theorem directive?_append {cs blanks : List Char} (silent : directive? cs = none) (solid : trimStart cs ≠ [])
    (gap : Gap blanks) : directive? (cs ++ (blanks ++ d.text terminator)) = none := by
  obtain ⟨one, two, three, first, second, third, _, lineOne, lineTwo, lineThree⟩ :=
    line.words (List.all_eq_true.mp gap.2)
  have start : ∀ c ∈ (blanks ++ d.text terminator).head?, isBlank c = true := by
    obtain ⟨c, more, rfl⟩ := List.exists_cons_of_ne_nil gap.1
    rintro d ⟨⟩
    exact List.all_eq_true.mp gap.2 c List.mem_cons_self
  refine Script.directive?_append start solid silent fun k less => .inr ?_
  match k, less with
  | 0, _ => simp only [dropWords, first, lineOne]
  | 1, _ => simp only [dropWords, first, second, lineTwo]
  | 2, _ => simp only [dropWords, first, second, third, lineThree]

end OneLine

end Directive

end SchemaSync.Script
