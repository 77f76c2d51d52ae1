import SchemaSync.Proofs.Script.Directive
import SchemaSync.Proofs.Script.ProcedureSource
import SchemaSync.Script.Kind

/-! Places in a script that its reading comes to, in that no literal, comment or directive from before them goes
on there. What is read up to such a place stays the same when a statement there is given other words. -/

namespace SchemaSync.Script

open Text

/-- Words at the start of a statement that creates something, none of which starts like a directive. -/
structure CreateWords (words : List Char) : Prop where
  head : ∃ c more, words = c :: more ∧ foldCase c = 'C'
  inside : ∀ c ∈ words, (foldCase c).isAlpha = true ∨ isBlank c = true
  last : ∀ c, words.getLast? = some c → isBlank c = false
  other : ∀ c ∈ words, foldCase c ≠ 'S'

/-- Up to the text `rest`, a text is read as whole literals, whole comments and other characters, of which `kept` is
left without the comments. -/
inductive OutsideComments (rest : List Char) : List Char → List Char → Prop
  | nil : OutsideComments rest [] []
  | piece {c : Char} {front after kept : List Char} : (frontPiece c (front ++ rest)).2 = after ++ rest →
      OutsideComments rest after kept →
      OutsideComments rest (c :: front) ((frontPiece c (front ++ rest)).1.kept ++ kept)

/-- Up to the text `rest`, a text is read as whole directives and other characters, of which `left` is left without
the directives. The flag tells whether the text starts at the start of a line. -/
inductive OutsideDirectives (rest : List Char) : Bool → List Char → List Char → Prop
  | nil {lineStart : Bool} : OutsideDirectives rest lineStart [] []
  | char {lineStart : Bool} {c : Char} {front left : List Char} :
      (lineStart = true → directive? (c :: (front ++ rest)) = none) →
      OutsideDirectives rest (c == '\n') front left → OutsideDirectives rest lineStart (c :: front) (c :: left)
  | directive {c : Char} {line after left terminator : List Char} :
      directive? (c :: (line ++ (after ++ rest))) = some (terminator, after ++ rest) →
      OutsideDirectives rest ((line.getLast?.map (· == '\n')).getD (c == '\n')) after left →
      OutsideDirectives rest true (c :: (line ++ after)) left

namespace CreateWords

variable {words : List Char} (create : CreateWords words)
include create

theorem notMem {c : Char} (letter : (foldCase c).isAlpha = false) (solid : isBlank c = false) : c ∉ words := by
  intro member
  rcases create.inside c member with inside | blank
  · cases letter.symm.trans inside
  · cases solid.symm.trans blank

theorem ne_nil : words ≠ [] := by
  obtain ⟨c, more, rfl, _⟩ := create.head
  exact List.cons_ne_nil c more

theorem head_append (rest : List Char) : ∀ c ∈ (words ++ rest).head?, foldCase c = 'C' := by
  obtain ⟨d, more, rfl, letter⟩ := create.head
  rintro c ⟨⟩
  exact letter

theorem head_ne {c : Char} (other : foldCase c ≠ 'C') (rest : List Char) : (words ++ rest).head? ≠ some c :=
  fun head => other (create.head_append rest c head)

theorem solid (rest : List Char) : ∀ c ∈ (words ++ rest).head?, isBlank c = false := by
  intro c head
  refine isBlank_of_letter ?_
  rw [create.head_append rest c head]
  rfl

theorem opensComment_eq {c : Char} {rest : List Char} : opensComment (c :: (words ++ rest)) = false := by
  refine opensComment_other fun d head => ?_
  constructor <;> (rintro rfl; exact create.head_ne (by decide) rest head)

theorem keptChars_append (rest : List Char) : keptChars (words ++ rest) = words ++ keptChars rest := by
  refine keptChars_prepend (List.all_eq_true.mpr fun c member => ?_) rest
  simp only [Bool.and_eq_true, bne_iff_ne]
  refine ⟨⟨?_, ?_⟩, ?_⟩ <;> (rintro rfl; exact create.notMem (by decide) (by decide) member)

end CreateWords

private theorem createOrAlter_split :
    createOrAlter = "CREATE".toList ++ (" OR".toList ++ " ALTER PROCEDURE".toList) := by
  decide

theorem createWords_createOrAlter : CreateWords createOrAlter where
  head := ⟨'C', "REATE OR ALTER PROCEDURE".toList, by decide, by decide⟩
  inside c member := by
    have all : createOrAlter.all (fun c => (foldCase c).isAlpha || isBlank c) = true := by decide
    exact (Bool.or_eq_true _ _).mp (List.all_eq_true.mp all c member)
  last := by
    intro c last
    obtain rfl : 'E' = c := Option.some.inj last
    decide
  other c member := by
    have all : createOrAlter.all (foldCase · != 'S') = true := by decide
    exact bne_iff_ne.mp (List.all_eq_true.mp all c member)

section Pieces

theorem closeBlock?_skip {front : List Char} (other : '*' ∉ front) (rest : List Char) :
    closeBlock? (front ++ rest) = closeBlock? rest := by
  induction front with
  | nil => rfl
  | cons c front ih =>
    rw [List.mem_cons, not_or] at other
    rw [List.cons_append, closeBlock?, ih other.2]
    exact fun _ same => absurd same.symm other.1

/-- A comment is closed before a statement, or the words of the statement do not close it. -/
theorem closeBlock?_words (front : List Char) :
    (∃ after, ∀ rest, closeBlock? (front ++ rest) = some (after ++ rest)) ∨
      ∀ words, CreateWords words → ∀ tail, closeBlock? (front ++ (words ++ tail)) = closeBlock? tail := by
  induction front with
  | nil => exact .inr fun words create tail => closeBlock?_skip (create.notMem rfl rfl) tail
  | cons c front ih =>
    by_cases ends : c = '*' ∧ front.head? = some '/'
    · obtain ⟨rfl, head⟩ := ends
      obtain ⟨after, rfl⟩ := List.head?_eq_some_iff.mp head
      exact .inl ⟨after, fun _ => rfl⟩
    · rcases ih with ⟨after, closes⟩ | goesOn
      · refine .inl ⟨after, fun rest => ?_⟩
        rw [List.cons_append, closeBlock?, closes]
        rintro more rfl same
        cases front with
        | nil => cases closes []
        | cons d front =>
          cases same
          exact ends ⟨rfl, rfl⟩
      · refine .inr fun words create tail => ?_
        rw [List.cons_append, closeBlock?, goesOn words create]
        rintro more rfl same
        cases front with
        | nil => exact create.head_ne (by decide) tail (congrArg List.head? same)
        | cons d front =>
          cases same
          exact ends ⟨rfl, rfl⟩

theorem dropLine_within {front : List Char} (line : '\n' ∈ front) :
    ∃ after, after ≠ [] ∧ ∀ rest, dropLine (front ++ rest) = after ++ rest := by
  obtain ⟨before, after, rfl, first⟩ := List.eq_append_cons_of_mem line
  refine ⟨'\n' :: after, List.cons_ne_nil _ _, fun rest => ?_⟩
  rw [List.append_assoc, dropLine_skip first]
  rfl

/-- A comment is read up to the end of its line or up to the characters that close it. -/
theorem frontPiece_eq_comment_iff {c : Char} {rest after : List Char} : frontPiece c rest = (.comment, after) ↔
    (c = '-' ∧ ∃ more, rest = '-' :: more ∧ dropLine more = after) ∨
      c = '/' ∧ ∃ more, rest = '*' :: more ∧ closeBlock? more = some after := by
  constructor
  · intro read
    unfold frontPiece at read
    split at read
    · split at read <;> cases read
    · next more =>
      split at read
      · next closes =>
        cases read
        exact .inr ⟨rfl, more, rfl, closes⟩
      · cases read
    · next more =>
      cases read
      exact .inl ⟨rfl, more, rfl, rfl⟩
    · cases read
  · rintro (⟨rfl, more, rfl, rfl⟩ | ⟨rfl, more, rfl, closes⟩)
    · rfl
    · rw [frontPiece, closes]

variable {old new tail : List Char} (before : CreateWords old) (words : CreateWords new)
include before words

theorem apostrophe_mem_replace {front : List Char} :
    '\'' ∈ front ++ (new ++ tail) ↔ '\'' ∈ front ++ (old ++ tail) := by
  simp only [List.mem_append, before.notMem (c := '\'') rfl rfl, words.notMem (c := '\'') rfl rfl, false_or]

theorem closeLiteral?_replace {front body after : List Char}
    (closes : closeLiteral? (front ++ (old ++ tail)) = some (body, after ++ (old ++ tail))) :
    closeLiteral? (front ++ (new ++ tail)) = some (body, after ++ (new ++ tail)) := by
  obtain ⟨split, literal, apart⟩ := closeLiteral?_eq_some_iff.mp closes
  obtain rfl : front = body ++ after := List.append_cancel_right (split.trans (List.append_assoc body after _).symm)
  refine closeLiteral?_eq_some_iff.mpr ⟨List.append_assoc body after _, literal, ?_⟩
  cases after with
  | nil => exact fun rest same => absurd (congrArg List.head? same) (words.head_ne (by decide) tail)
  | cons c after =>
    rintro rest ⟨⟩
    exact fun member => apart _ rfl ((apostrophe_mem_replace before words).mp member)

omit words in
theorem dropLine_replace {front after : List Char} (ends : dropLine (front ++ (old ++ tail)) = after ++ (old ++ tail))
    (rest : List Char) : dropLine (front ++ rest) = after ++ rest := by
  by_cases line : '\n' ∈ front
  · obtain ⟨left, _, goesOn⟩ := dropLine_within line
    rw [goesOn] at ends ⊢
    rw [List.append_cancel_right ends]
  · -- The line would go on over the start of the statement.
    obtain ⟨c, more, rfl, letter⟩ := before.head
    have goesOver : dropLine (c :: more ++ tail) = dropLine (more ++ tail) := by
      refine List.dropWhile_cons_of_pos (bne_iff_ne.mpr ?_)
      rintro rfl
      exact absurd letter (by decide)
    have shorter := dropLine_length (more ++ tail)
    rw [← goesOver, ← dropLine_skip line, ends, List.length_append, List.cons_append, List.length_cons] at shorter
    omega

theorem closeBlock?_replace (front : List Char) :
    (closeBlock? (front ++ (old ++ tail)) = none → closeBlock? (front ++ (new ++ tail)) = none) ∧
      ∀ after, closeBlock? (front ++ (old ++ tail)) = some (after ++ (old ++ tail)) →
        closeBlock? (front ++ (new ++ tail)) = some (after ++ (new ++ tail)) := by
  rcases closeBlock?_words front with ⟨left, closes⟩ | goesOn
  · rw [closes, closes]
    constructor
    · intro none
      cases none
    · intro after same
      rw [List.append_cancel_right (Option.some.inj same)]
  · rw [goesOn old before, goesOn new words]
    refine ⟨id, fun after closes => ?_⟩
    have shorter := closeBlock?_length closes
    rw [List.length_append, List.length_append] at shorter
    omega

/-- A piece that ends before a statement is the same whatever words the statement starts with. -/
theorem frontPiece_replace {c : Char} {front after : List Char}
    (passed : (frontPiece c (front ++ (old ++ tail))).2 = after ++ (old ++ tail)) :
    frontPiece c (front ++ (new ++ tail)) =
      ((frontPiece c (front ++ (old ++ tail))).1, after ++ (new ++ tail)) := by
  by_cases quote : c = '\''
  · subst quote
    rw [frontPiece] at passed
    rw [frontPiece, frontPiece]
    cases closes : closeLiteral? (front ++ (old ++ tail)) with
    | some found =>
      obtain ⟨body, rest⟩ := found
      rw [closes] at passed
      obtain rfl : rest = after ++ (old ++ tail) := passed
      rw [closeLiteral?_replace before words closes]
    | none =>
      rw [closes] at passed
      obtain rfl : front = after := List.append_cancel_right passed
      rw [closeLiteral?_eq_none_iff, ← apostrophe_mem_replace before words, ← closeLiteral?_eq_none_iff] at closes
      rw [closes]
  · -- Whether a comment opens is decided by two characters, and no statement starts with the second one.
    cases opens : opensComment (c :: (front ++ (old ++ tail))) with
    | false =>
      have later : opensComment (c :: (front ++ (new ++ tail))) = false := by
        cases front with
        | nil => exact words.opensComment_eq
        | cons d front => exact opens
      rw [frontPiece_plain quote opens] at passed ⊢
      obtain rfl : front = after := List.append_cancel_right passed
      rw [frontPiece_plain quote later]
    | true =>
      cases front with
      | nil => cases before.opensComment_eq.symm.trans opens
      | cons d front =>
        have pair : c = '-' ∧ d = '-' ∨ c = '/' ∧ d = '*' := by simpa [opensComment] using opens
        rcases pair with ⟨rfl, rfl⟩ | ⟨rfl, rfl⟩
        · exact congrArg (Piece.comment, ·) (dropLine_replace before passed (new ++ tail))
        · rw [List.cons_append, frontPiece] at passed
          rw [List.cons_append, List.cons_append, frontPiece, frontPiece]
          cases closes : closeBlock? (front ++ (old ++ tail)) with
          | some rest =>
            rw [closes] at passed
            obtain rfl : rest = after ++ (old ++ tail) := passed
            rw [(closeBlock?_replace before words front).2 after closes]
          | none =>
            rw [closes] at passed
            obtain rfl : '*' :: front = after := (List.append_left_inj (old ++ tail)).mp passed
            rw [(closeBlock?_replace before words front).1 closes, List.cons_append]

/-- A comment goes on over a statement in it, whatever words the statement starts with. -/
theorem frontPiece_inside (line : '\n' ∉ new) {c : Char} {front last rest : List Char}
    (read : frontPiece c (front ++ (old ++ (last ++ rest))) = (.comment, rest)) :
    frontPiece c (front ++ (new ++ (last ++ rest))) = (.comment, rest) := by
  rw [frontPiece_eq_comment_iff] at read ⊢
  -- The second character of the comment's opening stands before the statement, which starts with a letter.
  have second {d : Char} {more : List Char} (other : foldCase d ≠ 'C')
      (split : front ++ (old ++ (last ++ rest)) = d :: more) : ∃ inside, front = d :: inside ∧
        more = inside ++ (old ++ (last ++ rest)) := by
    cases front with
    | nil => exact absurd (congrArg List.head? split) (before.head_ne other _)
    | cons e inside =>
      cases split
      exact ⟨inside, rfl, rfl⟩
  refine read.imp ?_ ?_
  · rintro ⟨rfl, more, split, ends⟩
    obtain ⟨inside, rfl, rfl⟩ := second (by decide) split
    have within : '\n' ∉ inside ++ old := by
      intro member
      obtain ⟨after, given, same⟩ := dropLine_within member
      have whole := congrArg List.length ((same (last ++ rest)).symm.trans (List.append_assoc inside old _ ▸ ends))
      have some := List.length_pos_iff.mpr given
      rw [List.length_append, List.length_append] at whole
      omega
    refine ⟨rfl, inside ++ (new ++ (last ++ rest)), rfl, ?_⟩
    rw [List.mem_append, not_or] at within
    rw [dropLine_skip within.1, dropLine_skip within.2] at ends
    rw [dropLine_skip within.1, dropLine_skip line, ends]
  · rintro ⟨rfl, more, split, closes⟩
    obtain ⟨inside, rfl, rfl⟩ := second (by decide) split
    refine ⟨rfl, inside ++ (new ++ (last ++ rest)), rfl, ?_⟩
    rcases closeBlock?_words inside with ⟨after, ends⟩ | goesOn
    · have whole := congrArg List.length (Option.some.inj ((ends _).symm.trans closes))
      have some := List.length_pos_iff.mpr before.ne_nil
      simp only [List.length_append] at whole
      omega
    · rw [goesOn old before] at closes
      rw [goesOn new words, closes]

end Pieces

namespace OutsideComments

theorem keptChars_eq {rest front kept : List Char} (place : OutsideComments rest front kept) :
    keptChars (front ++ rest) = kept ++ keptChars rest := by
  induction place with
  | nil => rfl
  | piece passed _ ih =>
    rw [List.cons_append, keptChars, pieces, List.flatMap_cons, passed, ← keptChars, ih, List.append_assoc]

theorem replace {old new : List Char} (before : CreateWords old) (words : CreateWords new)
    {first tail front kept : List Char} (place : OutsideComments (first ++ (old ++ tail)) front kept) :
    OutsideComments (first ++ (new ++ tail)) front kept := by
  induction place with
  | nil => exact .nil
  | @piece c front after _ passed _ ih =>
    have same : frontPiece c (front ++ (first ++ (new ++ tail))) =
        ((frontPiece c (front ++ (first ++ (old ++ tail)))).1, after ++ (first ++ (new ++ tail))) := by
      simp only [← List.append_assoc _ first] at passed ⊢
      exact frontPiece_replace before words passed
    have step := OutsideComments.piece (congrArg Prod.snd same) ih
    rwa [same] at step

end OutsideComments

section Words

/-- The words of a statement that replaces a procedure end no directive: its second and third word stand on the line
of the first. -/
theorem directive?_createOrAlter {front : List Char} (few : dropWords 4 front = []) (tail : List Char) :
    directive? (front ++ (createOrAlter ++ tail)) = none := by
  obtain ⟨k, le, joined⟩ := dropWords_joined few
  have split : createOrAlter ++ tail =
      "CREATE".toList ++ (" OR".toList ++ (" ALTER PROCEDURE".toList ++ tail)) := by
    rw [createOrAlter_split, List.append_assoc, List.append_assoc]
  have letters {keyword : String} (spells : Spells keyword keyword.toList)
      (letters : keyword.toList.all Char.isAlpha = true) : ∀ c ∈ keyword.toList, isBlank c = false :=
    fun c member => isBlank_of_letter (spells.letter letters member)
  have first : nextWord (createOrAlter ++ tail) =
      ("CREATE".toList, " OR".toList ++ (" ALTER PROCEDURE".toList ++ tail)) := by
    rw [split]
    exact @nextWord_word [] "CREATE".toList _ (by simp) (by decide) (letters (by decide) (by decide)) (by rintro c ⟨⟩; rfl)
  have second : nextWord (" OR".toList ++ (" ALTER PROCEDURE".toList ++ tail)) =
      ("OR".toList, " ALTER PROCEDURE".toList ++ tail) :=
    @nextWord_word [' '] "OR".toList _ (List.all_eq_true.mp rfl) (by decide) (letters (by decide) (by decide))
      (by rintro c ⟨⟩; rfl)
  obtain ⟨word, text⟩ := joined (createOrAlter ++ tail) (by rw [split]; rintro c ⟨⟩; rfl)
  have firstWord : wordAt 0 (createOrAlter ++ tail) = "CREATE".toList := congrArg Prod.fst first
  have firstText : dropWords 1 (createOrAlter ++ tail) = _ := congrArg Prod.snd first
  rw [firstWord] at word
  rw [firstText] at text
  have long {keyword : String} (spells : Spells keyword (wordAt k front ++ "CREATE".toList)) :
      6 ≤ keyword.toList.length := by
    rw [← spells, List.length_map, List.length_append]
    exact Nat.le_add_left 6 _
  -- The first word completes one of the four words of a directive. `SET` and `TERM` are too short for it, and after
  -- any later one the line would have to end.
  rw [directive?_words]
  match k, le with
  | 0, _ => exact if_neg fun words => absurd (long (word ▸ words.1)) (by decide)
  | 1, _ => exact if_neg fun words => absurd (long (word ▸ words.2.1)) (by decide)
  | 2, _ =>
    have within : afterLine? (" ALTER PROCEDURE".toList ++ tail) = none :=
      @afterLine?_within [' '] ("ALTER PROCEDURE".toList ++ tail) (by decide) (by decide) (by simp)
        (by rintro c ⟨⟩; rfl)
    rw [dropWords, text, second, within, Option.map_none, ite_self]
  | 3, _ =>
    have within : afterLine? (" OR".toList ++ (" ALTER PROCEDURE".toList ++ tail)) = none :=
      @afterLine?_within [' '] ("OR".toList ++ (" ALTER PROCEDURE".toList ++ tail)) (by decide) (by decide) (by simp)
        (by rintro c ⟨⟩; rfl)
    rw [text, within, Option.map_none, ite_self]

private theorem directive?_other {words : List Char} (given : words ≠ []) (other : ∀ c ∈ words, foldCase c ≠ 'S')
    (last : ∀ c, words.getLast? = some c → isBlank c = false) (tail : List Char) :
    directive? (words ++ tail) = none := by
  have solid : trimStart words ≠ [] := by
    intro none
    have blank := blank_of_trimStart none _ (List.getLast_mem given)
    rw [last _ (List.getLast?_eq_some_getLast given)] at blank
    cases blank
  obtain ⟨c, more, start⟩ := List.exists_cons_of_ne_nil solid
  have member : c ∈ trimStart words := start ▸ List.mem_cons_self
  have letter : foldCase c ≠ 'S' := other c ((List.dropWhile_sublist isBlank).mem member)
  refine directive?_none (afterPhrase?_none ?_)
  rw [trimStart_append solid, start, List.cons_append]
  exact if_neg fun same => letter (beq_iff_eq.mp same)

theorem directives_words {words : List Char} (given : words ≠ []) (other : ∀ c ∈ words, foldCase c ≠ 'S')
    (last : ∀ c, words.getLast? = some c → isBlank c = false) (lineStart : Bool) (tail : List Char) :
    withoutDirectives 0 lineStart (words ++ tail) = words ++ withoutDirectives 0 false tail ∧
      firstTerminator? lineStart (words ++ tail) = firstTerminator? false tail := by
  induction words generalizing lineStart with
  | nil => exact absurd rfl given
  | cons c words ih =>
    have silent : lineStart = true → directive? (c :: (words ++ tail)) = none :=
      fun _ => directive?_other given other last tail
    rw [List.cons_append, withoutDirectives_kept silent, firstTerminator?_kept silent]
    cases words with
    | nil =>
      have line : (c == '\n') = false := by
        rw [beq_eq_false_iff_ne]
        rintro rfl
        cases last _ rfl
      rw [line]
      exact ⟨rfl, rfl⟩
    | cons d words =>
      obtain ⟨left, found⟩ := ih (List.cons_ne_nil d words) (fun e member => other e (List.mem_cons_of_mem c member))
        (fun e found => last e (by rwa [List.getLast?_cons_cons])) (c == '\n')
      exact ⟨congrArg (c :: ·) left, found⟩

end Words

section Replace

variable {words : List Char} (create : CreateWords words)
include create

theorem directive?_replace (front old new : List Char) :
    (directive? (front ++ (words ++ old)) = none → directive? (front ++ (createOrAlter ++ new)) = none) ∧
      ∀ terminator after, directive? (front ++ (words ++ old)) = some (terminator, after ++ (words ++ old)) →
        directive? (front ++ (createOrAlter ++ new)) = some (terminator, after ++ (createOrAlter ++ new)) := by
  have more := List.append_ne_nil_of_left_ne_nil create.ne_nil old
  by_cases few : dropWords 4 front = []
  · exact ⟨fun _ => directive?_createOrAlter few new, fun _ _ read =>
      absurd read (directive?_joined few more (create.solid old))⟩
  · obtain ⟨found, same⟩ := directive?_uniform few
    have later := createWords_createOrAlter
    rw [same _ more (create.solid old), same _ (List.append_ne_nil_of_left_ne_nil later.ne_nil new) (later.solid new)]
    constructor
    · intro none
      rw [Option.map_eq_none_iff.mp none]
      rfl
    · intro terminator after read
      obtain ⟨⟨_, left⟩, rfl, whole⟩ := Option.map_eq_some_iff.mp read
      obtain ⟨rfl, text⟩ := Prod.mk.inj whole
      rw [List.append_cancel_right text]
      rfl

end Replace

namespace OutsideDirectives

variable {words tail front left : List Char} {lineStart : Bool} (create : CreateWords words)
  (place : OutsideDirectives (words ++ tail) lineStart front left)
include create place

theorem withoutDirectives_eq :
    withoutDirectives 0 lineStart (front ++ (words ++ tail)) = left ++ (words ++ withoutDirectives 0 false tail) := by
  induction place with
  | nil => exact (directives_words create.ne_nil create.other create.last _ tail).1
  | char unread _ ih => rw [List.cons_append, withoutDirectives_kept unread, ih, List.cons_append]
  | @directive c line after left terminator read _ ih =>
    have passed : (line ++ (after ++ (words ++ tail))).length - (after ++ (words ++ tail)).length = line.length := by
      rw [List.length_append, Nat.add_sub_cancel]
    rw [List.cons_append, List.append_assoc, withoutDirectives, if_pos rfl, read]
    dsimp only
    rw [passed, withoutDirectives_skip, ih]

theorem replace (new : List Char) : OutsideDirectives (createOrAlter ++ new) lineStart front left := by
  induction place with
  | nil => exact .nil
  | @char lineStart c front left unread _ ih =>
    exact .char (fun start => (directive?_replace create (c :: front) tail new).1 (unread start)) ih
  | @directive c line after left terminator read _ ih =>
    have same := (directive?_replace create (c :: (line ++ after)) tail new).2 terminator after
    rw [List.cons_append, List.cons_append, List.append_assoc, List.append_assoc] at same
    exact .directive (same read) ih

theorem firstTerminator?_replace : firstTerminator? lineStart (front ++ (words ++ tail)) =
    firstTerminator? lineStart (front ++ (createOrAlter ++ tail)) := by
  have later := createWords_createOrAlter
  induction place with
  | nil =>
    exact (directives_words create.ne_nil create.other create.last _ tail).2.trans
      (directives_words later.ne_nil later.other later.last _ tail).2.symm
  | @char lineStart c front left unread _ ih =>
    have silent : lineStart = true → directive? (c :: (front ++ (createOrAlter ++ tail))) = none :=
      fun start => (directive?_replace create (c :: front) tail tail).1 (unread start)
    rw [List.cons_append, List.cons_append, firstTerminator?_kept unread, firstTerminator?_kept silent, ih]
  | @directive c line after left terminator read _ ih =>
    have same := (directive?_replace create (c :: (line ++ after)) tail tail).2 terminator after
    simp only [List.cons_append, List.append_assoc] at same ⊢
    rw [firstTerminator?, firstTerminator?, if_pos rfl, if_pos rfl, read, same read]
    rfl

end OutsideDirectives

end SchemaSync.Script
