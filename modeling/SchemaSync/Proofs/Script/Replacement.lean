import SchemaSync.Proofs.Script.Place

/-! Where a script says `CREATE PROCEDURE` first in the statement that it is read by, the rewriting of the script
makes `CREATE OR ALTER PROCEDURE` of that statement, and the script is still read as the same procedure. The rewriting
looks at the raw text, so this has to be asked: the phrase may stand in a comment, a literal or a directive, in
another word, or with a comment inside. -/

namespace SchemaSync

open Text Script

namespace Script

/-- The text in which a procedure is looked for: a script without comments, directives and white space at its ends. -/
def procedureText (cs : List Char) : List Char :=
  trimChars (withoutDirectives 0 true (stripCommentChars cs))

def procedureStatement? (cs : List Char) : Option (List Char) :=
  firstMatch? (fun cs => (procedureReading? cs).map fun _ => cs) (procedureText cs)

def replaces (statement : List Char) : Bool :=
  ((afterSpaced? "CREATE" statement).bind (afterSpacedPhrase? ["OR", "ALTER"])).isSome

/-- A script whose rewriting changes the statement that the script is read by, or nothing where that statement
replaces the procedure already. -/
inductive Aimed (cs : List Char) : Prop
  | already (none : hasWholePhrase ["CREATE", "PROCEDURE"] false cs = false)
      (found : (procedureStatement? cs).any replaces = true) : Aimed cs
  | statement {front words tail kept left : List Char} (whole : cs = front ++ (words ++ tail))
      (phrase : afterPhrase? ["CREATE", "PROCEDURE"] (words ++ tail) = some tail)
      (rewritten : allowExisting false cs = front ++ (createOrAlter ++ tail))
      (comments : OutsideComments (words ++ tail) front kept)
      (directives : OutsideDirectives (stripCommentChars (words ++ tail)) true (trimStart kept) left)
      (read : procedureStatement? cs = some (procedureText (words ++ tail))) : Aimed cs

/-- A script whose rewriting changes a comment: the first `CREATE PROCEDURE` stands between its first character and
the text `rest` after it. -/
inductive InComment (cs : List Char) : Prop
  | comment {front first words last rest kept : List Char} {c : Char}
      (whole : cs = front ++ (c :: first ++ (words ++ (last ++ rest))))
      (phrase : afterPhrase? ["CREATE", "PROCEDURE"] (words ++ (last ++ rest)) = some (last ++ rest))
      (rewritten : allowExisting false cs = front ++ (c :: first ++ (createOrAlter ++ (last ++ rest))))
      (comments : OutsideComments (c :: first ++ (words ++ (last ++ rest))) front kept)
      (piece : frontPiece c (first ++ (words ++ (last ++ rest))) = (.comment, rest)) : InComment cs

section Rewriting

theorem allowExisting_none {inWord : Bool} {cs : List Char}
    (none : hasWholePhrase ["CREATE", "PROCEDURE"] inWord cs = false) : allowExisting inWord cs = cs := by
  induction cs generalizing inWord with
  | nil => rfl
  | cons c cs ih =>
    rw [hasWholePhrase, Bool.or_eq_false_iff, Option.isSome_eq_false_iff, Option.isNone_iff_eq_none] at none
    rw [allowExisting, none.1, ih none.2]

theorem procedureReading?_create {create gap procedure : List Char} (spells : Spells "CREATE" create) (apart : Gap gap)
    (last : Spells "PROCEDURE" procedure) (rest : List Char) :
    procedureReading? (create ++ (gap ++ (procedure ++ rest))) = (afterBlanks? rest).bind identifier? := by
  obtain ⟨c, more, rfl, letter⟩ : ∃ c more, procedure = c :: more ∧ foldCase c = 'P' := by
    cases procedure with
    | nil => cases last
    | cons c more => exact ⟨c, more, rfl, (List.cons.inj last).1⟩
  have solid : ∀ d ∈ (c :: more ++ rest).head?, isBlank d = false := by
    rintro d ⟨⟩
    exact isBlank_of_letter (by rw [letter]; rfl)
  have other : afterSpacedPhrase? ["OR", "ALTER"] (c :: more ++ rest) = none := by
    have unread : afterKeyword? "OR".toList (c :: more ++ rest) = none := by
      change (if foldCase c == 'O' then _ else _) = none
      rw [letter]
      rfl
    rw [afterSpacedPhrase?, afterPhrase?_none unread]
    rfl
  rw [procedureReading?, afterSpaced?_append spells apart solid]
  simp only [Option.bind_eq_bind, Option.bind_some, other, Option.getD_none]
  rw [afterSpaced?, afterKeyword?_append last]
  rfl

theorem procedureReading?_createOrAlter (rest : List Char) :
    procedureReading? (createOrAlter ++ rest) = (afterBlanks? rest).bind identifier? :=
  rfl

theorem createWords_append {create gap procedure : List Char} (spells : Spells "CREATE" create) (apart : Gap gap)
    (last : Spells "PROCEDURE" procedure) : CreateWords (create ++ (gap ++ procedure)) where
  head := by
    cases create with
    | nil => cases spells
    | cons c more => exact ⟨c, more ++ (gap ++ procedure), rfl, (List.cons.inj spells).1⟩
  inside c member := by
    simp only [List.mem_append] at member
    rcases member with word | space | word
    · exact .inl (spells.letter (by decide) word)
    · exact .inr (List.all_eq_true.mp apart.2 c space)
    · exact .inl (last.letter (by decide) word)
  last c found := by
    have given : procedure ≠ [] := by
      rintro rfl
      cases last
    rw [List.getLast?_append, List.getLast?_append, List.getLast?_eq_some_getLast given] at found
    obtain rfl : procedure.getLast given = c := Option.some.inj found
    exact isBlank_of_letter (last.letter (by decide) (List.getLast_mem given))
  other c member := by
    have letter {keyword : String} {word : List Char} (spells : Spells keyword word) (inside : c ∈ word) :
        foldCase c ∈ keyword.toList := spells ▸ List.mem_map_of_mem inside
    simp only [List.mem_append] at member
    rintro same
    rcases member with word | space | word
    · exact absurd (same ▸ letter spells word) (by decide)
    · have blank := List.all_eq_true.mp apart.2 c space
      rw [← foldCase_of_blank blank, same] at blank
      cases blank
    · exact absurd (same ▸ letter last word) (by decide)

/-- The words of the phrase that the rewriting looks for. -/
theorem createWords_of_phrase {words tail : List Char}
    (phrase : afterPhrase? ["CREATE", "PROCEDURE"] (words ++ tail) = some tail) : CreateWords words ∧
      ∀ rest, procedureReading? (words ++ rest) = (afterBlanks? rest).bind identifier? := by
  rw [afterPhrase?, Option.bind_eq_some_iff] at phrase
  · obtain ⟨after, first, second⟩ := phrase
    obtain ⟨create, gap, spells, apart, split⟩ := afterSpaced?_eq_some first
    obtain ⟨procedure, last, rfl⟩ := afterKeyword?_eq_some second
    obtain rfl : words = create ++ (gap ++ procedure) := by
      apply (List.append_left_inj tail).mp
      rw [split]
      simp only [List.append_assoc]
    refine ⟨createWords_append spells apart last, fun rest => ?_⟩
    · rw [List.append_assoc, List.append_assoc]
      exact procedureReading?_create spells apart last rest
  · exact List.cons_ne_nil _ _

end Rewriting

section Joint

theorem letter_c {c : Char} (letter : foldCase c = 'C') : c = 'c' ∨ c = 'C' := by
  rw [foldCase] at letter
  split at letter
  · cases letter
  · split at letter
    · cases letter
    · split at letter
      · cases letter
      · change dite _ _ _ = 'C' at letter
        split at letter
        · next small =>
          have same := congrArg Char.val letter
          refine .inl (Char.ext ?_)
          dsimp only at same
          grind
        · exact .inr letter

private theorem head?_after_c {start blanks front more : List Char} (early : 'C' ∉ start) (late : 'C' ∉ blanks)
    (given : front ≠ [])
    (split : 'C' :: (start ++ 'C' :: ("EDURE".toList ++ blanks)) = front ++ 'C' :: more) : more.head? = some 'E' := by
  obtain ⟨c, front, rfl⟩ := List.exists_cons_of_ne_nil given
  have rest := (List.cons.inj split).2
  rcases List.append_eq_append_iff.mp rest with ⟨middle, _, after⟩ | ⟨middle, before, after⟩
  · cases middle with
    | nil => rw [← (List.cons.inj after).2]; rfl
    | cons d middle =>
      have inside : 'C' ∈ "EDURE".toList ++ blanks := by
        rw [(List.cons.inj after).2]
        exact List.mem_append_right middle List.mem_cons_self
      rcases List.mem_append.mp inside with inside | inside
      · exact absurd inside (by decide)
      · exact absurd inside late
  · cases middle with
    | nil => rw [(List.cons.inj after).2]; rfl
    | cons d middle =>
      obtain ⟨rfl, _⟩ := List.cons.inj after
      exact absurd (before ▸ List.mem_append_right front List.mem_cons_self) early

/-- The one C after the first letter of a head is that of its last word. -/
theorem ProcedureHead.letter_e {head front more : List Char} {c : Char} (words : ProcedureHead head)
    (split : head = front ++ c :: more) (given : front ≠ []) (letter : foldCase c = 'C') :
    more.head?.map foldCase = some 'E' := by
  have blank {gap : List Char} (apart : Gap gap) : 'C' ∉ gap.map foldCase := by
    intro member
    obtain ⟨d, inside, same⟩ := List.mem_map.mp member
    have space := List.all_eq_true.mp apart.2 d inside
    rw [foldCase_of_blank space] at same
    rw [same] at space
    cases space
  -- Written out in capitals a head has just two of the letter: the first one, and one before `EDURE`.
  have folded := congrArg (List.map foldCase) split
  rw [List.map_append, List.map_cons, letter] at folded
  rw [← List.head?_map]
  have some : front.map foldCase ≠ [] := fun none => given (List.map_eq_nil_iff.mp none)
  cases words with
  | @create create gap procedure blanks spells apart last wide =>
    have shape : (create ++ (gap ++ (procedure ++ blanks))).map foldCase = 'C' :: (("REATE".toList ++
        (gap.map foldCase ++ "PRO".toList)) ++ 'C' :: ("EDURE".toList ++ blanks.map foldCase)) := by
      simp only [List.map_append]
      rw [spells, last]
      simp
    rw [shape] at folded
    refine head?_after_c ?_ (blank wide) some folded
    simp [blank apart]
  | @createOrAlter create gap one between two apart procedure blanks spells gapCreate spellsOne gapOne spellsTwo gapTwo
      last wide =>
    have shape : (create ++ (gap ++ (one ++ (between ++ (two ++ (apart ++ (procedure ++ blanks))))))).map foldCase =
        'C' :: (("REATE".toList ++ (gap.map foldCase ++ ("OR".toList ++ (between.map foldCase ++ ("ALTER".toList ++
          (apart.map foldCase ++ "PRO".toList)))))) ++ 'C' :: ("EDURE".toList ++ blanks.map foldCase)) := by
      simp only [List.map_append]
      rw [spells, spellsOne, spellsTwo, last]
      simp
    rw [shape] at folded
    refine head?_after_c ?_ (blank wide) some folded
    simp [blank gapCreate, blank gapOne, blank gapTwo]

/-- A head that starts before a statement is complete there: it cannot take its last words from `createOrAlter`. -/
theorem procedureReading?_replace {words front rest : List Char} (create : CreateWords words) (given : front ≠ [])
    (unread : procedureReading? (front ++ (words ++ rest)) = none) :
    procedureReading? (front ++ (createOrAlter ++ rest)) = none := by
  rw [Option.eq_none_iff_forall_not_mem]
  rintro ⟨name, after⟩ read
  obtain ⟨head, heads, split, named⟩ := ProcedureHead.of_reading read
  have cut : (∃ c middle, head = front ++ c :: middle ∧ createOrAlter ++ rest = c :: (middle ++ (name ++ after))) ∨
      ∃ middle, front = head ++ middle ∧ name ++ after = middle ++ (createOrAlter ++ rest) := by
    rcases List.append_eq_append_iff.mp split with ⟨middle, whole, text⟩ | ⟨middle, whole, text⟩
    · cases middle with
      | nil => exact .inr ⟨[], by rw [whole, List.append_nil, List.append_nil], text.symm⟩
      | cons c middle => exact .inl ⟨c, middle, whole, text⟩
    · exact .inr ⟨middle, whole, text⟩
  rcases cut with ⟨c, middle, whole, text⟩ | ⟨middle, rfl, text⟩
  · -- Within a head the letter is followed by an E, and in `createOrAlter` by an R.
    have later := List.cons.inj text
    obtain rfl : 'C' = c := later.1
    have letter := heads.letter_e whole given (by decide)
    cases middle with
    | nil => cases letter
    | cons d middle =>
      obtain rfl : 'R' = d := (List.cons.inj later.2).1
      exact absurd (Option.some.inj letter) (by decide)
  · have start : ∃ d more, middle ++ (words ++ rest) = d :: more ∧ isIdentifierChar d = true := by
      cases middle with
      | nil =>
        obtain ⟨d, more, rfl, letter⟩ := create.head
        refine ⟨d, more ++ rest, rfl, ?_⟩
        rcases letter_c letter with rfl | rfl <;> decide
      | cons d middle =>
        obtain ⟨e, name, rfl⟩ := List.exists_cons_of_ne_nil named.given
        obtain ⟨rfl, _⟩ := List.cons.inj text
        exact ⟨e, middle ++ (words ++ rest), rfl, named.inside e List.mem_cons_self⟩
    obtain ⟨d, more, shape, inside⟩ := start
    obtain ⟨⟨other, left⟩, found⟩ : ∃ found, identifier? (middle ++ (words ++ rest)) = some found := by
      rw [shape, identifier?, List.takeWhile_cons_of_pos inside]
      exact ⟨_, rfl⟩
    obtain ⟨same, before⟩ := identifier?_eq_some found
    rw [List.append_assoc, same, heads.reads before] at unread
    cases unread

end Joint

section FirstMatch

variable {α : Type} {read? : List Char → Option α}

theorem firstMatch?_skip {front rest : List Char} (unread : ∀ v, v ≠ [] → v <:+ front → read? (v ++ rest) = none) :
    firstMatch? read? (front ++ rest) = firstMatch? read? rest := by
  induction front with
  | nil => rfl
  | cons c front ih =>
    have here := unread (c :: front) (List.cons_ne_nil c front) List.suffix_rfl
    rw [List.cons_append] at here
    rw [List.cons_append, firstMatch?, here, Option.none_or]
    exact ih fun v given suffix => unread v given (suffix.trans (List.suffix_cons c front))

/-- The place of the first result is that of the first text with a result. -/
theorem firstMatch?_place {cs rest : List Char}
    (found : firstMatch? (fun cs => (read? cs).map fun _ => cs) cs = some rest) : ∃ front result,
      cs = front ++ rest ∧ read? rest = some result ∧ ∀ v, v ≠ [] → v <:+ front → read? (v ++ rest) = none := by
  have last {cs : List Char} (found : (read? cs).map (fun _ => cs) = some rest) : ∃ front result,
      cs = front ++ rest ∧ read? rest = some result ∧ ∀ v, v ≠ [] → v <:+ front → read? (v ++ rest) = none := by
    obtain ⟨result, read, rfl⟩ := Option.map_eq_some_iff.mp found
    exact ⟨[], result, rfl, read, fun v given suffix => absurd (List.suffix_nil.mp suffix) given⟩
  induction cs with
  | nil => exact last found
  | cons c cs ih =>
    rw [firstMatch?, Option.or_eq_some_iff] at found
    rcases found with found | ⟨none, found⟩
    · exact last found
    · obtain ⟨front, result, rfl, read, unread⟩ := ih found
      refine ⟨c :: front, result, rfl, read, fun v given suffix => ?_⟩
      rcases List.suffix_cons_iff.mp suffix with rfl | suffix
      · exact Option.map_eq_none_iff.mp none
      · exact unread v given suffix

end FirstMatch

section Reading

/-- What is left of a script after the words of its statement. -/
def statementRest (tail : List Char) : List Char :=
  trimEnd (withoutDirectives 0 false (trimEnd (keptChars tail)))

variable {words : List Char} (create : CreateWords words)
include create

theorem CreateWords.trimChars_eq (front rest : List Char) :
    trimChars (front ++ (words ++ rest)) = trimStart front ++ (words ++ trimEnd rest) := by
  have start : trimStart (front ++ (words ++ rest)) = trimStart front ++ (words ++ rest) := by
    by_cases none : trimStart front = []
    · rw [trimStart_blanks (blank_of_trimStart none), none, trimStart_head (create.solid rest), List.nil_append]
    · exact trimStart_append none (words ++ rest)
  have stop : ∀ c, (trimStart front ++ words).getLast? = some c → isBlank c = false := by
    intro c last
    rw [List.getLast?_append, List.getLast?_eq_some_getLast create.ne_nil] at last
    exact create.last c ((List.getLast?_eq_some_getLast create.ne_nil).trans last)
  rw [trimChars, start, ← List.append_assoc, trimEnd_after stop, List.append_assoc]

theorem CreateWords.stripCommentChars_eq (tail : List Char) :
    stripCommentChars (words ++ tail) = words ++ trimEnd (keptChars tail) := by
  rw [Script.stripCommentChars_eq, create.keptChars_append]
  exact create.trimChars_eq [] (keptChars tail)

variable {front tail kept : List Char} (comments : OutsideComments (words ++ tail) front kept)

include comments in
theorem OutsideComments.stripCommentChars_eq :
    stripCommentChars (front ++ (words ++ tail)) = trimStart kept ++ stripCommentChars (words ++ tail) := by
  rw [Script.stripCommentChars_eq, comments.keptChars_eq, create.keptChars_append, create.trimChars_eq,
    create.stripCommentChars_eq]

variable {left : List Char}
  (directives : OutsideDirectives (stripCommentChars (words ++ tail)) true (trimStart kept) left)

include comments directives in
theorem OutsideDirectives.procedureText_eq :
    procedureText (front ++ (words ++ tail)) = trimStart left ++ (words ++ statementRest tail) := by
  rw [create.stripCommentChars_eq] at directives
  rw [procedureText, comments.stripCommentChars_eq create, create.stripCommentChars_eq,
    directives.withoutDirectives_eq create, create.trimChars_eq, statementRest]

theorem CreateWords.procedureText_eq (tail : List Char) :
    procedureText (words ++ tail) = words ++ statementRest tail :=
  OutsideDirectives.procedureText_eq create (.nil : OutsideComments (words ++ tail) [] []) .nil

include comments directives in
/-- Text before a statement that now replaces a procedure is read as before, and the terminator is the same. -/
theorem procedureText_createOrAlter :
    procedureText (front ++ (createOrAlter ++ tail)) = trimStart left ++ (createOrAlter ++ statementRest tail) ∧
      terminatorOf (stripCommentChars (front ++ (createOrAlter ++ tail))) =
        terminatorOf (stripCommentChars (front ++ (words ++ tail))) := by
  have later := createWords_createOrAlter
  have newComments := @OutsideComments.replace _ _ create later [] tail _ _ comments
  rw [create.stripCommentChars_eq] at directives
  constructor
  · refine OutsideDirectives.procedureText_eq later newComments ?_
    rw [later.stripCommentChars_eq]
    exact directives.replace create _
  · rw [newComments.stripCommentChars_eq later, comments.stripCommentChars_eq create, later.stripCommentChars_eq,
      create.stripCommentChars_eq, terminatorOf, terminatorOf, directives.firstTerminator?_replace create]

end Reading

theorem OutsideComments.keptChars_comment {c : Char} {front first rest kept : List Char}
    (comments : OutsideComments (c :: first) front kept) (piece : frontPiece c first = (.comment, rest)) :
    keptChars (front ++ c :: first) = kept ++ keptChars rest := by
  rw [comments.keptChars_eq, keptChars, pieces, List.flatMap_cons, piece]
  rfl

/-- A phrase in a comment is rewritten there, and nothing else is read. -/
theorem InComment.stripCommentChars_eq {cs : List Char} (inside : InComment cs) :
    stripCommentChars (allowExisting false cs) = stripCommentChars cs := by
  obtain ⟨whole, phrase, rewritten, comments, piece⟩ := inside
  obtain ⟨create, _⟩ := createWords_of_phrase phrase
  have later := createWords_createOrAlter
  have newPiece := frontPiece_inside create later (by decide) piece
  have newComments := comments.replace create later
  rw [Script.stripCommentChars_eq, Script.stripCommentChars_eq, rewritten, whole]
  exact congrArg trimChars ((newComments.keptChars_comment newPiece).trans (comments.keptChars_comment piece).symm)

end Script

namespace Procedure

/-- The rewritten script is read as the procedure, from a statement that replaces a procedure that exists. -/
def Replaced (script : String) (p : Procedure) : Prop :=
  Procedure.ofScript (toCreateOrAlter script) = .ok p ∧
    ∃ statement, procedureStatement? (toCreateOrAlter script).toList = some statement ∧ replaces statement = true

theorem ofScript_congr {one two : String} (same : stripCommentChars two.toList = stripCommentChars one.toList)
    {p : Procedure} (read : Procedure.ofScript one = .ok p) : Procedure.ofScript two = .ok p := by
  cases reading : firstMatch? procedureReading? (procedureText one.toList) with
  | none =>
    rw [ofScript] at read
    cases given : requireText .procedure one <;> rw [given] at read
    · cases read
    · simp only [bind, Except.bind, ← procedureText.eq_def, reading] at read
      cases read
  | some found =>
    have again : procedureText two.toList = procedureText one.toList := by rw [procedureText, same, procedureText]
    rw [ofScript_eq rfl reading] at read
    rw [ofScript_eq again reading, same, read]

theorem replaced_of_aimed {script : String} {p : Procedure} (read : Procedure.ofScript script = .ok p)
    (aimed : Aimed script.toList) : Replaced script p := by
  cases aimed with
  | already none found =>
    have same : toCreateOrAlter script = script := by
      rw [toCreateOrAlter, allowExisting_none none, String.ofList_toList]
    rw [Replaced, same]
    exact ⟨read, (Option.any_eq_true _ _).mp found⟩
  | @statement front words tail kept left whole phrase rewritten comments directives matched =>
    obtain ⟨create, reads⟩ := createWords_of_phrase phrase
    obtain ⟨newText, terminator⟩ := procedureText_createOrAlter create comments directives
    have text := directives.procedureText_eq create comments
    have chars : (toCreateOrAlter script).toList = front ++ (createOrAlter ++ tail) := by
      rw [toCreateOrAlter, String.toList_ofList, rewritten]
    rw [← whole] at text terminator
    rw [← chars] at newText terminator
    -- The statement is read at the same place, and its name and its source follow the words that are replaced.
    rw [procedureStatement?, text, create.procedureText_eq] at matched
    obtain ⟨before, ⟨name, rest⟩, split, here, unread⟩ := firstMatch?_place matched
    obtain rfl : trimStart left = before := (List.append_left_inj _).mp split
    have newHere : procedureReading? (createOrAlter ++ statementRest tail) = some (name, rest) := by
      rw [procedureReading?_createOrAlter, ← reads, here]
    have newUnread (v : List Char) (given : v ≠ []) (suffix : v <:+ trimStart left) :
        procedureReading? (v ++ (createOrAlter ++ statementRest tail)) = none :=
      procedureReading?_replace create given (unread v given suffix)
    constructor
    · have reading := (firstMatch?_skip unread).trans (firstMatch?_front here)
      have newReading := (firstMatch?_skip newUnread).trans (firstMatch?_front newHere)
      rw [ofScript_eq text reading] at read
      rw [ofScript_eq newText newReading, terminator, read]
    · refine ⟨createOrAlter ++ statementRest tail, ?_, rfl⟩
      rw [procedureStatement?, newText, firstMatch?_skip fun v given suffix => by rw [newUnread v given suffix]; rfl]
      exact firstMatch?_front (by rw [newHere]; rfl)

/-- A rewriting that picks the statement of a script makes a replacement of it, and one that picks a comment leaves
the statement as it is. -/
theorem replaced_toCreateOrAlter {script : String} {p : Procedure} (read : Procedure.ofScript script = .ok p) :
    (Aimed script.toList → Replaced script p) ∧ (InComment script.toList →
      (Replaced script p ↔ (procedureStatement? script.toList).any replaces = true)) := by
  refine ⟨replaced_of_aimed read, fun inside => ?_⟩
  have same : stripCommentChars (toCreateOrAlter script).toList = stripCommentChars script.toList := by
    rw [toCreateOrAlter, String.toList_ofList, inside.stripCommentChars_eq]
  rw [Replaced, procedureStatement?, procedureText, same, ← procedureText, ← procedureStatement?,
    Option.any_eq_true]
  exact and_iff_right (ofScript_congr same read)

/-- The definition of a procedure after a line of comment. -/
def afterNote (note : String) : String :=
  String.ofList ('-' :: '-' :: (note.toList ++ '\n' :: "CREATE PROCEDURE P AS BEGIN END".toList))

private theorem stripCommentChars_afterNote {note : String} (line : '\n' ∉ note.toList) :
    stripCommentChars (afterNote note).toList = "CREATE PROCEDURE P AS BEGIN END".toList := by
  rw [afterNote, String.toList_ofList, Script.stripCommentChars_eq, keptChars_line, dropLine_skip line]
  have kept : keptChars "\nCREATE PROCEDURE P AS BEGIN END".toList = _ := keptChars_eq_self (by decide)
  exact congrArg trimChars kept

private theorem ofScript_afterNote {note : String} (line : '\n' ∉ note.toList) :
    Procedure.ofScript (afterNote note) = .ok ⟨"P", "AS BEGIN END", none, by decide, by decide⟩ := by
  have reading : firstMatch? procedureReading? (procedureText (afterNote note).toList) =
      some ("P".toList, " AS BEGIN END".toList) := by
    rw [procedureText, stripCommentChars_afterNote line]
    decide +kernel
  have named : String.ofList (upperChars "P".toList) = "P" := by decide +kernel
  have source : dropTerminator [';'] (dropTerminator (terminatorOf "CREATE PROCEDURE P AS BEGIN END".toList)
      (trimChars " AS BEGIN END".toList)) = "AS BEGIN END".toList := by decide +kernel
  rw [ofScript_eq rfl reading, stripCommentChars_afterNote line, named, source, String.ofList_toList]
  rfl

private theorem aimed_afterNote : Aimed (afterNote " notes").toList := by
  have line := @OutsideComments.piece ("CREATE PROCEDURE".toList ++ " P AS BEGIN END".toList) '\n' [] [] _ rfl .nil
  have comments := @OutsideComments.piece _ '-' "- notes\n".toList ['\n'] _ rfl line
  have phrase : afterPhrase? ["CREATE", "PROCEDURE"] ("CREATE PROCEDURE".toList ++ " P AS BEGIN END".toList) =
      some " P AS BEGIN END".toList := by decide +kernel
  obtain ⟨create, _⟩ := createWords_of_phrase phrase
  have kept : keptChars " P AS BEGIN END".toList = " P AS BEGIN END".toList := keptChars_eq_self (by decide)
  refine .statement (by decide) phrase (by decide +kernel) comments .nil ?_
  rw [create.procedureText_eq, statementRest, procedureStatement?, procedureText,
    stripCommentChars_afterNote (by decide), kept]
  decide +kernel

private theorem inComment_afterNote : InComment (afterNote " CREATE PROCEDURE P").toList :=
  @InComment.comment _ [] "- ".toList "CREATE PROCEDURE".toList " P".toList
    "\nCREATE PROCEDURE P AS BEGIN END".toList _ '-' (by decide) (by decide +kernel) (by decide +kernel) .nil rfl

/-- The first script has nothing else in its comment, and the second one has the phrase there. -/
theorem replaced_toCreateOrAlter_afterNote :
    (∃ p, Procedure.ofScript (afterNote " notes") = .ok p ∧ Replaced (afterNote " notes") p) ∧
      ∃ p, Procedure.ofScript (afterNote " CREATE PROCEDURE P") = .ok p ∧
        ¬Replaced (afterNote " CREATE PROCEDURE P") p := by
  have read := ofScript_afterNote (show '\n' ∉ " notes".toList by decide)
  have commented := ofScript_afterNote (show '\n' ∉ " CREATE PROCEDURE P".toList by decide)
  refine ⟨⟨_, read, (replaced_toCreateOrAlter read).1 aimed_afterNote⟩, _, commented, ?_⟩
  rw [(replaced_toCreateOrAlter commented).2 inComment_afterNote, procedureStatement?, procedureText,
    stripCommentChars_afterNote (by decide)]
  decide +kernel

end Procedure

end SchemaSync
