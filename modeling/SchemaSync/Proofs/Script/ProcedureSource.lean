import SchemaSync.Proofs.Script.Batch
import SchemaSync.Proofs.Script.DomainScript
import SchemaSync.Proofs.Script.SourceText

/-! The source of a procedure in its script: where it starts, after keywords and the name, and where it ends, before
the terminator. -/

namespace SchemaSync

open Text Script

namespace Script

inductive ProcedureHead : List Char → Prop
  | create {create gap procedure blanks : List Char} : Spells "CREATE" create → Gap gap →
      Spells "PROCEDURE" procedure → Gap blanks → ProcedureHead (create ++ (gap ++ (procedure ++ blanks)))
  | createOrAlter {create gap one between two apart procedure blanks : List Char} : Spells "CREATE" create →
      Gap gap → Spells "OR" one → Gap between → Spells "ALTER" two → Gap apart →
      Spells "PROCEDURE" procedure → Gap blanks →
      ProcedureHead (create ++ (gap ++ (one ++ (between ++ (two ++ (apart ++ (procedure ++ blanks)))))))

theorem afterSpaced?_eq_some {keyword : String} {cs rest : List Char} (read : afterSpaced? keyword cs = some rest) :
    ∃ word gap, Spells keyword word ∧ Gap gap ∧ cs = word ++ (gap ++ rest) := by
  obtain ⟨after, spelled, blanks⟩ := Option.bind_eq_some_iff.mp read
  obtain ⟨word, spells, rfl⟩ := afterKeyword?_eq_some spelled
  obtain ⟨gap, apart, rfl⟩ := afterBlanks?_eq_some blanks
  exact ⟨word, gap, spells, apart, rfl⟩

namespace ProcedureHead

theorem of_reading {cs name rest : List Char} (read : procedureReading? cs = some (name, rest)) :
    ∃ head, ProcedureHead head ∧ cs = head ++ (name ++ rest) ∧ NameBefore name rest := by
  simp only [procedureReading?, Option.bind_eq_bind, Option.bind_eq_some_iff] at read
  obtain ⟨afterCreate, create, afterProcedure, procedure, read⟩ := read
  obtain ⟨one, gap, spellsOne, apart, rfl⟩ := afterSpaced?_eq_some create
  obtain ⟨rfl, named⟩ := identifier?_eq_some read
  cases either : afterSpacedPhrase? ["OR", "ALTER"] afterCreate with
  | none =>
    rw [either, Option.getD_none] at procedure
    obtain ⟨word, blanks, spells, wide, rfl⟩ := afterSpaced?_eq_some procedure
    refine ⟨_, .create spellsOne apart spells wide, ?_, named⟩
    simp only [List.append_assoc]
  | some afterAlter =>
    rw [either, Option.getD_some] at procedure
    obtain ⟨word, blanks, spells, wide, rfl⟩ := afterSpaced?_eq_some procedure
    obtain ⟨or, between, alter, tail, spellsOr, gapOr, spellsAlter, gapAlter, rfl⟩ := afterSpacedPhrase?_eq_some either
    refine ⟨_, .createOrAlter spellsOne apart spellsOr gapOr spellsAlter gapAlter spells wide, ?_, named⟩
    simp only [List.append_assoc]

variable {head : List Char} (words : ProcedureHead head)
include words

theorem letter_or_blank {c : Char} (member : c ∈ head) : (foldCase c).isAlpha = true ∨ isBlank c = true := by
  have blank {gap : List Char} (apart : Gap gap) (member : c ∈ gap) : isBlank c = true :=
    List.all_eq_true.mp apart.2 c member
  cases words with
  | create spells gap procedure blanks =>
    simp only [List.mem_append] at member
    rcases member with word | space | word | space
    · exact .inl (spells.letter (by decide) word)
    · exact .inr (blank gap space)
    · exact .inl (procedure.letter (by decide) word)
    · exact .inr (blank blanks space)
  | createOrAlter spells gap one between two apart procedure blanks =>
    simp only [List.mem_append] at member
    rcases member with word | space | word | space | word | space | word | space
    · exact .inl (spells.letter (by decide) word)
    · exact .inr (blank gap space)
    · exact .inl (one.letter (by decide) word)
    · exact .inr (blank between space)
    · exact .inl (two.letter (by decide) word)
    · exact .inr (blank apart space)
    · exact .inl (procedure.letter (by decide) word)
    · exact .inr (blank blanks space)

theorem starts : ∃ c more, head = c :: more ∧ foldCase c = 'C' := by
  have first {create rest : List Char} (spells : Spells "CREATE" create) :
      ∃ c more, create ++ rest = c :: more ∧ foldCase c = 'C' := by
    cases create with
    | nil => cases spells
    | cons c more => exact ⟨c, more ++ rest, rfl, (List.cons.inj spells).1⟩
  cases words with
  | create spells => exact first spells
  | createOrAlter spells => exact first spells

theorem reads {name rest : List Char} (named : NameBefore name rest) :
    procedureReading? (head ++ (name ++ rest)) = some (name, rest) := by
  have start : ∀ c ∈ (name ++ rest).head?, isBlank c = false := by
    obtain ⟨c, more, rfl⟩ := List.exists_cons_of_ne_nil named.given
    rintro d ⟨⟩
    exact isBlank_of_isIdentifierChar (named.inside c List.mem_cons_self)
  have solid {keyword : String} {word : List Char} (spells : Spells keyword word)
      (letters : keyword.toList.all Char.isAlpha = true) (given : keyword.toList ≠ []) :
      ∃ c more, word = c :: more ∧ isBlank c = false := by
    cases word with
    | nil => exact absurd spells.symm given
    | cons c more => exact ⟨c, more, rfl, isBlank_of_letter (spells.letter letters List.mem_cons_self)⟩
  have front {keyword : String} {word : List Char} (spells : Spells keyword word)
      (letters : keyword.toList.all Char.isAlpha = true) (given : keyword.toList ≠ []) (rest : List Char) :
      ∀ c ∈ (word ++ rest).head?, isBlank c = false := by
    obtain ⟨c, more, rfl, here⟩ := solid spells letters given
    rintro d ⟨⟩
    exact here
  cases words with
  | @create create gap procedure blanks spells apart spellsProcedure wide =>
    have last := afterSpaced?_append spellsProcedure wide start
    have first := afterSpaced?_append spells apart (front spellsProcedure (by decide) (by decide) (blanks ++ (name ++ rest)))
    -- The optional words are tried first, and `PROCEDURE` starts with another letter.
    have other : afterSpacedPhrase? ["OR", "ALTER"] (procedure ++ (blanks ++ (name ++ rest))) = none := by
      obtain ⟨p, more, rfl, _⟩ := solid spellsProcedure (by decide) (by decide)
      have letter : foldCase p = 'P' := (List.cons.inj spellsProcedure).1
      have unread : afterKeyword? "OR".toList (p :: more ++ (blanks ++ (name ++ rest))) = none := by
        change (if foldCase p == 'O' then _ else _) = none
        rw [letter]
        rfl
      rw [afterSpacedPhrase?, afterPhrase?_none unread]
      rfl
    simp only [List.append_assoc, procedureReading?, first, Option.bind_eq_bind, Option.bind_some, other,
      Option.getD_none, last]
    exact identifier?_named named
  | @createOrAlter create gap one between two apart procedure blanks spells gapCreate spellsOne gapOne spellsTwo gapTwo
      spellsProcedure wide =>
    have last := afterSpaced?_append spellsProcedure wide start
    have inner := front spellsProcedure (by decide) (by decide) (blanks ++ (name ++ rest))
    have given : two ≠ [] := by
      obtain ⟨c, more, rfl, _⟩ := solid spellsTwo (by decide) (by decide)
      exact List.cons_ne_nil c more
    have alter : ∀ c ∈ two.head?, isBlank c = false := by
      simpa using front spellsTwo (by decide) (by decide) []
    have either := afterSpacedPhrase?_append spellsOne gapOne spellsTwo gapTwo alter given inner
    have first := afterSpaced?_append spells gapCreate (front spellsOne (by decide) (by decide)
      (between ++ (two ++ (apart ++ (procedure ++ (blanks ++ (name ++ rest)))))))
    simp only [List.append_assoc, procedureReading?, first, Option.bind_eq_bind, Option.bind_some, either,
      Option.getD_some, last]
    exact identifier?_named named

end ProcedureHead

theorem procedureReading?_other {c : Char} (other : foldCase c ≠ 'C') (rest : List Char) :
    procedureReading? (c :: rest) = none := by
  have create : afterSpaced? "CREATE" (c :: rest) = none := by
    change (if foldCase c == 'C' then _ else none).bind afterBlanks? = none
    rw [beq_eq_false_iff_ne.mpr other]
    rfl
  rw [procedureReading?, create]
  rfl

theorem firstProcedure_lead {lead : List Char} (other : ∀ c ∈ lead, foldCase c ≠ 'C') (rest : List Char) :
    firstMatch? procedureReading? (lead ++ rest) = firstMatch? procedureReading? rest := by
  induction lead with
  | nil => rfl
  | cons c lead ih =>
    rw [List.cons_append, firstMatch?, procedureReading?_other (other c List.mem_cons_self), Option.none_or]
    exact ih fun d member => other d (List.mem_cons_of_mem c member)

theorem procedureReading?_append {cs name source : List Char} (read : procedureReading? cs = some (name, source))
    (given : source ≠ []) (rest : List Char) : procedureReading? (cs ++ rest) = some (name, source ++ rest) := by
  obtain ⟨head, words, rfl, named⟩ := ProcedureHead.of_reading read
  have goesOn : NameBefore name (source ++ rest) := by
    refine ⟨named.given, named.inside, ?_⟩
    obtain ⟨c, more, rfl⟩ := List.exists_cons_of_ne_nil given
    exact named.stop
  rw [List.append_assoc, List.append_assoc]
  exact words.reads goesOn

theorem IsTerminator.trimEnd_append {terminator : List Char} (current : IsTerminator terminator) (front : List Char) :
    trimEnd (front ++ terminator) = front ++ terminator := by
  apply trimEnd_last
  intro c last
  rw [List.getLast?_append, List.getLast?_eq_some_getLast current.nonempty, Option.some_or] at last
  exact current.solid (Option.some.inj last ▸ List.getLast_mem current.nonempty)

section Terminator

variable {terminator : List Char}

theorem dropTerminator_append (front : List Char) : dropTerminator terminator (front ++ terminator) = trimEnd front := by
  rw [dropTerminator, if_pos (List.isSuffixOf_iff_suffix.mpr ⟨front, rfl⟩), List.length_append, Nat.add_sub_cancel,
    List.take_left]

theorem dropTerminator_other (given : terminator ≠ []) {cs : List Char} (other : ∀ c ∈ cs.getLast?, c ∉ terminator) :
    dropTerminator terminator cs = cs := by
  rw [dropTerminator, if_neg]
  rw [List.isSuffixOf_iff_suffix]
  rintro ⟨front, split⟩
  have last := List.getLast?_eq_some_getLast given
  apply other (terminator.getLast given)
  · rw [← split, List.getLast?_append, last]
    rfl
  · exact List.getLast_mem given

def IsMark (terminator mark : List Char) : Prop :=
  mark = [] ∨ ∃ gap, (∀ c ∈ gap, isBlank c = true) ∧ mark = gap ++ terminator

theorem IsTerminator.dropTerminator_mark {mark cs : List Char} (current : IsTerminator terminator)
    (given : trimStart cs ≠ []) (other : ∀ c ∈ (trimChars cs).getLast?, c ∉ terminator)
    (marked : IsMark terminator mark) : dropTerminator terminator (trimChars (cs ++ mark)) = trimChars cs := by
  rcases marked with rfl | ⟨gap, blank, rfl⟩
  · rw [List.append_nil, dropTerminator_other current.nonempty other]
  · rw [trimChars, trimStart_append given, ← List.append_assoc, current.trimEnd_append, dropTerminator_append,
      trimEnd_blanks blank, trimChars]

theorem dropTerminator_sublist (terminator cs : List Char) : (dropTerminator terminator cs).Sublist cs := by
  rw [dropTerminator]
  split
  · exact (trimEnd_front _).sublist.trans (List.take_sublist _ _)
  · exact List.Sublist.refl _

theorem trimmed_dropTerminator {cs : List Char} (trimmed : Trimmed cs) (terminator : List Char) :
    Trimmed (dropTerminator terminator cs) := by
  rw [dropTerminator]
  split
  · refine ⟨trimEnd_head fun c head => trimmed.head c ?_, last_trimEnd _⟩
    rw [List.head?_take] at head
    split at head
    · cases head
    · exact head
  · exact trimmed

theorem bare_dropTerminator {cs : List Char} (bare : Bare cs) : Bare (dropTerminator [';'] cs) := by
  by_cases last : cs.getLast? = some ';'
  · obtain ⟨front, rfl⟩ := List.getLast?_eq_some_iff.mp last
    rw [dropTerminator_append]
    refine (bare.of_append (by decide) ?_).trimEnd
    rintro c ⟨⟩
    decide
  · rwa [dropTerminator_other (List.cons_ne_nil ';' [])]
    exact fun c found same => last (List.mem_singleton.mp same ▸ found)

end Terminator

end Script

theorem isBlankText_ofList {cs : List Char} (given : cs ≠ []) (start : ∀ c ∈ cs.head?, isBlank c = false) :
    isBlankText (String.ofList cs) = false := by
  obtain ⟨c, rest, rfl⟩ := List.exists_cons_of_ne_nil given
  exact isBlankText_of_mem List.mem_cons_self (start c rfl)

/-- What a script reads as when a definition is left of it. -/
theorem Procedure.ofScript_eq {script : String} {text name rest : List Char}
    (left : trimChars (withoutDirectives 0 true (stripCommentChars script.toList)) = text)
    (reading : firstMatch? procedureReading? text = some (name, rest)) : Procedure.ofScript script =
      if (dropTerminator [';'] (dropTerminator (terminatorOf (stripCommentChars script.toList)) (trimChars rest))).isEmpty
      then .error (.script (.noBody (String.ofList (upperChars name))))
      else Procedure.create (String.ofList (upperChars name)) (String.ofList (dropTerminator [';']
        (dropTerminator (terminatorOf (stripCommentChars script.toList)) (trimChars rest)))) none := by
  have given : requireText .procedure script = .ok () := by
    rw [requireText, if_neg]
    intro blank
    have all : ∀ c ∈ script.toList, isBlank c = true := List.all_eq_true.mp blank
    have none : stripCommentChars script.toList = [] := by
      have kept := keptChars_blanks all []
      rw [List.append_nil, keptChars_nil, List.append_nil] at kept
      rw [stripCommentChars_eq, kept, ← List.append_nil script.toList, trimChars_blanks all]
      rfl
    rw [none] at left
    subst left
    cases reading
  rw [Procedure.ofScript, given]
  simp only [bind, Except.bind, left, reading]

end SchemaSync
