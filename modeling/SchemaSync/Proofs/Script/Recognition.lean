import SchemaSync.Proofs.Script.LetterCase
import SchemaSync.Proofs.Script.Replacement
import SchemaSync.Proofs.Script.WholePhrase

/-! Which of the scripts that can be read are told to be of a kind. The readers find the words that they look for
wherever these stand, but the words tell a kind only if no word reaches up to them. A procedure is also looked for
without the directives of its script, which may stand between the words. -/

namespace SchemaSync

open Text

namespace Script

def definingWords : List (List String) :=
  definingPhrases.flatMap Prod.snd

def StartsDefinition (cs : List Char) : Prop :=
  ∃ phrase ∈ definingWords, (afterWholePhrase? phrase false cs).isSome = true

structure OnlyInWords (cs : List Char) : Prop where
  placed : ∃ front rest, cs = front ++ rest ∧ StartsDefinition rest
  inWord : ∀ front rest, cs = front ++ rest → StartsDefinition rest → endsInWord front = true

structure OnlyWithoutDirectives (script : String) : Prop where
  absent : ∀ front rest, stripCommentChars script.toList = front ++ rest → ¬StartsDefinition rest
  directive : firstTerminator? true (stripCommentChars script.toList) ≠ none
  placed : ∃ front rest, procedureText script.toList = front ++ rest ∧ StartsDefinition rest

def Unrecognizable (script : String) : Prop :=
  OnlyInWords (stripCommentChars script.toList) ∨ OnlyWithoutDirectives script

/-- A script that an object can be read from. -/
inductive Readable (script : String) : Prop
  | domain {d : Domain} (read : Domain.ofScript script = .ok d)
  | table {t : Table} (read : Table.ofScript script = .ok t)
  | procedure {p : Procedure} (read : Procedure.ofScript script = .ok p)

theorem isPhrase_of_mem_definingWords : ∀ phrase ∈ definingWords, IsPhrase phrase := by
  decide

theorem mem_definingWords {phrase : List String} :
    phrase ∈ definingWords ↔ ∃ entry ∈ definingPhrases, phrase ∈ entry.2 :=
  List.mem_flatMap

theorem isSome_afterWholePhrase? {phrase : List String} {inWord : Bool} {cs : List Char} :
    (afterWholePhrase? phrase inWord cs).isSome = true ↔
      inWord = false ∧ (afterWholePhrase? phrase false cs).isSome = true := by
  cases inWord with
  | false => exact (and_iff_right rfl).symm
  | true => exact iff_of_false Bool.false_ne_true fun both => by cases both.1

/-- The kind of a script cannot be told if all definitions in its text start inside a word. -/
theorem kindOf?_eq_none_iff {script : String} : kindOf? script = none ↔
    ∀ front rest, stripCommentChars script.toList = front ++ rest → StartsDefinition rest → endsInWord front = true := by
  have stands : kindOf? script = none ↔
      ∀ phrase ∈ definingWords, ¬hasWholePhrase phrase false (stripCommentChars script.toList) = true := by
    simp only [kindOf?, Option.map_eq_none_iff, List.find?_eq_none, List.any_eq_true, mem_definingWords]
    constructor
    · rintro none phrase ⟨entry, known, member⟩ stands
      exact none entry known ⟨phrase, member, stands⟩
    · rintro none entry known ⟨phrase, member, stands⟩
      exact none phrase ⟨entry, known, member⟩ stands
  rw [stands]
  constructor
  · rintro none front rest split ⟨phrase, known, read⟩
    by_contra apart
    rw [Bool.not_eq_true] at apart
    refine none phrase known ((isPhrase_of_mem_definingWords phrase known).stands_iff.mpr ⟨front, rest, split, ?_⟩)
    rw [apart]
    exact read
  · intro inWord phrase known stands
    obtain ⟨front, rest, split, read⟩ := (isPhrase_of_mem_definingWords phrase known).stands_iff.mp stands
    obtain ⟨apart, read⟩ := isSome_afterWholePhrase?.mp read
    rw [inWord front rest split ⟨phrase, known, read⟩] at apart
    cases apart

section Readers

/-- Words with white space after them end where the white space starts. -/
theorem afterWholePhrase?_of_blanks {phrase : List String} {cs after rest : List Char}
    (read : afterPhrase? phrase cs = some after) (blanks : afterBlanks? after = some rest) :
    (afterWholePhrase? phrase false cs).isSome = true := by
  have outside : startsInWord after = false := by
    obtain ⟨gap, ⟨given, blank⟩, rfl⟩ := afterBlanks?_eq_some blanks
    obtain ⟨c, gap, rfl⟩ := List.exists_cons_of_ne_nil given
    exact isWordChar_of_blank (List.all_eq_true.mp blank c List.mem_cons_self)
  rw [afterWholePhrase?, if_neg Bool.false_ne_true, read, Option.filter_some, outside]
  rfl

theorem startsDefinition_of_spaced {phrase : List String} (known : phrase ∈ definingWords) {cs rest : List Char}
    (read : afterSpacedPhrase? phrase cs = some rest) : StartsDefinition cs := by
  obtain ⟨after, read, blanks⟩ := Option.bind_eq_some_iff.mp read
  exact ⟨phrase, known, afterWholePhrase?_of_blanks read blanks⟩

theorem startsDefinition_of_domainReading {cs : List Char} {reading : DomainReading}
    (read : domainReading? cs = some reading) : StartsDefinition cs := by
  simp only [domainReading?, Option.bind_eq_bind, Option.bind_eq_some_iff] at read
  obtain ⟨rest, read, _⟩ := read
  exact startsDefinition_of_spaced (by decide) read

theorem startsDefinition_of_tableBody {cs body : List Char} (read : tableBody? cs = some body) : StartsDefinition cs := by
  simp only [tableBody?, tableName?, Option.bind_eq_bind, Option.bind_eq_some_iff] at read
  obtain ⟨_, ⟨rest, read, _⟩, _⟩ := read
  exact startsDefinition_of_spaced (by decide) read

theorem startsDefinition_of_procedureReading {cs : List Char} {reading : List Char × List Char}
    (read : procedureReading? cs = some reading) : StartsDefinition cs := by
  simp only [procedureReading?, Option.bind_eq_bind, Option.bind_eq_some_iff] at read
  obtain ⟨afterCreate, create, _, procedure, _⟩ := read
  cases either : afterSpacedPhrase? ["OR", "ALTER"] afterCreate with
  | none =>
    rw [either, Option.getD_none] at procedure
    obtain ⟨after, word, blanks⟩ := Option.bind_eq_some_iff.mp procedure
    refine ⟨["CREATE", "PROCEDURE"], by decide, afterWholePhrase?_of_blanks ?_ blanks⟩
    exact Option.bind_eq_some_iff.mpr ⟨afterCreate, create, word⟩
  | some afterAlter =>
    rw [either, Option.getD_some] at procedure
    obtain ⟨after, word, blanks⟩ := Option.bind_eq_some_iff.mp procedure
    obtain ⟨afterOrAlter, phrase, gap⟩ := Option.bind_eq_some_iff.mp either
    obtain ⟨afterOr, one, two⟩ := Option.bind_eq_some_iff.mp phrase
    refine ⟨["CREATE", "OR", "ALTER", "PROCEDURE"], by decide, afterWholePhrase?_of_blanks ?_ blanks⟩
    refine Option.bind_eq_some_iff.mpr ⟨afterCreate, create, Option.bind_eq_some_iff.mpr ⟨afterOr, one, ?_⟩⟩
    exact Option.bind_eq_some_iff.mpr ⟨afterAlter, Option.bind_eq_some_iff.mpr ⟨afterOrAlter, two, gap⟩, word⟩

end Readers

/-- A definition starts in the text that an object is read from. -/
theorem Readable.startsDefinition {script : String} (readable : Readable script) :
    (∃ front rest, stripCommentChars script.toList = front ++ rest ∧ StartsDefinition rest) ∨
      ∃ front rest, procedureText script.toList = front ++ rest ∧ StartsDefinition rest := by
  cases readable with
  | @domain d read =>
    rw [Domain.ofScript] at read
    cases found : firstMatch? domainReading? (stripCommentChars script.toList) with
    | none =>
      rw [found] at read
      cases allowed : requireText .domain script <;> rw [allowed] at read <;> cases read
    | some reading =>
      obtain ⟨front, rest, split, read⟩ := firstMatch?_eq_some found
      exact .inl ⟨front, rest, split, startsDefinition_of_domainReading read⟩
  | table read =>
    obtain ⟨body, found, _⟩ := Table.ofScript_eq_ok read
    obtain ⟨front, rest, split, read⟩ := firstMatch?_eq_some found
    exact .inl ⟨front, rest, split, startsDefinition_of_tableBody read⟩
  | procedure read =>
    rw [Procedure.ofScript] at read
    cases found : firstMatch? procedureReading? (procedureText script.toList) with
    | none =>
      rw [procedureText] at found
      simp only [found] at read
      cases allowed : requireText .procedure script <;> rw [allowed] at read <;> cases read
    | some reading =>
      obtain ⟨front, rest, split, read⟩ := firstMatch?_eq_some found
      exact .inr ⟨front, rest, split, startsDefinition_of_procedureReading read⟩

/-- The kind of a script that can be read cannot be told just if its definition does not show. -/
theorem Readable.kindOf?_eq_none_iff {script : String} (readable : Readable script) :
    kindOf? script = none ↔ Unrecognizable script := by
  rw [Script.kindOf?_eq_none_iff]
  constructor
  · intro inWord
    by_cases some : ∃ front rest, stripCommentChars script.toList = front ++ rest ∧ StartsDefinition rest
    · exact .inl ⟨some, inWord⟩
    have placed := readable.startsDefinition.resolve_left some
    refine .inr ⟨fun front rest split starts => some ⟨front, rest, split, starts⟩, fun silent => ?_, placed⟩
    -- Without a directive the definition stands in the text itself.
    rw [procedureText, withoutDirectives_silent silent, stripCommentChars_eq,
      (trimmed_trimChars _).trimChars_eq, ← stripCommentChars_eq] at placed
    exact some placed
  · rintro (within | directive) front rest split starts
    · exact within.inWord front rest split starts
    · exact absurd starts (directive.absent front rest split)

end Script

end SchemaSync
