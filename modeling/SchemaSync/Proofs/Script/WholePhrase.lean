import SchemaSync.Proofs.Script.Constant
import SchemaSync.Proofs.Script.Reading

/-! Where a phrase stands in a text as whole words, and in which part of the text: in one of its literals, or in what
stands around them. -/

namespace SchemaSync.Script

open Text

structure IsPhrase (phrase : List String) : Prop where
  given : phrase ≠ []
  words : ∀ keyword ∈ phrase, keyword.toList ≠ [] ∧ keyword.toList.all Char.isAlpha = true

def endsInWord (cs : List Char) : Bool :=
  cs.getLast?.any isWordChar

instance : DecidablePred IsPhrase :=
  fun _ => decidable_of_iff' _ ⟨fun ⟨given, words⟩ => And.intro given words, fun ⟨given, words⟩ => ⟨given, words⟩⟩

namespace IsPhrase

variable {phrase : List String} (spoken : IsPhrase phrase)
include spoken

theorem lettered : Lettered phrase :=
  List.all_eq_true.mpr fun keyword member => (spoken.words keyword member).2

/-- A phrase is not read where a text starts with no letter. -/
theorem unread {cs : List Char} (other : ∀ c ∈ cs.head?, (foldCase c).isAlpha = false) : afterPhrase? phrase cs = none := by
  obtain ⟨keyword, more, rfl⟩ := List.exists_cons_of_ne_nil spoken.given
  obtain ⟨given, letters⟩ := spoken.words keyword List.mem_cons_self
  exact afterPhrase?_none (afterKeyword?_other letters given other)

theorem whole_unread {cs : List Char} (other : ∀ c ∈ cs.head?, (foldCase c).isAlpha = false) (inWord : Bool) :
    afterWholePhrase? phrase inWord cs = none := by
  rw [afterWholePhrase?, spoken.unread other, Option.filter_none, ite_self]

/-- A phrase does not go on with a text that starts, white space apart, with no letter. -/
theorem apart {rest : List Char} (outside : startsInWord rest = false)
    (other : ∀ c ∈ (trimStart rest).head?, (foldCase c).isAlpha = false) : Apart phrase rest := by
  rw [Apart, outside, Bool.not_false, Bool.true_and, List.all_eq_true]
  intro keyword member
  obtain ⟨given, letters⟩ := spoken.words keyword (List.mem_of_mem_tail member)
  rw [afterKeyword?_other letters given other]
  rfl

theorem apart_quote (rest : List Char) : Apart phrase ('\'' :: rest) := by
  refine spoken.apart rfl ?_
  rintro c ⟨⟩
  decide

theorem apart_blanks {blanks : List Char} (blank : ∀ c ∈ blanks, isBlank c = true) : Apart phrase blanks := by
  refine spoken.apart ?_ ?_
  · cases blanks with
    | nil => rfl
    | cons c blanks => exact isWordChar_of_blank (blank c List.mem_cons_self)
  · have none : trimStart (blanks ++ []) = trimStart [] := trimStart_blanks blank
    rw [List.append_nil] at none
    rw [none]
    exact nofun

/-- A phrase stands in one of two texts if it stands in both together and does not go on from the first one. -/
theorem stands_append {rest : List Char} (apart : Apart phrase rest) (cs : List Char) (inWord : Bool) :
    hasWholePhrase phrase inWord (cs ++ rest) = (hasWholePhrase phrase inWord cs || hasWholePhrase phrase false rest) := by
  obtain ⟨keyword, more, rfl⟩ := List.exists_cons_of_ne_nil spoken.given
  exact hasWholePhrase_append spoken.lettered (spoken.words keyword List.mem_cons_self).1 apart cs inWord

theorem stands_quote (rest : List Char) : hasWholePhrase phrase false ('\'' :: rest) = hasWholePhrase phrase false rest := by
  have quote : ∀ c ∈ ('\'' :: rest).head?, (foldCase c).isAlpha = false := by
    rintro c ⟨⟩
    decide
  rw [hasWholePhrase, spoken.whole_unread quote, Option.isSome_none, Bool.false_or]
  rfl

theorem stands_blanks {blanks : List Char} (blank : ∀ c ∈ blanks, isBlank c = true) (cs : List Char) :
    hasWholePhrase phrase false (blanks ++ cs) = hasWholePhrase phrase false cs := by
  induction blanks with
  | nil => rfl
  | cons c blanks ih =>
    rw [List.forall_mem_cons] at blank
    rw [List.cons_append, hasWholePhrase, spoken.whole_unread (notAlpha_of_blank blank.1 _), isWordChar_of_blank blank.1,
      ih blank.2]
    rfl

theorem stands_trimChars (cs : List Char) : hasWholePhrase phrase false (trimChars cs) = hasWholePhrase phrase false cs := by
  obtain ⟨front, frontBlank, frontSplit⟩ := trimStart_split cs
  obtain ⟨back, backBlank, backSplit⟩ := trimEnd_split (trimStart cs)
  have none : hasWholePhrase phrase false back = false := by
    have none := spoken.stands_blanks backBlank []
    rwa [List.append_nil] at none
  conv => rhs; rw [frontSplit, spoken.stands_blanks frontBlank, backSplit, spoken.stands_append (spoken.apart_blanks backBlank),
    none, Bool.or_false]
  rfl

/-- What a phrase stands in is one of the literals of a text or what is left of the text with its literals empty. -/
theorem stands_literals {cs : List Char} (whole : closed false cs = true) (front : List Char) (inWord : Bool) :
    hasWholePhrase phrase inWord (front ++ cs) = (hasWholePhrase phrase inWord (front ++ emptyLiterals cs) ||
      (literals cs).any (hasWholePhrase phrase false)) := by
  refine closed_induct (motive := fun cs => ∀ front inWord, hasWholePhrase phrase inWord (front ++ cs) =
    (hasWholePhrase phrase inWord (front ++ emptyLiterals cs) || (literals cs).any (hasWholePhrase phrase false)))
    ?_ ?_ ?_ cs whole front inWord
  · intro front inWord
    rw [emptyLiterals, literals, List.any_nil, Bool.or_false]
  · intro c rest plain _ ih front inWord
    rw [emptyLiterals_plain plain, literals_plain plain, List.append_cons, ih, List.append_cons front c (emptyLiterals rest)]
  · intro body after literal apart _ ih front inWord
    -- Either apostrophe of the literal ends every phrase before it.
    obtain ⟨inside, split⟩ := List.getLast?_eq_some_iff.mp literal.last
    have close (rest : List Char) : hasWholePhrase phrase false (body ++ rest) =
        (hasWholePhrase phrase false inside || hasWholePhrase phrase false rest) := by
      rw [split, List.append_assoc, List.singleton_append, spoken.stands_append (spoken.apart_quote _), spoken.stands_quote]
    have constant : hasWholePhrase phrase false ('\'' :: body) = hasWholePhrase phrase false inside := by
      have alone := close []
      rw [List.append_nil] at alone
      rw [spoken.stands_quote, alone]
      exact Bool.or_false _
    have empty : hasWholePhrase phrase false ('\'' :: '\'' :: emptyLiterals after) =
        hasWholePhrase phrase false (emptyLiterals after) := by
      rw [spoken.stands_quote, spoken.stands_quote]
    have later := ih [] false
    rw [List.nil_append, List.nil_append] at later
    rw [emptyLiterals_literal literal apart, literals_literal literal apart, List.any_cons, constant,
      spoken.stands_append (spoken.apart_quote _), spoken.stands_quote, close, later,
      spoken.stands_append (spoken.apart_quote _), empty]
    cases hasWholePhrase phrase inWord front <;> cases hasWholePhrase phrase false inside <;>
      cases hasWholePhrase phrase false (emptyLiterals after) <;> rfl

/-- A phrase of several words does not stand in a text without white space. -/
theorem stands_solid (several : 1 < phrase.length) {cs : List Char} (solid : ∀ c ∈ cs, isBlank c = false) (inWord : Bool) :
    hasWholePhrase phrase inWord cs = false := by
  obtain ⟨first, more, rfl⟩ := List.exists_cons_of_ne_nil spoken.given
  have next : more ≠ [] := by
    rintro rfl
    exact Nat.lt_irrefl 1 several
  induction cs generalizing inWord with
  | nil => rfl
  | cons c cs ih =>
    have unread : afterPhrase? (first :: more) (c :: cs) = none := by
      rw [afterPhrase?, afterSpaced?]
      · cases read : afterKeyword? first.toList (c :: cs) with
        | none => rfl
        | some after =>
          obtain ⟨word, _, split⟩ := afterKeyword?_eq_some read
          have later : ∀ d ∈ after, isBlank d = false := fun d member =>
            solid d (by rw [split]; exact List.mem_append_right word member)
          rw [Option.bind_some, afterBlanks?_eq_none later, Option.bind_none]
      · exact next
    rw [hasWholePhrase, afterWholePhrase?, unread, Option.filter_none, ite_self,
      ih (fun d member => solid d (List.mem_cons_of_mem c member))]
    rfl

/-- A phrase stands in a text if it is read at some place that no word reaches up to. -/
theorem stands_iff {cs : List Char} : hasWholePhrase phrase false cs = true ↔
    ∃ front rest, cs = front ++ rest ∧ (afterWholePhrase? phrase (endsInWord front) rest).isSome = true := by
  -- For the induction the text may start inside a word.
  have places (inWord : Bool) (cs : List Char) : hasWholePhrase phrase inWord cs = true ↔ ∃ front rest, cs = front ++ rest ∧
      (afterWholePhrase? phrase ((front.getLast?.map isWordChar).getD inWord) rest).isSome = true := by
    induction cs generalizing inWord with
    | nil =>
      refine iff_of_false Bool.false_ne_true fun ⟨front, rest, split, read⟩ => ?_
      obtain ⟨rfl, rfl⟩ := List.append_eq_nil_iff.mp split.symm
      rw [spoken.whole_unread (by simp)] at read
      cases read
    | cons c cs ih =>
      rw [hasWholePhrase, Bool.or_eq_true, ih]
      constructor
      · rintro (here | ⟨front, rest, rfl, read⟩)
        · exact ⟨[], c :: cs, rfl, here⟩
        · refine ⟨c :: front, rest, rfl, ?_⟩
          rw [List.getLast?_cons]
          cases last : front.getLast? <;> rw [last] at read <;> exact read
      · rintro ⟨front, rest, split, read⟩
        cases front with
        | nil =>
          rw [List.nil_append] at split
          exact .inl (split ▸ read)
        | cons d front =>
          obtain ⟨rfl, rfl⟩ := List.cons.inj split
          refine .inr ⟨front, rest, rfl, ?_⟩
          rw [List.getLast?_cons] at read
          cases last : front.getLast? <;> rw [last] at read <;> exact read
  rw [places]
  have same (front : List Char) : (front.getLast?.map isWordChar).getD false = endsInWord front := by
    rw [endsInWord]
    cases front.getLast? <;> rfl
  simp only [same]

end IsPhrase

end SchemaSync.Script
