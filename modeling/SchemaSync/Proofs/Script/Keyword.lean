import SchemaSync.Proofs.Text.WordChar
import SchemaSync.Script.Keyword

/-! Reading back keywords in any letter case, with white space between them. -/

namespace SchemaSync.Script

def Spells (keyword : String) (word : List Char) : Prop :=
  word.map foldCase = keyword.toList

def Gap (blanks : List Char) : Prop :=
  blanks ≠ [] ∧ blanks.all Text.isBlank = true

instance (keyword : String) (word : List Char) : Decidable (Spells keyword word) :=
  inferInstanceAs (Decidable (_ = _))

instance (blanks : List Char) : Decidable (Gap blanks) :=
  inferInstanceAs (Decidable (_ ∧ _))

theorem afterKeyword?_append {keyword : String} {word : List Char} (spells : Spells keyword word)
    (rest : List Char) : afterKeyword? keyword.toList (word ++ rest) = some rest := by
  rw [Spells] at spells
  rw [← spells]
  clear spells
  induction word with
  | nil => cases rest <;> rfl
  | cons c word ih => simp [afterKeyword?, ih]

theorem afterBlanks?_append {blanks rest : List Char} (gap : Gap blanks)
    (solid : ∀ c ∈ rest.head?, Text.isBlank c = false) : afterBlanks? (blanks ++ rest) = some rest := by
  obtain ⟨some, blank⟩ := gap
  cases blanks with
  | nil => exact absurd rfl some
  | cons c blanks =>
    rw [List.all_eq_true] at blank
    rw [List.cons_append, afterBlanks?, if_pos (blank c (by simp)), Text.trimStart_blanks,
      Text.trimStart_head solid]
    exact fun d member => blank d (by simp [member])

theorem afterSpaced?_append {keyword : String} {word blanks rest : List Char}
    (spells : Spells keyword word) (gap : Gap blanks)
    (solid : ∀ c ∈ rest.head?, Text.isBlank c = false) :
    afterSpaced? keyword (word ++ (blanks ++ rest)) = some rest := by
  rw [afterSpaced?, afterKeyword?_append spells, Option.bind_some, afterBlanks?_append gap solid]

theorem afterSpacedPhrase?_append {first second : String} {one two blanks gap rest : List Char}
    (spellsOne : Spells first one) (between : Gap blanks) (spellsTwo : Spells second two)
    (after : Gap gap) (solidTwo : ∀ c ∈ two.head?, Text.isBlank c = false)
    (word : two ≠ []) (solid : ∀ c ∈ rest.head?, Text.isBlank c = false) :
    afterSpacedPhrase? [first, second] (one ++ (blanks ++ (two ++ (gap ++ rest)))) = some rest := by
  have start : ∀ c ∈ (two ++ (gap ++ rest)).head?, Text.isBlank c = false := by
    obtain ⟨c, more, rfl⟩ := List.exists_cons_of_ne_nil word
    exact solidTwo
  rw [afterSpacedPhrase?, afterPhrase?, afterSpaced?_append spellsOne between start, Option.bind_some,
    afterPhrase?, afterKeyword?_append spellsTwo, Option.bind_some, afterBlanks?_append after solid]
  exact List.cons_ne_nil _ _

theorem afterKeyword?_eq_some {keyword cs rest : List Char} (read : afterKeyword? keyword cs = some rest) :
    ∃ word, word.map foldCase = keyword ∧ cs = word ++ rest := by
  fun_induction afterKeyword? keyword cs with
  | case1 cs =>
    cases read
    exact ⟨[], rfl, rfl⟩
  | case2 => cases read
  | case3 k keyword c cs same ih =>
    obtain ⟨word, spells, split⟩ := ih read
    exact ⟨c :: word, by rw [List.map_cons, spells, beq_iff_eq.mp same], by rw [split]; rfl⟩
  | case4 => cases read

theorem afterBlanks?_eq_some {cs rest : List Char} (read : afterBlanks? cs = some rest) :
    ∃ blanks, Gap blanks ∧ cs = blanks ++ rest := by
  cases cs with
  | nil => cases read
  | cons c cs =>
    rw [afterBlanks?] at read
    split at read
    · next here =>
      cases read
      obtain ⟨blanks, blank, split⟩ := Text.trimStart_split cs
      refine ⟨c :: blanks, ⟨List.cons_ne_nil _ _, List.all_eq_true.mpr ?_⟩, congrArg (c :: ·) split⟩
      intro d member
      rcases List.mem_cons.mp member with rfl | member
      · exact here
      · exact blank d member
    · cases read

theorem afterSpacedPhrase?_eq_some {first second : String} {cs rest : List Char}
    (read : afterSpacedPhrase? [first, second] cs = some rest) :
    ∃ one blanks two gap, Spells first one ∧ Gap blanks ∧ Spells second two ∧ Gap gap ∧
      cs = one ++ (blanks ++ (two ++ (gap ++ rest))) := by
  rw [afterSpacedPhrase?, afterPhrase?, Option.bind_eq_some_iff] at read
  · obtain ⟨after, phrase, wide⟩ := read
    obtain ⟨middle, spaced, last⟩ := Option.bind_eq_some_iff.mp phrase
    obtain ⟨front, keyword, narrow⟩ := Option.bind_eq_some_iff.mp spaced
    obtain ⟨one, spellsOne, rfl⟩ := afterKeyword?_eq_some keyword
    obtain ⟨blanks, between, rfl⟩ := afterBlanks?_eq_some narrow
    obtain ⟨two, spellsTwo, rfl⟩ := afterKeyword?_eq_some last
    obtain ⟨gap, apart, rfl⟩ := afterBlanks?_eq_some wide
    exact ⟨one, blanks, two, gap, spellsOne, between, spellsTwo, apart, rfl⟩
  · exact List.cons_ne_nil _ _

theorem foldCase_of_blank {c : Char} (blank : Text.isBlank c = true) : foldCase c = c := by
  have other : ∀ d, Text.isBlank d = false → (c == d) = false := by
    intro d solid
    rw [beq_eq_false_iff_ne]
    rintro rfl
    rw [solid] at blank
    cases blank
  rw [foldCase, other _ (by decide), other _ (by decide), other _ (by decide), other _ (by decide)]
  simp only [Bool.or_self, Bool.false_eq_true, if_false]
  simp only [Text.isBlank, Bool.or_eq_true, Bool.and_eq_true, decide_eq_true_eq, beq_iff_eq] at blank
  refine dif_neg fun small => ?_
  have first : 97 ≤ c.toNat := small.1
  have last : c.toNat ≤ 122 := small.2
  omega

theorem isAlpha_of_blank {c : Char} (blank : Text.isBlank c = true) : c.isAlpha = false := by
  simp only [Text.isBlank, Bool.or_eq_true, Bool.and_eq_true, decide_eq_true_eq, beq_iff_eq] at blank
  refine Bool.or_eq_false_iff.mpr ⟨decide_eq_false fun capital => ?_, Bool.eq_false_iff.mpr fun lower => ?_⟩
  · have first : 65 ≤ c.toNat := capital.1
    have last : c.toNat ≤ 90 := capital.2
    omega
  · obtain ⟨above, below⟩ := (Bool.and_eq_true _ _).mp lower
    have first : 97 ≤ c.toNat := of_decide_eq_true above
    have last : c.toNat ≤ 122 := of_decide_eq_true below
    omega

theorem notAlpha_of_blank {c : Char} (blank : Text.isBlank c = true) (cs : List Char) :
    ∀ d ∈ (c :: cs).head?, (foldCase d).isAlpha = false := by
  rintro d ⟨⟩
  rw [foldCase_of_blank blank, isAlpha_of_blank blank]

theorem isBlank_of_letter {c : Char} (letter : (foldCase c).isAlpha = true) : Text.isBlank c = false := by
  rw [← Bool.not_eq_true]
  intro blank
  rw [foldCase_of_blank blank, isAlpha_of_blank blank] at letter
  cases letter

theorem isWordChar_of_letter {c : Char} (letter : (foldCase c).isAlpha = true) : Text.isWordChar c = true := by
  have ascii : (List.range 128).all (fun n => !(foldCase (Char.ofNat n)).isAlpha || Text.isWordChar (Char.ofNat n)) =
      true := by decide +kernel
  have small (below : c.toNat < 128) : Text.isWordChar c = true := by
    have here := Text.test_of_small (fun c => !(foldCase c).isAlpha || Text.isWordChar c) ascii below
    simpa [letter] using here
  rw [foldCase] at letter
  split at letter
  · next special =>
    rcases (Bool.or_eq_true _ _).mp special with same | same <;> rw [beq_iff_eq.mp same] <;> decide +kernel
  split at letter
  · next special =>
    rw [beq_iff_eq.mp special]
    decide +kernel
  split at letter
  · next special =>
    rw [beq_iff_eq.mp special]
    decide +kernel
  apply small
  by_cases lower : c.val ≥ 'a'.val ∧ c.val ≤ 'z'.val
  · have last : c.toNat ≤ 122 := lower.2
    omega
  · have same : c.toUpper = c := dif_neg lower
    rw [same] at letter
    have either := (Bool.or_eq_true _ _).mp letter
    rcases either with capital | small
    · have last : c.toNat ≤ 90 := (of_decide_eq_true capital).2
      omega
    · have last : c.toNat ≤ 122 := of_decide_eq_true ((Bool.and_eq_true _ _).mp small).2
      omega

theorem Spells.letter {keyword : String} {word : List Char} (spells : Spells keyword word)
    (letters : keyword.toList.all Char.isAlpha = true) {c : Char} (member : c ∈ word) :
    (foldCase c).isAlpha = true := by
  apply List.all_eq_true.mp letters
  rw [← spells]
  exact List.mem_map_of_mem member

def Lettered (phrase : List String) : Prop :=
  phrase.all (·.toList.all Char.isAlpha) = true

instance (phrase : List String) : Decidable (Lettered phrase) :=
  inferInstanceAs (Decidable (_ = _))

/-- A change to a text that leaves its letters and its white space where they are, as far as a
reader of keywords can tell. -/
structure Unseen (change : List Char → List Char) : Prop where
  letter : ∀ c rest, (foldCase c).isAlpha = true → change (c :: rest) = c :: change rest
  other : ∀ cs, (∀ c ∈ cs.head?, (foldCase c).isAlpha = false) →
    ∀ c ∈ (change cs).head?, (foldCase c).isAlpha = false
  blank : ∀ cs, (change cs).head?.any Text.isBlank = cs.head?.any Text.isBlank
  trim : ∀ cs, Text.trimStart (change cs) = change (Text.trimStart cs)
  word : ∀ cs, startsInWord (change cs) = startsInWord cs

theorem afterKeyword?_other {keyword cs : List Char} (letters : keyword.all Char.isAlpha = true)
    (start : keyword ≠ []) (other : ∀ c ∈ cs.head?, (foldCase c).isAlpha = false) :
    afterKeyword? keyword cs = none := by
  obtain ⟨k, keyword, rfl⟩ := List.exists_cons_of_ne_nil start
  cases cs with
  | nil => rfl
  | cons c cs =>
    rw [List.all_cons, Bool.and_eq_true] at letters
    rw [afterKeyword?, if_neg]
    rw [beq_iff_eq]
    rintro rfl
    rw [other c rfl] at letters
    cases letters.1

theorem afterBlanks?_eq (cs : List Char) :
    afterBlanks? cs = if cs.head?.any Text.isBlank then some (Text.trimStart cs) else none := by
  cases cs with
  | nil => rfl
  | cons c rest =>
    cases blank : Text.isBlank c <;> simp [afterBlanks?, Text.trimStart, blank]

theorem afterBlanks?_solid {cs : List Char} (solid : Text.trimStart cs ≠ []) (rest : List Char) :
    afterBlanks? (cs ++ rest) = (afterBlanks? cs).map (· ++ rest) := by
  cases cs with
  | nil => exact absurd rfl solid
  | cons c cs =>
    have same : (c :: cs ++ rest).head?.any Text.isBlank = (c :: cs).head?.any Text.isBlank := rfl
    rw [afterBlanks?_eq, afterBlanks?_eq, Text.trimStart_append solid, same]
    split <;> rfl

/-- A reader that goes no further than the end of a text when `rest` stands after it. -/
def StopsBefore (rest : List Char) (read? : List Char → Option (List Char)) : Prop :=
  ∀ cs, read? (cs ++ rest) = (read? cs).map (· ++ rest)

namespace StopsBefore

variable {rest : List Char} {first second : List Char → Option (List Char)}

theorem keyword {keyword : List Char} (apart : ∀ c ∈ rest.head?, foldCase c ∉ keyword) :
    StopsBefore rest (afterKeyword? keyword) := by
  intro cs
  induction keyword generalizing cs with
  | nil => rfl
  | cons k keyword ih =>
    cases cs with
    | nil =>
      cases rest with
      | nil => rfl
      | cons c rest =>
        have other : foldCase c ≠ k := fun same => apart c rfl (same ▸ List.mem_cons_self)
        rw [List.nil_append]
        exact if_neg (by simpa using other)
    | cons c cs =>
      rw [List.cons_append, afterKeyword?, afterKeyword?]
      split
      · exact ih (fun d head member => apart d head (List.mem_cons_of_mem k member)) cs
      · rfl

theorem bind (one : StopsBefore rest first) (two : StopsBefore rest second) :
    StopsBefore rest fun cs => (first cs).bind second := by
  intro cs
  dsimp only
  rw [one cs]
  cases first cs with
  | none => rfl
  | some after => exact two after

/-- White space up to the end of the text goes on in `rest`, so the reader after it must not read there. -/
theorem blanks (reads : ∀ cs, cs ≠ [] → first (cs ++ rest) = (first cs).map (· ++ rest)) (short : first [] = none)
    (apart : first (Text.trimStart rest) = none) : StopsBefore rest fun cs => (afterBlanks? cs).bind first := by
  intro cs
  dsimp only
  by_cases solid : Text.trimStart cs = []
  · rw [afterBlanks?_eq, afterBlanks?_eq, Text.trimStart_blanks (Text.blank_of_trimStart solid), solid]
    split <;> split <;> simp [apart, short]
  · rw [afterBlanks?_solid solid]
    cases read : afterBlanks? cs with
    | none => rfl
    | some after =>
      rw [afterBlanks?_eq] at read
      split at read
      · cases read
        exact reads _ solid
      · cases read

end StopsBefore

theorem afterKeyword?_append_other {keyword rest : List Char}
    (letters : keyword.all Char.isAlpha = true) (other : ∀ c ∈ rest.head?, (foldCase c).isAlpha = false) :
    StopsBefore rest (afterKeyword? keyword) := by
  apply StopsBefore.keyword
  intro c head member
  have letter := List.all_eq_true.mp letters _ member
  rw [other c head] at letter
  cases letter

theorem other_of_startsInWord {rest : List Char} (outside : startsInWord rest = false) :
    ∀ c ∈ rest.head?, (foldCase c).isAlpha = false := by
  intro c head
  rw [← Bool.not_eq_true]
  intro letter
  rw [startsInWord, Option.mem_def.mp head, Option.any_some, isWordChar_of_letter letter] at outside
  cases outside

theorem afterPhrase?_none {keyword : String} {phrase : List String} {cs : List Char}
    (unread : afterKeyword? keyword.toList cs = none) : afterPhrase? (keyword :: phrase) cs = none := by
  cases phrase with
  | nil => exact unread
  | cons next phrase =>
    rw [afterPhrase?, afterSpaced?, unread]
    · rfl
    · exact List.cons_ne_nil _ _

/-- A phrase that is read over the end of a text is read in the text itself, if what follows starts
with no letter and with no later keyword of the phrase. -/
theorem afterPhrase?_append_other {phrase : List String} {rest : List Char}
    (letters : Lettered phrase) (other : ∀ c ∈ rest.head?, (foldCase c).isAlpha = false)
    (apart : ∀ keyword ∈ phrase.tail, afterKeyword? keyword.toList (Text.trimStart rest) = none) :
    StopsBefore rest (afterPhrase? phrase) := by
  induction phrase with
  | nil => exact fun cs => rfl
  | cons keyword phrase ih =>
    rw [Lettered, List.all_cons, Bool.and_eq_true] at letters
    cases phrase with
    | nil => exact afterKeyword?_append_other letters.1 other
    | cons next phrase =>
      have more : next :: phrase ≠ [] := List.cons_ne_nil _ _
      have later := ih letters.2 fun keyword member => apart keyword (List.mem_of_mem_tail member)
      have unread : afterPhrase? (next :: phrase) (Text.trimStart rest) = none :=
        afterPhrase?_none (apart next List.mem_cons_self)
      have short : afterPhrase? (next :: phrase) [] = none := by
        refine afterPhrase?_none (afterKeyword?_other ?_ ?_ (by simp))
        · rw [List.all_cons, Bool.and_eq_true] at letters
          exact letters.2.1
        · intro empty
          have nothing := apart next List.mem_cons_self
          rw [empty] at nothing
          cases nothing
      have split : afterPhrase? (keyword :: next :: phrase) = fun cs =>
          (afterKeyword? keyword.toList cs).bind fun cs => (afterBlanks? cs).bind (afterPhrase? (next :: phrase)) := by
        funext cs
        rw [afterPhrase?, afterSpaced?, Option.bind_assoc]
        exact more
      rw [split]
      apply (afterKeyword?_append_other letters.1 other).bind
      exact .blanks (fun cs _ => later cs) short unread

/-- A text that starts within no word and, white space apart, with no later keyword of a phrase. -/
def Apart (phrase : List String) (rest : List Char) : Prop :=
  (!startsInWord rest && phrase.tail.all fun keyword =>
    (afterKeyword? keyword.toList (Text.trimStart rest)).isNone) = true

instance (phrase : List String) (rest : List Char) : Decidable (Apart phrase rest) :=
  inferInstanceAs (Decidable (_ = _))

namespace Apart

variable {phrase : List String} {rest : List Char} (letters : Lettered phrase) (apart : Apart phrase rest)
include apart

theorem word : startsInWord rest = false := by
  rw [Apart, Bool.and_eq_true, Bool.not_eq_true'] at apart
  exact apart.1

theorem later : ∀ keyword ∈ phrase.tail, afterKeyword? keyword.toList (Text.trimStart rest) = none := by
  rw [Apart, Bool.and_eq_true, List.all_eq_true] at apart
  exact fun keyword member => Option.isNone_iff_eq_none.mp (apart.2 keyword member)

include letters

theorem stopsBefore : StopsBefore rest (afterPhrase? phrase) :=
  afterPhrase?_append_other letters (other_of_startsInWord apart.word) apart.later

/-- Whole words that are read in a text with more after it are read in the text itself. -/
theorem whole (inWord : Bool) : StopsBefore rest (afterWholePhrase? phrase inWord) := by
  intro cs
  rw [afterWholePhrase?, afterWholePhrase?]
  split
  · rfl
  · rw [apart.stopsBefore letters cs]
    cases afterPhrase? phrase cs with
    | none => rfl
    | some after =>
      have same : startsInWord (after ++ rest) = startsInWord after := by
        cases after with
        | nil => exact apart.word
        | cons c after => rfl
      rw [Option.map_some, Option.filter_some, Option.filter_some, same]
      split <;> rfl

end Apart

/-- Whether a word reaches up to a text matters only to a keyword at its front. -/
theorem hasWholePhrase_inWord {keyword : String} {phrase : List String}
    (letters : keyword.toList.all Char.isAlpha = true) (given : keyword.toList ≠ []) {cs : List Char}
    (other : ∀ c ∈ cs.head?, (foldCase c).isAlpha = false) (inWord : Bool) :
    hasWholePhrase (keyword :: phrase) inWord cs = hasWholePhrase (keyword :: phrase) false cs := by
  have unread : afterPhrase? (keyword :: phrase) cs = none :=
    afterPhrase?_none (afterKeyword?_other letters given other)
  cases cs with
  | nil => rfl
  | cons c cs =>
    have front : ∀ inWord, afterWholePhrase? (keyword :: phrase) inWord (c :: cs) = none := by
      intro inWord
      rw [afterWholePhrase?, unread, Option.filter_none, ite_self]
    rw [hasWholePhrase, hasWholePhrase, front, front]

/-- A phrase stands in one of two texts if it stands in both together and does not go on from the first one. -/
theorem hasWholePhrase_append {keyword : String} {phrase : List String} {rest : List Char}
    (letters : Lettered (keyword :: phrase)) (given : keyword.toList ≠ [])
    (apart : Apart (keyword :: phrase) rest) (cs : List Char) (inWord : Bool) :
    hasWholePhrase (keyword :: phrase) inWord (cs ++ rest) =
      (hasWholePhrase (keyword :: phrase) inWord cs || hasWholePhrase (keyword :: phrase) false rest) := by
  induction cs generalizing inWord with
  | nil =>
    have word : keyword.toList.all Char.isAlpha = true := (Bool.and_eq_true _ _).mp letters |>.1
    rw [List.nil_append, hasWholePhrase_inWord word given (other_of_startsInWord apart.word), hasWholePhrase,
      Bool.false_or]
  | cons c cs ih =>
    have here := apart.whole letters inWord (c :: cs)
    rw [List.cons_append] at here ⊢
    rw [hasWholePhrase, hasWholePhrase, here, Option.isSome_map, ih, Bool.or_assoc]

namespace Unseen

variable {change : List Char → List Char} (unseen : Unseen change)
include unseen

theorem afterKeyword?_eq {keyword : List Char} (letters : keyword.all Char.isAlpha = true)
    (cs : List Char) : afterKeyword? keyword (change cs) = (afterKeyword? keyword cs).map change := by
  induction keyword generalizing cs with
  | nil => rfl
  | cons k keyword ih =>
    have start := List.cons_ne_nil k keyword
    cases cs with
    | nil => rw [afterKeyword?_other letters start (unseen.other [] (by simp))]; rfl
    | cons c rest =>
      cases letter : (foldCase c).isAlpha with
      | true =>
        rw [List.all_cons, Bool.and_eq_true] at letters
        rw [unseen.letter c rest letter, afterKeyword?, afterKeyword?]
        split
        · exact ih letters.2 rest
        · rfl
      | false =>
        have other : ∀ d ∈ (c :: rest).head?, (foldCase d).isAlpha = false := by
          rintro d same
          exact Option.some.inj same ▸ letter
        rw [afterKeyword?_other letters start other,
          afterKeyword?_other letters start (unseen.other _ other), Option.map_none]

theorem afterBlanks?_eq (cs : List Char) : afterBlanks? (change cs) = (afterBlanks? cs).map change := by
  rw [Script.afterBlanks?_eq, Script.afterBlanks?_eq, unseen.blank, unseen.trim]
  split <;> rfl

theorem afterPhrase?_eq {phrase : List String} (letters : Lettered phrase) (cs : List Char) :
    afterPhrase? phrase (change cs) = (afterPhrase? phrase cs).map change := by
  induction phrase generalizing cs with
  | nil => rfl
  | cons keyword phrase ih =>
    rw [Lettered, List.all_cons, Bool.and_eq_true] at letters
    cases phrase with
    | nil => exact unseen.afterKeyword?_eq letters.1 cs
    | cons next phrase =>
      have more : next :: phrase ≠ [] := List.cons_ne_nil _ _
      rw [afterPhrase?, afterPhrase?, afterSpaced?, afterSpaced?, unseen.afterKeyword?_eq letters.1]
      · cases afterKeyword? keyword.toList cs with
        | none => rfl
        | some rest =>
          rw [Option.map_some, Option.bind_some, Option.bind_some, unseen.afterBlanks?_eq]
          cases afterBlanks? rest with
          | none => rfl
          | some rest => exact ih letters.2 rest
      all_goals exact more

theorem afterWholePhrase?_isSome {phrase : List String} (letters : Lettered phrase) (inWord : Bool)
    (cs : List Char) : (afterWholePhrase? phrase inWord (change cs)).isSome =
      (afterWholePhrase? phrase inWord cs).isSome := by
  rw [afterWholePhrase?, afterWholePhrase?]
  split
  · rfl
  · rw [unseen.afterPhrase?_eq letters]
    cases afterPhrase? phrase cs with
    | none => rfl
    | some rest =>
      rw [Option.map_some, Option.filter_some, Option.filter_some, unseen.word]
      split <;> rfl

theorem apart_iff {phrase : List String} (letters : Lettered phrase) {cs : List Char} :
    Apart phrase (change cs) ↔ Apart phrase cs := by
  rw [Apart, Apart, unseen.word, Bool.and_eq_true, Bool.and_eq_true, List.all_eq_true, List.all_eq_true]
  refine and_congr_right fun _ => forall₂_congr fun keyword member => ?_
  have word := List.all_eq_true.mp letters keyword (List.mem_of_mem_tail member)
  rw [unseen.trim, unseen.afterKeyword?_eq word, Option.isNone_map]

end Unseen

/-- Keywords read the same however lines end. -/
theorem unseen_withLineFeeds : Unseen Text.withLineFeeds where
  letter c rest letter := by
    refine Text.withLineFeeds_cons ?_ rest
    rintro rfl
    cases letter
  other cs := by
    refine Text.lineFeeds_induct (motive := fun cs written =>
      (∀ c ∈ cs.head?, (foldCase c).isAlpha = false) → ∀ c ∈ written.head?, (foldCase c).isAlpha = false)
      id (fun _ _ _ _ => id) ?_ ?_ cs
    · rintro _ _ _ _ _ ⟨⟩
      rfl
    · rintro _ _ _ _ ⟨⟩
      rfl
  blank := Text.lineFeeds_induct (motive := fun cs written =>
    written.head?.any Text.isBlank = cs.head?.any Text.isBlank) rfl (fun _ _ _ _ => rfl) (fun _ _ _ => rfl)
    (fun _ _ => rfl)
  trim := Text.trimStart_withLineFeeds
  word := Text.lineFeeds_induct (motive := fun cs written => startsInWord written = startsInWord cs) rfl
    (fun _ _ _ _ => rfl) (fun _ _ _ => rfl) (fun _ _ => rfl)

end SchemaSync.Script
