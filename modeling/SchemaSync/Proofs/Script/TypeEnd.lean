import SchemaSync.Proofs.Script.Keyword
import SchemaSync.Script.TypeText

/-! Where a type ends. What is read as a type to the end of its text is the same type where the text goes on
with something that is no part of a type. -/

namespace SchemaSync.Script

open Text

def typeWords : List String := ["PRECISION", "VARYING", "WITH", "TIME", "ZONE", "SUB_TYPE"]

/-- What can stand after the words of a type: nothing, or something apart from them that no type goes on with. -/
structure Follows (rest : List Char) : Prop where
  head : ∀ c ∈ rest.head?, isBlank c = true ∨ c = ';' ∨ c = '('
  next : ∀ word ∈ typeWords, afterKeyword? word.toList (trimStart rest) = none

structure NameBefore (name rest : List Char) : Prop where
  given : name ≠ []
  inside : ∀ c ∈ name, isIdentifierChar c = true
  stop : ∀ c ∈ rest.head?, isIdentifierChar c = false

theorem identifier?_named {name rest : List Char} (named : NameBefore name rest) :
    identifier? (name ++ rest) = some (name, rest) := by
  obtain ⟨given, inside, stop⟩ := named
  rw [identifier?, List.takeWhile_append_of_pos inside, List.dropWhile_append_of_pos inside]
  cases rest with
  | nil => simp [given]
  | cons c rest => simp [given, stop c rfl]

theorem identifier?_eq_some {cs name rest : List Char} (read : identifier? cs = some (name, rest)) :
    cs = name ++ rest ∧ NameBefore name rest := by
  rw [identifier?] at read
  split at read
  · cases read
  · next given =>
    cases read
    refine ⟨List.takeWhile_append_dropWhile.symm, by simpa using given, List.all_eq_true.mp List.all_takeWhile, ?_⟩
    intro c head
    have stop := List.head?_dropWhile_not isIdentifierChar cs
    rw [Option.mem_def] at head
    simpa [head] using stop

/-- Whatever the letters of a name, its capitals are no white space. -/
theorem NameBefore.isBlankText_upperChars {name rest : List Char} (named : NameBefore name rest) :
    isBlankText (String.ofList (upperChars name)) = false := by
  obtain ⟨c, member⟩ := List.exists_mem_of_ne_nil name named.given
  obtain ⟨d, inside, solid⟩ := exists_mem_upperChars member (isBlank_of_isIdentifierChar (named.inside c member))
  exact isBlankText_of_mem inside solid

/-- The text after a word at its front. -/
def afterWord? (cs : List Char) : Option (List Char) :=
  if startsInWord cs then some (cs.dropWhile isWordChar) else none

theorem afterBlob?_eq (cs : List Char) : afterBlob? cs = (afterPhrase? ["BLOB", "SUB_TYPE"] cs).bind fun cs =>
    (afterBlanks? cs).bind afterWord? :=
  Option.bind_assoc ..

section Stop

variable {test : Char → Bool} {rest : List Char} (stop : ∀ c ∈ rest.head?, test c = false)
include stop

theorem takeWhile_stop (cs : List Char) : (cs ++ rest).takeWhile test = cs.takeWhile test := by
  induction cs with
  | nil =>
    cases rest with
    | nil => rfl
    | cons c rest => rw [List.nil_append, List.takeWhile_cons_of_neg (by simp [stop c rfl]), List.takeWhile_nil]
  | cons c cs ih => cases here : test c <;> simp [here, ih]

theorem dropWhile_stop (cs : List Char) : (cs ++ rest).dropWhile test = cs.dropWhile test ++ rest := by
  induction cs with
  | nil =>
    cases rest with
    | nil => rfl
    | cons c rest => exact List.dropWhile_cons_of_neg (by simp [stop c rfl])
  | cons c cs ih => cases here : test c <;> simp [here, ih]

end Stop

theorem StopsBefore.optional {rest : List Char} {keyword : String} {read? : List Char → Option (List Char)}
    (later : StopsBefore rest read?) (reads : StopsBefore rest (afterKeyword? keyword.toList)) :
    StopsBefore rest fun cs => read? (afterOptional keyword cs) := by
  intro cs
  dsimp only
  rw [afterOptional, afterOptional, reads cs]
  cases afterKeyword? keyword.toList cs with
  | none => exact later cs
  | some after => exact later after

namespace Follows

variable {rest : List Char} (follows : Follows rest)
include follows

theorem isIdentifierChar_head : ∀ c ∈ rest.head?, isIdentifierChar c = false := by
  intro c head
  rcases follows.head c head with blank | rfl | rfl
  · exact isIdentifierChar_of_blank blank
  · decide
  · decide

theorem startsInWord_eq : startsInWord rest = false := by
  cases rest with
  | nil => rfl
  | cons c rest =>
    have outside := follows.isIdentifierChar_head c rfl
    rw [isIdentifierChar, Bool.or_eq_false_iff] at outside
    exact outside.2

theorem other : ∀ c ∈ rest.head?, (foldCase c).isAlpha = false :=
  other_of_startsInWord follows.startsInWord_eq

theorem keyword {keyword : List Char} (letters : keyword.all isWordChar = true) :
    StopsBefore rest (afterKeyword? keyword) := by
  apply StopsBefore.keyword
  intro c head member
  have solid := List.all_eq_true.mp letters _ member
  rcases follows.head c head with blank | rfl | rfl
  · rw [foldCase_of_blank blank, isWordChar_of_blank blank] at solid
    cases solid
  · cases solid
  · cases solid

/-- White space before another word of a type does not go on in what follows. -/
theorem spaced {word : String} (member : word ∈ typeWords) {read? : List Char → Option (List Char)}
    (front : ∀ cs, afterKeyword? word.toList cs = none → read? cs = none) (reads : StopsBefore rest read?) :
    StopsBefore rest fun cs => (afterBlanks? cs).bind read? := by
  have given : typeWords.all (fun word => (afterKeyword? word.toList []).isNone) = true := by decide
  apply StopsBefore.blanks (fun cs _ => reads cs)
  · exact front [] (Option.isNone_iff_eq_none.mp (List.all_eq_true.mp given word member))
  · exact front (trimStart rest) (follows.next word member)

theorem double : StopsBefore rest afterDouble? := by
  apply afterPhrase?_append_other (by decide) follows.other
  intro keyword member
  rw [List.mem_singleton.mp member]
  exact follows.next _ (by decide)

theorem varying : StopsBefore rest afterVarying? := by
  have word : StopsBefore rest (afterKeyword? "VARYING".toList) := follows.keyword (by decide +kernel)
  have later := follows.spaced (by decide) (fun _ => id) word
  exact (follows.keyword (by decide +kernel)).bind (later.optional (follows.keyword (by decide +kernel)))

theorem zoned : StopsBefore rest afterZoned? := by
  have zone : StopsBefore rest (afterPhrase? ["TIME", "ZONE"]) := by
    apply afterPhrase?_append_other (by decide) follows.other
    intro keyword member
    rw [List.mem_singleton.mp member]
    exact follows.next _ (by decide)
  have late := follows.spaced (by decide) (fun _ => afterPhrase?_none) zone
  have out : StopsBefore rest (afterKeyword? "OUT".toList) := follows.keyword (by decide +kernel)
  have first : StopsBefore rest (afterKeyword? "WITH".toList) := follows.keyword (by decide +kernel)
  have member : "WITH" ∈ typeWords := by decide
  have early := follows.spaced member (fun cs unread => by rw [unread, Option.bind_none]) (first.bind (late.optional out))
  exact (follows.keyword (by decide +kernel)).bind (early.optional (follows.keyword (by decide +kernel)))

theorem subType : StopsBefore rest (afterPhrase? ["BLOB", "SUB_TYPE"]) := by
  have split : afterPhrase? ["BLOB", "SUB_TYPE"] = fun cs => (afterKeyword? "BLOB".toList cs).bind fun cs =>
      (afterBlanks? cs).bind (afterKeyword? "SUB_TYPE".toList) := by
    funext cs
    exact Option.bind_assoc ..
  rw [split]
  exact (follows.keyword (by decide +kernel)).bind
    (follows.spaced (by decide) (fun _ => id) (follows.keyword (by decide +kernel)))

theorem named : StopsBefore rest fun cs => (identifier? cs).map Prod.snd := by
  intro cs
  have stop := follows.isIdentifierChar_head
  dsimp only
  rw [identifier?, identifier?, takeWhile_stop stop, dropWhile_stop stop]
  split <;> rfl

/-- The word of a sub type is read where it stands. -/
theorem blob {cs : List Char}
    (word : ∀ after, afterPhrase? ["BLOB", "SUB_TYPE"] cs = some after → trimStart after ≠ []) :
    afterBlob? (cs ++ rest) = (afterBlob? cs).map (· ++ rest) := by
  have outside : ∀ c ∈ rest.head?, isWordChar c = false := by
    intro c head
    have here := follows.isIdentifierChar_head c head
    rw [isIdentifierChar, Bool.or_eq_false_iff] at here
    exact here.2
  rw [afterBlob?_eq, afterBlob?_eq, follows.subType cs]
  cases phrase : afterPhrase? ["BLOB", "SUB_TYPE"] cs with
  | none => rfl
  | some after =>
    rw [Option.map_some, Option.bind_some, Option.bind_some, afterBlanks?_solid (word after phrase)]
    cases read : afterBlanks? after with
    | none => rfl
    | some here =>
      have solid : here ≠ [] := by
        rw [afterBlanks?_eq] at read
        split at read
        · exact Option.some.inj read ▸ word after phrase
        · cases read
      obtain ⟨c, more, rfl⟩ := List.exists_cons_of_ne_nil solid
      have same : startsInWord (c :: more ++ rest) = startsInWord (c :: more) := rfl
      rw [Option.map_some, Option.bind_some, Option.bind_some, afterWord?, afterWord?, same, dropWhile_stop outside]
      split <;> rfl

theorem words {cs : List Char}
    (word : ∀ after, afterPhrase? ["BLOB", "SUB_TYPE"] cs = some after → trimStart after ≠ []) :
    afterType? (cs ++ rest) = (afterType? cs).map (· ++ rest) := by
  have name := follows.named cs
  dsimp only at name
  rw [afterType?, afterType?, follows.double cs, follows.varying cs, follows.zoned cs, follows.blob word, name,
    Option.map_or, Option.map_or, Option.map_or, Option.map_or]

end Follows

section Sub

variable {cs after : List Char}

/-- Where the word of a sub type is left out, only the first word is read. -/
theorem afterType?_bare (phrase : afterPhrase? ["BLOB", "SUB_TYPE"] cs = some after) (short : trimStart after = []) :
    ∃ rest, afterType? cs = some rest ∧ afterKeyword? "SUB_TYPE".toList (trimStart rest) = some after := by
  obtain ⟨middle, spaced, last⟩ := Option.bind_eq_some_iff.mp phrase
  obtain ⟨rest, keyword, wide⟩ := Option.bind_eq_some_iff.mp spaced
  have start : trimStart rest = middle := by
    rw [afterBlanks?_eq] at wide
    split at wide
    · exact Option.some.inj wide
    · cases wide
  obtain ⟨one, spells, rfl⟩ := afterKeyword?_eq_some keyword
  obtain ⟨blanks, gap, rfl⟩ := afterBlanks?_eq_some wide
  refine ⟨blanks ++ middle, ?_, by rw [start]; exact last⟩
  have spells : Spells "BLOB" one := spells
  have named : NameBefore one (blanks ++ middle) := by
    refine ⟨?_, fun c member => ?_, fun c head => ?_⟩
    · rintro rfl
      cases spells
    · have letter := isWordChar_of_letter (spells.letter (by decide) member)
      rw [isIdentifierChar, letter, Bool.or_true]
    · obtain ⟨given, blank⟩ := gap
      obtain ⟨d, more, rfl⟩ := List.exists_cons_of_ne_nil given
      cases head
      exact isIdentifierChar_of_blank (List.all_eq_true.mp blank _ List.mem_cons_self)
  -- No other type starts with this letter.
  obtain ⟨c, more, rfl⟩ := List.exists_cons_of_ne_nil named.given
  have first : foldCase c = 'B' := (List.cons.inj spells).1
  have unread {k : Char} (other : 'B' ≠ k) (keyword : List Char) :
      afterKeyword? (k :: keyword) (c :: more ++ (blanks ++ middle)) = none := by
    rw [List.cons_append, afterKeyword?, first, if_neg (by simpa using other)]
  have double : afterDouble? (c :: more ++ (blanks ++ middle)) = none :=
    afterPhrase?_none (unread (by decide) "OUBLE".toList)
  have varying : afterVarying? (c :: more ++ (blanks ++ middle)) = none := by
    show (afterKeyword? ('C' :: "HAR".toList) (c :: more ++ (blanks ++ middle))).bind _ = none
    rw [unread (by decide), Option.bind_none]
  have zoned : afterZoned? (c :: more ++ (blanks ++ middle)) = none := by
    show (afterKeyword? ('T' :: "IME".toList) (c :: more ++ (blanks ++ middle))).bind _ = none
    rw [unread (by decide), Option.bind_none]
  have blob : afterBlob? (c :: more ++ (blanks ++ middle)) = none := by
    rw [afterBlob?_eq, phrase, Option.bind_some, afterBlanks?_eq, short]
    split <;> rfl
  rw [afterType?, double, varying, zoned, blob, identifier?_named named]
  rfl

theorem afterType?_append {rest : List Char} (follows : Follows rest) (read : afterType? cs = some after)
    (apart : afterKeyword? "SUB_TYPE".toList (trimStart after) = none) : afterType? (cs ++ rest) = some (after ++ rest) := by
  rw [follows.words, read, Option.map_some]
  intro short phrase blank
  obtain ⟨tail, other, subType⟩ := afterType?_bare phrase blank
  rw [read] at other
  cases other
  rw [apart] at subType
  cases subType

end Sub

theorem afterType?_eq_none {cs : List Char} (other : ∀ c ∈ cs.head?, isIdentifierChar c = false) :
    afterType? cs = none := by
  have letter : ∀ c ∈ cs.head?, (foldCase c).isAlpha = false := by
    apply other_of_startsInWord
    cases cs with
    | nil => rfl
    | cons c cs => exact ((Bool.or_eq_false_iff.mp (other c rfl)).2 :)
  have unread {keyword : String} (letters : keyword.toList.all Char.isAlpha = true) (given : keyword.toList ≠ []) :
      afterKeyword? keyword.toList cs = none := afterKeyword?_other letters given letter
  have double : afterDouble? cs = none := afterPhrase?_none (unread (by decide) (by decide))
  have varying : afterVarying? cs = none := by
    show (afterKeyword? "CHAR".toList cs).bind _ = none
    rw [unread (by decide) (by decide), Option.bind_none]
  have zoned : afterZoned? cs = none := by
    show (afterKeyword? "TIME".toList cs).bind _ = none
    rw [unread (by decide) (by decide), Option.bind_none]
  have blob : afterBlob? cs = none := by
    rw [afterBlob?_eq, afterPhrase?_none (unread (by decide) (by decide)), Option.bind_none]
  have name : identifier? cs = none := by
    have front := takeWhile_stop other []
    rw [List.nil_append, List.takeWhile_nil] at front
    rw [identifier?, front]
    rfl
  rw [afterType?, double, varying, zoned, blob, name]
  rfl

section Parameters

variable {cs inside after : List Char}

theorem parameters?_eq_none (other : (trimStart cs).head? ≠ some '(') : parameters? cs = none := by
  rw [parameters?]
  split
  · next start => exact absurd (by rw [start]; rfl) other
  · rfl

theorem parameters?_eq_some (read : parameters? cs = some (inside, after)) :
    ∃ blanks, (∀ c ∈ blanks, isBlank c = true) ∧ (∀ c ∈ inside, c ≠ ')') ∧
      cs = blanks ++ '(' :: (inside ++ ')' :: after) := by
  obtain ⟨blanks, blank, split⟩ := trimStart_split cs
  rw [parameters?] at read
  split at read
  · next rest start =>
    split at read
    · next tail found =>
      cases read
      refine ⟨blanks, blank, fun c member => ?_, ?_⟩
      · simpa using List.all_eq_true.mp List.all_takeWhile c member
      · rw [split, start, ← found, List.takeWhile_append_dropWhile]
    · cases read
  · cases read

theorem parameters?_parenthesized {blanks : List Char} (blank : ∀ c ∈ blanks, isBlank c = true)
    (plain : ∀ c ∈ inside, c ≠ ')') : parameters? (blanks ++ '(' :: (inside ++ ')' :: after)) = some (inside, after) := by
  have solid : trimStart ('(' :: (inside ++ ')' :: after)) = '(' :: (inside ++ ')' :: after) := rfl
  have within : ∀ c ∈ inside, (c != ')') = true := fun c member => by simpa using plain c member
  have drop : (inside ++ ')' :: after).dropWhile (· != ')') = ')' :: after :=
    List.dropWhile_append_of_pos within
  have take : (inside ++ ')' :: after).takeWhile (· != ')') = inside := by
    rw [List.takeWhile_append_of_pos within, List.takeWhile_cons_of_neg (by decide), List.append_nil]
  rw [parameters?, trimStart_blanks blank, solid]
  simp only [drop, take]

end Parameters

/-- What can stand after a type: neither parameters nor more of its words. -/
structure EndsType (rest : List Char) : Prop extends Follows rest where
  other : (trimStart rest).head? ≠ some '('

theorem EndsType.of_all {rest : List Char} (head : rest.head?.all (fun c => isBlank c || c == ';') = true)
    (next : typeWords.all (fun word => (afterKeyword? word.toList (trimStart rest)).isNone) = true)
    (other : ((trimStart rest).head? != some '(') = true) : EndsType rest where
  head := by
    intro c start
    rw [Option.mem_def.mp start] at head
    rcases (Bool.or_eq_true _ _).mp head with blank | same
    · exact .inl blank
    · exact .inr (.inl (beq_iff_eq.mp same))
  next word member := Option.isNone_iff_eq_none.mp (List.all_eq_true.mp next word member)
  other := bne_iff_ne.mp other

theorem typeReading?_head {cs : List Char} {reading : TypeReading} (read : typeReading? cs = some reading) :
    ∃ c rest, cs = c :: rest ∧ isBlank c = false := by
  obtain ⟨after, words, _⟩ := Option.map_eq_some_iff.mp read
  have start : ∃ c rest, cs = c :: rest ∧ isIdentifierChar c = true := by
    cases cs with
    | nil => cases words
    | cons c rest =>
      refine ⟨c, rest, rfl, ?_⟩
      rw [← Bool.not_eq_false]
      intro other
      rw [afterType?_eq_none (by simpa using other)] at words
      cases words
  obtain ⟨c, rest, rfl, inside⟩ := start
  refine ⟨c, rest, rfl, ?_⟩
  rw [← Bool.not_eq_true]
  intro blank
  rw [isIdentifierChar_of_blank blank] at inside
  cases inside

section Whole

variable {cs base rest : List Char} {parameters : Option (List Char)}
  (read : typeReading? cs = some { base, parameters, rest := [] })
include read

private theorem typeReading?_parts : ∃ after, afterType? cs = some after ∧ base = cs.take (cs.length - after.length) ∧
    (after = [] ∧ parameters = none ∨ ∃ inside, parameters? after = some (inside, []) ∧ parameters = some inside) := by
  rw [typeReading?, Option.map_eq_some_iff] at read
  obtain ⟨after, words, reading⟩ := read
  dsimp only at reading
  split at reading
  · next inside rest found =>
    cases reading
    exact ⟨after, words, rfl, .inr ⟨inside, found, rfl⟩⟩
  · cases reading
    exact ⟨[], words, rfl, .inl ⟨rfl, rfl⟩⟩

/-- Where a type is all there is, its first word does not leave `SUB_TYPE` behind. -/
private theorem subType_unread {after : List Char} (words : afterType? cs = some after) :
    afterKeyword? "SUB_TYPE".toList (trimStart after) = none := by
  obtain ⟨tail, same, _, ends⟩ := typeReading?_parts read
  rw [words] at same
  cases same
  rcases ends with ⟨rfl, _⟩ | ⟨inside, found, _⟩
  · rfl
  · obtain ⟨blanks, blank, _, rfl⟩ := parameters?_eq_some found
    rw [trimStart_blanks blank]
    rfl

theorem typeReading?_append (ends : EndsType rest) : typeReading? (cs ++ rest) = some { base, parameters, rest } := by
  obtain ⟨after, words, rfl, parts⟩ := typeReading?_parts read
  have cut : (cs ++ rest).take ((cs ++ rest).length - (after ++ rest).length) = cs.take (cs.length - after.length) := by
    rw [List.length_append, List.length_append, Nat.add_sub_add_right, List.take_append_of_le_length (Nat.sub_le ..)]
  rw [typeReading?, afterType?_append ends.toFollows words (subType_unread read words), Option.map_some]
  dsimp only
  rw [cut]
  rcases parts with ⟨rfl, rfl⟩ | ⟨inside, found, rfl⟩
  · rw [List.nil_append, parameters?_eq_none ends.other]
  · obtain ⟨blanks, blank, plain, rfl⟩ := parameters?_eq_some found
    have more : blanks ++ '(' :: (inside ++ [')']) ++ rest = blanks ++ '(' :: (inside ++ ')' :: rest) := by simp
    rw [more, parameters?_parenthesized blank plain]

theorem typeReading?_last : ∀ c ∈ cs.getLast?, isBlank c = false := by
  intro c last
  rw [← Bool.not_eq_true]
  intro blank
  obtain ⟨after, words, _, parts⟩ := typeReading?_parts read
  have unread := subType_unread read words
  have follows : Follows [c] := by
    constructor
    · rintro d ⟨⟩
      exact .inl blank
    · have none : trimStart [c] = [] := List.dropWhile_cons_of_pos blank
      rw [none]
      decide
  obtain ⟨front, rfl⟩ : ∃ front, cs = front ++ [c] := List.getLast?_eq_some_iff.mp last
  -- A type in the front is read without the blank after it, except where `BLOB SUB_TYPE` still lacks its word.
  by_cases word : ∀ after, afterPhrase? ["BLOB", "SUB_TYPE"] front = some after → trimStart after ≠ []
  · rw [follows.words word, Option.map_eq_some_iff] at words
    obtain ⟨front, _, rfl⟩ := words
    rcases parts with ⟨none, _⟩ | ⟨inside, found, _⟩
    · simp at none
    · obtain ⟨blanks, _, _, split⟩ := parameters?_eq_some found
      rw [← List.cons_append, ← List.append_assoc] at split
      obtain rfl : c = ')' := List.singleton_inj.mp (List.append_inj_right' split rfl)
      cases blank
  · simp only [Classical.not_forall, Classical.not_not] at word
    obtain ⟨short, phrase, none⟩ := word
    have longer := follows.subType front
    rw [phrase, Option.map_some] at longer
    have blanks : trimStart (short ++ [c]) = [] := by
      rw [trimStart_blanks (blank_of_trimStart none)]
      exact List.dropWhile_cons_of_pos blank
    obtain ⟨tail, same, subType⟩ := afterType?_bare longer blanks
    rw [words] at same
    cases same
    rw [unread] at subType
    cases subType

end Whole

end SchemaSync.Script
