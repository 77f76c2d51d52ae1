import SchemaSync.Proofs.Script.Default
import SchemaSync.Proofs.Script.TypeEnd

/-! Reading back canonical types. A canonical type is one plain name or one of the standard types of
several words, in capitals with single spaces, and then perhaps one or two numbers in parentheses. -/

namespace SchemaSync.Script

open Text

/-- The words of a canonical type. The sub types of a blob that have a shorter form are left out. -/
inductive IsBase : List Char → Prop
  | word {w : List Char} : IsName w → IsBase w
  | double : IsBase "DOUBLE PRECISION".toList
  | varying (long : Bool) : IsBase ((if long then "CHARACTER" else "CHAR").toList ++ " VARYING".toList)
  | zoned (stamp without : Bool) : IsBase ((if stamp then "TIMESTAMP" else "TIME").toList ++
      (if without then " WITHOUT" else " WITH").toList ++ " TIME ZONE".toList)
  | blob {w : List Char} : IsName w → w.all isWordChar = true → w ≠ "0".toList → w ≠ "1".toList →
      w ≠ "BINARY".toList → IsBase ("BLOB SUB_TYPE ".toList ++ w)

def IsNumeral (cs : List Char) : Prop :=
  cs ≠ [] ∧ cs.all (fun c => 48 ≤ c.toNat && c.toNat ≤ 57) = true

def IsParameters (cs : List Char) : Prop :=
  ∃ first, IsNumeral first ∧ (cs = first ∨ ∃ second, IsNumeral second ∧ cs = first ++ ',' :: second)

/-- Parameters that are kept as they stand: no white space is in them, and nothing closes their parentheses. -/
structure Compact (inside : List Char) : Prop where
  given : inside ≠ []
  plain : ∀ c ∈ inside, isBlank c = false ∧ c ≠ ')'

def parameterText (parameters : Option (List Char)) : List Char :=
  parameters.elim [] fun inside => '(' :: (inside ++ [')'])

structure IsType (base : List Char) (parameters : Option (List Char)) (text : List Char) : Prop where
  words : IsBase base
  numbers : ∀ inside ∈ parameters, IsParameters inside
  text_eq : text = base ++ parameterText parameters

theorem IsType.of_isName {w : List Char} (name : IsName w) : IsType w none w :=
  ⟨.word name, nofun, (List.append_nil w).symm⟩

theorem IsNumeral.isName {cs : List Char} (numeral : IsNumeral cs) : IsName cs := by
  refine ⟨numeral.1, List.all_eq_true.mpr fun c member => ?_⟩
  have digit := List.all_eq_true.mp numeral.2 c member
  rw [isNameChar, digit, Bool.or_true]
  rfl

theorem NameBefore.of_isName {name rest : List Char} (plain : IsName name)
    (stop : ∀ c ∈ rest.head?, isIdentifierChar c = false) : NameBefore name rest :=
  ⟨plain.1, fun _ member => isIdentifierChar_of_isNameChar (plain.isNameChar member), stop⟩

theorem identifier?_append {name rest : List Char} (plain : IsName name)
    (stop : ∀ c ∈ rest.head?, isIdentifierChar c = false) : identifier? (name ++ rest) = some (name, rest) :=
  identifier?_named (.of_isName plain stop)

section Words

theorem afterBlanks?_eq_none {cs : List Char} (solid : ∀ c ∈ cs, isBlank c = false) : afterBlanks? cs = none := by
  cases cs with
  | nil => rfl
  | cons c cs => rw [afterBlanks?, solid c List.mem_cons_self, if_neg Bool.false_ne_true]

/-- A word with no white space in it is no type of several words. -/
private theorem afterType?_word {w : List Char} (name : IsName w) : afterType? w = some [] := by
  have solid {keyword after : List Char} (read : afterKeyword? keyword w = some after) :
      ∀ c ∈ after, isBlank c = false := by
    obtain ⟨word, _, rfl⟩ := afterKeyword?_eq_some read
    exact fun c member => name.solid (List.mem_append_right word member)
  -- Every type of several words has white space after its first word, with or without the end of that word.
  have spaced (keyword : List Char) : (afterKeyword? keyword w).bind afterBlanks? = none := by
    cases read : afterKeyword? keyword w with
    | none => rfl
    | some after => exact afterBlanks?_eq_none (solid read)
  have spacedEnd (keyword : List Char) (ending : String) :
      (afterKeyword? keyword w).bind (fun cs => afterBlanks? (afterOptional ending cs)) = none := by
    cases read : afterKeyword? keyword w with
    | none => rfl
    | some after =>
      rw [Option.bind_some, afterOptional]
      cases longer : afterKeyword? ending.toList after with
      | none => exact afterBlanks?_eq_none (solid read)
      | some rest =>
        obtain ⟨word, _, rfl⟩ := afterKeyword?_eq_some longer
        exact afterBlanks?_eq_none fun c member => solid read c (List.mem_append_right word member)
  have double : afterDouble? w = none := by
    show ((afterKeyword? "DOUBLE".toList w).bind afterBlanks?).bind _ = none
    rw [spaced, Option.bind_none]
  have varying : afterVarying? w = none := by
    show (afterKeyword? "CHAR".toList w).bind (fun cs => (afterBlanks? (afterOptional "ACTER" cs)).bind _) = none
    rw [← Option.bind_assoc, spacedEnd, Option.bind_none]
  have zoned : afterZoned? w = none := by
    show (afterKeyword? "TIME".toList w).bind (fun cs => (afterBlanks? (afterOptional "STAMP" cs)).bind _) = none
    rw [← Option.bind_assoc, spacedEnd, Option.bind_none]
  have blob : afterBlob? w = none := by
    have phrase : afterPhrase? ["BLOB", "SUB_TYPE"] w = none := by
      show ((afterKeyword? "BLOB".toList w).bind afterBlanks?).bind _ = none
      rw [spaced, Option.bind_none]
    rw [afterBlob?_eq, phrase, Option.bind_none]
  have stop : ∀ c ∈ [].head?, isIdentifierChar c = false := by simp
  have whole := identifier?_append name stop
  rw [List.append_nil] at whole
  rw [afterType?, double, varying, zoned, blob, whole]
  rfl

theorem afterType?_subType {w : List Char} (given : w ≠ []) (word : w.all isWordChar = true) :
    afterType? ("BLOB SUB_TYPE ".toList ++ w) = some [] := by
  obtain ⟨c, more, rfl⟩ := List.exists_cons_of_ne_nil given
  have inside : isWordChar c = true := List.all_eq_true.mp word c List.mem_cons_self
  have solid : isBlank c = false := by
    rw [← Bool.not_eq_true]
    intro blank
    rw [isWordChar_of_blank blank] at inside
    cases inside
  have read : afterBlanks? (' ' :: c :: more) = some (c :: more) := by
    show some (trimStart (c :: more)) = _
    rw [trimStart, List.dropWhile_cons_of_neg (by simpa using solid)]
  have blob : afterBlob? ("BLOB SUB_TYPE ".toList ++ c :: more) = some [] := by
    show (afterBlanks? (' ' :: c :: more)).bind afterWord? = _
    have drop : (c :: more).dropWhile isWordChar = [] := by
      have whole : ((c :: more) ++ []).dropWhile isWordChar = [] :=
        List.dropWhile_append_of_pos (List.all_eq_true.mp word)
      rwa [List.append_nil] at whole
    have start : startsInWord (c :: more) = true := inside
    rw [read, Option.bind_some, afterWord?, start, if_pos rfl, drop]
  have others : afterType? ("BLOB SUB_TYPE ".toList ++ c :: more) = (afterBlob? ("BLOB SUB_TYPE ".toList ++ c :: more)).or
      ((identifier? ("BLOB SUB_TYPE ".toList ++ c :: more)).map Prod.snd) := rfl
  rw [others, blob, Option.some_or]

theorem IsBase.afterType?_eq {base : List Char} (words : IsBase base) : afterType? base = some [] := by
  cases words with
  | word name => exact afterType?_word name
  | double => decide +kernel
  | varying long => cases long <;> decide +kernel
  | zoned stamp without => cases stamp <;> cases without <;> decide +kernel
  | blob name word => exact afterType?_subType name.1 word

end Words

section Parameters

theorem IsParameters.all_isNameChar {inside : List Char} (numbers : IsParameters inside) :
    inside ≠ [] ∧ inside.all (fun c => isNameChar c || c == ',') = true := by
  have plain {cs : List Char} (numeral : IsNumeral cs) : cs.all (fun c => isNameChar c || c == ',') = true := by
    refine List.all_eq_true.mpr fun c member => ?_
    rw [numeral.isName.isNameChar member, Bool.true_or]
  obtain ⟨first, numeral, rfl | ⟨second, other, rfl⟩⟩ := numbers
  · exact ⟨numeral.1, plain numeral⟩
  · refine ⟨by simp, ?_⟩
    rw [List.all_append, List.all_cons, plain numeral, plain other]
    rfl

theorem IsParameters.compact {inside : List Char} (numbers : IsParameters inside) : Compact inside := by
  obtain ⟨given, plain⟩ := numbers.all_isNameChar
  refine ⟨given, fun c member => ?_⟩
  have here := List.all_eq_true.mp plain c member
  rw [Bool.or_eq_true] at here
  rcases here with name | comma
  · refine ⟨isBlank_of_isNameChar name, ?_⟩
    rintro rfl
    cases name
  · rw [beq_iff_eq.mp comma]
    decide

/-- Words that are read to their end are a type, alone or with parameters. -/
theorem typeReading?_words {base : List Char} (words : afterType? base = some []) {parameters : Option (List Char)}
    (compact : ∀ inside ∈ parameters, Compact inside) :
    typeReading? (base ++ parameterText parameters) = some { base, parameters, rest := [] } := by
  cases parameters with
  | none =>
    rw [parameterText, Option.elim_none, List.append_nil, typeReading?, words, Option.map_some, List.length_nil,
      Nat.sub_zero, List.take_length]
    rfl
  | some inside =>
    have follows : Follows ('(' :: (inside ++ [')'])) := by
      refine ⟨?_, fun word member => ?_⟩
      · rintro c ⟨⟩
        exact .inr (.inr rfl)
      · have other : typeWords.all (fun word => word.toList.head?.any (· != '(')) = true := by decide
        have here := List.all_eq_true.mp other word member
        cases split : word.toList with
        | nil => rw [split] at here; cases here
        | cons k keyword =>
          rw [split] at here
          have differs : '(' ≠ k := by rintro rfl; cases here
          exact if_neg (by simpa [foldCase] using differs)
    have plain : ∀ c ∈ inside, c ≠ ')' := fun c member => ((compact inside rfl).plain c member).2
    have read : parameters? ([] ++ '(' :: (inside ++ [')'])) = some (inside, []) :=
      parameters?_parenthesized (by simp) plain
    have cut : (base ++ '(' :: (inside ++ [')'])).take
        ((base ++ '(' :: (inside ++ [')'])).length - ('(' :: (inside ++ [')'])).length) = base := by
      rw [List.length_append, Nat.add_sub_cancel, List.take_left]
    rw [parameterText, Option.elim_some, typeReading?, afterType?_append follows words rfl, Option.map_some,
      List.nil_append]
    dsimp only
    rw [cut]
    rw [List.nil_append] at read
    rw [read]

theorem IsType.typeReading?_eq {base text : List Char} {parameters : Option (List Char)}
    (type : IsType base parameters text) : typeReading? text = some { base, parameters, rest := [] } := by
  rw [type.text_eq]
  exact typeReading?_words type.words.afterType?_eq fun inside given => (type.numbers inside given).compact

end Parameters

section Canonical

theorem wordsOf_solid {word : List Char} (start : word ≠ []) (solid : ∀ c ∈ word, isBlank c = false) :
    wordsOf word = [word] := by
  induction word with
  | nil => exact absurd rfl start
  | cons c word ih =>
    have solid := List.forall_mem_cons.mp solid
    cases word with
    | nil => rw [wordsOf.eq_def]; simp only [solid.1]; rfl
    | cons d word =>
      rw [wordsOf.eq_def]
      dsimp only
      rw [solid.1, ih (List.cons_ne_nil _ _) solid.2]
      simp [solid.2]

theorem wordsOf_append {word : List Char} (start : word ≠ []) (solid : ∀ c ∈ word, isBlank c = false)
    (rest : List Char) : wordsOf (word ++ ' ' :: rest) = word :: wordsOf rest := by
  induction word with
  | nil => exact absurd rfl start
  | cons c word ih =>
    have solid := List.forall_mem_cons.mp solid
    cases word with
    | nil =>
      have blank : wordsOf (' ' :: rest) = wordsOf rest := by
        rw [wordsOf.eq_def]
        rfl
      rw [List.cons_append, List.nil_append, wordsOf.eq_def]
      simp only [solid.1, blank]
      rfl
    | cons d word =>
      have later := ih (List.cons_ne_nil _ _) solid.2
      rw [List.cons_append] at later ⊢
      rw [List.cons_append, wordsOf.eq_def]
      dsimp only
      rw [solid.1, later]
      simp [solid.2]

private theorem IsBase.upperChars_eq {base : List Char} (words : IsBase base) : upperChars base = base := by
  cases words with
  | word name => exact name.upperChars_eq
  | double => decide
  | varying long => cases long <;> decide
  | zoned stamp without => cases stamp <;> cases without <;> decide
  | blob name =>
    rw [upperChars, List.flatMap_append]
    exact congr (congrArg HAppend.hAppend (by decide)) name.upperChars_eq

private theorem canonicalWords_eq {base : List Char} (words : IsBase base) :
    [' '].intercalate (canonicalWords base) = base := by
  rw [canonicalWords, words.upperChars_eq]
  cases words with
  | word name =>
    rw [wordsOf_solid name.1 fun c => name.solid]
    simp [List.intercalate]
  | double => decide
  | varying long => cases long <;> decide
  | zoned stamp without => cases stamp <;> cases without <;> decide
  | @blob w name _ zero one binary =>
    have blob : IsName "BLOB".toList := by decide
    have subType : IsName "SUB_TYPE".toList := by decide
    have split : wordsOf ("BLOB SUB_TYPE ".toList ++ w) = ["BLOB".toList, "SUB_TYPE".toList, w] := by
      rw [show "BLOB SUB_TYPE ".toList ++ w = "BLOB".toList ++ ' ' :: ("SUB_TYPE".toList ++ ' ' :: w) from rfl,
        wordsOf_append blob.1 fun c => blob.solid, wordsOf_append subType.1 fun c => subType.solid,
        wordsOf_solid name.1 fun c => name.solid]
    have canonical : blobSubType w = ["SUB_TYPE".toList, w] := by
      rw [blobSubType, beq_eq_false_iff_ne.mpr zero, beq_eq_false_iff_ne.mpr binary,
        beq_eq_false_iff_ne.mpr one]
      by_cases text : w = "TEXT".toList
      · rw [text]; rfl
      · rw [beq_eq_false_iff_ne.mpr text]; rfl
    rw [split]
    simp [canonical, List.intercalate]

theorem piecesAt_plain {cs : List Char} (none : ',' ∉ cs) : piecesAt ',' cs = [cs] := by
  induction cs with
  | nil => rfl
  | cons c cs ih =>
    rw [List.mem_cons, not_or] at none
    rw [piecesAt, ih none.2]
    simp [Ne.symm none.1]

theorem piecesAt_append {front : List Char} (none : ',' ∉ front) {rest piece : List Char}
    {pieces : List (List Char)} (read : piecesAt ',' rest = piece :: pieces) :
    piecesAt ',' (front ++ ',' :: rest) = front :: piece :: pieces := by
  induction front with
  | nil => rw [List.nil_append, piecesAt, read]; rfl
  | cons c front ih =>
    rw [List.mem_cons, not_or] at none
    rw [List.cons_append, piecesAt, ih none.2]
    simp [Ne.symm none.1]

theorem IsNumeral.comma_not_mem {cs : List Char} (numeral : IsNumeral cs) : ',' ∉ cs := by
  intro member
  have := numeral.isName.isNameChar member
  cases this

theorem piecesAt_ne_nil (separator : Char) (cs : List Char) : piecesAt separator cs ≠ [] := by
  induction cs with
  | nil => exact List.cons_ne_nil _ _
  | cons c cs ih =>
    obtain ⟨piece, pieces, split⟩ := List.exists_cons_of_ne_nil ih
    rw [piecesAt, split]
    dsimp only
    split <;> exact List.cons_ne_nil _ _

theorem intercalate_piecesAt (separator : Char) (cs : List Char) :
    [separator].intercalate (piecesAt separator cs) = cs := by
  induction cs with
  | nil => rfl
  | cons c cs ih =>
    obtain ⟨piece, pieces, split⟩ := List.exists_cons_of_ne_nil (piecesAt_ne_nil separator cs)
    rw [split] at ih
    rw [piecesAt, split]
    dsimp only
    split
    · next same =>
      rw [List.intercalate_cons_cons, ih, beq_iff_eq.mp same]
      rfl
    · rw [← ih]
      cases pieces with
      | nil => rfl
      | cons other pieces => rw [List.intercalate_cons_cons, List.intercalate_cons_cons]; rfl

theorem mem_of_mem_piecesAt {separator : Char} {cs piece : List Char} (member : piece ∈ piecesAt separator cs) :
    ∀ c ∈ piece, c ∈ cs := by
  intro c inside
  have joined : c ∈ [separator].intercalate (piecesAt separator cs) := by
    generalize piecesAt separator cs = pieces at member
    induction pieces with
    | nil => cases member
    | cons first pieces ih =>
      cases pieces with
      | nil =>
        obtain rfl := List.mem_singleton.mp member
        rwa [List.intercalate_singleton]
      | cons second pieces =>
        rw [List.intercalate_cons_cons, List.mem_append, List.mem_append]
        rcases List.mem_cons.mp member with rfl | later
        · exact .inl (.inl inside)
        · exact .inr (ih later)
  rwa [intercalate_piecesAt] at joined

private theorem Compact.piecesAt_eq {inside : List Char} (compact : Compact inside) :
    [','].intercalate ((piecesAt ',' inside).map trimChars) = inside := by
  have trimmed : ∀ piece ∈ piecesAt ',' inside, trimChars piece = piece := by
    intro piece member
    have solid : ∀ c ∈ piece, isBlank c = false := fun c here =>
      (compact.plain c (mem_of_mem_piecesAt member c here)).1
    exact Trimmed.trimChars_eq ⟨fun c head => solid c (List.mem_of_head? head), fun c last =>
      solid c (List.mem_of_getLast? last)⟩
  rw [List.map_congr_left trimmed, List.map_id', intercalate_piecesAt]

theorem canonicalType_words {base : List Char} (words : IsBase base) {parameters : Option (List Char)}
    (compact : ∀ inside ∈ parameters, Compact inside) :
    canonicalType base parameters = base ++ parameterText parameters := by
  cases parameters with
  | none =>
    rw [canonicalType, canonicalWords_eq words]
    exact (List.append_nil base).symm
  | some inside =>
    have compact := compact inside rfl
    have solid : inside.all isBlank = false := by
      obtain ⟨c, more, rfl⟩ := List.exists_cons_of_ne_nil compact.given
      rw [List.all_cons, (compact.plain c List.mem_cons_self).1, Bool.false_and]
    rw [canonicalType, canonicalWords_eq words, solid, if_neg Bool.false_ne_true,
      compact.piecesAt_eq, parameterText, Option.elim_some, List.append_assoc, List.cons_append]

theorem canonicalType_eq {base text : List Char} {parameters : Option (List Char)}
    (type : IsType base parameters text) : canonicalType base parameters = text := by
  rw [type.text_eq]
  exact canonicalType_words type.words fun inside given => (type.numbers inside given).compact

end Canonical

section Clauses

variable {value : Option (List Char)} {isNullable terminated : Bool}

theorem endsType_clauseChars : EndsType (clauseChars value isNullable terminated) := by
  cases value <;> cases isNullable <;> cases terminated <;> exact .of_all rfl rfl rfl

end Clauses

section Shape

theorem IsBase.all_plain {base : List Char} (words : IsBase base) :
    base.all (fun c => isNameChar c || c == ' ') = true ∧ ∃ c rest, base = c :: rest ∧ isNameChar c = true := by
  have plain {w : List Char} (name : IsName w) : w.all (fun c => isNameChar c || c == ' ') = true := by
    refine List.all_eq_true.mpr fun c member => ?_
    rw [name.isNameChar member, Bool.true_or]
  cases words with
  | word name =>
    obtain ⟨c, rest, rfl⟩ := List.exists_cons_of_ne_nil name.1
    exact ⟨plain name, c, rest, rfl, name.isNameChar List.mem_cons_self⟩
  | double => exact ⟨by decide, _, _, rfl, by decide⟩
  | varying long => cases long <;> exact ⟨by decide, _, _, rfl, by decide⟩
  | zoned stamp without => cases stamp <;> cases without <;> exact ⟨by decide, _, _, rfl, by decide⟩
  | blob name =>
    refine ⟨?_, _, _, rfl, by decide⟩
    rw [List.all_append, plain name]
    decide

/-- A character of a canonical type. -/
def isTypeChar (c : Char) : Bool :=
  isNameChar c || c == ' ' || c == ',' || c == '(' || c == ')'

theorem all_isTypeChar_parameterText {parameters : Option (List Char)}
    (numbers : ∀ inside ∈ parameters, IsParameters inside) : (parameterText parameters).all isTypeChar = true := by
  cases parameters with
  | none => rfl
  | some inside =>
    have plain : inside.all isTypeChar = true := by
      refine List.all_eq_true.mpr fun c member => ?_
      have plain := List.all_eq_true.mp (numbers inside rfl).all_isNameChar.2 c member
      rw [Bool.or_eq_true] at plain
      rcases plain with name | comma
      · rw [isTypeChar, name]
        rfl
      · rw [beq_iff_eq.mp comma]
        decide
    rw [parameterText, Option.elim_some, List.all_cons, List.all_append, plain]
    decide

theorem IsBase.all_isTypeChar {base : List Char} (words : IsBase base) : base.all isTypeChar = true := by
  refine List.all_eq_true.mpr fun c member => ?_
  rw [isTypeChar, List.all_eq_true.mp words.all_plain.1 c member]
  rfl

theorem IsType.all_isTypeChar {base text : List Char} {parameters : Option (List Char)}
    (type : IsType base parameters text) : text.all isTypeChar = true := by
  rw [type.text_eq, List.all_append, type.words.all_isTypeChar, all_isTypeChar_parameterText type.numbers]
  rfl

theorem IsType.head {base text : List Char} {parameters : Option (List Char)}
    (type : IsType base parameters text) : ∃ c rest, text = c :: rest ∧ isNameChar c = true := by
  obtain ⟨c, rest, split, name⟩ := type.words.all_plain.2
  exact ⟨c, rest ++ parameterText parameters, by rw [type.text_eq, split]; rfl, name⟩

private theorem IsBase.last {base : List Char} (words : IsBase base) :
    ∀ c ∈ base.getLast?, isBlank c = false := by
  have check {cs : List Char} (solid : cs.getLast?.all (fun c => !isBlank c) = true) :
      ∀ c ∈ cs.getLast?, isBlank c = false := by
    intro c last
    rw [Option.mem_def.mp last] at solid
    simpa using solid
  cases words with
  | word name => exact name.trimmed.last
  | double => exact check (by decide)
  | varying long => cases long <;> exact check (by decide)
  | zoned stamp without => cases stamp <;> cases without <;> exact check (by decide)
  | blob name =>
    intro c last
    rw [List.getLast?_append, List.getLast?_eq_some_getLast name.1, Option.some_or] at last
    exact name.trimmed.last c (List.getLast?_eq_some_getLast name.1 ▸ last)

theorem IsType.last {base text : List Char} {parameters : Option (List Char)}
    (type : IsType base parameters text) : ∀ c ∈ text.getLast?, isBlank c = false := by
  rw [type.text_eq]
  cases parameters with
  | none =>
    rw [parameterText, Option.elim_none, List.append_nil]
    exact type.words.last
  | some inside =>
    intro c last
    rw [parameterText, Option.elim_some, ← List.cons_append, ← List.append_assoc, List.getLast?_concat] at last
    obtain rfl : ')' = c := Option.some.inj last
    rfl

end Shape

end SchemaSync.Script
