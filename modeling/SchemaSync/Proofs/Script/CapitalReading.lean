import SchemaSync.Proofs.Script.Capitals
import SchemaSync.Script.Definition

/-! Definitions in capitals. A domain or a table is defined in the capitals of a script as in the script itself:
what is read there is the same in capitals, and what counts of it is the same. -/

namespace SchemaSync.Script

open Text

section Types

theorem afterOptional_capitals (keyword : String) (cs : List Char) :
    afterOptional keyword (capitals cs) = capitals (afterOptional keyword cs) := by
  rw [afterOptional, afterOptional, caseless_keyword]
  cases afterKeyword? keyword.toList cs <;> rfl

theorem caseless_optionalBlanks (keyword : String) :
    Caseless capitals fun cs => afterBlanks? (afterOptional keyword cs) := by
  intro cs
  dsimp only
  rw [afterOptional_capitals, caseless_blanks]

theorem caseless_varying : Caseless capitals afterVarying? :=
  (caseless_keyword _).bind <| (caseless_optionalBlanks "ACTER").bind <| caseless_keyword _

theorem caseless_zoned : Caseless capitals afterZoned? :=
  (caseless_keyword _).bind <| (caseless_optionalBlanks "STAMP").bind <| (caseless_keyword _).bind <|
    (caseless_optionalBlanks "OUT").bind <| caseless_phrase _

theorem caseless_blob : Caseless capitals afterBlob? := by
  refine (caseless_spacedPhrase _).bind fun cs => ?_
  rw [startsInWord_capitals, dropWhile_capitals isWordChar_toUpper]
  split <;> rfl

theorem caseless_type : Caseless capitals afterType? :=
  (caseless_phrase _).or <| caseless_varying.or <| caseless_zoned.or <| caseless_blob.or <|
    caseless_identifier.map fun _ => rfl

theorem caseless_parameters : Caseless (Prod.map capitals capitals) parameters? := by
  have inside (c : Char) : (c.toUpper != ')') = (c != ')') := toUpper_bne (by decide) c
  intro cs
  fun_cases parameters? cs with
  | case1 rest opens after closes =>
    have front : trimStart (capitals cs) = '(' :: capitals rest := by rw [trimStart_capitals, opens]; rfl
    have back : (capitals rest).dropWhile (· != ')') = ')' :: capitals after := by
      rw [dropWhile_capitals inside, closes]
      rfl
    unfold parameters?
    simp only [front, back]
    rw [takeWhile_capitals inside]
    rfl
  | case2 rest opens unclosed =>
    have front : trimStart (capitals cs) = '(' :: capitals rest := by rw [trimStart_capitals, opens]; rfl
    unfold parameters?
    simp only [front]
    rw [dropWhile_capitals inside]
    split
    · next after closes => exact (capitals_ne_cons (by decide) unclosed after closes).elim
    · rfl
  | case3 unopened =>
    unfold parameters?
    rw [trimStart_capitals]
    split
    · next rest opens => exact (capitals_ne_cons (by decide) unopened rest opens).elim
    · rfl

def TypeReading.capitals (reading : TypeReading) : TypeReading where
  base := Text.capitals reading.base
  parameters := reading.parameters.map Text.capitals
  rest := Text.capitals reading.rest

theorem caseless_typeReading : Caseless TypeReading.capitals typeReading? := by
  intro cs
  rw [typeReading?, typeReading?, caseless_type, Option.map_map, Option.map_map]
  refine congrArg (Option.map · (afterType? cs)) (funext fun after => ?_)
  have base : (capitals cs).take (cs.length - after.length) = capitals (cs.take (cs.length - after.length)) :=
    List.map_take.symm
  simp only [Function.comp_apply, caseless_parameters after, length_capitals, base]
  cases parameters? after <;> rfl

theorem isKnownTypeChars_capitals (cs : List Char) : isKnownTypeChars (capitals cs) = isKnownTypeChars cs := by
  rw [isKnownTypeChars, isKnownTypeChars, wordsOf_capitals]
  cases wordsOf cs with
  | nil => rfl
  | cons word words =>
    rw [List.map_cons]
    dsimp only
    rw [upperChars_capitals]

theorem numericParameters_capitals (parameters : Option (List Char)) :
    numericParameters (parameters.map capitals) = numericParameters parameters := by
  have number (parameter : List Char) : numericParameter? (capitals parameter) = numericParameter? parameter := by
    rw [numericParameter?, numericParameter?, trimChars_capitals, intOfChars?_capitals]
  cases parameters with
  | none => rfl
  | some inside =>
    rw [Option.map_some, numericParameters, numericParameters, piecesAt_capitals (by decide)]
    match piecesAt ',' inside with
    | [] => rfl
    | [first] => exact congrArg (·, none) (number first)
    | first :: second :: _ => exact Prod.ext (number first) (number second)

/-- The canonical text has the words in capitals anyway. -/
theorem capitals_canonicalType (base : List Char) (parameters : Option (List Char)) :
    capitals (canonicalType (capitals base) (parameters.map capitals)) = capitals (canonicalType base parameters) := by
  have words : canonicalWords (capitals base) = canonicalWords base := by
    rw [canonicalWords, canonicalWords, upperChars_capitals]
  unfold canonicalType
  rw [words]
  cases parameters with
  | none => rfl
  | some inside =>
    rw [Option.map_some]
    dsimp only
    rw [all_capitals isBlank_toUpper]
    split
    · rfl
    · have trimmed : trimChars ∘ capitals = capitals ∘ trimChars := funext trimChars_capitals
      have comma : ',' = Char.toUpper ',' := rfl
      rw [piecesAt_capitals (by decide), List.map_map, trimmed, ← List.map_map, comma, ← capitals_intercalate,
        ← comma]
      simp only [capitals_append, capitals_cons, capitals_capitals]

end Types

section Definitions

/-- A domain definition in capitals. -/
def DomainReading.capitals (reading : DomainReading) : DomainReading where
  name := Text.capitals reading.name
  type := reading.type.capitals

theorem caseless_domainReading : Caseless DomainReading.capitals domainReading? := by
  have type : Caseless TypeReading.capitals fun cs =>
      ((afterSpaced? "AS" cs).bind typeReading?).or (typeReading? cs) :=
    ((caseless_spaced "AS").bind caseless_typeReading).or caseless_typeReading
  refine (caseless_spacedPhrase _).bind <| caseless_identifier.bind fun (name, cs) => ?_
  exact caseless_blanks.readOn (type.readOn fun _ => rfl) cs

theorem caseless_columnReading : Caseless DomainReading.capitals columnReading? := by
  intro definition
  rw [columnReading?, columnReading?, trimChars_capitals]
  refine caseless_identifier.readOn (fun (name, cs) => ?_) _
  exact caseless_blanks.readOn (caseless_typeReading.readOn fun _ => rfl) cs

theorem caseless_tableName : Caseless (Prod.map capitals capitals) tableName? :=
  (caseless_spacedPhrase _).bind caseless_identifier

theorem caseless_lastParenthesis : Caseless capitals upToLastParenthesis? := by
  intro cs
  rw [upToLastParenthesis?, upToLastParenthesis?, ← capitals_reverse, dropWhile_capitals (toUpper_bne (by decide))]
  cases cs.reverse.dropWhile (· != ')') with
  | nil => rfl
  | cons c body => exact congrArg some (capitals_reverse body).symm

theorem caseless_tableBody : Caseless capitals tableBody? := by
  refine caseless_tableName.bind fun (name, cs) => ?_
  dsimp only [Prod.map_apply]
  rw [trimStart_capitals]
  split
  · next rest opens =>
    obtain ⟨more, start, rfl⟩ := (capitals_eq_cons_iff (by decide)).mp opens
    rw [start]
    exact caseless_lastParenthesis more
  · next unopened =>
    split
    · next rest opens => exact (unopened (capitals rest) (congrArg capitals opens)).elim
    · rfl

theorem splitAtCommas_capitals (depth : Nat) (quoted : Bool) (cs : List Char) :
    splitAtCommas depth quoted (capitals cs) = (splitAtCommas depth quoted cs).map capitals := by
  induction cs generalizing depth quoted with
  | nil => rfl
  | cons c rest ih =>
    rw [capitals_cons, splitAtCommas, splitAtCommas, toUpper_beq (by decide), toUpper_beq (by decide),
      toUpper_beq (by decide), toUpper_beq (by decide)]
    split
    · rw [ih]
      rfl
    · dsimp only
      rw [ih]
      cases splitAtCommas _ _ rest <;> rfl

theorem columnDefinitions_capitals (body : List Char) :
    columnDefinitions (capitals body) = (columnDefinitions body).map capitals := by
  have trimmed : trimChars ∘ capitals = capitals ∘ trimChars := funext trimChars_capitals
  have given : (fun part : List Char => !part.isEmpty) ∘ capitals = fun part => !part.isEmpty :=
    funext fun part => congrArg (!·) (isEmpty_capitals part)
  rw [columnDefinitions, columnDefinitions, splitAtCommas_capitals, List.map_map, trimmed, ← List.map_map,
    List.filter_map, given]

theorem isTableClause_capitals (definition : List Char) :
    isTableClause (capitals definition) = isTableClause definition := by
  rw [isTableClause, isTableClause, trimStart_capitals]
  simp only [(caseless_wholePhrase _ false).isSome]

end Definitions

end SchemaSync.Script
