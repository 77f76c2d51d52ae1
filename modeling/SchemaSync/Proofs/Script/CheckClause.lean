import SchemaSync.Proofs.Script.Reading

/-! A `CHECK` clause after a domain or a column. The default and `NOT NULL` are looked for in all of the text
after the type, the condition of the clause included, so that a condition can be taken for a clause. -/

namespace SchemaSync

open Text

namespace Script

def checkText (condition : List Char) : List Char :=
  " CHECK (".toList ++ (condition ++ [')'])

/-- A condition in which nothing counts as a clause: it says `NOT NULL` only where that stands already, and it
shows a default only where one is declared already. -/
structure Unnoticed (value : Option (List Char)) (isNullable : Bool) (condition : List Char) : Prop where
  null : isNullable = true → allowsNull condition = true
  default : value = none → declaredDefault (condition ++ [')']) = none

variable {value : Option (List Char)} {isNullable : Bool} {condition : List Char}

theorem allowsNull_checkText (bare : Bare condition) : allowsNull (checkText condition) = allowsNull condition := by
  have closing : allowsNull [')'] = true := (allowsNull_unquoted (by decide)).trans (by decide)
  unfold checkText
  rw [allowsNull_prepend (by decide) fun _ => rfl, allowsNull_append bare.closed (by decide) (by decide), closing,
    Bool.and_true]

section Clauses

variable (readable : ∀ v ∈ value, IsDefault v)
include readable

theorem allowsNull_checked (bare : Bare condition) :
    allowsNull (clauseChars value isNullable false ++ checkText condition) = (isNullable && allowsNull condition) := by
  have apart : Apart ["NOT", "NULL"] (checkText condition) := rfl
  have quote : (checkText condition).head? ≠ some '\'' := bne_iff_ne.mp rfl
  rw [allowsNull_append (bare_clauseChars readable).closed quote apart, allowsNull_clauseChars readable,
    allowsNull_checkText bare]

theorem declaredDefault_checked : declaredDefault (clauseChars value isNullable false ++ checkText condition) =
    value.elim (declaredDefault (condition ++ [')'])) fun v => some (String.ofList v) := by
  cases value with
  | none =>
    have skip : findDefault? false (afterDefault isNullable false ++ checkText condition) =
        findDefault? false (condition ++ [')']) := by
      cases isNullable <;> rfl
    rw [clauseChars, Option.elim_none, List.nil_append, declaredDefault, skip]
    rfl
  | some v =>
    have ends : EndsDefault (afterDefault isNullable false ++ checkText condition) := by
      cases isNullable <;> exact ⟨.of_all rfl rfl, fun inWord => by cases inWord <;> rfl⟩
    rw [clauseChars, Option.elim_some, List.append_assoc, List.append_assoc,
      declaredDefault_append ends (readable v rfl), Option.elim_some]

/-- The clauses say the same with a `CHECK` clause after them just if its condition goes unnoticed. -/
theorem unnoticed_iff (bare : Bare condition) : Unnoticed value isNullable condition ↔
    allowsNull (clauseChars value isNullable false ++ checkText condition) =
        allowsNull (clauseChars value isNullable false) ∧
      declaredDefault (clauseChars value isNullable false ++ checkText condition) =
        declaredDefault (clauseChars value isNullable false) := by
  rw [allowsNull_checked readable bare, declaredDefault_checked readable, allowsNull_clauseChars readable,
    declaredDefault_clauseChars readable]
  constructor
  · intro unnoticed
    constructor
    · cases isNullable with
      | true => rw [unnoticed.null rfl, Bool.true_and]
      | false => rfl
    · cases value with
      | none => exact unnoticed.default rfl
      | some v => rfl
  · intro same
    constructor
    · intro nullable
      rw [nullable, Bool.true_and] at same
      exact same.1
    · intro none
      rw [none] at same
      exact same.2

end Clauses

theorem endsType_checked : EndsType (clauseChars value isNullable false ++ checkText condition) := by
  cases value <;> cases isNullable <;> exact .of_all rfl rfl rfl

theorem apart_checkText : ∀ phrase ∈ tableClauses, Apart phrase (checkText condition) := by
  have apart : tableClauses.all (fun phrase => decide (Apart phrase (checkText condition))) = true := rfl
  exact fun phrase clause => of_decide_eq_true (List.all_eq_true.mp apart phrase clause)

theorem last_checkText (front : List Char) : ∀ c ∈ (front ++ checkText condition).getLast?, isBlank c = false := by
  unfold checkText
  rw [← List.append_assoc, ← List.append_assoc, List.getLast?_concat]
  rintro c ⟨⟩
  decide

end Script

open Script

section Checked

variable {name type base condition : List Char} {parameters value : Option (List Char)} {isNullable : Bool}
  (identifier : IsIdentifier name) (typed : typeReading? type = some { base, parameters, rest := [] })
  (readable : ∀ v ∈ value, IsDefault v) (bare : Bare condition)
include identifier typed readable bare

theorem Domain.ofScript_checked_iff (plain : Bare type) {d : Domain}
    (made : Domain.ofScript (String.ofList (domainText name type (clauseChars value isNullable false))) = .ok d) :
    Domain.ofScript (String.ofList (domainText name type (clauseChars value isNullable false ++ checkText condition))) =
      .ok d ↔ Unnoticed value isNullable condition := by
  have clauses : Bare (clauseChars value isNullable false) := bare_clauseChars readable
  have checked : Bare (clauseChars value isNullable false ++ checkText condition) := by
    have closing : Bare [')'] := ⟨rfl, rfl⟩
    have check : Bare (checkText condition) := (bare.append closing (by simp)).prepend (by decide)
    exact clauses.append check (by rintro c ⟨⟩; decide)
  have joint : (∀ c ∈ (clauseChars value isNullable false).head?, c ≠ '-' ∧ c ≠ '*') ∧
      ∀ c ∈ (clauseChars value isNullable false ++ checkText condition).head?, c ≠ '-' ∧ c ≠ '*' := by
    cases value <;> cases isNullable <;> constructor <;> rintro c ⟨⟩ <;> decide
  rw [ofScript_domainText identifier (typeReading?_append typed endsType_clauseChars)
    (last_clauseChars readable (typeReading?_last typed))
    (identifier.bare_domainText (plain.append clauses joint.1))] at made
  rw [ofScript_domainText identifier (typeReading?_append typed endsType_checked)
    (List.append_assoc type _ _ ▸ last_checkText _)
    (identifier.bare_domainText (plain.append checked joint.2)), create_eq_iff made, unnoticed_iff readable bare]

theorem Column.ofDefinition_checked_iff {position : Int} {c : Column}
    (made : Column.ofDefinition (String.ofList (definitionText name type (clauseChars value isNullable false))) position =
      .ok (some c)) :
    Column.ofDefinition (String.ofList (definitionText name type
      (clauseChars value isNullable false ++ checkText condition))) position = .ok (some c) ↔
        Unnoticed value isNullable condition := by
  have last : ∀ d ∈ (type ++ clauseChars value isNullable false).getLast?, isBlank d = false :=
    last_clauseChars readable (typeReading?_last typed)
  rw [ofDefinition, String.toList_ofList] at made ⊢
  have apart : isTableClause (definitionText name type (clauseChars value isNullable false)) = false := by
    rw [← Bool.not_eq_true]
    intro clause
    rw [ofDefinitionChars, clause, if_pos rfl] at made
    cases made
  have still : isTableClause (definitionText name type (clauseChars value isNullable false ++ checkText condition)) =
      false := by
    have split : definitionText name type (clauseChars value isNullable false ++ checkText condition) =
        definitionText name type (clauseChars value isNullable false) ++ checkText condition := by
      simp only [definitionText, List.append_assoc, List.cons_append]
    have start : trimStart (definitionText name type (clauseChars value isNullable false)) ≠ [] := by
      rw [trimStart_head (trimmed_definitionText identifier (typeReading?_append typed endsType_clauseChars) last).head]
      exact List.append_ne_nil_of_left_ne_nil identifier.1 _
    rw [split, isTableClause_append start apart_checkText, apart]
  rw [ofDefinitionChars_definitionText identifier (typeReading?_append typed endsType_clauseChars) last apart] at made
  rw [ofDefinitionChars_definitionText identifier (typeReading?_append typed endsType_checked)
    (List.append_assoc type _ _ ▸ last_checkText _)
    still, create_eq_iff made, unnoticed_iff readable bare]

/-- A domain and a column read the same with a `CHECK` clause after them just if its condition goes unnoticed.
-/
theorem checked_unchanged_iff (plain : Bare type) :
    let clauses := clauseChars value isNullable false
    (∀ d, Domain.ofScript (String.ofList (domainText name type clauses)) = .ok d →
      (Domain.ofScript (String.ofList (domainText name type (clauses ++ checkText condition))) = .ok d ↔
        Unnoticed value isNullable condition)) ∧
    ∀ position c, Column.ofDefinition (String.ofList (definitionText name type clauses)) position = .ok (some c) →
      (Column.ofDefinition (String.ofList (definitionText name type (clauses ++ checkText condition))) position =
        .ok (some c) ↔ Unnoticed value isNullable condition) :=
  ⟨fun _ made => Domain.ofScript_checked_iff identifier typed readable bare plain made,
    fun _ _ made => Column.ofDefinition_checked_iff identifier typed readable bare made⟩

end Checked

/-- A condition on the size of a value goes unnoticed, and one that forbids null is taken for `NOT NULL`. -/
theorem checked_unchanged_iff_age :
    let age : Domain := ⟨"AGE", "INTEGER", none, none, none, true, none, rfl⟩
    Domain.ofScript "CREATE DOMAIN AGE AS INTEGER" = .ok age ∧
      Domain.ofScript "CREATE DOMAIN AGE AS INTEGER CHECK (VALUE > 0)" = .ok age ∧
      Domain.ofScript "CREATE DOMAIN AGE AS INTEGER CHECK (VALUE IS NOT NULL)" ≠ .ok age := by
  intro age
  have identifier : IsIdentifier "AGE".toList := by decide +kernel
  have plain : Bare "INTEGER".toList := ⟨by decide +kernel, by decide +kernel⟩
  have typed : typeReading? "INTEGER".toList = some { base := "INTEGER".toList, parameters := none, rest := [] } := by
    decide +kernel
  have readable : ∀ v ∈ (none : Option (List Char)), IsDefault v := nofun
  have name : String.ofList (upperChars "AGE".toList) = "AGE" := by decide +kernel
  have type : String.ofList (canonicalType "INTEGER".toList none) = "INTEGER" := by decide +kernel
  have whole : Bare ("INTEGER".toList ++ clauseChars none true false) := ⟨by decide +kernel, by decide +kernel⟩
  have made : Domain.ofScript (String.ofList (domainText "AGE".toList "INTEGER".toList
      (clauseChars none true false))) = .ok age := by
    rw [Domain.ofScript_domainText identifier (typeReading?_append typed endsType_clauseChars)
      (last_clauseChars readable (typeReading?_last typed)) (identifier.bare_domainText whole),
      allowsNull_clauseChars readable, declaredDefault_clauseChars readable, name, type]
    rfl
  have small : Bare "VALUE > 0".toList := ⟨by decide +kernel, by decide +kernel⟩
  have given : Bare "VALUE IS NOT NULL".toList := ⟨by decide +kernel, by decide +kernel⟩
  refine ⟨made, ?_, ?_⟩
  · refine ((checked_unchanged_iff identifier typed readable small plain).1 age made).mpr ⟨fun _ => ?_, fun _ => rfl⟩
    rw [allowsNull_unquoted (by decide)]
    decide +kernel
  · intro same
    have unnoticed := ((checked_unchanged_iff identifier typed readable given plain).1 age made).mp same
    have null := unnoticed.null rfl
    rw [allowsNull_unquoted (by decide)] at null
    revert null
    decide +kernel

end SchemaSync
