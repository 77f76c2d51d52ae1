import SchemaSync.Proofs.Script.ProcedureScript
import SchemaSync.Proofs.Script.TableScript
import SchemaSync.Proofs.Script.WholePhrase
import SchemaSync.Script.Kind

/-! The kind that the script of an object is told to be of. The words of its own statement stand in every script, but
the whole text is searched, and the words of other statements count before those of its own: also in a literal, and
where a name and the text after it make them together. -/

namespace SchemaSync

open Text

namespace Script

/-- A text in which a phrase stands nowhere: in none of its literals, and not in what stands around them. -/
structure Lacks (phrase : List String) (cs : List Char) : Prop where
  constants : ∀ literal ∈ literals cs, hasWholePhrase phrase false literal = false
  around : hasWholePhrase phrase false (emptyLiterals cs) = false

def createDomain : List String :=
  ["CREATE", "DOMAIN"]

def createTable : List String :=
  ["CREATE", "TABLE"]

theorem isPhrase_createDomain : IsPhrase createDomain := by
  decide

theorem isPhrase_createTable : IsPhrase createTable := by
  decide

theorem IsPhrase.lacks_iff {phrase : List String} (spoken : IsPhrase phrase) {cs : List Char}
    (whole : closed false cs = true) : Lacks phrase cs ↔ hasWholePhrase phrase false cs = false := by
  have parts := spoken.stands_literals whole [] false
  rw [List.nil_append, List.nil_append] at parts
  rw [parts, Bool.or_eq_false_iff, List.any_eq_false]
  simp only [Bool.not_eq_true]
  exact ⟨fun lacks => ⟨lacks.around, lacks.constants⟩, fun ⟨around, constants⟩ => ⟨constants, around⟩⟩

/-- A script is searched without its comments; white space at its ends does not matter. -/
theorem kindOf?_eq (script : String) : kindOf? script =
    if hasWholePhrase createDomain false (keptChars script.toList) then some .domain
    else if hasWholePhrase createTable false (keptChars script.toList) then some .table
    else if hasWholePhrase ["CREATE", "OR", "ALTER", "PROCEDURE"] false (keptChars script.toList) ||
      hasWholePhrase ["CREATE", "PROCEDURE"] false (keptChars script.toList) then some .procedure
    else none := by
  have alter : IsPhrase ["CREATE", "OR", "ALTER", "PROCEDURE"] := by decide
  have create : IsPhrase ["CREATE", "PROCEDURE"] := by decide
  have searched : kindOf? script = ([(ObjectKind.domain, [createDomain]), (.table, [createTable]),
      (.procedure, [["CREATE", "OR", "ALTER", "PROCEDURE"], ["CREATE", "PROCEDURE"]])].find? fun entry =>
        entry.2.any (hasWholePhrase · false (trimChars (keptChars script.toList)))).map Prod.fst := rfl
  simp only [searched, List.find?_cons, List.find?_nil, List.any_cons, List.any_nil, Bool.or_false,
    isPhrase_createDomain.stands_trimChars, isPhrase_createTable.stands_trimChars, alter.stands_trimChars,
    create.stands_trimChars]
  cases hasWholePhrase createDomain false (keptChars script.toList) <;>
    cases hasWholePhrase createTable false (keptChars script.toList) <;>
      cases hasWholePhrase ["CREATE", "OR", "ALTER", "PROCEDURE"] false (keptChars script.toList) <;>
        cases hasWholePhrase ["CREATE", "PROCEDURE"] false (keptChars script.toList) <;> rfl

/-- The clauses of an attribute text, with the default as it is written. -/
theorem attributes_toList (default : Option String) (isNullable : Bool) : ∃ value,
    (attributes default isNullable).toList = clauseChars value isNullable false ∧
      value.getD [] = trimChars (default.getD "").toList := by
  rw [attributes]
  by_cases empty : (trim (default.getD "")).isEmpty = true
  · refine ⟨none, ?_, ?_⟩
    · rw [if_pos empty]
      cases isNullable <;> rfl
    · have nothing := congrArg String.toList (String.isEmpty_iff.mp empty)
      rw [trim, String.toList_ofList] at nothing
      exact nothing.symm
  · refine ⟨some (trimChars (default.getD "").toList), ?_, rfl⟩
    rw [if_neg empty, clauseChars, trim]
    cases isNullable <;> simp [afterDefault]

end Script

open Script

theorem Domain.kindOf?_own (d : Domain) : kindOf? d.script = some .domain := by
  have front : d.script.toList = "CREATE DOMAIN ".toList ++
      (d.name ++ " AS " ++ d.dataType ++ Script.attributes d.defaultValue d.isNullable ++ ";").toList := by
    unfold script
    simp only [String.toList_append, List.append_assoc]
  have stands (rest : List Char) : hasWholePhrase createDomain false ("CREATE DOMAIN ".toList ++ rest) = true := rfl
  rw [kindOf?_eq, front, keptChars_prepend (by decide), stands, if_pos rfl]

namespace Column

variable {c : Column}

/-- A column whose definition has complete literals only, and no comments. -/
structure Uncommented (c : Column) : Prop where
  typed : Bare (c.name.toList ++ ' ' :: c.typeText.toList)
  default : ∀ v ∈ c.defaultValue, Bare v.toList

structure Quiet (c : Column) : Prop where
  typed : hasWholePhrase createDomain false (c.name.toList ++ ' ' :: c.typeText.toList) = false
  default : ∀ v ∈ c.defaultValue, Lacks createDomain v.toList

/-- The text of a definition, with the default as it is written. -/
theorem definition_clauses (c : Column) : ∃ value, c.definition.toList =
    c.name.toList ++ ' ' :: c.typeText.toList ++ clauseChars value c.isNullable false ∧
      value.getD [] = trimChars (c.defaultValue.getD "").toList := by
  obtain ⟨value, clauses, written⟩ := attributes_toList c.defaultValue c.isNullable
  refine ⟨value, ?_, written⟩
  rw [← clauses]
  unfold definition
  simp only [String.toList_append, List.append_assoc, List.cons_append]
  rfl

theorem Uncommented.bare_written (uncommented : c.Uncommented) : Bare (c.defaultValue.getD "").toList := by
  cases given : c.defaultValue with
  | none => exact bare_nil
  | some v => exact uncommented.default v given

theorem Uncommented.bare_definition (uncommented : c.Uncommented) : Bare c.definition.toList := by
  obtain ⟨value, text, written⟩ := c.definition_clauses
  have clauses : Bare (clauseChars value c.isNullable false) := by
    have after : Bare (afterDefault c.isNullable false) := by
      cases c.isNullable
      · exact ⟨by decide +kernel, by decide +kernel⟩
      · exact bare_nil
    rw [clauseChars]
    cases value with
    | none => exact after
    | some v =>
      have bare : Bare v := by
        rw [show v = _ from written]
        exact uncommented.bare_written.trimChars
      rw [Option.elim_some, List.append_assoc]
      refine (bare.append after ?_).prepend (by decide)
      cases c.isNullable <;> simp [afterDefault]
  rw [text]
  refine uncommented.typed.append clauses ?_
  cases value <;> cases c.isNullable <;> simp [clauseChars, afterDefault]

/-- Where `CREATE DOMAIN` stands in a definition, it stands in the name and the type, or in the default. -/
theorem stands_definition (c : Column) : hasWholePhrase createDomain false c.definition.toList =
    (hasWholePhrase createDomain false (c.name.toList ++ ' ' :: c.typeText.toList) ||
      hasWholePhrase createDomain false (c.defaultValue.getD "").toList) := by
  obtain ⟨value, text, written⟩ := c.definition_clauses
  have apart : Apart createDomain (clauseChars value c.isNullable false) := by
    cases value <;> cases c.isNullable <;> rfl
  have notNull : hasWholePhrase createDomain false (afterDefault c.isNullable false) = false := by
    cases c.isNullable <;> rfl
  have clauses : hasWholePhrase createDomain false (clauseChars value c.isNullable false) =
      hasWholePhrase createDomain false (value.getD []) := by
    cases value with
    | none => exact notNull
    | some v =>
      have ends : Apart createDomain (afterDefault c.isNullable false) := by cases c.isNullable <;> rfl
      have skip (cs : List Char) : hasWholePhrase createDomain false (" DEFAULT ".toList ++ cs) =
        hasWholePhrase createDomain false cs := rfl
      rw [clauseChars, Option.elim_some, List.append_assoc, skip, isPhrase_createDomain.stands_append ends, notNull,
        Bool.or_false]
      rfl
  rw [text, isPhrase_createDomain.stands_append apart, clauses, written, isPhrase_createDomain.stands_trimChars]

theorem Uncommented.quiet_iff (uncommented : c.Uncommented) :
    c.Quiet ↔ hasWholePhrase createDomain false c.definition.toList = false := by
  have default : (∀ v ∈ c.defaultValue, Lacks createDomain v.toList) ↔
      hasWholePhrase createDomain false (c.defaultValue.getD "").toList = false := by
    cases given : c.defaultValue with
    | none => simp [hasWholePhrase]
    | some v =>
      simp only [Option.mem_some_iff, forall_eq', Option.getD_some]
      exact isPhrase_createDomain.lacks_iff (uncommented.default v given).closed
  rw [stands_definition, Bool.or_eq_false_iff, ← default]
  exact ⟨fun quiet => ⟨quiet.typed, quiet.default⟩, fun both => ⟨both.1, both.2⟩⟩

end Column

namespace Table

variable {t : Table}

theorem stands_rows (definitions : List (List Char)) : hasWholePhrase createDomain false (rows definitions ++ ");".toList) =
    definitions.any (hasWholePhrase createDomain false) := by
  induction definitions with
  | nil => rfl
  | cons d definitions ih =>
    have skip (cs : List Char) : hasWholePhrase createDomain false ("\n    ".toList ++ cs) =
      hasWholePhrase createDomain false cs := rfl
    cases definitions with
    | nil =>
      have apart : Apart createDomain "\n);".toList := rfl
      have closing : hasWholePhrase createDomain false "\n);".toList = false := rfl
      rw [rows, List.append_assoc, List.append_assoc, skip]
      exact (isPhrase_createDomain.stands_append apart d false).trans (congrArg _ closing)
    | cons next definitions =>
      have apart (cs : List Char) : Apart createDomain (',' :: cs) := rfl
      have comma (cs : List Char) : hasWholePhrase createDomain false (',' :: cs) = hasWholePhrase createDomain false cs :=
        rfl
      rw [rows_cons d (List.cons_ne_nil _ _), List.append_assoc, List.append_assoc, List.cons_append, skip,
        isPhrase_createDomain.stands_append (apart _), comma, ih]
      rfl

/-- The script of a table is told to be that of a table just if no definition in it says `CREATE DOMAIN`. -/
theorem kindOf?_own (name : IsName t.name.toList) (uncommented : ∀ c ∈ t.columns, c.Uncommented) :
    kindOf? t.script = some .table ↔ ∀ c ∈ t.columns, c.Quiet := by
  have bare : Bare t.script.toList := by
    have definitions : ∀ d ∈ t.definitions, Bare d := by
      intro d member
      obtain ⟨c, inside, rfl⟩ := List.mem_map.mp member
      exact (uncommented c inside).bare_definition
    have tail : Bare ");".toList := ⟨by decide +kernel, by decide +kernel⟩
    rw [script_toList]
    exact (((bare_rows definitions tail).prepend (by decide)).prepend (all_safe (all_isTypeChar name))).prepend (by decide)
  have kept : keptChars t.script.toList = t.script.toList := bare.kept_eq
  have table : hasWholePhrase createTable false t.script.toList = true := by
    rw [script_toList]
    rfl
  have domain : hasWholePhrase createDomain false t.script.toList = t.definitions.any (hasWholePhrase createDomain false) := by
    have front (cs : List Char) : hasWholePhrase createDomain false ("CREATE TABLE ".toList ++ cs) =
      hasWholePhrase createDomain false cs := rfl
    have opening (cs : List Char) : Apart createDomain (" (".toList ++ cs) := rfl
    have skip (cs : List Char) : hasWholePhrase createDomain false (" (".toList ++ cs) = hasWholePhrase createDomain false cs :=
      rfl
    have solid : ∀ c ∈ t.name.toList, isBlank c = false := fun c member => isBlank_of_isNameChar (name.isNameChar member)
    rw [script_toList, front, isPhrase_createDomain.stands_append (opening _),
      isPhrase_createDomain.stands_solid (by decide) solid, Bool.false_or, skip, stands_rows]
  have quiet : (∀ c ∈ t.columns, c.Quiet) ↔ t.definitions.any (hasWholePhrase createDomain false) = false := by
    simp only [definitions, List.any_map, List.any_eq_false, Function.comp_apply, Bool.not_eq_true]
    exact forall₂_congr fun c member => (uncommented c member).quiet_iff
  rw [kindOf?_eq, kept, table, domain, quiet]
  cases t.definitions.any (hasWholePhrase createDomain false) <;> simp

end Table

namespace Procedure

variable {p : Procedure}

/-- The source of a procedure as it is written, without its comments. -/
def writtenSource (p : Procedure) : List Char :=
  keptChars (trimChars p.sourceCode.toList)

/-- A procedure whose definition does not say a phrase: no literal in its source does, and the name and what stands
around the literals of the source do not. -/
structure Avoids (p : Procedure) (phrase : List String) : Prop where
  constants : ∀ literal ∈ literals p.writtenSource, hasWholePhrase phrase false literal = false
  around : hasWholePhrase phrase false (p.name.toList ++ '\n' :: emptyLiterals p.writtenSource) = false

structure Quiet (p : Procedure) : Prop where
  domain : p.Avoids createDomain
  table : p.Avoids createTable

/-- What is kept of a script: the directives and the statement, whose terminator a comment can take in. -/
theorem keptChars_script (name : IsName p.name.toList) (pieced : Pieced (trimChars p.sourceCode.toList)) :
    ∃ closing, (closing = "^\nSET TERM ; ^\n".toList ∨ closing = "\nSET TERM ; ^\n".toList) ∧
      keptChars p.script.toList = "SET TERM ^ ;\nCREATE PROCEDURE ".toList ++
        (p.name.toList ++ '\n' :: p.writtenSource ++ closing) := by
  have text : p.script.toList = "SET TERM ^ ;\nCREATE PROCEDURE ".toList ++ (p.name.toList ++ (['\n'] ++
      (trimChars p.sourceCode.toList ++ "^\nSET TERM ; ^\n".toList))) := by
    unfold script procedureTerminator trim
    simp only [String.toList_append, String.toList_ofList, List.append_assoc]
    rfl
  have joint : ∀ c ∈ "^\nSET TERM ; ^\n".toList.head?, c ≠ '\'' ∧ c ≠ '-' ∧ c ≠ '*' := by
    rintro c ⟨⟩
    decide
  have front (rest : List Char) : keptChars ("SET TERM ^ ;\nCREATE PROCEDURE ".toList ++ (p.name.toList ++ (['\n'] ++ rest))) =
      "SET TERM ^ ;\nCREATE PROCEDURE ".toList ++ (p.name.toList ++ (['\n'] ++ keptChars rest)) := by
    rw [keptChars_prepend (by decide), keptChars_prepend (all_safe (all_isTypeChar name)), keptChars_prepend (by decide)]
  have closed : keptChars "^\nSET TERM ; ^\n".toList = "^\nSET TERM ; ^\n".toList := keptChars_eq_self (by decide)
  have line : keptChars (dropLine "^\nSET TERM ; ^\n".toList) = "\nSET TERM ; ^\n".toList := keptChars_eq_self (by decide)
  have written (closing : List Char) : p.name.toList ++ (['\n'] ++ (p.writtenSource ++ closing)) =
      p.name.toList ++ '\n' :: p.writtenSource ++ closing := by
    rw [List.append_assoc]
    rfl
  rw [text, front]
  rcases pieced.keptChars_append with kept | kept
  · exact ⟨_, .inl rfl, by rw [kept _ joint, closed, ← writtenSource, written]⟩
  · exact ⟨_, .inr rfl, by rw [kept _ joint, line, ← writtenSource, written]⟩

/-- Where a phrase that goes on neither from the words before the name nor into the closing directive stands in a
script, it stands in the name and the source. -/
theorem avoids_iff {phrase : List String} (spoken : IsPhrase phrase)
    (front : ∀ cs, hasWholePhrase phrase false ("SET TERM ^ ;\nCREATE PROCEDURE ".toList ++ cs) =
      hasWholePhrase phrase false cs)
    (ends : ∀ closing ∈ ["^\nSET TERM ; ^\n".toList, "\nSET TERM ; ^\n".toList],
      Apart phrase closing ∧ hasWholePhrase phrase false closing = false)
    (name : IsName p.name.toList) (pieced : Pieced (trimChars p.sourceCode.toList)) :
    p.Avoids phrase ↔ hasWholePhrase phrase false (keptChars p.script.toList) = false := by
  obtain ⟨closing, known, kept⟩ := keptChars_script name pieced
  obtain ⟨apart, silent⟩ := ends closing (by simpa using known)
  have parts := spoken.stands_literals pieced.closed_keptChars (p.name.toList ++ ['\n']) false
  rw [← writtenSource, ← List.append_cons, ← List.append_cons] at parts
  rw [kept, front, spoken.stands_append apart, silent, Bool.or_false, parts, Bool.or_eq_false_iff, List.any_eq_false]
  simp only [Bool.not_eq_true]
  exact ⟨fun avoids => ⟨avoids.around, avoids.constants⟩, fun ⟨around, constants⟩ => ⟨constants, around⟩⟩

/-- The script of a procedure is told to be that of a procedure just if its name and source say neither
`CREATE DOMAIN` nor `CREATE TABLE`. -/
theorem kindOf?_own (name : IsName p.name.toList) (pieced : Pieced (trimChars p.sourceCode.toList)) :
    kindOf? p.script = some .procedure ↔ p.Quiet := by
  have domain : p.Avoids createDomain ↔ hasWholePhrase createDomain false (keptChars p.script.toList) = false :=
    avoids_iff isPhrase_createDomain (fun _ => rfl) (by decide +kernel) name pieced
  have table : p.Avoids createTable ↔ hasWholePhrase createTable false (keptChars p.script.toList) = false :=
    avoids_iff isPhrase_createTable (fun _ => rfl) (by decide +kernel) name pieced
  have own : hasWholePhrase ["CREATE", "PROCEDURE"] false (keptChars p.script.toList) = true := by
    obtain ⟨closing, _, kept⟩ := keptChars_script name pieced
    rw [kept]
    rfl
  have quiet : p.Quiet ↔ hasWholePhrase createDomain false (keptChars p.script.toList) = false ∧
      hasWholePhrase createTable false (keptChars p.script.toList) = false := by
    rw [← domain, ← table]
    exact ⟨fun quiet => ⟨quiet.domain, quiet.table⟩, fun ⟨domain, table⟩ => ⟨domain, table⟩⟩
  rw [kindOf?_eq, own, quiet]
  cases hasWholePhrase createDomain false (keptChars p.script.toList) <;>
    cases hasWholePhrase createTable false (keptChars p.script.toList) <;> simp

end Procedure

end SchemaSync
