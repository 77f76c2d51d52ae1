import SchemaSync.Proofs.Script.ColumnName
import SchemaSync.Proofs.Script.Declared
import SchemaSync.Proofs.Script.ProcedureSource
import SchemaSync.Proofs.Script.TypeWords

/-! What the readers answer. A blank text is a wrong argument. Any other text is either no script of the kind that is
asked for, or it gives an object that keeps the rules of its kind: what is read of a script passes every check of the
object that it is put into. -/

namespace SchemaSync

open Text Script

section Rules

structure Domain.WellFormed (d : Domain) : Prop where
  named : isBlankText d.name = false
  typed : isBlankText d.dataType = false

structure Column.WellFormed (c : Column) : Prop where
  named : isBlankText c.name = false
  typed : ∃ type, isBlankText type = false ∧
    (c.domainName = some type ∧ c.dataType = none ∨ c.domainName = none ∧ c.dataType = some type)

/-- The rules for a table: a name, and columns at the positions 0, 1, 2, ..., of which there is at least one. -/
structure Table.WellFormed (t : Table) : Prop where
  named : isBlankText t.name = false
  given : t.columns ≠ []
  positions : t.columns.map Column.position = (List.range t.columns.length).map Int.ofNat
  columns : ∀ c ∈ t.columns, c.WellFormed

structure Procedure.WellFormed (p : Procedure) : Prop where
  named : isBlankText p.name = false
  sourced : isBlankText p.sourceCode = false
  trimmed : trim p.sourceCode = p.sourceCode

end Rules

section Answers

variable {α : Type}

/-- A script of another form, or an object that keeps the rules. -/
def Reads (rules : α → Prop) (result : Except Error α) : Prop :=
  (∃ fault, result = .error (.script fault)) ∨ ∃ object, result = .ok object ∧ rules object

/-- An answer that blames the argument for a blank text, and for no other. -/
structure Answers (kind : ObjectKind) (rules : α → Prop) (script : String) (answer : Except Error α) : Prop where
  argument_iff : (∃ fault, answer = .error (.argument fault)) ↔ isBlankText script = true
  blank : isBlankText script = true → answer = .error (.argument (.blankScript kind))
  reads : isBlankText script = false → Reads rules answer

theorem Reads.answers {rules : α → Prop} {result : Except Error α} (reads : Reads rules result) (kind : ObjectKind)
    (script : String) : Answers kind rules script (requireText kind script >>= fun _ => result) := by
  cases blank : isBlankText script with
  | true =>
    have refused : (requireText kind script >>= fun _ => result) = .error (.argument (.blankScript kind)) := by
      rw [requireText, if_pos blank]
      rfl
    rw [refused]
    exact ⟨iff_of_true ⟨_, rfl⟩ blank, fun _ => rfl, fun solid => by rw [blank] at solid; cases solid⟩
  | false =>
    have passed : (requireText kind script >>= fun _ => result) = result := by
      rw [requireText, blank, if_neg Bool.false_ne_true]
      rfl
    rw [passed]
    refine ⟨iff_of_false ?_ (by rw [blank]; exact Bool.false_ne_true), fun none => ?_, fun _ => reads⟩
    · rintro ⟨fault, rfl⟩
      rcases reads with ⟨_, other⟩ | ⟨_, other, _⟩ <;> cases other
    · rw [blank] at none
      cases none

end Answers

section Objects

theorem Domain.answers (script : String) : Answers .domain WellFormed script (Domain.ofScript script) := by
  refine Reads.answers ?_ _ _
  split
  · exact .inl ⟨_, rfl⟩
  · next reading found =>
    obtain ⟨_, _, _, read⟩ := firstMatch?_eq_some found
    obtain ⟨⟨_, named⟩, _, type⟩ := isRead_of_domainReading read
    rcases numericParameters reading.type.parameters with ⟨first, second⟩
    dsimp only
    rw [create, dif_pos named.isBlankText_upperChars]
    exact .inr ⟨_, rfl, named.isBlankText_upperChars, isBlankText_canonicalType type⟩

namespace Column

theorem exists_some_create {name : String} {domainName dataType : Option String} (named : isBlankText name = false)
    (typed : ∃ type, isBlankText type = false ∧
      (domainName = some type ∧ dataType = none ∨ domainName = none ∧ dataType = some type))
    (position : Int) (isNullable : Bool) (defaultValue : Option String) :
    ∃ column, some <$> create name position domainName dataType isNullable defaultValue = .ok column ∧
      ∀ c ∈ column, c.WellFormed := by
  have apart : isGiven domainName ≠ isGiven dataType := by
    obtain ⟨type, solid, ⟨rfl, rfl⟩ | ⟨rfl, rfl⟩⟩ := typed
    · rw [isGiven_of_solid solid]
      exact Bool.noConfusion
    · rw [isGiven_of_solid solid]
      exact Bool.noConfusion
  rw [create, dif_pos named, dif_pos apart]
  refine ⟨_, rfl, fun c member => ?_⟩
  cases member
  exact ⟨named, typed⟩

/-- No definition is refused: one of no column is passed over. -/
theorem ofDefinitionChars_wellFormed (definition : List Char) (position : Int) :
    ∃ column, ofDefinitionChars definition position = .ok column ∧ ∀ c ∈ column, c.WellFormed := by
  rw [ofDefinitionChars]
  split
  · exact ⟨none, rfl, by simp⟩
  split
  · exact ⟨none, rfl, by simp⟩
  · next name type found =>
    obtain ⟨⟨_, named⟩, _, read⟩ := isRead_of_columnReading found
    dsimp only
    cases isKnownTypeChars type.base with
    | false =>
      exact exists_some_create named.isBlankText_upperChars ⟨_, isBlankText_base read, .inl ⟨rfl, rfl⟩⟩ _ _ _
    | true =>
      exact exists_some_create named.isBlankText_upperChars ⟨_, isBlankText_canonicalType read, .inr ⟨rfl, rfl⟩⟩ _ _ _

theorem ofDefinitions_wellFormed (definitions : List (List Char)) (position : Int) :
    ∃ columns, ofDefinitions position definitions = .ok columns ∧ ∀ c ∈ columns, c.WellFormed := by
  induction definitions generalizing position with
  | nil => exact ⟨[], rfl, List.forall_mem_nil _⟩
  | cons definition definitions ih =>
    obtain ⟨column, here, wellFormed⟩ := ofDefinitionChars_wellFormed definition position
    cases column with
    | none =>
      rw [ofDefinitions_skip here]
      exact ih position
    | some c =>
      obtain ⟨columns, later, others⟩ := ih (position + 1)
      rw [ofDefinitions_cons here, later]
      exact ⟨c :: columns, rfl, List.forall_mem_cons.mpr ⟨wellFormed c rfl, others⟩⟩

/-- The columns that a body declares stand at the positions from the first one on. -/
theorem positions_ofDefinitions {body : List Char} {columns : List Column}
    (declared : ofDefinitions 0 (columnDefinitions body) = .ok columns) :
    columns.map position = (List.range columns.length).map Int.ofNat := by
  have tidy : ∀ d ∈ columnDefinitions body, Trimmed d := fun d member => (mem_neat member).1
  have names : columns.map (fun c => (c.name, c.position)) =
    (columnNames (columnDefinitions body)).zipIdx.map (Prod.map id Int.ofNat) := ofDefinitions_names tidy declared
  have length := congrArg List.length names
  rw [List.length_map, List.length_map, List.length_zipIdx] at length
  have positions := congrArg (List.map Prod.snd) names
  rw [List.map_map, List.map_map] at positions
  rw [length, List.range_eq_range', ← List.zipIdx_map_snd 0 (columnNames (columnDefinitions body)), List.map_map]
  exact positions

end Column

theorem Table.answers (script : String) : Answers .table WellFormed script (Table.ofScript script) := by
  refine Reads.answers ?_ _ _
  dsimp only
  split
  · exact .inl ⟨_, rfl⟩
  next name _ found =>
  split
  · exact .inl ⟨_, rfl⟩
  next body _ =>
  obtain ⟨_, _, _, read⟩ := firstMatch?_eq_some found
  have named := (tableName?_named read).isBlankText_upperChars
  obtain ⟨columns, declared, wellFormed⟩ := Column.ofDefinitions_wellFormed (columnDefinitions body) 0
  rw [declared]
  show Reads _ (if columns.isEmpty then _ else _)
  split
  · exact .inl ⟨_, rfl⟩
  · next given =>
    have given : columns ≠ [] := fun none => given (List.isEmpty_iff.mpr none)
    rw [create_ascending named given (Column.ofDefinitions_keyed declared).1]
    exact .inr ⟨_, rfl, named, given, Column.positions_ofDefinitions declared, wellFormed⟩

theorem Procedure.answers (script : String) : Answers .procedure WellFormed script (Procedure.ofScript script) := by
  refine Reads.answers ?_ _ _
  dsimp only
  split
  · exact .inl ⟨_, rfl⟩
  next name rest found =>
  split
  · exact .inl ⟨_, rfl⟩
  · next given =>
    obtain ⟨_, _, _, read⟩ := firstMatch?_eq_some found
    obtain ⟨_, _, _, named⟩ := ProcedureHead.of_reading read
    have trimmed := trimmed_dropTerminator (trimmed_dropTerminator (trimmed_trimChars rest)
      (terminatorOf (stripCommentChars script.toList))) [';']
    have sourced := isBlankText_ofList (fun none => given (List.isEmpty_iff.mpr none)) trimmed.head
    rw [create, dif_pos named.isBlankText_upperChars, dif_pos sourced]
    refine .inr ⟨_, rfl, named.isBlankText_upperChars, sourced, ?_⟩
    dsimp only
    rw [trim, String.toList_ofList, trimmed.trimChars_eq]

end Objects

namespace ScriptReader

variable {α : Type} (reader : ScriptReader α)

/-- What becomes of a script when only declared failures are passed over. Any other ends the run. -/
def guarded (taken : List NameKey) (script : ScriptFile) : Except Error (ScriptOutcome α) :=
  match reader.read script.text with
  | .ok _ => .ok (reader.outcome taken script)
  | .error error => if error.kind.isDeclared then .ok (reader.outcome taken script) else .error error

/-- What becomes of each script, one after the other, unless one of them ends the run. -/
def guardedOutcomes (taken : List NameKey) : List ScriptFile → Except Error (Outcomes α)
  | [] => .ok []
  | script :: rest => do
    let result ← reader.guarded taken script
    let taken := match result with
      | .accepted object => reader.key object :: taken
      | .skipped _ => taken
    return (script, result) :: (← guardedOutcomes taken rest)

variable {reader} (declares : ∀ text, Declares (reader.read text))
include declares

theorem guarded_eq (taken : List NameKey) (script : ScriptFile) :
    reader.guarded taken script = .ok (reader.outcome taken script) := by
  rw [guarded]
  split
  · rfl
  · next error failed => rw [if_pos (declares script.text error failed)]

/-- Whatever came before, no script keeps the others from being read. -/
theorem guardedOutcomes_eq (taken : List NameKey) (scripts : List ScriptFile) :
    reader.guardedOutcomes taken scripts = .ok (reader.outcomes taken scripts) := by
  induction scripts generalizing taken with
  | nil => rfl
  | cons script rest ih =>
    simp only [guardedOutcomes, guarded_eq declares, bind, Except.bind, ih]
    rfl

end ScriptReader

/-- Reads all scripts of a definition set, and passes over declared failures only. -/
def SetReading.guarded (set : ScriptSet) : Except Error SetReading := do
  let domains ← Domain.reader.guardedOutcomes [] set.groups.domains
  let tables ← Table.reader.guardedOutcomes [] set.groups.tables
  let procedures ← Procedure.reader.guardedOutcomes [] set.groups.procedures
  return { domains, tables, procedures, warnings := set.warnings }

theorem SetReading.guarded_eq (set : ScriptSet) : SetReading.guarded set = .ok (SetReading.ofSet set) := by
  rw [guarded, ScriptReader.guardedOutcomes_eq Domain.declares_ofScript,
    ScriptReader.guardedOutcomes_eq Table.declares_ofScript,
    ScriptReader.guardedOutcomes_eq Procedure.declares_ofScript]
  rfl

theorem linesOf_ne_nil {cs : List Char} (given : cs ≠ []) : linesOf cs ≠ [] := by
  fun_cases linesOf cs with
  | case1 => exact absurd rfl given
  | case2 rest => exact List.cons_ne_nil _ _
  | case3 c rest => exact List.cons_ne_nil _ _
  | case4 c rest => exact List.cons_ne_nil _ _
  | case5 c rest => exact List.cons_ne_nil _ _

/-- Readers fail in the declared ways only. An argument is to blame if and only if the text is blank; on any other text
a reader finds no script of its kind, or gives an object that keeps the rules of its kind. There is a first line to show
of any text that is not blank, and a first word to look at of any type that is read. So a run over a definition set that
passes over declared failures and nothing else reads all of its scripts. -/
theorem scripts_answered :
    (∀ script, Answers .domain Domain.WellFormed script (Domain.ofScript script) ∧
      Answers .table Table.WellFormed script (Table.ofScript script) ∧
      Answers .procedure Procedure.WellFormed script (Procedure.ofScript script)) ∧
    (∀ script, isBlankText script = false → linesOf (trimChars script.toList) ≠ []) ∧
    (∀ cs type, typeReading? cs = some type → wordsOf (upperChars type.base) ≠ []) ∧
    ∀ set, SetReading.guarded set = .ok (SetReading.ofSet set) := by
  refine ⟨fun script => ⟨Domain.answers script, Table.answers script, Procedure.answers script⟩, ?_,
    fun _ _ => wordsOf_base, SetReading.guarded_eq⟩
  intro script solid
  refine linesOf_ne_nil fun none => ?_
  rw [isBlankText, List.all_eq_true.mpr (trimChars_eq_nil_iff.mp none)] at solid
  cases solid

/-- A blank text and one with everything left open. -/
theorem scripts_answered_ragged :
    let ragged := "CREATE TABLE T ('a, (/* --"
    Procedure.ofScript " \t\n" = .error (.argument (.blankScript .procedure)) ∧
    isBlankText ragged = false ∧ Reads Table.WellFormed (Table.ofScript ragged) ∧
    linesOf (trimChars ragged.toList) ≠ [] ∧
    ∃ type, typeReading? "blob sub_type 1(80)".toList = some type ∧ wordsOf (upperChars type.base) ≠ [] := by
  intro ragged
  obtain ⟨answers, lines, words, _⟩ := scripts_answered
  have solid : isBlankText ragged = false := by decide
  exact ⟨(answers " \t\n").2.2.blank (by decide), solid, (answers ragged).2.1.reads solid, lines ragged solid, _, rfl,
    words "blob sub_type 1(80)".toList _ rfl⟩

end SchemaSync
