import SchemaSync.Plan.ChangeSet
import SchemaSync.Proofs.Plan.Keyed

/-! What the steps of a plan do to a schema. A statement that alters something sets the one
attribute that its text names behind the object, and a step fails when its object is missing or
there already, or when its text says something else. -/

namespace SchemaSync

open Keyed

/-- What an alteration says behind the name of the object. -/
inductive Clause
  | type (text : String)
  | nullable (allowed : Bool)
  | default (value : Option String)
  deriving DecidableEq, Repr

namespace Clause

def text : Clause → String
  | .type text => " TYPE " ++ text
  | .nullable true => " DROP NOT NULL"
  | .nullable false => " SET NOT NULL"
  | .default none => " DROP DEFAULT"
  | .default (some value) => " SET DEFAULT " ++ value

def read? (cs : List Char) : Option Clause :=
  if cs = " DROP NOT NULL".toList then some (.nullable true)
  else if cs = " SET NOT NULL".toList then some (.nullable false)
  else if cs = " DROP DEFAULT".toList then some (.default none)
  else match " TYPE ".toList.isPrefixOf? cs with
    | some text => some (.type (String.ofList text))
    | none => (" SET DEFAULT ".toList.isPrefixOf? cs).map fun value =>
        .default (some (String.ofList value))

def ofStatement? (head statement : String) : Option Clause :=
  (head.toList.isPrefixOf? statement.toList).bind read?

theorem isPrefixOf?_append (front rest : List Char) : front.isPrefixOf? (front ++ rest) = some rest := by
  induction front with
  | nil => cases rest <;> rfl
  | cons c front ih => exact (if_pos (beq_self_eq_true c)).trans ih

theorem read?_text (clause : Clause) : read? clause.text.toList = some clause := by
  cases clause with
  | type text =>
    have named : " TYPE ".toList.isPrefixOf? (" TYPE ".toList ++ text.toList) = some text.toList :=
      isPrefixOf?_append _ _
    rw [Clause.text, String.toList_append, read?, if_neg, if_neg, if_neg, named]
    · simp only [String.ofList_toList]
    all_goals exact fun same => absurd (congrArg (·[1]?) same) (by simp)
  | nullable allowed => cases allowed <;> decide
  | default value =>
    cases value with
    | none => decide
    | some value =>
      have named : " SET DEFAULT ".toList.isPrefixOf? (" SET DEFAULT ".toList ++ value.toList) =
          some value.toList := isPrefixOf?_append _ _
      have other : " TYPE ".toList.isPrefixOf? (" SET DEFAULT ".toList ++ value.toList) = none := rfl
      rw [Clause.text, String.toList_append, read?, if_neg, if_neg, if_neg, other, named,
        Option.map_some, String.ofList_toList]
      all_goals exact fun same => absurd (congrArg (·[5]?) same) (by simp)

theorem ofStatement?_append (head : String) (clause : Clause) :
    ofStatement? head (head ++ clause.text) = some clause := by
  rw [ofStatement?, String.toList_append, isPrefixOf?_append, Option.bind_some, read?_text]

end Clause

def Attributes.set (a : Attributes) : Clause → Attributes
  | .type text => { a with type := some text }
  | .nullable allowed => { a with isNullable := allowed }
  | .default value => { a with defaultValue := value }

def Domain.set (d : Domain) : Clause → Domain
  | .type text => { d with dataType := text }
  | .nullable allowed => { d with isNullable := allowed }
  | .default value => { d with defaultValue := value }

def Domain.alter? (statement : String) (d : Domain) : Option Domain :=
  (Clause.ofStatement? ("ALTER DOMAIN " ++ d.name) statement).map d.set

/-- A column with the attribute that a clause names set. A column that is bound to a domain takes no
type. -/
def Column.set? (c : Column) : Clause → Option Column
  | .type text =>
    if typed : isGiven c.domainName ≠ isGiven (some text) then
      some { c with dataType := some text, typed }
    else none
  | .nullable allowed => some { c with isNullable := allowed }
  | .default value => some { c with defaultValue := value }

def Column.alter? (head statement : String) (c : Column) : Option Column :=
  (Clause.ofStatement? head statement).bind c.set?

namespace Table

def withColumns? (t : Table) (columns : List Column) : Option Table :=
  if nonempty : columns ≠ [] then
    if ascending : Ascending columns then some { t with columns, nonempty, ascending } else none
  else none

def nextPosition (t : Table) : Int :=
  (t.columns.getLast t.nonempty).position + 1

def addColumn? (t : Table) (column : Column) : Option Table :=
  (add? Column.key { column with position := t.nextPosition } t.columns).bind t.withColumns?

def modifyColumn? (t : Table) (key : NameKey) (change : Column → Option Column) : Option Table :=
  (modify? Column.key key change t.columns).bind t.withColumns?

theorem withColumns?_eq_some {t after : Table} {columns : List Column}
    (result : t.withColumns? columns = some after) : after.name = t.name ∧ after.columns = columns := by
  rw [withColumns?] at result
  split at result
  · split at result
    · cases result; exact ⟨rfl, rfl⟩
    · cases result
  · cases result

theorem withColumns?_exists (t : Table) {columns : List Column} (nonempty : columns ≠ [])
    (ascending : Ascending columns) : ∃ after, t.withColumns? columns = some after :=
  ⟨{ t with columns, nonempty, ascending }, by rw [withColumns?, dif_pos nonempty, dif_pos ascending]⟩

theorem position_lt_nextPosition (t : Table) (c : Column) (member : c ∈ t.columns) :
    c.position < t.nextPosition := by
  have ascending := t.ascending
  have split := List.dropLast_concat_getLast t.nonempty
  rw [← split] at ascending member
  rw [nextPosition]
  rcases List.mem_append.mp member with front | last
  · have := (List.pairwise_append.mp ascending).2.2 c front _ (List.mem_singleton_self _)
    omega
  · rw [List.mem_singleton.mp last]
    omega

theorem addColumn?_updates {t : Table} (distinct : Distinct Column.key t.columns) {c : Column}
    (fresh : get? Column.key c.key t.columns = none) :
    ∃ after, t.addColumn? c = some after ∧ after.name = t.name ∧
      Updated Column.key { c with position := t.nextPosition } t.columns after.columns := by
  obtain ⟨columns, added, updated⟩ :=
    add?_updates distinct { c with position := t.nextPosition } fresh
  have shape : columns = t.columns ++ [{ c with position := t.nextPosition }] := by
    rw [add?] at added
    split at added
    · cases added
    · exact (Option.some.inj added).symm
  have ascending : Ascending columns := by
    rw [shape, Ascending, List.pairwise_append]
    refine ⟨t.ascending, by simp, ?_⟩
    intro first member last same
    rw [List.mem_singleton.mp same]
    exact t.position_lt_nextPosition first member
  obtain ⟨after, formed⟩ := t.withColumns?_exists (by simp [shape]) ascending
  obtain ⟨name, same⟩ := withColumns?_eq_some formed
  exact ⟨after, by rw [addColumn?, added, Option.bind_some, formed], name, same ▸ updated⟩

theorem modifyColumn?_updates {t : Table} (distinct : Distinct Column.key t.columns) {key : NameKey}
    {change : Column → Option Column} {c changed : Column}
    (keeps : ∀ c changed, change c = some changed → changed.position = c.position)
    (found : get? Column.key key t.columns = some c) (result : change c = some changed)
    (same : changed.key = key) :
    ∃ after, t.modifyColumn? key change = some after ∧ after.name = t.name ∧
      Updated Column.key changed t.columns after.columns := by
  obtain ⟨columns, modified, updated⟩ := modify?_updates distinct found result same
  have positions := map_modify? keeps modified
  have ascending : Ascending columns := by
    have before := List.pairwise_map.mpr t.ascending
    rw [← positions] at before
    exact List.pairwise_map.mp before
  have nonempty : columns ≠ [] := by
    intro empty
    rw [empty, List.map_nil, eq_comm, List.map_eq_nil_iff] at positions
    exact t.nonempty positions
  obtain ⟨after, formed⟩ := t.withColumns?_exists nonempty ascending
  obtain ⟨name, columnsSame⟩ := withColumns?_eq_some formed
  exact ⟨after, by rw [modifyColumn?, modified, Option.bind_some, formed], name,
    columnsSame ▸ updated⟩

end Table

inductive Work
  | createDomain
  | alterDomain
  | createTable
  | addColumn (column : String)
  | alterColumn (column : String)
  | replaceProcedure
  deriving DecidableEq, Repr

namespace Step

def work? (step : Step) : Option Work :=
  match step.category, step.action, step.detail with
  | "domain", "create", none => some .createDomain
  | "domain", "alter", none => some .alterDomain
  | "table", "create", none => some .createTable
  | "table", "add column", some column => some (.addColumn column)
  | "table", "alter column", some column => some (.alterColumn column)
  | "procedure", "create or alter", none => some .replaceProcedure
  | _, _, _ => none

/-- The table that an `ADD` statement makes of a table, when its text is that of the column of a
desired table. -/
def addTo? (step : Step) (desired : List Table) (column : String) (t : Table) : Option Table := do
  let wanted ← get? Table.key (.of step.objectName) desired
  let column ← get? Column.key (.of column) wanted.columns
  if step.sql = ColumnChanges.addStatement step.objectName column then t.addColumn? column else none

def alterIn? (step : Step) (column : String) (t : Table) : Option Table :=
  t.modifyColumn? (.of column)
    (Column.alter? ("ALTER TABLE " ++ step.objectName ++ " ALTER COLUMN " ++ column) step.sql)

/-- What a step makes of a schema, unless it fails. Created objects are the desired ones. -/
def effect? (desired : Snapshot) (step : Step) (s : Snapshot) : Option Snapshot := do
  let key := NameKey.of step.objectName
  match ← step.work? with
  | .createDomain =>
    return { s with domains := ← add? Domain.key (← get? Domain.key key desired.domains) s.domains }
  | .alterDomain =>
    return { s with domains := ← modify? Domain.key key (Domain.alter? step.sql) s.domains }
  | .createTable =>
    return { s with tables := ← add? Table.key (← get? Table.key key desired.tables) s.tables }
  | .addColumn column =>
    return { s with tables := ← modify? Table.key key (step.addTo? desired.tables column) s.tables }
  | .alterColumn column =>
    return { s with tables := ← modify? Table.key key (step.alterIn? column) s.tables }
  | .replaceProcedure =>
    let wanted ← get? Procedure.key key desired.procedures
    return { s with procedures := store Procedure.key wanted s.procedures }

theorem name_addTo? {step : Step} {desired : List Table} {column : String} {t after : Table}
    (result : step.addTo? desired column t = some after) : after.name = t.name := by
  obtain ⟨_, _, result⟩ := Option.bind_eq_some_iff.mp result
  obtain ⟨column, _, result⟩ := Option.bind_eq_some_iff.mp result
  split at result
  · obtain ⟨columns, _, result⟩ := Option.bind_eq_some_iff.mp result
    exact (Table.withColumns?_eq_some result).1
  · cases result

theorem name_alterIn? {step : Step} {column : String} {t after : Table}
    (result : step.alterIn? column t = some after) : after.name = t.name := by
  obtain ⟨columns, _, result⟩ := Option.bind_eq_some_iff.mp result
  exact (Table.withColumns?_eq_some result).1

variable (desired : Snapshot) (schema : DesiredSchema) (name sql : String) (s : Snapshot)

theorem effect?_createDomain : effect? desired (ChangeSet.createStep schema .domain name) s =
    ((get? Domain.key (.of name) desired.domains).bind fun d => add? Domain.key d s.domains).map
      fun domains => { s with domains } := by
  cases wanted : get? Domain.key (.of name) desired.domains with
  | none => simp [effect?, work?, ChangeSet.createStep, ObjectKind.name, wanted]
  | some d =>
    cases added : add? Domain.key d s.domains <;>
      simp [effect?, work?, ChangeSet.createStep, ObjectKind.name, wanted, added]

theorem effect?_alterDomain :
    effect? desired { category := ObjectKind.domain.name, action := "alter", objectName := name, sql } s =
      (modify? Domain.key (.of name) (Domain.alter? sql) s.domains).map
        fun domains => { s with domains } := by
  cases modified : modify? Domain.key (.of name) (Domain.alter? sql) s.domains <;>
    simp [effect?, work?, ObjectKind.name, modified]

theorem effect?_createTable : effect? desired (ChangeSet.createStep schema .table name) s =
    ((get? Table.key (.of name) desired.tables).bind fun t => add? Table.key t s.tables).map
      fun tables => { s with tables } := by
  cases wanted : get? Table.key (.of name) desired.tables with
  | none => simp [effect?, work?, ChangeSet.createStep, ObjectKind.name, wanted]
  | some t =>
    cases added : add? Table.key t s.tables <;>
      simp [effect?, work?, ChangeSet.createStep, ObjectKind.name, wanted, added]

theorem effect?_addColumn (step : Step) (column : String) (work : step.work? = some (.addColumn column)) :
    effect? desired step s =
      (modify? Table.key (.of step.objectName) (step.addTo? desired.tables column) s.tables).map
        fun tables => { s with tables } := by
  cases modified : modify? Table.key (.of step.objectName) (step.addTo? desired.tables column) s.tables <;>
    simp [effect?, work, modified]

theorem effect?_alterColumn (step : Step) (column : String)
    (work : step.work? = some (.alterColumn column)) :
    effect? desired step s =
      (modify? Table.key (.of step.objectName) (step.alterIn? column) s.tables).map
        fun tables => { s with tables } := by
  cases modified : modify? Table.key (.of step.objectName) (step.alterIn? column) s.tables <;>
    simp [effect?, work, modified]

theorem effect?_replaceProcedure : effect? desired (ChangeSet.replaceStep schema name) s =
    (get? Procedure.key (.of name) desired.procedures).map
      fun p => { s with procedures := store Procedure.key p s.procedures } := by
  cases wanted : get? Procedure.key (.of name) desired.procedures <;>
    simp [effect?, work?, ChangeSet.replaceStep, ObjectKind.name, wanted]

end Step

/-- What steps make of a schema, one after the other, unless one of them fails. -/
def Snapshot.carryOut? (desired : Snapshot) (steps : List Step) (s : Snapshot) : Option Snapshot :=
  steps.foldlM (fun s step => step.effect? desired s) s

end SchemaSync
