import SchemaSync.Proofs.Plan.Alteration

/-! When there is nothing to do: a schema that has every desired object, with attributes that a
comparison takes for the same. -/

namespace SchemaSync

open Keyed

namespace Snapshot

/-- No two objects of a kind have the same key, and no two columns of a table. -/
structure WellKeyed (s : Snapshot) : Prop where
  domains : Distinct Domain.key s.domains
  tables : Distinct Table.key s.tables
  columns : ∀ t ∈ s.tables, Distinct Column.key t.columns
  procedures : Distinct Procedure.key s.procedures

end Snapshot

/-- A table has the columns of another one, with attributes that a comparison takes for the same. -/
def Table.Covers (t desired : Table) : Prop :=
  ∀ c ∈ desired.columns, ∃ x, get? Column.key c.key t.columns = some x ∧
    x.attributes.Agree (x.typesCount c) c.attributes

/-- A schema has the objects of another one, in a form that a comparison takes for the same. -/
structure Snapshot.Meets (s desired : Snapshot) : Prop where
  domains : ∀ d ∈ desired.domains, ∃ x, get? Domain.key d.key s.domains = some x ∧
    x.attributes.Agree true d.attributes
  tables : ∀ t ∈ desired.tables, ∃ x, get? Table.key t.key s.tables = some x ∧ x.Covers t
  procedures : ∀ p ∈ desired.procedures, ∃ x, get? Procedure.key p.key s.procedures = some x ∧
    normalizeSource x.sourceCode = normalizeSource p.sourceCode

namespace ChangeSet

def domainSteps (existing desired : Domain) : List Step :=
  (existing.alterations desired).map fun statement =>
    { category := ObjectKind.domain.name, action := "alter", objectName := desired.name
      sql := statement }

def addStep (existing : Table) (c : Column) : Step where
  category := ObjectKind.table.name
  action := "add column"
  objectName := existing.name
  sql := ColumnChanges.addStatement existing.name c
  detail := some c.name

def alterStep (existing : Table) (c : Column) (statement : String) : Step where
  category := ObjectKind.table.name
  action := "alter column"
  objectName := existing.name
  sql := statement
  detail := some c.name

def missingColumns (existing desired : Table) : List Column :=
  desired.columns.filter fun c => (get? Column.key c.key existing.columns).isNone

def columnSteps (existing : Table) (c : Column) : List Step :=
  (get? Column.key c.key existing.columns).elim [] fun e =>
    (Column.alterations existing.name e c).map (alterStep existing c)

def stepsFor {α : Type} (keyOf : α → NameKey) (existing : List α) (steps : α → α → List Step)
    (desired : α) : List Step :=
  (get? keyOf (keyOf desired) existing).elim [] fun e => steps e desired

private theorem flatMap_filterMap {α β γ : Type} {part? : α → Option β} {f : β → List γ}
    {g : α → List γ} (items : List α) (same : ∀ item, (part? item).elim [] f = g item) :
    (items.filterMap part?).flatMap f = items.flatMap g := by
  induction items with
  | nil => rfl
  | cons item rest ih =>
    rw [List.flatMap_cons, ← same, ← ih]
    cases found : part? item with
    | none => rw [List.filterMap_cons_none found]; rfl
    | some part => rw [List.filterMap_cons_some found]; rfl

variable {existing : Snapshot} {desired : DesiredSchema}

theorem domainAlters_eq (keyed : existing.WellKeyed) :
    (between existing desired).domainAlters =
      desired.snapshot.domains.flatMap (stepsFor Domain.key existing.domains domainSteps) := by
  refine flatMap_filterMap _ fun d => ?_
  rw [stepsFor, lastWith?_eq_get? keyed.domains]
  cases get? Domain.key d.key existing.domains with
  | none => rfl
  | some e =>
    rw [Option.bind_eq_bind, Option.bind_some, Option.elim_some, domainSteps]
    dsimp only
    cases e.alterations d <;> rfl

theorem addColumnSteps_eq {t u : Table} (keyed : Distinct Column.key t.columns) :
    addColumnSteps (compareColumns t u) = (missingColumns t u).map (addStep t) := by
  simp only [addColumnSteps, compareColumns, missingColumns, lastWith?_eq_get? keyed]
  rfl

theorem alterColumnSteps_eq {t u : Table} (keyed : Distinct Column.key t.columns) :
    alterColumnSteps (compareColumns t u) = u.columns.flatMap (columnSteps t) := by
  refine flatMap_filterMap _ fun c => ?_
  rw [columnSteps, lastWith?_eq_get? keyed]
  cases get? Column.key c.key t.columns with
  | none => rfl
  | some e =>
    rw [Option.bind_eq_bind, Option.bind_some, Option.elim_some]
    dsimp only
    cases Column.alterations t.name e c <;> rfl

/-- Steps for tables that have changes are steps for all tables. -/
private theorem tableSteps_eq {tables wanted : List Table} (keyed : Distinct Table.key tables)
    {steps : ColumnChanges → List Step} {tableSteps : Table → Table → List Step}
    (same : ∀ t ∈ tables, ∀ u, steps (compareColumns t u) = tableSteps t u)
    (empty : ∀ changes, changes.hasChanges = false → steps changes = []) :
    (compareTables tables wanted).toAlter.flatMap steps =
      wanted.flatMap (stepsFor Table.key tables tableSteps) := by
  refine flatMap_filterMap _ fun u => ?_
  rw [stepsFor, lastWith?_eq_get? keyed]
  cases found : get? Table.key u.key tables with
  | none => rfl
  | some t =>
    rw [Option.bind_eq_bind, Option.bind_some, Option.elim_some, ← same t (mem_of_get? found) u]
    dsimp only
    split
    · rfl
    · next unchanged => exact (empty _ (by simpa using unchanged)).symm

theorem columnAdds_eq (keyed : existing.WellKeyed) :
    (between existing desired).columnAdds = desired.snapshot.tables.flatMap
      (stepsFor Table.key existing.tables fun t u => (missingColumns t u).map (addStep t)) := by
  refine tableSteps_eq keyed.tables (fun t member u => addColumnSteps_eq (keyed.columns t member)) ?_
  intro changes unchanged
  rw [ColumnChanges.hasChanges, Bool.or_eq_false_iff, Bool.not_eq_false', List.isEmpty_iff] at unchanged
  rw [addColumnSteps, unchanged.1, List.map_nil]

theorem columnAlters_eq (keyed : existing.WellKeyed) :
    (between existing desired).columnAlters = desired.snapshot.tables.flatMap
      (stepsFor Table.key existing.tables fun t u => u.columns.flatMap (columnSteps t)) := by
  refine tableSteps_eq keyed.tables (fun t member u => alterColumnSteps_eq (keyed.columns t member)) ?_
  intro changes unchanged
  rw [ColumnChanges.hasChanges, Bool.or_eq_false_iff, Bool.not_eq_false', Bool.not_eq_false',
    List.isEmpty_iff, List.isEmpty_iff] at unchanged
  rw [alterColumnSteps, unchanged.2, List.flatMap_nil]

theorem stepsFor_eq_nil_iff {α : Type} {keyOf : α → NameKey} {objects : List α}
    {steps : α → α → List Step} {d : α} : stepsFor keyOf objects steps d = [] ↔
      ∀ x, get? keyOf (keyOf d) objects = some x → steps x d = [] := by
  rw [stepsFor]
  cases get? keyOf (keyOf d) objects <;> simp

theorem covers_iff {t u : Table} : t.Covers u ↔
    missingColumns t u = [] ∧ u.columns.flatMap (columnSteps t) = [] := by
  rw [missingColumns, List.filter_eq_nil_iff, List.flatMap_eq_nil_iff, ← forall₂_and]
  refine forall₂_congr fun c _ => ?_
  rw [columnSteps]
  cases get? Column.key c.key t.columns with
  | none => simp
  | some x => simp [Column.alterations, Attributes.alterations_eq_nil_iff, Column.typesCount]

theorem procedureChanged_eq_false_iff {x? : Option Procedure} {p : Procedure} :
    procedureChanged x? p = false ↔
      ∃ x, x? = some x ∧ normalizeSource x.sourceCode = normalizeSource p.sourceCode := by
  cases x? <;> simp [procedureChanged]

private theorem exists_some_iff {α : Type} {found : Option α} {p : α → Prop} :
    (∃ x, found = some x ∧ p x) ↔ found.isNone = false ∧ ∀ x, found = some x → p x := by
  cases found <;> simp

/-- There is nothing to do exactly when the existing schema meets the desired one. -/
theorem steps_eq_nil_iff (keyed : existing.WellKeyed) :
    (between existing desired).steps = [] ↔ existing.Meets desired.snapshot := by
  -- Each group of steps is empty under one part of the condition.
  have creates : (between existing desired).domainCreates = [] ↔
      ∀ d ∈ desired.snapshot.domains, (get? Domain.key d.key existing.domains).isNone = false := by
    simp [between, ofChanges, compareDomains, lastWith?_eq_get? keyed.domains, Option.isSome_iff_ne_none]
  have alters : (between existing desired).domainAlters = [] ↔ ∀ d ∈ desired.snapshot.domains,
      ∀ x, get? Domain.key d.key existing.domains = some x → x.attributes.Agree true d.attributes := by
    simp only [domainAlters_eq keyed, List.flatMap_eq_nil_iff, stepsFor_eq_nil_iff, domainSteps,
      List.map_eq_nil_iff, Domain.alterations, Attributes.alterations_eq_nil_iff]
  have tables : (between existing desired).tableCreates = [] ↔
      ∀ t ∈ desired.snapshot.tables, (get? Table.key t.key existing.tables).isNone = false := by
    simp [between, ofChanges, compareTables, lastWith?_eq_get? keyed.tables, Option.isSome_iff_ne_none]
  have columns : (between existing desired).columnAdds = [] ∧
      (between existing desired).columnAlters = [] ↔ ∀ t ∈ desired.snapshot.tables,
      ∀ x, get? Table.key t.key existing.tables = some x → x.Covers t := by
    simp only [columnAdds_eq keyed, columnAlters_eq keyed, List.flatMap_eq_nil_iff (f := stepsFor _ _ _),
      stepsFor_eq_nil_iff, List.map_eq_nil_iff, covers_iff, ← forall_and]
  have procedures : (between existing desired).procedures = [] ↔ ∀ p ∈ desired.snapshot.procedures,
      ∃ x, get? Procedure.key p.key existing.procedures = some x ∧
        normalizeSource x.sourceCode = normalizeSource p.sourceCode := by
    simp only [← procedureChanged_eq_false_iff]
    simp [between, ofChanges]
    rfl
  simp only [steps, List.append_eq_nil_iff]
  constructor
  · rintro ⟨⟨⟨⟨⟨dc, da⟩, tc⟩, ca⟩, cl⟩, pr⟩
    exact {
      domains := fun d member => exists_some_iff.mpr ⟨creates.mp dc d member, alters.mp da d member⟩
      tables := fun t member => exists_some_iff.mpr ⟨tables.mp tc t member, columns.mp ⟨ca, cl⟩ t member⟩
      procedures := procedures.mp pr }
  · intro meets
    have added := columns.mpr fun t member => (exists_some_iff.mp (meets.tables t member)).2
    refine ⟨⟨⟨⟨⟨creates.mpr ?_, alters.mpr ?_⟩, tables.mpr ?_⟩, added.1⟩, added.2⟩,
      procedures.mpr meets.procedures⟩
    · exact fun d member => (exists_some_iff.mp (meets.domains d member)).1
    · exact fun d member => (exists_some_iff.mp (meets.domains d member)).2
    · exact fun t member => (exists_some_iff.mp (meets.tables t member)).1

end ChangeSet

end SchemaSync
