import Mathlib.Data.List.Nodup
import SchemaSync.Proofs.Plan.Agreement
import SchemaSync.Proofs.Schema.TableForm

/-! What an existing schema needs to become a desired one: the objects and columns that are missing, and each attribute
that differs from the one of the desired object with the same key. Needs are said by keys and attributes alone, and
listed in the desired order, each of them once. -/

namespace SchemaSync

namespace Keyed

variable {α : Type} (keyOf : α → NameKey) (existing desired : List α)

def missing : List α :=
  desired.filter fun d => keyOf d ∉ existing.map keyOf

def matched : List (α × α) :=
  desired.flatMap fun d => (existing.filter fun e => keyOf e = keyOf d).map (·, d)

variable {keyOf existing desired}

theorem mem_missing {d : α} : d ∈ missing keyOf existing desired ↔ d ∈ desired ∧ keyOf d ∉ existing.map keyOf := by
  rw [missing, List.mem_filter, decide_eq_true_iff]

theorem mem_matched {pair : α × α} : pair ∈ matched keyOf existing desired ↔
    pair.1 ∈ existing ∧ pair.2 ∈ desired ∧ keyOf pair.1 = keyOf pair.2 := by
  obtain ⟨e, d⟩ := pair
  simp only [matched, List.mem_flatMap, List.mem_map, List.mem_filter, decide_eq_true_iff, Prod.mk.injEq]
  constructor
  · rintro ⟨_, wanted, _, ⟨there, same⟩, rfl, rfl⟩
    exact ⟨there, wanted, same⟩
  · rintro ⟨there, wanted, same⟩
    exact ⟨d, wanted, e, ⟨there, same⟩, rfl, rfl⟩

theorem filter_key (distinct : Distinct keyOf existing) (key : NameKey) :
    existing.filter (fun e => keyOf e = key) = (get? keyOf key existing).toList := by
  induction existing with
  | nil => rfl
  | cons first rest ih =>
    obtain ⟨fresh, distinct⟩ := List.nodup_cons.mp distinct
    rw [get?_cons]
    by_cases same : keyOf first = key
    · have alone : get? keyOf key rest = none := get?_eq_none.mpr (same ▸ fresh)
      rw [List.filter_cons, if_pos (decide_eq_true same), ih distinct, alone, if_pos same]
      rfl
    · rw [List.filter_cons, if_neg (mt of_decide_eq_true same), ih distinct, if_neg same]

theorem missing_eq : missing keyOf existing desired =
    desired.filter fun d => (get? keyOf (keyOf d) existing).isNone := by
  apply List.filter_congr
  intro d _
  rw [Bool.eq_iff_iff, decide_eq_true_iff, Option.isNone_iff_eq_none, get?_eq_none]

theorem flatMap_matched (distinct : Distinct keyOf existing) (steps : α → α → List Step) :
    (matched keyOf existing desired).flatMap (fun pair => steps pair.1 pair.2) =
      desired.flatMap (ChangeSet.stepsFor keyOf existing steps) := by
  rw [matched, List.flatMap_assoc]
  apply List.flatMap_congr
  intro d _
  rw [filter_key distinct, ChangeSet.stepsFor]
  cases get? keyOf (keyOf d) existing <;> simp

/-- Lists of items of different origins hold nothing twice. -/
theorem nodup_flatMap_of_origin {ι β : Type} {items : List ι} {parts : ι → List β} (nodup : items.Nodup)
    (each : ∀ item ∈ items, (parts item).Nodup)
    (origin : ∀ one two part, part ∈ parts one → part ∈ parts two → one = two) : (items.flatMap parts).Nodup := by
  rw [List.nodup_flatMap]
  refine ⟨each, nodup.imp ?_⟩
  intro one two different part first second
  exact different (origin one two part first second)

theorem nodup_matched (there : existing.Nodup) (wanted : desired.Nodup) : (matched keyOf existing desired).Nodup := by
  apply nodup_flatMap_of_origin wanted
  · intro d _
    exact (there.filter _).map fun one two same => (Prod.mk.inj same).1
  · intro one two pair first second
    obtain ⟨_, _, rfl⟩ := List.mem_map.mp first
    obtain ⟨_, _, same⟩ := List.mem_map.mp second
    exact (Prod.mk.inj same).2.symm

end Keyed

open Keyed

/-- What a statement can change of a domain or a column. -/
inductive Facet
  | type
  | nullable
  | default
  deriving DecidableEq, Repr

def Facet.all : List Facet := [.type, .nullable, .default]

namespace Attributes

def Differ (a b : Attributes) : Facet → Prop
  | .type => normalizeType a.type ≠ normalizeType b.type
  | .nullable => a.isNullable ≠ b.isNullable
  | .default => normalizeDefault a.defaultValue ≠ normalizeDefault b.defaultValue

instance (a b : Attributes) : DecidablePred (Differ a b)
  | .type | .nullable | .default => inferInstanceAs (Decidable (_ ≠ _))

/-- The attributes that differ. Types only count when `withType` is set. -/
def differing (withType : Bool) (a b : Attributes) : List Facet :=
  Facet.all.filter fun facet => Differ a b facet ∧ (facet = .type → withType = true)

def clause (desired : Attributes) : Facet → Clause
  | .type => .type (desired.type.getD "")
  | .nullable => .nullable desired.isNullable
  | .default => .default (if normalizeDefault desired.defaultValue == "" then none
      else some (Text.trim (desired.defaultValue.getD "")))

theorem mem_differing {withType : Bool} {a b : Attributes} {facet : Facet} :
    facet ∈ differing withType a b ↔ Differ a b facet ∧ (facet = .type → withType = true) := by
  rw [differing, List.mem_filter, decide_eq_true_iff]
  exact and_iff_right (by cases facet <;> decide)

theorem nodup_differing (withType : Bool) (a b : Attributes) : (differing withType a b).Nodup :=
  List.Nodup.filter _ (by decide)

theorem clauses_eq (withType : Bool) (existing desired : Attributes) :
    existing.clauses withType desired = (differing withType existing desired).map desired.clause := by
  have split : differing withType existing desired =
      (if withType && normalizeType existing.type != normalizeType desired.type then [.type] else []) ++
      (if existing.isNullable != desired.isNullable then [.nullable] else []) ++
      (if normalizeDefault existing.defaultValue != normalizeDefault desired.defaultValue then [.default] else []) := by
    simp only [differing, Facet.all, List.filter_cons, List.filter_nil, Differ, decide_eq_true_iff]
    by_cases type : normalizeType existing.type = normalizeType desired.type <;>
      by_cases nullable : existing.isNullable = desired.isNullable <;>
      by_cases default : normalizeDefault existing.defaultValue = normalizeDefault desired.defaultValue <;>
      cases withType <;> simp [type, nullable, default]
  rw [clauses, split, List.map_append, List.map_append]
  simp only [apply_ite (List.map desired.clause), List.map_cons, List.map_nil]
  rfl

end Attributes

theorem Table.nodup_columns (t : Table) : t.columns.Nodup :=
  (nodup_positions t.ascending).of_map

/-- Something that an existing schema needs to become a desired one. -/
inductive Need
  | domain (desired : Domain)
  | domainFacet (existing desired : Domain) (facet : Facet)
  | table (desired : Table)
  | column (existing desired : Table) (column : Column)
  | columnFacet (existing desired : Table) (before after : Column) (facet : Facet)
  | procedure (desired : Procedure)

namespace Need

/-- Whether there is a need. Each one is said by what is there, by what is desired, and by keys. -/
def Arises (existing desired : Snapshot) : Need → Prop
  | domain d => d ∈ desired.domains ∧ d.key ∉ existing.domains.map Domain.key
  | domainFacet e d facet => e ∈ existing.domains ∧ d ∈ desired.domains ∧ e.key = d.key ∧
      e.attributes.Differ d.attributes facet
  | table t => t ∈ desired.tables ∧ t.key ∉ existing.tables.map Table.key
  | column t u c => t ∈ existing.tables ∧ u ∈ desired.tables ∧ t.key = u.key ∧
      c ∈ u.columns ∧ c.key ∉ t.columns.map Column.key
  | columnFacet t u b a facet => t ∈ existing.tables ∧ u ∈ desired.tables ∧ t.key = u.key ∧
      b ∈ t.columns ∧ a ∈ u.columns ∧ b.key = a.key ∧ b.attributes.Differ a.attributes facet ∧
      (facet = .type → isGiven b.domainName = false ∧ isGiven a.domainName = false)
  | procedure p => p ∈ desired.procedures ∧ ∀ e ∈ existing.procedures, e.key = p.key →
      normalizeSource e.sourceCode ≠ normalizeSource p.sourceCode

def step (desired : DesiredSchema) : Need → Step
  | domain d => ChangeSet.createStep desired .domain d.name
  | domainFacet e d facet => {
      category := "domain", action := "alter", objectName := d.name
      sql := "ALTER DOMAIN " ++ e.name ++ (d.attributes.clause facet).text }
  | table t => ChangeSet.createStep desired .table t.name
  | column t _ c => {
      category := "table", action := "add column", objectName := t.name, detail := some c.name
      sql := "ALTER TABLE " ++ t.name ++ " ADD " ++ c.definition }
  | columnFacet t _ _ a facet => {
      category := "table", action := "alter column", objectName := t.name, detail := some a.name
      sql := "ALTER TABLE " ++ t.name ++ " ALTER COLUMN " ++ a.name ++ (a.attributes.clause facet).text }
  | procedure p => ChangeSet.replaceStep desired p.name

section Listing

variable (existing desired : Snapshot)

def missingDomains : List Need :=
  (missing Domain.key existing.domains desired.domains).map domain

def domainFacets : List Need :=
  (matched Domain.key existing.domains desired.domains).flatMap fun (e, d) =>
    (Attributes.differing true e.attributes d.attributes).map (domainFacet e d)

def missingTables : List Need :=
  (missing Table.key existing.tables desired.tables).map table

def missingColumns : List Need :=
  (matched Table.key existing.tables desired.tables).flatMap fun (t, u) =>
    (missing Column.key t.columns u.columns).map (column t u)

def columnFacets : List Need :=
  (matched Table.key existing.tables desired.tables).flatMap fun (t, u) =>
    (matched Column.key t.columns u.columns).flatMap fun (b, a) =>
      (Attributes.differing (b.typesCount a) b.attributes a.attributes).map (columnFacet t u b a)

def changedProcedures : List Need :=
  (desired.procedures.filter fun p => ∀ e ∈ existing.procedures, e.key = p.key →
    normalizeSource e.sourceCode ≠ normalizeSource p.sourceCode).map procedure

def all : List Need :=
  missingDomains existing desired ++ domainFacets existing desired ++ missingTables existing desired ++
    missingColumns existing desired ++ columnFacets existing desired ++ changedProcedures existing desired

end Listing

variable {existing desired : Snapshot}

theorem mem_all {need : Need} : need ∈ all existing desired ↔ need.Arises existing desired := by
  cases need <;> simp [all, missingDomains, domainFacets, missingTables, missingColumns, columnFacets,
    changedProcedures, mem_missing, mem_matched, Attributes.mem_differing, Column.typesCount, Arises, and_assoc]

section Nodup

variable (there : existing.WellKeyed)
include there

theorem nodup_domainFacets (domains : desired.domains.Nodup) : (domainFacets existing desired).Nodup := by
  apply nodup_flatMap_of_origin (nodup_matched there.domains.of_map domains)
  · intro pair _
    exact (Attributes.nodup_differing _ _ _).map fun _ _ same => (Need.domainFacet.inj same).2.2
  · intro one two need inOne inTwo
    obtain ⟨_, _, rfl⟩ := List.mem_map.mp inOne
    obtain ⟨_, _, same⟩ := List.mem_map.mp inTwo
    obtain ⟨e, d, _⟩ := Need.domainFacet.inj same
    exact Prod.ext e.symm d.symm

theorem nodup_missingColumns (tables : desired.tables.Nodup) : (missingColumns existing desired).Nodup := by
  apply nodup_flatMap_of_origin (nodup_matched there.tables.of_map tables)
  · intro pair _
    exact (pair.2.nodup_columns.filter _).map fun _ _ same => (Need.column.inj same).2.2
  · intro one two need inOne inTwo
    obtain ⟨_, _, rfl⟩ := List.mem_map.mp inOne
    obtain ⟨_, _, same⟩ := List.mem_map.mp inTwo
    obtain ⟨t, u, _⟩ := Need.column.inj same
    exact Prod.ext t.symm u.symm

theorem nodup_columnFacets (tables : desired.tables.Nodup) : (columnFacets existing desired).Nodup := by
  -- Two levels of origins: the pair of tables, and in it the pair of columns.
  apply nodup_flatMap_of_origin (nodup_matched there.tables.of_map tables)
  · intro pair _
    apply nodup_flatMap_of_origin (nodup_matched pair.1.nodup_columns pair.2.nodup_columns)
    · intro pair _
      exact (Attributes.nodup_differing _ _ _).map fun _ _ same => (Need.columnFacet.inj same).2.2.2.2
    · intro one two need inOne inTwo
      obtain ⟨_, _, rfl⟩ := List.mem_map.mp inOne
      obtain ⟨_, _, same⟩ := List.mem_map.mp inTwo
      obtain ⟨_, _, b, a, _⟩ := Need.columnFacet.inj same
      exact Prod.ext b.symm a.symm
  · intro one two need inOne inTwo
    obtain ⟨_, _, inOne⟩ := List.mem_flatMap.mp inOne
    obtain ⟨_, _, inTwo⟩ := List.mem_flatMap.mp inTwo
    obtain ⟨_, _, rfl⟩ := List.mem_map.mp inOne
    obtain ⟨_, _, same⟩ := List.mem_map.mp inTwo
    obtain ⟨t, u, _⟩ := Need.columnFacet.inj same
    exact Prod.ext t.symm u.symm

theorem nodup_all (domains : desired.domains.Nodup) (tables : desired.tables.Nodup)
    (procedures : desired.procedures.Nodup) : (all existing desired).Nodup := by
  have newDomains : (missingDomains existing desired).Nodup :=
    (domains.filter _).map fun _ _ same => Need.domain.inj same
  have newTables : (missingTables existing desired).Nodup :=
    (tables.filter _).map fun _ _ same => Need.table.inj same
  have replaced : (changedProcedures existing desired).Nodup :=
    (procedures.filter _).map fun _ _ same => Need.procedure.inj same
  simp only [all, List.nodup_append']
  -- A need of one kind is in the list of that kind only.
  refine ⟨⟨⟨⟨⟨newDomains, nodup_domainFacets there domains, ?_⟩, newTables, ?_⟩, nodup_missingColumns there tables, ?_⟩,
    nodup_columnFacets there tables, ?_⟩, replaced, ?_⟩ <;> intro need before after <;>
    cases need <;> simp [missingDomains, domainFacets, missingTables, missingColumns, columnFacets,
      changedProcedures] at before after

end Nodup

end Need

end SchemaSync
