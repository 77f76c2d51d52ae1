import Mathlib.Data.List.Perm.Subperm
import SchemaSync.Plan.Plan
import SchemaSync.Proofs.Plan.Minimal

/-! What a report counts. Steps are counted by the names that they are for, and that gives the numbers of the objects
that are missing, of those that differ, and of the procedures to replace. -/

namespace SchemaSync

open Keyed

theorem nodup_eraseDups {α : Type} [BEq α] [LawfulBEq α] (items : List α) : items.eraseDups.Nodup := by
  match items with
  | [] => exact .nil
  | item :: rest =>
    rw [List.eraseDups_cons]
    refine List.nodup_cons.mpr ⟨fun again => ?_, nodup_eraseDups _⟩
    have kept := (List.mem_filter.mp (List.mem_eraseDups.mp again)).2
    simp at kept
termination_by items.length
decreasing_by exact Nat.lt_succ_of_le (List.length_filter_le _ _)

namespace ChangeSet

section Counting

variable {steps : List Step}

/-- Steps are for as many objects as there are different keys among theirs. -/
theorem objectsAffected_eq {keys : List NameKey} (nodup : keys.Nodup)
    (same : ∀ key, (∃ step ∈ steps, step.key = key) ↔ key ∈ keys) : objectsAffected steps = keys.length := by
  refine List.Perm.length_eq ((List.perm_ext_iff_of_nodup (nodup_eraseDups _) nodup).mpr fun key => ?_)
  rw [List.mem_eraseDups, List.mem_map]
  exact same key

theorem objectsAffected_le (steps : List Step) : objectsAffected steps ≤ steps.length := by
  have within : (steps.map Step.key).eraseDups ⊆ steps.map Step.key := fun _ => List.mem_eraseDups.mp
  have shorter := (List.subperm_of_subset (nodup_eraseDups _) within).length_le
  rwa [List.length_map] at shorter

theorem objectsAffected_eq_zero_iff : objectsAffected steps = 0 ↔ steps = [] := by
  constructor
  · intro none
    have empty : (steps.map Step.key).eraseDups = [] := List.length_eq_zero_iff.mp none
    refine List.eq_nil_iff_forall_not_mem.mpr fun step member => ?_
    have there := List.mem_eraseDups.mpr (List.mem_map_of_mem (f := Step.key) member)
    rw [empty] at there
    cases there
  · rintro rfl
    rfl

/-- Where each item has a key of its own, and there are steps for it, all with that key, the steps are for as many
objects as there are items. -/
theorem objectsAffected_items {ι : Type} {items : List ι} {keyOf : ι → NameKey} (nodup : (items.map keyOf).Nodup)
    (of : ∀ step ∈ steps, ∃ item ∈ items, step.key = keyOf item)
    (some : ∀ item ∈ items, ∃ step ∈ steps, step.key = keyOf item) : objectsAffected steps = items.length := by
  rw [objectsAffected_eq nodup fun key => ?_, List.length_map]
  constructor
  · rintro ⟨step, member, rfl⟩
    obtain ⟨item, inside, same⟩ := of step member
    exact same ▸ List.mem_map_of_mem inside
  · intro member
    obtain ⟨item, inside, rfl⟩ := List.mem_map.mp member
    exact some item inside

theorem objectsAffected_map {α : Type} {objects : List α} {keyOf : α → NameKey} (distinct : Distinct keyOf objects)
    {step : α → Step} (same : ∀ object, (step object).key = keyOf object) :
    objectsAffected (objects.map step) = objects.length := by
  apply objectsAffected_items distinct
  · intro made member
    obtain ⟨object, inside, rfl⟩ := List.mem_map.mp member
    exact ⟨object, inside, same object⟩
  · exact fun object inside => ⟨step object, List.mem_map_of_mem inside, same object⟩

end Counting

end ChangeSet

/-- No two objects of a kind have the same key. -/
structure Snapshot.DistinctObjects (s : Snapshot) : Prop where
  domains : Distinct Domain.key s.domains
  tables : Distinct Table.key s.tables
  procedures : Distinct Procedure.key s.procedures

def Domain.Differs (d desired : Domain) : Prop :=
  Attributes.differing true d.attributes desired.attributes ≠ []

/-- Whether a table lacks a desired column, or has it with an attribute that differs. Of columns of a table with the
same key the last one counts. -/
def Table.Differs (t desired : Table) : Prop :=
  ∃ c ∈ desired.columns, c.key ∉ t.columns.map Column.key ∨
    ∃ x ∈ lastWith? Column.key c.key t.columns, Attributes.differing (x.typesCount c) x.attributes c.attributes ≠ []

instance (d desired : Domain) : Decidable (d.Differs desired) :=
  inferInstanceAs (Decidable (_ ≠ _))

instance (t desired : Table) : Decidable (t.Differs desired) :=
  inferInstanceAs (Decidable (∃ _ ∈ _, _ ∨ _))

namespace Keyed

variable {α β : Type} {keyOf : α → NameKey} {existing desired : List α}

/-- What is found of some matched objects is counted by the pairs. -/
theorem length_filterMap_matched (distinct : Distinct keyOf existing) (found? : α → α → Option β) :
    (desired.filterMap fun d => (lastWith? keyOf (keyOf d) existing).bind (found? · d)).length =
      (matched keyOf existing desired).countP fun (e, d) => (found? e d).isSome := by
  induction desired with
  | nil => rfl
  | cons d rest ih =>
    have split : matched keyOf existing (d :: rest) =
        (get? keyOf (keyOf d) existing).toList.map (·, d) ++ matched keyOf existing rest := by
      rw [matched, List.flatMap_cons, filter_key distinct]
      rfl
    rw [split, List.countP_append, ← ih, List.filterMap_cons, lastWith?_eq_get? distinct (keyOf d)]
    cases get? keyOf (keyOf d) existing with
    | none => simp
    | some e => cases found : found? e d <;> simp [found, Nat.add_comm]

theorem lastWith?_eq_none_iff {key : NameKey} : lastWith? keyOf key existing = none ↔ key ∉ existing.map keyOf := by
  simp [lastWith?, List.find?_eq_none]

theorem missing_eq_filter : missing keyOf existing desired =
    desired.filter fun d => (lastWith? keyOf (keyOf d) existing).isNone := by
  apply List.filter_congr
  intro d _
  rw [Bool.eq_iff_iff, decide_eq_true_iff, Option.isNone_iff_eq_none, lastWith?_eq_none_iff]

theorem distinct_filter (distinct : Distinct keyOf desired) (test : α → Bool) : Distinct keyOf (desired.filter test) :=
  distinct.sublist (List.filter_sublist.map keyOf)

theorem key_of_lastWith? {key : NameKey} {e : α} (found : lastWith? keyOf key existing = some e) : keyOf e = key := by
  simpa using List.find?_some found

/-- What is found of objects with different keys has different keys, if the keys stay the same. -/
theorem nodup_filterMap (distinct : Distinct keyOf desired) {found? : α → Option β} {other : β → NameKey}
    (keeps : ∀ d b, found? d = some b → other b = keyOf d) : ((desired.filterMap found?).map other).Nodup := by
  rw [List.Nodup, List.pairwise_map, List.pairwise_filterMap]
  refine (List.pairwise_map.mp distinct).imp fun different b one c two => ?_
  rwa [keeps _ _ one, keeps _ _ two]

end Keyed

theorem Domain.alterations_eq_nil_iff {e d : Domain} : e.alterations d = [] ↔ ¬e.Differs d := by
  rw [Domain.alterations_eq, List.map_eq_nil_iff, Domain.clauses, Attributes.clauses_eq, List.map_eq_nil_iff, Differs,
    Classical.not_not]

theorem Column.alterations_eq_nil_iff {table : String} {e c : Column} : Column.alterations table e c = [] ↔
    Attributes.differing (e.typesCount c) e.attributes c.attributes = [] := by
  rw [Column.alterations_eq, List.map_eq_nil_iff, Column.clauses, Attributes.clauses_eq, List.map_eq_nil_iff]

theorem isSome_of_statements {statements : List String} {plan : List String → AlterPlan} :
    (if statements.isEmpty then none else some (plan statements)).isSome = true ↔ statements ≠ [] := by
  cases statements <;> simp

namespace Table

variable {t u : Table}

theorem mem_toAdd {c : Column} : c ∈ (compareColumns t u).toAdd ↔
    c ∈ u.columns ∧ c.key ∉ t.columns.map Column.key := by
  rw [compareColumns, List.mem_filter, Option.isNone_iff_eq_none, lastWith?_eq_none_iff]

theorem mem_toAlter {plan : AlterPlan} : plan ∈ (compareColumns t u).toAlter ↔
    ∃ c ∈ u.columns, ∃ x, lastWith? Column.key c.key t.columns = some x ∧
      Attributes.differing (x.typesCount c) x.attributes c.attributes ≠ [] ∧
      { name := c.name, statements := Column.alterations t.name x c } = plan := by
  simp only [compareColumns, List.mem_filterMap, Option.bind_eq_bind, Option.bind_eq_some_iff,
    Option.ite_none_left_eq_some, List.isEmpty_iff, Column.alterations_eq_nil_iff, Option.some_inj, ne_eq]

theorem hasChanges_iff : (compareColumns t u).hasChanges = true ↔ t.Differs u := by
  rw [ColumnChanges.hasChanges, Bool.or_eq_true, Bool.not_eq_true', Bool.not_eq_true',
    List.isEmpty_eq_false_iff_exists_mem, List.isEmpty_eq_false_iff_exists_mem, Differs]
  constructor
  · rintro (⟨c, added⟩ | ⟨plan, altered⟩)
    · obtain ⟨wanted, lacking⟩ := mem_toAdd.mp added
      exact ⟨c, wanted, .inl lacking⟩
    · obtain ⟨c, wanted, x, there, differing, _⟩ := mem_toAlter.mp altered
      exact ⟨c, wanted, .inr ⟨x, there, differing⟩⟩
  · rintro ⟨c, wanted, lacking | ⟨x, there, differing⟩⟩
    · exact .inl ⟨c, mem_toAdd.mpr ⟨wanted, lacking⟩⟩
    · exact .inr ⟨_, mem_toAlter.mpr ⟨c, wanted, x, there, differing, rfl⟩⟩

end Table

namespace ChangeSet

section Domains

variable {existing desired : List Domain}

theorem length_toAlter_domains (distinct : Distinct Domain.key existing) :
    (compareDomains existing desired).toAlter.length =
      (matched Domain.key existing desired).countP fun (e, d) => e.Differs d := by
  refine (length_filterMap_matched distinct _).trans (List.countP_congr fun (e, d) _ => ?_)
  rw [decide_eq_true_iff]
  exact isSome_of_statements.trans (Domain.alterations_eq_nil_iff.not.trans Classical.not_not)

end Domains

section Tables

variable {existing desired : List Table}

theorem length_toAlter_tables (distinct : Distinct Table.key existing) :
    (compareTables existing desired).toAlter.length =
      (matched Table.key existing desired).countP fun (t, u) => t.Differs u := by
  refine (length_filterMap_matched distinct _).trans (List.countP_congr fun (t, u) _ => ?_)
  rw [decide_eq_true_iff, ← Table.hasChanges_iff]
  dsimp only
  split
  · next changed => exact iff_of_true rfl changed
  · next same => exact iff_of_false Bool.false_ne_true same

end Tables

section Between

variable {existing : Snapshot} {desired : DesiredSchema}

theorem objectsAffected_domainCreates (asked : Distinct Domain.key desired.snapshot.domains) :
    objectsAffected (between existing desired).domainCreates =
      (missing Domain.key existing.domains desired.snapshot.domains).length := by
  rw [missing_eq_filter]
  exact objectsAffected_map (distinct_filter asked _) fun _ => rfl

theorem objectsAffected_tableCreates (asked : Distinct Table.key desired.snapshot.tables) :
    objectsAffected (between existing desired).tableCreates =
      (missing Table.key existing.tables desired.snapshot.tables).length := by
  rw [missing_eq_filter]
  exact objectsAffected_map (distinct_filter asked _) fun _ => rfl

theorem objectsAffected_procedures (asked : Distinct Procedure.key desired.snapshot.procedures) :
    objectsAffected (between existing desired).procedures = (between existing desired).procedures.length := by
  rw [between, ofChanges, List.length_map]
  exact objectsAffected_map (distinct_filter asked _) fun _ => rfl

section Keys

variable {step : Step} {plan : AlterPlan} {changes : ColumnChanges}

theorem key_alterDomainSteps (made : step ∈ alterDomainSteps plan) : step.key = .of plan.name := by
  obtain ⟨statement, _, rfl⟩ := List.mem_map.mp made
  rfl

theorem key_addColumnSteps (made : step ∈ addColumnSteps changes) : step.key = .of changes.table := by
  obtain ⟨c, _, rfl⟩ := List.mem_map.mp made
  rfl

theorem key_alterColumnSteps (made : step ∈ alterColumnSteps changes) : step.key = .of changes.table := by
  obtain ⟨plan, _, inside⟩ := List.mem_flatMap.mp made
  obtain ⟨statement, _, rfl⟩ := List.mem_map.mp inside
  rfl

end Keys

theorem mem_toAlter_domains {wanted there : List Domain} {plan : AlterPlan} :
    plan ∈ (compareDomains there wanted).toAlter ↔ ∃ d ∈ wanted, ∃ e, lastWith? Domain.key d.key there = some e ∧
      e.Differs d ∧ { name := d.name, statements := e.alterations d } = plan := by
  simp only [compareDomains, List.mem_filterMap, Option.bind_eq_bind, Option.bind_eq_some_iff,
    Option.ite_none_left_eq_some, List.isEmpty_iff, Domain.alterations_eq_nil_iff, Option.some_inj, Classical.not_not]

theorem mem_toAlter_tables {wanted there : List Table} {changes : ColumnChanges} :
    changes ∈ (compareTables there wanted).toAlter ↔ ∃ u ∈ wanted, ∃ t, lastWith? Table.key u.key there = some t ∧
      t.Differs u ∧ compareColumns t u = changes := by
  simp only [compareTables, List.mem_filterMap, Option.bind_eq_bind, Option.bind_eq_some_iff,
    Option.ite_none_right_eq_some, Table.hasChanges_iff, Option.some_inj]

theorem objectsAffected_domainAlters (distinct : Distinct Domain.key existing.domains)
    (asked : Distinct Domain.key desired.snapshot.domains) :
    objectsAffected (between existing desired).domainAlters =
      (matched Domain.key existing.domains desired.snapshot.domains).countP fun (e, d) => e.Differs d := by
  rw [← length_toAlter_domains distinct]
  have keeps : (((compareDomains existing.domains desired.snapshot.domains).toAlter).map
      fun plan => NameKey.of plan.name).Nodup := by
    refine nodup_filterMap asked fun d plan found => ?_
    obtain ⟨e, _, made⟩ := Option.bind_eq_some_iff.mp found
    obtain ⟨_, ⟨⟩⟩ := Option.ite_none_left_eq_some.mp made
    rfl
  apply objectsAffected_items keeps
  · intro step member
    obtain ⟨plan, altered, inside⟩ := List.mem_flatMap.mp member
    exact ⟨plan, altered, key_alterDomainSteps inside⟩
  · intro plan altered
    obtain ⟨d, _, e, _, differs, rfl⟩ := mem_toAlter_domains.mp altered
    have statements : e.alterations d ≠ [] := mt Domain.alterations_eq_nil_iff.mp (not_not_intro differs)
    obtain ⟨step, made⟩ := List.exists_mem_of_ne_nil _ (mt List.map_eq_nil_iff.mp statements)
    exact ⟨step, List.mem_flatMap.mpr ⟨_, altered, made⟩, key_alterDomainSteps made⟩

theorem objectsAffected_columns (distinct : Distinct Table.key existing.tables)
    (asked : Distinct Table.key desired.snapshot.tables) :
    objectsAffected ((between existing desired).columnAdds ++ (between existing desired).columnAlters) =
      (matched Table.key existing.tables desired.snapshot.tables).countP fun (t, u) => t.Differs u := by
  rw [← length_toAlter_tables distinct]
  have keeps : (((compareTables existing.tables desired.snapshot.tables).toAlter).map
      fun changes => NameKey.of changes.table).Nodup := by
    refine nodup_filterMap asked fun u changes found => ?_
    obtain ⟨t, there, made⟩ := Option.bind_eq_some_iff.mp found
    obtain ⟨_, ⟨⟩⟩ := Option.ite_none_right_eq_some.mp made
    have same : t.key = u.key := key_of_lastWith? there
    exact same
  apply objectsAffected_items keeps
  · intro step member
    rcases List.mem_append.mp member with added | altered
    · obtain ⟨changes, differing, inside⟩ := List.mem_flatMap.mp added
      exact ⟨changes, differing, key_addColumnSteps inside⟩
    · obtain ⟨changes, differing, inside⟩ := List.mem_flatMap.mp altered
      exact ⟨changes, differing, key_alterColumnSteps inside⟩
  · intro changes altered
    obtain ⟨u, _, t, _, ⟨c, wanted, lacking | ⟨x, there, differing⟩⟩, rfl⟩ := mem_toAlter_tables.mp altered
    · have made : _ ∈ addColumnSteps (compareColumns t u) := List.mem_map_of_mem (Table.mem_toAdd.mpr ⟨wanted, lacking⟩)
      exact ⟨_, List.mem_append_left _ (List.mem_flatMap.mpr ⟨_, altered, made⟩), key_addColumnSteps made⟩
    · have plan := Table.mem_toAlter.mpr ⟨c, wanted, x, there, differing, rfl⟩
      have statements : Column.alterations t.name x c ≠ [] := mt Column.alterations_eq_nil_iff.mp differing
      obtain ⟨statement, inside⟩ := List.exists_mem_of_ne_nil _ statements
      have made : _ ∈ alterColumnSteps (compareColumns t u) :=
        List.mem_flatMap.mpr ⟨_, plan, List.mem_map_of_mem inside⟩
      exact ⟨_, List.mem_append_right _ (List.mem_flatMap.mpr ⟨_, altered, made⟩), key_alterColumnSteps made⟩

end Between

end ChangeSet

/-- What a report says about the plan that leads from a schema to another one. -/
structure Report.Tallies (existing : Snapshot) (desired : DesiredSchema) (report : Report) : Prop where
  domainsCreated : report.domainsCreated = (missing Domain.key existing.domains desired.snapshot.domains).length
  domainsAltered : report.domainsAltered =
    (matched Domain.key existing.domains desired.snapshot.domains).countP fun (e, d) => e.Differs d
  tablesCreated : report.tablesCreated = (missing Table.key existing.tables desired.snapshot.tables).length
  tablesAltered : report.tablesAltered =
    (matched Table.key existing.tables desired.snapshot.tables).countP fun (t, u) => t.Differs u
  proceduresReplaced : report.proceduresReplaced = (ChangeSet.between existing desired).procedures.length
  statementsPlanned : report.statementsPlanned = (ChangeSet.between existing desired).steps.length
  inSync : report.totalChanges = 0 ↔ report.inSync = true
  within : report.totalChanges ≤ report.statementsPlanned

section Report

variable {existing : Snapshot} {desired : DesiredSchema} {plan : Plan} {executed : Nat} {dryRun : Bool}

theorem Report.totalChanges_le : (Report.ofPlan plan executed dryRun).totalChanges ≤ plan.changes.steps.length := by
  have domainCreates := ChangeSet.objectsAffected_le plan.changes.domainCreates
  have domainAlters := ChangeSet.objectsAffected_le plan.changes.domainAlters
  have tableCreates := ChangeSet.objectsAffected_le plan.changes.tableCreates
  have columns := ChangeSet.objectsAffected_le (plan.changes.columnAdds ++ plan.changes.columnAlters)
  have procedures := ChangeSet.objectsAffected_le plan.changes.procedures
  rw [List.length_append] at columns
  simp only [totalChanges, ofPlan, ChangeSet.steps, List.length_append]
  omega

theorem Report.totalChanges_eq_zero_iff :
    (Report.ofPlan plan executed dryRun).totalChanges = 0 ↔ plan.changes.steps = [] := by
  simp only [totalChanges, ofPlan, ChangeSet.steps, Nat.add_eq_zero_iff, ChangeSet.objectsAffected_eq_zero_iff,
    List.append_eq_nil_iff, and_assoc]

/-- A report about a plan between two schemas counts what separates them. -/
theorem Report.tallies_ofPlan (distinct : existing.DistinctObjects) (asked : desired.snapshot.DistinctObjects)
    (changes : plan.changes = .between existing desired) :
    (Report.ofPlan plan executed dryRun).Tallies existing desired where
  domainsCreated := by
    rw [ofPlan, changes]
    exact ChangeSet.objectsAffected_domainCreates asked.domains
  domainsAltered := by
    rw [ofPlan, changes]
    exact ChangeSet.objectsAffected_domainAlters distinct.domains asked.domains
  tablesCreated := by
    rw [ofPlan, changes]
    exact ChangeSet.objectsAffected_tableCreates asked.tables
  tablesAltered := by
    rw [ofPlan, changes]
    exact ChangeSet.objectsAffected_columns distinct.tables asked.tables
  proceduresReplaced := by
    rw [ofPlan, changes]
    exact ChangeSet.objectsAffected_procedures asked.procedures
  statementsPlanned := by
    rw [ofPlan, changes]
    rfl
  inSync := by
    rw [totalChanges_eq_zero_iff, inSync, beq_iff_eq]
    exact List.length_eq_zero_iff.symm
  within := totalChanges_le

end Report

end SchemaSync
