import SchemaSync.Proofs.Plan.Agreement

/-! The steps from an existing schema to a desired one can all be carried out, group by group. Each
group finds the objects as the groups before it have left them. -/

namespace SchemaSync

open Keyed

/-- A column is like a new one, at whatever position. -/
def Column.Placed (wanted c : Column) : Prop :=
  c = { wanted with position := c.position }

structure Table.Grown (existing desired t : Table) : Prop where
  name : t.name = existing.name
  columns : Merged Column.key (fun before _ after => after = before) Column.Placed existing.columns
    desired.columns t.columns

structure Table.Carried (existing desired t : Table) : Prop where
  name : t.name = existing.name
  columns : Merged Column.key Column.Altered Column.Placed existing.columns desired.columns t.columns

namespace Snapshot

variable {desired : Snapshot}

theorem carryOut?_append (first second : List Step) (s : Snapshot) :
    desired.carryOut? (first ++ second) s =
      (desired.carryOut? first s).bind (desired.carryOut? second) :=
  List.foldlM_append

theorem carryOut?_flatMap {δ : Type} (steps : δ → List Step) (items : List δ) (s : Snapshot) :
    desired.carryOut? (items.flatMap steps) s =
      items.foldlM (fun s item => desired.carryOut? (steps item) s) s :=
  foldlM_flatMap _ steps items s

end Snapshot

namespace ChangeSet

variable {existing : Snapshot} {desired : DesiredSchema}

section Domains

theorem carryOut_domainCreates (keyed : existing.WellKeyed) (asked : desired.snapshot.WellKeyed) :
    ∃ domains, desired.snapshot.carryOut? (between existing desired).domainCreates existing =
        some { existing with domains } ∧
      Merged Domain.key (fun before _ after => after = before) (fun wanted d => d = wanted)
        existing.domains desired.snapshot.domains domains := by
  obtain ⟨finish, ran, same, merged⟩ := addMissing
    (fun wanted d => d = wanted)
    (fun d s => Step.effect? desired.snapshot (createStep desired .domain d.name) s)
    Snapshot.domains (fun s => s = { existing with domains := s.domains })
    asked.domains rfl keyed.domains (by
      intro d member s same distinct absent
      obtain ⟨after, added, updated⟩ := add?_updates distinct _ absent
      refine ⟨{ s with domains := after }, d, ?_, by rw [same], rfl, rfl, updated⟩
      rw [Step.effect?_createDomain, show NameKey.of d.name = d.key from rfl,
        get?_of_mem asked.domains member, Option.bind_some, added, Option.map_some])
  refine ⟨finish.domains, ?_, merged⟩
  rw [← same, ← ran]
  simp only [Snapshot.carryOut?, between, ofChanges, compareDomains, List.foldlM_map,
    lastWith?_eq_get? keyed.domains]

private theorem carryOut_domainSteps (desired : DesiredSchema) {s : Snapshot} (distinct : Distinct Domain.key s.domains)
    {e d : Domain} (found : get? Domain.key d.key s.domains = some e) :
    ∃ after, desired.snapshot.carryOut? (domainSteps e d) s = some { s with domains := after } ∧
      Updated Domain.key (e.altered d) s.domains after := by
  obtain ⟨finish, ran, same, updated⟩ := foldlM_updates Domain.key_alter?
    (fun sql s => Step.effect? desired.snapshot
      { category := ObjectKind.domain.name, action := "alter", objectName := d.name, sql } s)
    Snapshot.domains (fun after => after = { s with domains := after.domains })
    (by
      intro statement _ state object changed same distinct found result
      obtain ⟨after, modified, updated⟩ := modify?_updates distinct found result
        ((Domain.key_alter? _ _ _ result).trans (key_of_get? found))
      refine ⟨{ state with domains := after }, ?_, by rw [same], updated⟩
      rw [Step.effect?_alterDomain, show NameKey.of d.name = d.key from rfl, modified,
        Option.map_some])
    rfl distinct found (e.alterations_succeed d)
  refine ⟨finish.domains, ?_, updated⟩
  rw [← same, ← ran, domainSteps, Snapshot.carryOut?, List.foldlM_map]

theorem carryOut_domainAlters (keyed : existing.WellKeyed) (asked : desired.snapshot.WellKeyed)
    {domains : List Domain}
    (merged : Merged Domain.key (fun before _ after => after = before) (fun wanted d => d = wanted)
      existing.domains desired.snapshot.domains domains) :
    ∃ after, desired.snapshot.carryOut? (between existing desired).domainAlters
        { existing with domains } = some { existing with domains := after } ∧
      Merged Domain.key (fun before wanted d => d = before.altered wanted) (fun wanted d => d = wanted)
        existing.domains desired.snapshot.domains after := by
  obtain ⟨finish, ran, same, altered⟩ := alterMatched
    (fun before wanted d => d = before.altered wanted)
    (fun d s => desired.snapshot.carryOut? (stepsFor Domain.key existing.domains domainSteps d) s)
    Snapshot.domains (fun s => s = { existing with domains := s.domains })
    asked.domains { existing with domains } rfl merged
    (by
      intro d member absent s
      rw [stepsFor, absent]
      rfl)
    (by
      intro d member e there s x same distinct (kept : x = e) found
      subst kept
      obtain ⟨after, ran, updated⟩ := carryOut_domainSteps desired distinct found
      refine ⟨{ s with domains := after }, x.altered d, ?_, by rw [same], rfl, ?_, updated⟩
      · rw [stepsFor, there, Option.elim_some, ran]
      · exact (Domain.key_altered x d).trans (key_of_get? found))
  refine ⟨finish.domains, ?_, altered⟩
  rw [← same, ← ran, domainAlters_eq keyed, Snapshot.carryOut?_flatMap]

end Domains

section Tables

theorem carryOut_tableCreates (keyed : existing.WellKeyed) (asked : desired.snapshot.WellKeyed)
    {s : Snapshot} (unchanged : s.tables = existing.tables) :
    ∃ tables, desired.snapshot.carryOut? (between existing desired).tableCreates s =
        some { s with tables } ∧
      Merged Table.key (fun before _ after => after = before) (fun wanted t => t = wanted)
        existing.tables desired.snapshot.tables tables := by
  obtain ⟨finish, ran, same, merged⟩ := addMissing
    (fun wanted t => t = wanted)
    (fun t s => Step.effect? desired.snapshot (createStep desired .table t.name) s)
    Snapshot.tables (fun finish => finish = { s with tables := finish.tables }) asked.tables rfl
    (unchanged ▸ keyed.tables) (by
      intro t member s same distinct absent
      obtain ⟨after, added, updated⟩ := add?_updates distinct _ absent
      refine ⟨{ s with tables := after }, t, ?_, by rw [same], rfl, rfl, updated⟩
      rw [Step.effect?_createTable, show NameKey.of t.name = t.key from rfl,
        get?_of_mem asked.tables member, Option.bind_some, added, Option.map_some])
  refine ⟨finish.tables, ?_, unchanged ▸ merged⟩
  rw [← same, ← ran, unchanged]
  simp only [Snapshot.carryOut?, between, ofChanges, compareTables, List.foldlM_map,
    lastWith?_eq_get? keyed.tables]

private def OnTable (desired : Snapshot) (key : NameKey) (change : Step → Table → Option Table)
    (step : Step) : Prop :=
  ∀ s, Step.effect? desired step s =
    (modify? Table.key key (change step) s.tables).map fun tables => { s with tables }

private theorem carryOut_table {desired : Snapshot} {key : NameKey}
    {change : Step → Table → Option Table}
    (keeps : ∀ step t after, change step t = some after → after.key = t.key) {steps : List Step}
    (effects : ∀ step ∈ steps, OnTable desired key change step) {s : Snapshot}
    (distinct : Distinct Table.key s.tables) {t changed : Table}
    (found : get? Table.key key s.tables = some t)
    (ran : steps.foldlM (fun t step => change step t) t = some changed) :
    ∃ after, desired.carryOut? steps s = some { s with tables := after } ∧
      Updated Table.key changed s.tables after := by
  obtain ⟨finish, ran, same, updated⟩ := foldlM_updates keeps
    (fun step s => Step.effect? desired step s)
    Snapshot.tables (fun after => after = { s with tables := after.tables })
    (by
      intro step member state object changed same distinct found result
      obtain ⟨after, modified, updated⟩ := modify?_updates distinct found result
        ((keeps _ _ _ result).trans (key_of_get? found))
      refine ⟨{ state with tables := after }, ?_, by rw [same], updated⟩
      rw [effects step member, modified, Option.map_some])
    rfl distinct found ran
  refine ⟨finish.tables, ?_, updated⟩
  rw [← same, ← ran, Snapshot.carryOut?]

/-- Steps that change each table which exists change all of them. -/
private theorem carryOut_tables {desired : Snapshot} {tables : List Table}
    {steps : Table → Table → List Step} (change : Step → Table → Option Table)
    (keeps : ∀ step t after, change step t = some after → after.key = t.key)
    (asked : Distinct Table.key desired.tables) {old new : Table → Table → Table → Prop}
    {like : Table → Table → Prop} {s : Snapshot}
    (merged : Merged Table.key old like tables desired.tables s.tables)
    (effects : ∀ u ∈ desired.tables, ∀ t, get? Table.key u.key tables = some t →
      ∀ step ∈ steps t u, OnTable desired u.key change step)
    (succeed : ∀ u ∈ desired.tables, ∀ t, get? Table.key u.key tables = some t → ∀ x, old t u x →
      ∃ changed, (steps t u).foldlM (fun x step => change step x) x = some changed ∧
        new t u changed) :
    ∃ after, desired.carryOut? (desired.tables.flatMap (stepsFor Table.key tables steps)) s =
        some { s with tables := after } ∧
      Merged Table.key new like tables desired.tables after := by
  obtain ⟨finish, ran, same, altered⟩ := alterMatched
    new (fun u s => desired.carryOut? (stepsFor Table.key tables steps u) s)
    Snapshot.tables (fun finish => finish = { s with tables := finish.tables }) asked s rfl merged
    (by
      intro u member absent s
      rw [stepsFor, absent]
      rfl)
    (by
      intro u member t there s x same distinct before found
      obtain ⟨changed, ran, achieved⟩ := succeed u member t there x before
      obtain ⟨after, carried, updated⟩ :=
        carryOut_table keeps (effects u member t there) distinct found ran
      refine ⟨{ s with tables := after }, changed, ?_, by rw [same], achieved, ?_, updated⟩
      · rw [stepsFor, there, Option.elim_some, carried]
      · exact (key_foldlM keeps ran).trans (key_of_get? found))
  refine ⟨finish.tables, ?_, altered⟩
  rw [← same, ← ran, Snapshot.carryOut?_flatMap]

/-- The steps that add the columns which a table lacks make it grow. -/
private theorem addSteps_succeed {desired : List Table} (asked : Distinct Table.key desired) {t u : Table}
    (keyed : Distinct Column.key t.columns) (columns : Distinct Column.key u.columns)
    (member : u ∈ desired) (same : t.key = u.key) :
    ∃ grown, ((missingColumns t u).map (addStep t)).foldlM
        (fun x step => step.addTo? desired (step.detail.getD "") x) t = some grown ∧
      t.Grown u grown := by
  obtain ⟨finish, ran, name, merged⟩ := addMissing
    Column.Placed (fun c x => (addStep t c).addTo? desired c.name x) Table.columns
    (fun x => x.name = t.name) columns rfl keyed (by
      intro c inside x name distinct absent
      obtain ⟨after, added, kept, updated⟩ := Table.addColumn?_updates distinct absent
      refine ⟨after, { c with position := x.nextPosition }, ?_, kept.trans name, rfl, rfl, updated⟩
      have table : get? Table.key (.of (addStep t c).objectName) desired = some u :=
        (congrArg (get? Table.key · desired) same).trans (get?_of_mem asked member)
      have column : get? Column.key (.of c.name) u.columns = some c := get?_of_mem columns inside
      have sql : (addStep t c).sql = ColumnChanges.addStatement (addStep t c).objectName c := rfl
      rw [Step.addTo?, table, Option.bind_eq_bind, Option.bind_some, column, Option.bind_eq_bind,
        Option.bind_some, if_pos sql, added])
  refine ⟨finish, ?_, name, merged⟩
  rw [List.foldlM_map, ← ran]
  rfl

private theorem alterSteps_succeed {t u x : Table} (columns : Distinct Column.key u.columns)
    (grown : t.Grown u x) :
    ∃ carried, (u.columns.flatMap (columnSteps t)).foldlM
        (fun x step => step.alterIn? (step.detail.getD "") x) x = some carried ∧
      t.Carried u carried := by
  obtain ⟨finish, ran, name, merged⟩ := alterMatched
    Column.Altered
    (fun c x => (columnSteps t c).foldlM (fun x step => step.alterIn? (step.detail.getD "") x) x)
    Table.columns (fun x => x.name = t.name) columns x grown.name grown.columns
    (by
      intro c inside absent x
      rw [columnSteps, absent]
      rfl)
    (by
      intro c inside e there x before name distinct (kept : before = e) found
      subst kept
      obtain ⟨changed, result, altered⟩ := Column.alterations_succeed t.name before c
      -- The clauses for one column change it step by step, and leave the other columns alone.
      obtain ⟨after, ran, kept, updated⟩ := foldlM_updates (Column.key_alter? _)
        (fun statement x => (alterStep t c statement).alterIn? c.name x)
        Table.columns (fun x => x.name = t.name)
        (by
          intro statement _ x e changed name distinct found result
          obtain ⟨after, modified, kept, updated⟩ := Table.modifyColumn?_updates distinct
            (fun _ _ => Column.position_alter?) found result
            ((Column.key_alter? _ _ _ _ result).trans (key_of_get? found))
          exact ⟨after, modified, kept.trans name, updated⟩)
        name distinct found result
      refine ⟨after, changed, ?_, kept, altered, ?_, updated⟩
      · rw [columnSteps, there, Option.elim_some, List.foldlM_map]
        exact ran
      · have key : changed.key = before.key := congrArg NameKey.of altered.name
        exact key.trans (key_of_get? found))
  refine ⟨finish, ?_, name, merged⟩
  rw [foldlM_flatMap, ran]

theorem carryOut_columnAdds (keyed : existing.WellKeyed) (asked : desired.snapshot.WellKeyed)
    {s : Snapshot} (merged : Merged Table.key (fun before _ after => after = before)
      (fun wanted t => t = wanted) existing.tables desired.snapshot.tables s.tables) :
    ∃ tables, desired.snapshot.carryOut? (between existing desired).columnAdds s =
        some { s with tables } ∧
      Merged Table.key Table.Grown (fun wanted t => t = wanted) existing.tables
        desired.snapshot.tables tables := by
  rw [columnAdds_eq keyed]
  refine carryOut_tables
    (fun step t => step.addTo? desired.snapshot.tables (step.detail.getD "") t)
    (fun _ _ _ result => congrArg NameKey.of (Step.name_addTo? result)) asked.tables merged ?_ ?_
  · intro u _ t there step member s
    obtain ⟨c, _, rfl⟩ := List.mem_map.mp member
    rw [Step.effect?_addColumn _ _ (addStep t c) c.name rfl, ← key_of_get? there]
    rfl
  · intro u member t there x (kept : x = t)
    subst kept
    exact addSteps_succeed asked.tables (keyed.columns x (mem_of_get? there))
      (asked.columns u member) member (key_of_get? there)

theorem carryOut_columnAlters (keyed : existing.WellKeyed) (asked : desired.snapshot.WellKeyed)
    {s : Snapshot} (merged : Merged Table.key Table.Grown (fun wanted t => t = wanted)
      existing.tables desired.snapshot.tables s.tables) :
    ∃ tables, desired.snapshot.carryOut? (between existing desired).columnAlters s =
        some { s with tables } ∧
      Merged Table.key Table.Carried (fun wanted t => t = wanted) existing.tables
        desired.snapshot.tables tables := by
  rw [columnAlters_eq keyed]
  refine carryOut_tables (fun step t => step.alterIn? (step.detail.getD "") t)
    (fun _ _ _ result => congrArg NameKey.of (Step.name_alterIn? result)) asked.tables merged ?_ ?_
  · intro u _ t there step member s
    obtain ⟨c, _, member⟩ := List.mem_flatMap.mp member
    obtain ⟨statement, rfl⟩ : ∃ statement, step = alterStep t c statement := by
      rw [columnSteps] at member
      cases found : get? Column.key c.key t.columns with
      | none => simp [found] at member
      | some e =>
        rw [found, Option.elim_some] at member
        obtain ⟨statement, _, same⟩ := List.mem_map.mp member
        exact ⟨statement, same.symm⟩
    rw [Step.effect?_alterColumn _ _ (alterStep t c statement) c.name rfl, ← key_of_get? there]
    rfl
  · exact fun u member t _ x grown => alterSteps_succeed (asked.columns u member) grown

end Tables

/-- Procedures that differ from the wanted ones have been replaced. -/
structure Replaced (before wanted after : List Procedure) : Prop where
  distinct : Distinct Procedure.key after
  changed : ∀ p ∈ wanted, procedureChanged (get? Procedure.key p.key before) p = true →
    get? Procedure.key p.key after = some p
  unchanged : ∀ key, (∀ p ∈ wanted, p.key = key →
      procedureChanged (get? Procedure.key key before) p = false) →
    get? Procedure.key key after = get? Procedure.key key before

theorem carryOut_procedures (keyed : existing.WellKeyed) (asked : desired.snapshot.WellKeyed)
    {s : Snapshot} (unchanged : s.procedures = existing.procedures) :
    ∃ procedures, desired.snapshot.carryOut? (between existing desired).procedures s =
        some { s with procedures } ∧
      Replaced existing.procedures desired.snapshot.procedures procedures := by
  let differing := desired.snapshot.procedures.filter fun p =>
    procedureChanged (get? Procedure.key p.key existing.procedures) p
  obtain ⟨finish, ran, ⟨same, distinct⟩, untouched, achieved⟩ := pass
    (fun p s => Step.effect? desired.snapshot (replaceStep desired p.name) s)
    (fun key s => get? Procedure.key key s.procedures)
    (fun finish => finish = { s with procedures := finish.procedures } ∧
      Distinct Procedure.key finish.procedures)
    (fun p found => found = some p)
    (List.Nodup.sublist (List.Sublist.map _ List.filter_sublist) asked.procedures : Distinct _ differing)
    ⟨rfl, unchanged ▸ keyed.procedures⟩ (by
      intro p member s ⟨same, distinct⟩ _
      have updated := store_updates distinct p
      refine ⟨{ s with procedures := store Procedure.key p s.procedures }, ?_,
        ⟨by rw [same], updated.distinct⟩, ?_, ?_⟩
      · have wanted := get?_of_mem asked.procedures (List.mem_filter.mp member).1
        rw [Step.effect?_replaceProcedure, show NameKey.of p.name = p.key from rfl, wanted,
          Option.map_some]
      · exact fun key different => (updated.get key).trans (if_neg different)
      · exact (updated.get p.key).trans (if_pos rfl))
  refine ⟨finish.procedures, ?_, distinct, ?_, ?_⟩
  · rw [← same, ← ran, between, ofChanges, Snapshot.carryOut?, List.foldlM_map]
    rfl
  · exact fun p member differs => achieved p (List.mem_filter.mpr ⟨member, differs⟩)
  · intro key agrees
    refine (untouched key fun found => ?_).trans (congrArg _ unchanged)
    obtain ⟨p, member, rfl⟩ := List.mem_map.mp found
    obtain ⟨wanted, differs⟩ := List.mem_filter.mp member
    exact Bool.false_ne_true ((agrees p wanted rfl).symm.trans differs)

structure CarriedOut (existing desired s : Snapshot) : Prop where
  domains : Merged Domain.key (fun before wanted d => d = before.altered wanted)
    (fun wanted d => d = wanted) existing.domains desired.domains s.domains
  tables : Merged Table.key Table.Carried (fun wanted t => t = wanted) existing.tables
    desired.tables s.tables
  procedures : Replaced existing.procedures desired.procedures s.procedures

/-- All steps can be carried out, in their order. -/
theorem carryOut_steps (keyed : existing.WellKeyed) (asked : desired.snapshot.WellKeyed) :
    ∃ s, desired.snapshot.carryOut? (between existing desired).steps existing = some s ∧
      CarriedOut existing desired.snapshot s := by
  obtain ⟨created, ran₁, domains₁⟩ := carryOut_domainCreates keyed asked
  obtain ⟨domains, ran₂, domains₂⟩ := carryOut_domainAlters keyed asked domains₁
  obtain ⟨whole, ran₃, tables₁⟩ := carryOut_tableCreates keyed asked
    (s := { existing with domains }) rfl
  obtain ⟨grown, ran₄, tables₂⟩ := carryOut_columnAdds keyed asked
    (s := { existing with domains, tables := whole }) tables₁
  obtain ⟨tables, ran₅, tables₃⟩ := carryOut_columnAlters keyed asked
    (s := { existing with domains, tables := grown }) tables₂
  obtain ⟨procedures, ran₆, replaced⟩ := carryOut_procedures keyed asked
    (s := { existing with domains, tables }) rfl
  refine ⟨{ domains, tables, procedures }, ?_, domains₂, tables₃, replaced⟩
  simp only [steps, Snapshot.carryOut?_append, ran₁, ran₂, ran₃, ran₄, ran₅, ran₆, Option.bind_some]

end ChangeSet

end SchemaSync
