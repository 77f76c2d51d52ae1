import SchemaSync.Proofs.Definitions.Provenance
import SchemaSync.Proofs.Plan.Convergence
import SchemaSync.Proofs.Plan.Need

/-! A plan serves every need of an existing schema, each by a step of its own, and does nothing else. -/

namespace SchemaSync

open Keyed

namespace Step

def key (step : Step) : NameKey :=
  .of step.objectName

def Concerns (step : Step) (kind : ObjectKind) (key : NameKey) : Prop :=
  step.category = kind.name ∧ step.key = key

end Step

namespace Need

def kind : Need → ObjectKind
  | domain _ | domainFacet _ _ _ => .domain
  | table _ | column _ _ _ | columnFacet _ _ _ _ _ => .table
  | procedure _ => .procedure

def key : Need → NameKey
  | domain d | domainFacet _ d _ => d.key
  | table t | column t _ _ | columnFacet t _ _ _ _ => t.key
  | procedure p => p.key

variable {existing : Snapshot} {desired : DesiredSchema} {need : Need}

theorem concerns_step {kind : ObjectKind} {key : NameKey} :
    (need.step desired).Concerns kind key ↔ need.kind = kind ∧ need.key = key := by
  have category : (need.step desired).category = need.kind.name := by cases need <;> rfl
  have object : (need.step desired).key = need.key := by cases need <;> rfl
  have named : need.kind.name = kind.name ↔ need.kind = kind := by cases need.kind <;> cases kind <;> decide
  rw [Step.Concerns, category, object, named]

theorem key_mem (arises : need.Arises existing desired.snapshot) :
    (need.kind, need.key) ∈ desired.snapshot.keys := by
  cases need with
  | domain d => simpa [Snapshot.keys, kind, key] using ⟨d, arises.1, rfl⟩
  | domainFacet e d facet => simpa [Snapshot.keys, kind, key] using ⟨d, arises.2.1, rfl⟩
  | table t => simpa [Snapshot.keys, kind, key] using ⟨t, arises.1, rfl⟩
  | column t u c => simpa [Snapshot.keys, kind, key] using ⟨u, arises.2.1, arises.2.2.1.symm⟩
  | columnFacet t u b a facet => simpa [Snapshot.keys, kind, key] using ⟨u, arises.2.1, arises.2.2.1.symm⟩
  | procedure p => simpa [Snapshot.keys, kind, key] using ⟨p, arises.1, rfl⟩

theorem detail_mem (distinct : Distinct Table.key desired.snapshot.tables)
    (arises : need.Arises existing desired.snapshot) {u : Table} (wanted : u ∈ desired.snapshot.tables)
    (concerns : (need.step desired).Concerns .table u.key) {name : String}
    (named : (need.step desired).detail = some name) : NameKey.of name ∈ u.columns.map Column.key := by
  obtain ⟨_, same⟩ := concerns_step.mp concerns
  have one {v : Table} (member : v ∈ desired.snapshot.tables) (equal : v.key = u.key) : v = u :=
    List.inj_on_of_nodup_map distinct member wanted equal
  cases need with
  | column t v c =>
    obtain ⟨_, member, matched, inside, _⟩ := arises
    obtain rfl := one member (matched.symm.trans same)
    cases named
    exact List.mem_map_of_mem inside
  | columnFacet t v b a facet =>
    obtain ⟨_, member, matched, _, inside, _⟩ := arises
    obtain rfl := one member (matched.symm.trans same)
    cases named
    exact List.mem_map_of_mem inside
  | _ => cases named

theorem absent_of_create (arises : need.Arises existing desired.snapshot)
    (creates : (need.step desired).action = "create") : (need.kind, need.key) ∉ existing.keys := by
  cases need with
  | domain d => simpa [Snapshot.keys, kind, key] using arises.2
  | table t => simpa [Snapshot.keys, kind, key] using arises.2
  | _ => simp [step, ChangeSet.replaceStep] at creates

end Need

namespace ChangeSet

variable {existing : Snapshot} {desired : DesiredSchema}

theorem domainCreates_serve (keyed : existing.WellKeyed) : (between existing desired).domainCreates =
    (Need.missingDomains existing desired.snapshot).map (Need.step desired) := by
  rw [Need.missingDomains, List.map_map, missing_eq]
  simp only [between, ofChanges, compareDomains, lastWith?_eq_get? keyed.domains]
  rfl

theorem domainAlters_serve (keyed : existing.WellKeyed) : (between existing desired).domainAlters =
    (Need.domainFacets existing desired.snapshot).map (Need.step desired) := by
  rw [domainAlters_eq keyed, ← flatMap_matched keyed.domains, Need.domainFacets, List.map_flatMap]
  apply List.flatMap_congr
  intro pair _
  rw [domainSteps, Domain.alterations_eq, Domain.clauses, Attributes.clauses_eq, List.map_map, List.map_map,
    List.map_map]
  rfl

theorem tableCreates_serve (keyed : existing.WellKeyed) : (between existing desired).tableCreates =
    (Need.missingTables existing desired.snapshot).map (Need.step desired) := by
  rw [Need.missingTables, List.map_map, missing_eq]
  simp only [between, ofChanges, compareTables, lastWith?_eq_get? keyed.tables]
  rfl

theorem columnAdds_serve (keyed : existing.WellKeyed) : (between existing desired).columnAdds =
    (Need.missingColumns existing desired.snapshot).map (Need.step desired) := by
  rw [columnAdds_eq keyed, ← flatMap_matched keyed.tables, Need.missingColumns, List.map_flatMap]
  apply List.flatMap_congr
  rintro ⟨t, u⟩ _
  dsimp only
  rw [missing_eq, List.map_map]
  rfl

theorem columnAlters_serve (keyed : existing.WellKeyed) : (between existing desired).columnAlters =
    (Need.columnFacets existing desired.snapshot).map (Need.step desired) := by
  rw [columnAlters_eq keyed, ← flatMap_matched keyed.tables, Need.columnFacets, List.map_flatMap]
  apply List.flatMap_congr
  rintro ⟨t, u⟩ member
  rw [List.map_flatMap]
  refine (flatMap_matched (keyed.columns t (mem_matched.mp member).1) _).symm.trans (List.flatMap_congr ?_)
  intro columns _
  rw [Column.alterations_eq, Column.clauses, Attributes.clauses_eq, List.map_map, List.map_map, List.map_map]
  rfl

theorem procedures_serve (keyed : existing.WellKeyed) : (between existing desired).procedures =
    (Need.changedProcedures existing desired.snapshot).map (Need.step desired) := by
  rw [Need.changedProcedures, List.map_map]
  refine congrArg (List.map _) (List.filter_congr ?_)
  intro p _
  have found : existing.procedure? p.name = get? Procedure.key p.key existing.procedures := rfl
  rw [Bool.eq_iff_iff, decide_eq_true_iff, found]
  constructor
  · intro changed e member same
    rw [← same, get?_of_mem keyed.procedures member, procedureChanged, bne_iff_ne] at changed
    exact changed
  · intro differs
    cases there : get? Procedure.key p.key existing.procedures with
    | none => rfl
    | some e => exact bne_iff_ne.mpr (differs e (mem_of_get? there) (key_of_get? there))

theorem steps_serve (keyed : existing.WellKeyed) : (between existing desired).steps =
    (Need.all existing desired.snapshot).map (Need.step desired) := by
  rw [steps, domainCreates_serve keyed, domainAlters_serve keyed, tableCreates_serve keyed, columnAdds_serve keyed,
    columnAlters_serve keyed, procedures_serve keyed]
  simp only [Need.all, List.map_append]

/-- A plan that serves every need once, and does nothing else. -/
structure Exact (existing : Snapshot) (desired : DesiredSchema) (changes : ChangeSet) : Prop where
  domainCreates : changes.domainCreates = (Need.missingDomains existing desired.snapshot).map (Need.step desired)
  domainAlters : changes.domainAlters = (Need.domainFacets existing desired.snapshot).map (Need.step desired)
  tableCreates : changes.tableCreates = (Need.missingTables existing desired.snapshot).map (Need.step desired)
  columnAdds : changes.columnAdds = (Need.missingColumns existing desired.snapshot).map (Need.step desired)
  columnAlters : changes.columnAlters = (Need.columnFacets existing desired.snapshot).map (Need.step desired)
  procedures : changes.procedures = (Need.changedProcedures existing desired.snapshot).map (Need.step desired)
  needs : ∀ need, need ∈ Need.all existing desired.snapshot ↔ need.Arises existing desired.snapshot
  once : (Need.all existing desired.snapshot).Nodup
  objects : ∀ kind key, (kind, key) ∉ desired.snapshot.keys → ∀ step ∈ changes.steps, ¬step.Concerns kind key
  columns : ∀ u ∈ desired.snapshot.tables, ∀ step ∈ changes.steps, step.Concerns .table u.key →
    ∀ name, step.detail = some name → NameKey.of name ∈ u.columns.map Column.key
  creates : ∀ kind key, (kind, key) ∈ existing.keys → ∀ step ∈ changes.steps, step.Concerns kind key →
    step.action ≠ "create"
  nothing : changes.steps = [] ↔ existing.Meets desired.snapshot

/-- A plan is complete and minimal. -/
theorem between_exact (keyed : existing.WellKeyed) (domains : Distinct Domain.key desired.snapshot.domains)
    (tables : Distinct Table.key desired.snapshot.tables)
    (procedures : Distinct Procedure.key desired.snapshot.procedures) :
    Exact existing desired (between existing desired) := by
  have serving : ∀ step ∈ (between existing desired).steps, ∃ need : Need,
      need.Arises existing desired.snapshot ∧ need.step desired = step := by
    intro step member
    rw [steps_serve keyed] at member
    obtain ⟨need, listed, served⟩ := List.mem_map.mp member
    exact ⟨need, Need.mem_all.mp listed, served⟩
  exact {
    domainCreates := domainCreates_serve keyed
    domainAlters := domainAlters_serve keyed
    tableCreates := tableCreates_serve keyed
    columnAdds := columnAdds_serve keyed
    columnAlters := columnAlters_serve keyed
    procedures := procedures_serve keyed
    needs := fun _ => Need.mem_all
    once := Need.nodup_all keyed domains.of_map tables.of_map procedures.of_map
    objects := by
      intro kind key absent step member concerns
      obtain ⟨need, arises, rfl⟩ := serving step member
      obtain ⟨rfl, rfl⟩ := Need.concerns_step.mp concerns
      exact absent (Need.key_mem arises)
    columns := by
      intro u wanted step member concerns name named
      obtain ⟨need, arises, rfl⟩ := serving step member
      exact Need.detail_mem tables arises wanted concerns named
    creates := by
      intro kind key there step member concerns create
      obtain ⟨need, arises, rfl⟩ := serving step member
      obtain ⟨rfl, rfl⟩ := Need.concerns_step.mp concerns
      exact Need.absent_of_create arises create there
    nothing := steps_eq_nil_iff keyed }

theorem between_exact_people : Exact peopleInstalled peopleWanted (between peopleInstalled peopleWanted) :=
  between_exact wellKeyed_peopleInstalled wellKeyed_peopleWanted.domains wellKeyed_peopleWanted.tables
    wellKeyed_peopleWanted.procedures

end ChangeSet

end SchemaSync
