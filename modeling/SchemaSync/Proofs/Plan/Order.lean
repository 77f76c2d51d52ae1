import Mathlib.Data.List.Perm.Lattice
import SchemaSync.Proofs.Plan.Minimal

/-! The order in which a database lists its objects does not matter to a plan, nor do the numbers of the columns.
The order of the desired objects only decides in which order the steps of different objects come. -/

namespace SchemaSync

open Keyed

namespace Keyed

variable {α β : Type} {keyOf : α → NameKey} {keyOf' : β → NameKey}

theorem get?_perm {before after : List α} (distinct : Distinct keyOf before) (perm : before.Perm after)
    (key : NameKey) : get? keyOf key after = get? keyOf key before := by
  have kept : Distinct keyOf after := (perm.map keyOf).nodup_iff.mp distinct
  apply Option.ext
  intro object
  rw [get?_eq_some_iff kept, get?_eq_some_iff distinct, perm.mem_iff]

/-- The same items, and those of any one key in the same order. -/
structure Reordered (keyOf : α → NameKey) (before after : List α) : Prop where
  perm : before.Perm after
  order : ∀ key, before.filter (fun item => keyOf item = key) = after.filter (fun item => keyOf item = key)

namespace Reordered

theorem of_distinct {before after : List α} (distinct : Distinct keyOf before) (perm : before.Perm after) :
    Reordered keyOf before after := by
  refine ⟨perm, ?_⟩
  intro key
  rw [filter_key distinct, filter_key ((perm.map keyOf).nodup_iff.mp distinct), get?_perm distinct perm]

variable {before after : List α}

theorem filter (same : Reordered keyOf before after) (p : α → Bool) :
    Reordered keyOf (before.filter p) (after.filter p) := by
  refine ⟨same.perm.filter p, ?_⟩
  intro key
  rw [List.filter_comm, same.order key, List.filter_comm]

theorem flatMap {parts : α → List β} (same : Reordered keyOf before after)
    (keyed : ∀ item, ∀ part ∈ parts item, keyOf' part = keyOf item) :
    Reordered keyOf' (before.flatMap parts) (after.flatMap parts) := by
  refine ⟨same.perm.flatMap_right parts, ?_⟩
  intro key
  have collect (items : List α) : (items.flatMap parts).filter (fun part => keyOf' part = key) =
      (items.filter (fun item => keyOf item = key)).flatMap parts := by
    induction items with
    | nil => rfl
    | cons item rest ih =>
      rw [List.flatMap_cons, List.filter_append, ih]
      by_cases here : keyOf item = key
      · rw [List.filter_cons, if_pos (decide_eq_true here), List.flatMap_cons, List.filter_eq_self.mpr]
        intro part member
        exact decide_eq_true ((keyed item part member).trans here)
      · rw [List.filter_cons, if_neg (mt of_decide_eq_true here), List.filter_eq_nil_iff.mpr, List.nil_append]
        intro part member there
        exact here ((keyed item part member).symm.trans (of_decide_eq_true there))
  rw [collect, same.order key, collect]

theorem filterMap {part? : α → Option β} (same : Reordered keyOf before after)
    (keyed : ∀ item part, part? item = some part → keyOf' part = keyOf item) :
    Reordered keyOf' (before.filterMap part?) (after.filterMap part?) := by
  rw [List.filterMap_eq_flatMap_toList, List.filterMap_eq_flatMap_toList]
  apply same.flatMap
  intro item part member
  exact keyed item part (Option.mem_toList.mp member)

theorem map {f : α → β} (same : Reordered keyOf before after) (keyed : ∀ item, keyOf' (f item) = keyOf item) :
    Reordered keyOf' (before.map f) (after.map f) := by
  rw [List.map_eq_flatMap, List.map_eq_flatMap]
  apply same.flatMap
  intro item part member
  rw [List.mem_singleton.mp member, keyed]

end Reordered

end Keyed

namespace Column

def unplaced (c : Column) : Column :=
  { c with position := 0 }

end Column

namespace Table

structure Renumbered (t u : Table) : Prop where
  name : u.name = t.name
  columns : (t.columns.map Column.unplaced).Perm (u.columns.map Column.unplaced)

variable {t u : Table}

theorem Renumbered.distinct (same : Renumbered t u) (distinct : Distinct Column.key t.columns) :
    Distinct Column.key u.columns := by
  have keys (columns : List Column) : columns.map Column.key = (columns.map Column.unplaced).map Column.key := by
    rw [List.map_map]
    rfl
  rw [Distinct, keys] at distinct ⊢
  exact (same.columns.map Column.key).nodup_iff.mp distinct

theorem Renumbered.get? (same : Renumbered t u) (distinct : Distinct Column.key t.columns) (key : NameKey) :
    (get? Column.key key u.columns).map Column.unplaced = (get? Column.key key t.columns).map Column.unplaced := by
  have keys (columns : List Column) : Keyed.get? Column.key key (columns.map Column.unplaced) =
      (Keyed.get? Column.key key columns).map Column.unplaced := by
    rw [Keyed.get?, List.find?_map]
    rfl
  have unplaced : Distinct Column.key (t.columns.map Column.unplaced) := by
    rw [Distinct, List.map_map]
    exact distinct
  rw [← keys, ← keys, get?_perm unplaced same.columns]

end Table

/-- A schema with the same objects in another order, and with other positions of the columns. -/
structure Snapshot.Rearranged (before after : Snapshot) : Prop where
  domains : before.domains.Perm after.domains
  tables : ∃ listed, before.tables.Perm listed ∧ List.Forall₂ Table.Renumbered listed after.tables
  procedures : before.procedures.Perm after.procedures

theorem compareDomains_perm {before after : List Domain} (distinct : Distinct Domain.key before)
    (perm : before.Perm after) (desired : List Domain) :
    compareDomains after desired = compareDomains before desired := by
  have kept : Distinct Domain.key after := (perm.map Domain.key).nodup_iff.mp distinct
  simp only [compareDomains, lastWith?_eq_get? kept, lastWith?_eq_get? distinct, get?_perm distinct perm]

/-- A comparison does not see where columns stand. -/
theorem compareColumns_unplaced (t desired : Table) : compareColumns t desired = {
    table := t.name
    toAdd := desired.columns.filter fun c =>
      ((lastWith? Column.key c.key t.columns).map Column.unplaced).isNone
    toAlter := desired.columns.filterMap fun c =>
      ((lastWith? Column.key c.key t.columns).map Column.unplaced).bind fun e =>
        if (e.alterations t.name c).isEmpty then none
        else some { name := c.name, statements := e.alterations t.name c } } := by
  simp only [Option.isNone_map, Option.bind_map]
  rfl

theorem compareColumns_renumbered {t u : Table} (same : t.Renumbered u) (distinct : Distinct Column.key t.columns)
    (desired : Table) : compareColumns u desired = compareColumns t desired := by
  have found (key : NameKey) : (lastWith? Column.key key u.columns).map Column.unplaced =
      (lastWith? Column.key key t.columns).map Column.unplaced := by
    rw [lastWith?_eq_get? (same.distinct distinct), lastWith?_eq_get? distinct, same.get? distinct]
  simp only [compareColumns_unplaced, found, same.name]

/-- A comparison sees a table only through its columns being compared. -/
theorem compareTables_compared (existing desired : List Table) : compareTables existing desired = {
    toCreate := desired.filter fun u => ((lastWith? Table.key u.key existing).map (compareColumns · u)).isNone
    toAlter := desired.filterMap fun u => ((lastWith? Table.key u.key existing).map (compareColumns · u)).bind
      fun changes => if changes.hasChanges then some changes else none } := by
  simp only [Option.isNone_map, Option.bind_map]
  rfl

theorem compareTables_renumbered {before after : List Table} (distinct : Distinct Table.key before)
    (columns : ∀ t ∈ before, Distinct Column.key t.columns) (same : List.Forall₂ Table.Renumbered before after)
    (desired : List Table) : compareTables after desired = compareTables before desired := by
  have keys : before.map Table.key = after.map Table.key := by
    clear distinct columns
    induction same with
    | nil => rfl
    | cons first _ ih => rw [List.map_cons, List.map_cons, ih, Table.key, Table.key, first.name]
  have found (u : Table) : (get? Table.key u.key after).map (compareColumns · u) =
      (get? Table.key u.key before).map (compareColumns · u) := by
    clear distinct keys
    induction same with
    | nil => rfl
    | @cons t renumbered _ _ first _ ih =>
      have key : renumbered.key = t.key := congrArg NameKey.of first.name
      rw [get?_cons, get?_cons, key]
      split
      · exact congrArg some (compareColumns_renumbered first (columns t (by simp)) u)
      · exact ih fun t member => columns t (by simp [member])
  have kept : Distinct Table.key after := by rwa [Distinct, ← keys]
  simp only [compareTables_compared, lastWith?_eq_get? kept, lastWith?_eq_get? distinct, found]

theorem compareTables_perm {before after : List Table} (distinct : Distinct Table.key before)
    (perm : before.Perm after) (desired : List Table) : compareTables after desired = compareTables before desired := by
  have kept : Distinct Table.key after := (perm.map Table.key).nodup_iff.mp distinct
  simp only [compareTables, lastWith?_eq_get? kept, lastWith?_eq_get? distinct, get?_perm distinct perm]

namespace DesiredSchema

/-- The same objects from the same scripts, in another order. -/
structure Permuted (before after : DesiredSchema) : Prop where
  domains : before.snapshot.domains.Perm after.snapshot.domains
  tables : before.snapshot.tables.Perm after.snapshot.tables
  procedures : before.snapshot.procedures.Perm after.snapshot.procedures
  scripts : ∀ kind name, after.scriptFor kind name = before.scriptFor kind name

end DesiredSchema

namespace ChangeSet

structure Reordered (before after : ChangeSet) : Prop where
  domainCreates : Keyed.Reordered Step.key before.domainCreates after.domainCreates
  domainAlters : Keyed.Reordered Step.key before.domainAlters after.domainAlters
  tableCreates : Keyed.Reordered Step.key before.tableCreates after.tableCreates
  columnAdds : Keyed.Reordered Step.key before.columnAdds after.columnAdds
  columnAlters : Keyed.Reordered Step.key before.columnAlters after.columnAlters
  procedures : Keyed.Reordered Step.key before.procedures after.procedures

theorem between_rearranged {existing listed : Snapshot} (keyed : existing.WellKeyed)
    (arranged : existing.Rearranged listed) (desired : DesiredSchema) :
    between listed desired = between existing desired := by
  obtain ⟨tables, perm, renumbered⟩ := arranged.tables
  have distinct : Distinct Table.key tables := (perm.map Table.key).nodup_iff.mp keyed.tables
  have columns : ∀ t ∈ tables, Distinct Column.key t.columns := by
    intro t member
    exact keyed.columns t (perm.mem_iff.mpr member)
  have procedure (name : String) : listed.procedure? name = existing.procedure? name :=
    get?_perm keyed.procedures arranged.procedures (.of name)
  rw [between, between, compareDomains_perm keyed.domains arranged.domains,
    compareTables_renumbered distinct columns renumbered, compareTables_perm keyed.tables perm]
  simp only [ofChanges, procedure]

section Desired

variable (existing : Snapshot) {before after : DesiredSchema}

theorem domainSteps_reordered (distinct : Distinct Domain.key before.snapshot.domains)
    (perm : before.snapshot.domains.Perm after.snapshot.domains)
    (scripts : ∀ name, createStep after .domain name = createStep before .domain name) :
    Keyed.Reordered Step.key (between existing before).domainCreates (between existing after).domainCreates ∧
      Keyed.Reordered Step.key (between existing before).domainAlters (between existing after).domainAlters := by
  have same := Keyed.Reordered.of_distinct distinct perm
  have altered : Keyed.Reordered (NameKey.of ∘ AlterPlan.name)
      (compareDomains existing.domains before.snapshot.domains).toAlter
      (compareDomains existing.domains after.snapshot.domains).toAlter := by
    apply same.filterMap
    intro d plan found
    obtain ⟨e, _, planned⟩ := Option.bind_eq_some_iff.mp found
    dsimp only at planned
    split at planned
    · cases planned
    · cases planned
      rfl
  simp only [between, ofChanges, scripts]
  refine ⟨(same.filter _).map fun _ => rfl, altered.flatMap ?_⟩
  intro plan step member
  obtain ⟨statement, _, rfl⟩ := List.mem_map.mp member
  rfl

theorem tableSteps_reordered (distinct : Distinct Table.key before.snapshot.tables)
    (perm : before.snapshot.tables.Perm after.snapshot.tables)
    (scripts : ∀ name, createStep after .table name = createStep before .table name) :
    Keyed.Reordered Step.key (between existing before).tableCreates (between existing after).tableCreates ∧
      Keyed.Reordered Step.key (between existing before).columnAdds (between existing after).columnAdds ∧
      Keyed.Reordered Step.key (between existing before).columnAlters (between existing after).columnAlters := by
  have same := Keyed.Reordered.of_distinct distinct perm
  have altered : Keyed.Reordered (NameKey.of ∘ ColumnChanges.table)
      (compareTables existing.tables before.snapshot.tables).toAlter
      (compareTables existing.tables after.snapshot.tables).toAlter := by
    apply same.filterMap
    intro u changes found
    obtain ⟨t, there, changed⟩ := Option.bind_eq_some_iff.mp found
    have key : t.key = u.key := by simpa using List.find?_some there
    dsimp only at changed
    split at changed
    · cases changed
      exact key
    · cases changed
  simp only [between, ofChanges, scripts]
  refine ⟨(same.filter _).map fun _ => rfl, altered.flatMap ?_, altered.flatMap ?_⟩
  · intro changes step member
    obtain ⟨column, _, rfl⟩ := List.mem_map.mp member
    rfl
  · intro changes step member
    obtain ⟨plan, _, member⟩ := List.mem_flatMap.mp member
    obtain ⟨statement, _, rfl⟩ := List.mem_map.mp member
    rfl

theorem procedureSteps_reordered (distinct : Distinct Procedure.key before.snapshot.procedures)
    (perm : before.snapshot.procedures.Perm after.snapshot.procedures)
    (scripts : ∀ name, replaceStep after name = replaceStep before name) :
    Keyed.Reordered Step.key (between existing before).procedures (between existing after).procedures := by
  have same := Keyed.Reordered.of_distinct distinct perm
  simp only [between, ofChanges, scripts]
  exact (same.filter _).map fun _ => rfl

end Desired

/-- The order of objects does not matter. An existing schema in another arrangement gives the same plan, and a desired
one in another order gives the same steps, with those for one object in the same order. -/
theorem between_order (existing listed : Snapshot) (before after : DesiredSchema) :
    (existing.WellKeyed → existing.Rearranged listed → between listed before = between existing before) ∧
    (before.Permuted after → Distinct Domain.key before.snapshot.domains →
      Distinct Table.key before.snapshot.tables → Distinct Procedure.key before.snapshot.procedures →
      (between existing before).Reordered (between existing after)) := by
  refine ⟨fun keyed arranged => between_rearranged keyed arranged before, ?_⟩
  intro permuted domains tables procedures
  have creates (kind : ObjectKind) (name : String) : createStep after kind name = createStep before kind name := by
    rw [createStep, createStep, permuted.scripts]
  have replaces (name : String) : replaceStep after name = replaceStep before name := by
    rw [replaceStep, replaceStep, permuted.scripts]
  obtain ⟨domainCreates, domainAlters⟩ := domainSteps_reordered existing domains permuted.domains (creates .domain)
  obtain ⟨tableCreates, columnAdds, columnAlters⟩ :=
    tableSteps_reordered existing tables permuted.tables (creates .table)
  exact ⟨domainCreates, domainAlters, tableCreates, columnAdds, columnAlters,
    procedureSteps_reordered existing procedures permuted.procedures replaces⟩

/-- A schema with two domains and a table of two columns. -/
def contacts (first second : Domain) (name phone : Column) (ordered : name.position < phone.position) :
    Snapshot where
  domains := [first, second]
  tables := [{ name := "CONTACT", columns := [name, phone], named := by decide, nonempty := List.cons_ne_nil _ _
               ascending := .cons (by simpa using ordered) (List.pairwise_singleton _ _) }]
  procedures := []

theorem between_order_contacts :
    let email : Domain := ⟨"EMAIL", "VARCHAR(10)", none, none, none, true, none, by decide⟩
    let phone : Domain := ⟨"PHONE", "VARCHAR(10)", none, none, none, true, none, by decide⟩
    let column (name : String) (position : Int) (named : Text.isBlankText name = false) : Column :=
      ⟨name, position, none, some "INTEGER", true, none, named, by decide⟩
    let existing := contacts email phone (column "ID" 0 (by decide)) (column "AGE" 1 (by decide)) (by decide)
    let listed := contacts phone email (column "AGE" 3 (by decide)) (column "ID" 7 (by decide)) (by decide)
    let wide (d : Domain) : Domain := { d with dataType := "VARCHAR(20)" }
    let before : DesiredSchema := ⟨{ existing with domains := [wide email, wide phone] }, [], []⟩
    let after : DesiredSchema := ⟨{ existing with domains := [wide phone, wide email] }, [], []⟩
    between listed before = between existing before ∧
      (between existing before).Reordered (between existing after) := by
  intro email phone column existing listed wide before after
  have keyed : existing.WellKeyed := ⟨by decide, by decide, by decide, .nil⟩
  have arranged : existing.Rearranged listed :=
    ⟨.swap _ _ _, ⟨existing.tables, .refl _, .cons ⟨rfl, .swap _ _ _⟩ .nil⟩, .nil⟩
  have permuted : before.Permuted after := ⟨.swap _ _ _, .refl _, .nil, fun _ _ => rfl⟩
  obtain ⟨same, reordered⟩ := between_order existing listed before after
  exact ⟨same keyed arranged, reordered permuted (by decide) (by decide) .nil⟩

end ChangeSet

end SchemaSync
