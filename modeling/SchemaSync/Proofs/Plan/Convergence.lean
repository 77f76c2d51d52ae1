import SchemaSync.Proofs.Plan.CarryOut

/-! The steps from an existing schema to a desired one converge: what they make of the existing schema
differs from the desired one in nothing, and they touch nothing else. -/

namespace SchemaSync

open Keyed

/-- Objects and columns that are not desired, or agree with the desired ones already, are there as
they were. -/
structure Snapshot.Keeps (existing desired s : Snapshot) : Prop where
  domains : ∀ d ∈ existing.domains, (∀ wanted ∈ desired.domains, wanted.key = d.key →
    d.attributes.Agree true wanted.attributes) → d ∈ s.domains
  tables : ∀ t ∈ existing.tables, (∀ wanted ∈ desired.tables, wanted.key ≠ t.key) → t ∈ s.tables
  columns : ∀ t ∈ existing.tables, ∃ x ∈ s.tables, x.name = t.name ∧ ∀ c ∈ t.columns,
    (∀ u ∈ desired.tables, u.key = t.key → ∀ wanted ∈ u.columns, wanted.key = c.key →
      c.attributes.Agree (c.typesCount wanted) wanted.attributes) → c ∈ x.columns
  procedures : ∀ p ∈ existing.procedures, (∀ wanted ∈ desired.procedures, wanted.key = p.key →
    normalizeSource p.sourceCode = normalizeSource wanted.sourceCode) → p ∈ s.procedures

namespace Keyed

variable {α : Type} {keyOf : α → NameKey} {altered : α → α → α → Prop} {like : α → α → Prop}
  {before wanted after : List α}

theorem Merged.of_wanted (merged : Merged keyOf altered like before wanted after)
    (distinct : Distinct keyOf wanted) {desired : α} (member : desired ∈ wanted) :
    ∃ x, get? keyOf (keyOf desired) after = some x ∧
      ((∃ existing, get? keyOf (keyOf desired) before = some existing ∧ altered existing desired x) ∨
        like desired x) := by
  have asked := get?_of_mem distinct member
  cases there : get? keyOf (keyOf desired) before with
  | none =>
    obtain ⟨x, found, same⟩ := merged.added _ _ there asked
    exact ⟨x, found, .inr same⟩
  | some existing =>
    obtain ⟨x, found, changed⟩ := merged.altered _ _ _ there asked
    exact ⟨x, found, .inl ⟨existing, rfl, changed⟩⟩

theorem Merged.of_existing (merged : Merged keyOf altered like before wanted after)
    (distinct : Distinct keyOf before) {old : α} (member : old ∈ before) :
    ∃ x ∈ after, keyOf x = keyOf old ∧
      (x = old ∨ ∃ desired ∈ wanted, keyOf desired = keyOf old ∧ altered old desired x) := by
  have there := get?_of_mem distinct member
  cases asked : get? keyOf (keyOf old) wanted with
  | none =>
    have found := merged.kept _ _ there asked
    exact ⟨old, mem_of_get? found, rfl, .inl rfl⟩
  | some desired =>
    obtain ⟨x, found, changed⟩ := merged.altered _ _ _ there asked
    exact ⟨x, mem_of_get? found, key_of_get? found,
      .inr ⟨desired, mem_of_get? asked, key_of_get? asked, changed⟩⟩

theorem Merged.origin (merged : Merged keyOf altered like before wanted after) {x : α}
    (member : x ∈ after) : x ∈ before ∨ (∃ desired ∈ wanted, like desired x) ∨
      ∃ existing ∈ before, ∃ desired ∈ wanted, altered existing desired x := by
  have found := get?_of_mem merged.distinct member
  cases there : get? keyOf (keyOf x) before with
  | none =>
    cases asked : get? keyOf (keyOf x) wanted with
    | none => rw [merged.absent _ there asked] at found; cases found
    | some desired =>
      obtain ⟨y, same, alike⟩ := merged.added _ _ there asked
      cases found.symm.trans same
      exact .inr (.inl ⟨desired, mem_of_get? asked, alike⟩)
  | some existing =>
    cases asked : get? keyOf (keyOf x) wanted with
    | none =>
      cases found.symm.trans (merged.kept _ _ there asked)
      exact .inl (mem_of_get? there)
    | some desired =>
      obtain ⟨y, same, changed⟩ := merged.altered _ _ _ there asked
      cases found.symm.trans same
      exact .inr (.inr ⟨existing, mem_of_get? there, desired, mem_of_get? asked, changed⟩)

end Keyed

namespace ChangeSet.CarriedOut

variable {existing desired s : Snapshot}

theorem wellKeyed (done : CarriedOut existing desired s) (keyed : existing.WellKeyed)
    (asked : desired.WellKeyed) : s.WellKeyed where
  domains := done.domains.distinct
  tables := done.tables.distinct
  procedures := done.procedures.distinct
  columns := by
    intro t member
    rcases done.tables.origin member with old | ⟨u, wanted, rfl⟩ | ⟨e, _, u, _, carried⟩
    · exact keyed.columns t old
    · exact asked.columns t wanted
    · exact carried.columns.distinct

theorem keeps (done : CarriedOut existing desired s) (keyed : existing.WellKeyed) :
    existing.Keeps desired s where
  domains := by
    intro d member agrees
    obtain ⟨x, left, _, rfl | ⟨w, wanted, same, altered⟩⟩ :=
      done.domains.of_existing keyed.domains member
    · exact left
    · rw [Domain.altered_of_agree (agrees w wanted same)] at altered
      rwa [altered] at left
  tables := by
    intro t member absent
    obtain ⟨x, left, _, rfl | ⟨w, wanted, same, _⟩⟩ := done.tables.of_existing keyed.tables member
    · exact left
    · exact absurd same (absent w wanted)
  columns := by
    intro t member
    obtain ⟨x, left, _, rfl | ⟨u, wanted, same, carried⟩⟩ := done.tables.of_existing keyed.tables member
    · exact ⟨x, left, rfl, fun c member _ => member⟩
    · refine ⟨x, left, carried.name, fun c inside agrees => ?_⟩
      obtain ⟨y, kept, _, rfl | ⟨w, column, key, altered⟩⟩ :=
        carried.columns.of_existing (keyed.columns t member) inside
      · exact kept
      · rwa [altered.eq_of_agree (agrees u wanted same w column key)] at kept
  procedures := by
    intro p member agrees
    have there := get?_of_mem keyed.procedures member
    refine mem_of_get? ((done.procedures.unchanged p.key ?_).trans there)
    intro w wanted same
    rw [procedureChanged_eq_false_iff]
    exact ⟨p, there, agrees w wanted same⟩

theorem covers {t u x : Table} (carried : t.Carried u x) (columns : Distinct Column.key u.columns) :
    x.Covers u := by
  intro c inside
  obtain ⟨y, found, ⟨e, _, altered⟩ | placed⟩ := carried.columns.of_wanted columns inside
  · exact ⟨y, found, altered.agree⟩
  · exact ⟨y, found, placed ▸ ⟨fun _ => rfl, rfl, rfl⟩⟩

theorem meets (done : CarriedOut existing desired s) (asked : desired.WellKeyed) : s.Meets desired where
  domains := by
    intro d member
    obtain ⟨x, found, ⟨e, _, altered⟩ | created⟩ := done.domains.of_wanted asked.domains member
    · exact ⟨x, found, altered ▸ e.altered_agree d⟩
    · exact ⟨x, found, created ▸ ⟨fun _ => rfl, rfl, rfl⟩⟩
  tables := by
    intro u member
    obtain ⟨x, found, ⟨e, _, carried⟩ | created⟩ := done.tables.of_wanted asked.tables member
    · exact ⟨x, found, covers carried (asked.columns u member)⟩
    · refine ⟨x, found, fun c inside => ⟨c, ?_, ⟨fun _ => rfl, rfl, rfl⟩⟩⟩
      rw [created, get?_of_mem (asked.columns u member) inside]
  procedures := by
    intro p member
    cases differs : procedureChanged (get? Procedure.key p.key existing.procedures) p with
    | true => exact ⟨p, done.procedures.changed p member differs, rfl⟩
    | false =>
      rw [done.procedures.unchanged p.key]
      · exact procedureChanged_eq_false_iff.mp differs
      · intro w wanted same
        have equal := get?_of_mem asked.procedures wanted
        rw [same, get?_of_mem asked.procedures member] at equal
        cases equal
        exact differs

end ChangeSet.CarriedOut

namespace ChangeSet

/-- None of the steps between two schemas fails. The result has all that is desired. What exists and is not desired is
kept, what agrees already is kept too, and between the result and the desired schema there are no steps. -/
theorem between_converges {existing : Snapshot} {desired : DesiredSchema} (keyed : existing.WellKeyed)
    (asked : desired.snapshot.WellKeyed) :
    ∃ s, desired.snapshot.carryOut? (between existing desired).steps existing = some s ∧
      s.WellKeyed ∧ s.Meets desired.snapshot ∧ existing.Keeps desired.snapshot s ∧
      (between s desired).steps = [] := by
  obtain ⟨s, ran, done⟩ := carryOut_steps keyed asked
  have wellKeyed := done.wellKeyed keyed asked
  have meets := done.meets asked
  exact ⟨s, ran, wellKeyed, meets, done.keeps keyed, (steps_eq_nil_iff wellKeyed).mpr meets⟩

def integerColumn (name : String) (position : Int) (isNullable : Bool) (named : Text.isBlankText name = false) : Column :=
  ⟨name, position, none, some "INTEGER", isNullable, none, named, Bool.false_ne_true⟩

def tableOf (name : String) (first : Column) (more : List Column) (named : Text.isBlankText name = false)
    (ascending : Ascending (first :: more)) : Table :=
  ⟨name, first :: more, named, List.cons_ne_nil _ _, ascending⟩

/-- A schema with an object of each kind. -/
def peopleInstalled : Snapshot where
  domains := [⟨"EMAIL", "VARCHAR(10)", some 10, some 10, none, true, none, rfl⟩]
  tables := [tableOf "PERSON" (integerColumn "ID" 0 false rfl) [integerColumn "AGE" 1 true rfl] rfl (by decide)]
  procedures := [⟨"GREET", "AS BEGIN EXIT; END", none, rfl, rfl⟩]

/-- The same schema after a change to each of its objects, with a new object of each kind. -/
def peopleWanted : DesiredSchema where
  snapshot := {
    domains := [
      ⟨"email", "VARCHAR(20)", some 20, some 20, none, true, none, rfl⟩,
      ⟨"PHONE", "INTEGER", none, none, none, true, none, rfl⟩]
    tables := [
      tableOf "person" (integerColumn "ID" 0 false rfl) [integerColumn "AGE" 1 false rfl,
        ⟨"MAIL", 2, some "EMAIL", none, true, none, rfl, Bool.false_ne_true.symm⟩] rfl (by decide),
      tableOf "PARTNER" (integerColumn "ID" 0 false rfl) [] rfl (by decide)]
    procedures := [
      ⟨"GREET", "AS BEGIN SUSPEND; END", none, rfl, rfl⟩,
      ⟨"CLEAN", "AS BEGIN LEAVE; END", none, rfl, rfl⟩] }
  scripts := [
    ((.domain, .of "PHONE"), "CREATE DOMAIN PHONE AS INTEGER"),
    ((.table, .of "PARTNER"), "CREATE TABLE PARTNER (ID INTEGER NOT NULL)"),
    ((.procedure, .of "GREET"), "CREATE PROCEDURE GREET AS BEGIN SUSPEND; END"),
    ((.procedure, .of "CLEAN"), "CREATE PROCEDURE CLEAN AS BEGIN LEAVE; END")]
  warnings := []

theorem wellKeyed_peopleInstalled : peopleInstalled.WellKeyed :=
  ⟨by decide, by decide, by decide, by decide⟩

theorem wellKeyed_peopleWanted : peopleWanted.snapshot.WellKeyed :=
  ⟨by decide, by decide, by decide, by decide⟩

theorem between_converges_people : (between peopleInstalled peopleWanted).steps.length = 7 ∧
    ∃ s, peopleWanted.snapshot.carryOut? (between peopleInstalled peopleWanted).steps peopleInstalled = some s ∧
      s.WellKeyed ∧ s.Meets peopleWanted.snapshot ∧ peopleInstalled.Keeps peopleWanted.snapshot s ∧
      (between s peopleWanted).steps = [] :=
  ⟨by decide +kernel, between_converges wellKeyed_peopleInstalled wellKeyed_peopleWanted⟩

end ChangeSet

end SchemaSync
