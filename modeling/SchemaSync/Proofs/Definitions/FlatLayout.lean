import SchemaSync.Definitions.Save
import SchemaSync.Definitions.ScriptSet
import SchemaSync.Proofs.Script.ColumnName
import SchemaSync.Proofs.Script.Recognition
import SchemaSync.Proofs.Script.ScriptKind

/-! The scripts of a flat layout and the groups that they are sorted into. A script gets into the group of the kind
that its text tells, and into none if its text tells no kind. -/

namespace SchemaSync

open Text Script

namespace ScriptGroups

variable {scripts : List ScriptFile} {script : ScriptFile}

def ofEntries (entries : List (ObjectKind × ScriptFile)) : ScriptGroups :=
  let ofKind := fun kind => (entries.filter (·.1 == kind)).map Prod.snd
  { domains := ofKind .domain, tables := ofKind .table, procedures := ofKind .procedure }

theorem ofKind_ofEntries (entries : List (ObjectKind × ScriptFile)) (kind : ObjectKind) :
    (ofEntries entries).ofKind kind = (entries.filter (·.1 == kind)).map Prod.snd := by
  cases kind <;> rfl

theorem ext_ofKind {groups others : ScriptGroups} (same : ∀ kind, groups.ofKind kind = others.ofKind kind) :
    groups = others := by
  cases groups
  cases others
  exact mk.injEq .. |>.mpr ⟨same .domain, same .table, same .procedure⟩

theorem total_ne_zero_iff {groups : ScriptGroups} : groups.total ≠ 0 ↔ ∃ kind script, script ∈ groups.ofKind kind := by
  rw [total]
  constructor
  · intro some
    by_contra none
    have empty (kind : ObjectKind) : groups.ofKind kind = [] :=
      List.eq_nil_iff_forall_not_mem.mpr fun script inside => none ⟨kind, script, inside⟩
    refine some ?_
    rw [show groups.domains = [] from empty .domain, show groups.tables = [] from empty .table,
      show groups.procedures = [] from empty .procedure]
    rfl
  · rintro ⟨kind, script, inside⟩
    have positive := List.length_pos_of_mem inside
    cases kind <;> simp only [ofKind] at positive <;> omega

theorem ofKind_classify (scripts : List ScriptFile) (kind : ObjectKind) :
    (classify scripts).ofKind kind = scripts.filter fun script => kindOf? script.text == some kind := by
  cases kind <;> rfl

theorem mem_classify {kind : ObjectKind} :
    script ∈ (classify scripts).ofKind kind ↔ script ∈ scripts ∧ kindOf? script.text = some kind := by
  rw [ofKind_classify, List.mem_filter, beq_iff_eq]

theorem exists_mem_classify : (∃ kind, script ∈ (classify scripts).ofKind kind) ↔
    script ∈ scripts ∧ kindOf? script.text ≠ none := by
  simp only [mem_classify, exists_and_left, Option.ne_none_iff_exists']

/-- Scripts are sorted as given if and only if each text tells the kind that is given with it. -/
theorem classify_eq_ofEntries_iff {entries : List (ObjectKind × ScriptFile)} :
    classify (entries.map Prod.snd) = ofEntries entries ↔ ∀ entry ∈ entries, kindOf? entry.2.text = some entry.1 := by
  constructor
  · intro same entry member
    have given : entry.2 ∈ (ofEntries entries).ofKind entry.1 := by
      rw [ofKind_ofEntries]
      exact List.mem_map_of_mem (List.mem_filter.mpr ⟨member, beq_self_eq_true _⟩)
    rw [← same] at given
    exact (mem_classify.mp given).2
  · intro told
    refine ext_ofKind fun kind => ?_
    rw [ofKind_classify, ofKind_ofEntries, List.filter_map]
    refine congrArg (List.map Prod.snd) (List.filter_congr fun entry member => ?_)
    rw [Function.comp_apply, told entry member, Bool.eq_iff_iff, beq_iff_eq, beq_iff_eq, Option.some.injEq]

end ScriptGroups

namespace FoundScripts

theorem undetected_eq_nil_iff (flat : List ScriptFile) (skipped : List Path) :
    ({ flat, skipped } : FoundScripts).undetected = [] ↔ ∀ script ∈ flat, kindOf? script.text ≠ none := by
  simp only [undetected, List.map_eq_nil_iff, List.filter_eq_nil_iff, Option.isNone_iff_eq_none,
    ne_eq]

/-- Of the scripts that can be read, a flat layout passes over those whose definition does not show: it stands inside
words only, or nowhere as long as the directives are there. All others get into a group. -/
theorem undetected_of_readable {flat : List ScriptFile} (readable : ∀ script ∈ flat, Readable script.text)
    (skipped : List Path) :
    let found : FoundScripts := { flat, skipped }
    (∀ script ∈ flat, kindOf? script.text = none ↔ Unrecognizable script.text) ∧
      (∀ script ∈ flat, (∃ kind, script ∈ (ScriptSet.ofFound found).groups.ofKind kind) ↔ ¬Unrecognizable script.text) ∧
      (found.undetected = [] ↔ ∀ script ∈ flat, ¬Unrecognizable script.text) := by
  have told : ∀ script ∈ flat, kindOf? script.text = none ↔ Unrecognizable script.text :=
    fun script member => (readable script member).kindOf?_eq_none_iff
  refine ⟨told, fun script member => ?_, ?_⟩
  · rw [← told script member]
    exact ScriptGroups.exists_mem_classify.trans (and_iff_right member)
  · rw [undetected_eq_nil_iff]
    exact forall₂_congr fun script member => not_congr (told script member)

/-- A flat layout passes over a table that is created again, and over a procedure with a directive inside its
definition. -/
theorem undetected_of_readable_orders :
    let orders : ScriptFile := ⟨.ofString "orders.sql", "RECREATE TABLE ORDERS (ID INTEGER);"⟩
    let fill : ScriptFile := ⟨.ofString "fill.sql", "CREATE\nSET TERM ^ ;\nPROCEDURE FILL AS BEGIN END^"⟩
    (Readable orders.text ∧ Unrecognizable orders.text) ∧ (Readable fill.text ∧ Unrecognizable fill.text) ∧
      ({ flat := [orders, fill] } : FoundScripts).undetected ≠ [] := by
  intro orders fill
  have ordersText : stripCommentChars orders.text.toList = orders.text.toList :=
    stripCommentChars_eq_self (by decide) (by decide +kernel)
  have fillText : stripCommentChars fill.text.toList = fill.text.toList :=
    stripCommentChars_eq_self (by decide) (by decide +kernel)
  have readOrders : Readable orders.text := by
    let id : Column := ⟨"ID", 0, none, some "INTEGER", true, none, rfl, by decide⟩
    have plain : id.Plain := .of_word (by decide) (by decide) rfl rfl rfl (by decide) (by decide)
    have first := Column.ofDefinitionChars_definition plain.canonical 0
    have declared : Column.ofDefinitions 0 (columnDefinitions "ID INTEGER".toList) = .ok [id] := by
      have split : columnDefinitions "ID INTEGER".toList = [id.definition.toList] := by decide +kernel
      rw [split, Column.ofDefinitions_cons first]
      rfl
    have name : firstMatch? tableName? orders.text.toList =
      some ("ORDERS".toList, orders.text.toList.drop "RECREATE TABLE ORDERS".length) := by decide +kernel
    have body : firstMatch? tableBody? orders.text.toList = some "ID INTEGER".toList := by decide +kernel
    have read := Table.ofScript_of_definitions (by decide +kernel) ordersText name body declared (List.cons_ne_nil _ _)
    exact .table (read.trans (Table.create_placedFrom rfl (List.cons_ne_nil id [])))
  have readFill : Readable fill.text := by
    have reading : firstMatch? procedureReading? (trimChars (withoutDirectives 0 true (stripCommentChars fill.text.toList))) =
        some ("FILL".toList, " AS BEGIN END^".toList) := by
      rw [fillText]
      decide +kernel
    have source : dropTerminator [';'] (dropTerminator (terminatorOf (stripCommentChars fill.text.toList))
        (trimChars " AS BEGIN END^".toList)) = "AS BEGIN END".toList := by
      rw [fillText]
      decide +kernel
    have read := Procedure.ofScript_eq rfl reading
    rw [source] at read
    exact .procedure (p := ⟨"FILL", "AS BEGIN END", none, by decide, by decide⟩) read
  have readable : ∀ script ∈ [orders, fill], Readable script.text :=
    List.forall_mem_cons.mpr ⟨readOrders, List.forall_mem_singleton.mpr readFill⟩
  obtain ⟨told, _, passed⟩ := undetected_of_readable readable []
  have hidden : Unrecognizable orders.text := by
    refine (told orders List.mem_cons_self).mp ?_
    rw [kindOf?, ordersText]
    decide +kernel
  have cut : Unrecognizable fill.text := by
    refine (told fill (List.mem_cons_of_mem _ List.mem_cons_self)).mp ?_
    rw [kindOf?, fillText]
    decide +kernel
  exact ⟨⟨readOrders, hidden⟩, ⟨readFill, cut⟩, fun none => passed.mp none orders List.mem_cons_self hidden⟩

end FoundScripts

namespace Snapshot

/-- The scripts of a schema, with the kinds of the objects that they define. -/
def scripts (s : Snapshot) : List (ObjectKind × String) :=
  ObjectKind.all.flatMap fun kind => (Definitions.namedScripts s kind).map fun script => (kind, script.2)

/-- A schema with plain names, whose texts have complete literals only, and complete comments in sources. -/
structure Presentable (s : Snapshot) : Prop where
  tables : ∀ t ∈ s.tables, IsName t.name.toList ∧ ∀ c ∈ t.columns, c.Uncommented
  procedures : ∀ p ∈ s.procedures, IsName p.name.toList ∧ Pieced (trimChars p.sourceCode.toList)

structure Quiet (s : Snapshot) : Prop where
  tables : ∀ t ∈ s.tables, ∀ c ∈ t.columns, c.Quiet
  procedures : ∀ p ∈ s.procedures, p.Quiet

theorem forall_mem_scripts {s : Snapshot} {holds : ObjectKind × String → Prop} :
    (∀ script ∈ s.scripts, holds script) ↔ (∀ d ∈ s.domains, holds (.domain, d.script)) ∧
      (∀ t ∈ s.tables, holds (.table, t.script)) ∧ ∀ p ∈ s.procedures, holds (.procedure, p.script) := by
  simp [scripts, ObjectKind.all, Definitions.namedScripts, or_imp, forall_and]

namespace Presentable

variable {s : Snapshot} (presentable : s.Presentable)
include presentable

theorem table_told_iff : ∀ t ∈ s.tables, kindOf? t.script = some .table ↔ ∀ c ∈ t.columns, c.Quiet :=
  fun t member => t.kindOf?_own (presentable.tables t member).1 (presentable.tables t member).2

theorem procedure_told_iff : ∀ p ∈ s.procedures, kindOf? p.script = some .procedure ↔ p.Quiet :=
  fun p member => p.kindOf?_own (presentable.procedures p member).1 (presentable.procedures p member).2

/-- The scripts of a schema tell the kinds of its objects just if none says the words of another kind. -/
theorem told_iff : (∀ script ∈ s.scripts, kindOf? script.2 = some script.1) ↔ s.Quiet := by
  rw [forall_mem_scripts]
  have tables : (∀ t ∈ s.tables, kindOf? t.script = some .table) ↔ ∀ t ∈ s.tables, ∀ c ∈ t.columns, c.Quiet :=
    forall₂_congr presentable.table_told_iff
  have procedures : (∀ p ∈ s.procedures, kindOf? p.script = some .procedure) ↔ ∀ p ∈ s.procedures, p.Quiet :=
    forall₂_congr presentable.procedure_told_iff
  rw [tables, procedures]
  exact ⟨fun told => ⟨told.2.1, told.2.2⟩, fun quiet => ⟨fun d _ => d.kindOf?_own, quiet.tables, quiet.procedures⟩⟩

end Presentable

end Snapshot

namespace ScriptSet

theorem ofFound_flat_eq_iff {entries : List (ObjectKind × ScriptFile)} (skipped : List Path) :
    ofFound { flat := entries.map Prod.snd, skipped } = ofFound { groups := some (.ofEntries entries), skipped } ↔
      ∀ entry ∈ entries, kindOf? entry.2.text = some entry.1 := by
  rw [← ScriptGroups.classify_eq_ofEntries_iff]
  constructor
  · exact congrArg groups
  · intro same
    have told := ScriptGroups.classify_eq_ofEntries_iff.mp same
    have silent : ({ flat := entries.map Prod.snd, skipped } : FoundScripts).undetected = [] := by
      refine (FoundScripts.undetected_eq_nil_iff _ skipped).mpr (List.forall_mem_map.mpr fun entry member => ?_)
      rw [told entry member]
      exact Option.some_ne_none _
    simp only [ofFound, silent, Option.getD_none, Option.getD_some, same]
    rfl

/-- The script of an object tells its kind, a table's just if no definition in it says `CREATE DOMAIN`, and a
procedure's just if its name and source say neither that nor `CREATE TABLE`, in literals or around them. A schema loads
the same from a flat layout just if this holds of all its objects. -/
theorem ofFound_exported_iff {s : Snapshot} (presentable : s.Presentable) (entries : List (ObjectKind × ScriptFile))
    (whole : (entries.map fun entry => (entry.1, entry.2.text)).Perm s.scripts) (skipped : List Path) :
    (∀ d ∈ s.domains, kindOf? d.script = some .domain) ∧
      (∀ t ∈ s.tables, kindOf? t.script = some .table ↔ ∀ c ∈ t.columns, c.Quiet) ∧
      (∀ p ∈ s.procedures, kindOf? p.script = some .procedure ↔ p.Quiet) ∧
      (ofFound { flat := entries.map Prod.snd, skipped } =
        ofFound { groups := some (.ofEntries entries), skipped } ↔ s.Quiet) := by
  have moved : (∀ entry ∈ entries, kindOf? entry.2.text = some entry.1) ↔
      ∀ script ∈ s.scripts, kindOf? script.2 = some script.1 := by
    have texts := List.forall_mem_map (f := fun entry : ObjectKind × ScriptFile => (entry.1, entry.2.text)) (l := entries)
      (P := fun script => kindOf? script.2 = some script.1)
    rw [← texts]
    exact forall_congr' fun script => imp_congr_left whole.mem_iff
  rw [ofFound_flat_eq_iff, moved, presentable.told_iff]
  exact ⟨fun d _ => d.kindOf?_own, presentable.table_told_iff, presentable.procedure_told_iff, Iff.rfl⟩

/-- A table with a default. -/
def remarkTable (value : String) : Table :=
  ⟨"REMARKS", [⟨"REMARK", 0, none, some "VARCHAR(40)", true, some value, rfl, Bool.false_ne_true⟩], rfl,
    List.cons_ne_nil _ _, List.pairwise_singleton _ _⟩

def fillProcedure : Procedure :=
  ⟨"FILL", "AS BEGIN EXECUTE STATEMENT 'CREATE TABLE T (ID INTEGER)'; END", none, rfl, rfl⟩

/-- A default and a source that quote the words of another kind send their scripts into the groups of those kinds. -/
theorem kindOf?_remarks :
    IsName "REMARKS".toList ∧ closed false "'CREATE DOMAIN D'".toList = true ∧
      kindOf? (remarkTable "'CREATE DOMAIN D'").script = some .domain ∧
      IsName "FILL".toList ∧ Pieced fillProcedure.sourceCode.toList ∧ kindOf? fillProcedure.script = some .table :=
  ⟨by decide, by decide, by decide +kernel, by decide, .of_bare ⟨by decide +kernel, by decide +kernel⟩, by decide +kernel⟩

theorem presentable_remarks {value : String} (bare : Bare value.toList) (procedures : List Procedure)
    (pieced : ∀ p ∈ procedures, IsName p.name.toList ∧ Pieced (trimChars p.sourceCode.toList)) :
    Snapshot.Presentable ⟨[], [remarkTable value], procedures⟩ := by
  have typed : Bare ("REMARK".toList ++ ' ' :: "VARCHAR(40)".toList) := ⟨by decide +kernel, by decide +kernel⟩
  have name : IsName "REMARKS".toList := by decide
  refine ⟨List.forall_mem_singleton.mpr ⟨name, List.forall_mem_singleton.mpr ⟨typed, ?_⟩⟩, pieced⟩
  rintro _ ⟨⟩
  exact bare

/-- The kinds that are told show which of the texts are quiet, and that the layouts differ. -/
theorem ofFound_exported_iff_remarks :
    let entries : List (ObjectKind × ScriptFile) := [
      (.table, ⟨.ofString "remarks.sql", (remarkTable "'CREATE DOMAIN D'").script⟩),
      (.procedure, ⟨.ofString "fill.sql", fillProcedure.script⟩)]
    (∀ c ∈ (remarkTable "'it''s'").columns, c.Quiet) ∧ ¬(∀ c ∈ (remarkTable "'CREATE DOMAIN D'").columns, c.Quiet) ∧
      ¬fillProcedure.Quiet ∧ ofFound { flat := entries.map Prod.snd } ≠ ofFound { groups := some (.ofEntries entries) } := by
  intro entries
  have trimmed : trimChars fillProcedure.sourceCode.toList = fillProcedure.sourceCode.toList := by decide +kernel
  have pieced : Pieced (trimChars fillProcedure.sourceCode.toList) :=
    trimmed.symm ▸ .of_bare ⟨by decide +kernel, by decide +kernel⟩
  have bare : Bare "'CREATE DOMAIN D'".toList := ⟨by decide +kernel, by decide +kernel⟩
  have presentable := presentable_remarks bare [fillProcedure] (List.forall_mem_singleton.mpr ⟨by decide, pieced⟩)
  obtain ⟨_, tables, procedures, layouts⟩ := ofFound_exported_iff presentable entries (.refl _) []
  have plain : Bare "'it''s'".toList := ⟨by decide +kernel, by decide +kernel⟩
  obtain ⟨_, plainTables, _⟩ := ofFound_exported_iff (presentable_remarks plain [] (List.forall_mem_nil _))
    [(.table, ⟨.ofString "remarks.sql", (remarkTable "'it''s'").script⟩)] (.refl _) []
  have loud : ¬∀ c ∈ (remarkTable "'CREATE DOMAIN D'").columns, c.Quiet := fun quiet =>
    absurd ((tables _ List.mem_cons_self).mpr quiet) (by decide +kernel)
  have aloud : ¬fillProcedure.Quiet := fun quiet =>
    absurd ((procedures _ List.mem_cons_self).mpr quiet) (by decide +kernel)
  exact ⟨(plainTables _ List.mem_cons_self).mp (by decide +kernel), loud, aloud,
    fun same => loud ((layouts.mp same).tables _ List.mem_cons_self)⟩

end ScriptSet

end SchemaSync
