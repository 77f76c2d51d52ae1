import SchemaSync.Proofs.Definitions.Outcomes
import SchemaSync.Proofs.Plan.ReadBack

/-! What a schema asks for when it has been saved and is read again, and when the schema itself meets that. -/

namespace SchemaSync

open Keyed Text

structure Snapshot.Canonical (s : Snapshot) : Prop where
  domains : ∀ d ∈ s.domains, d.Canonical
  tables : ∀ t ∈ s.tables, t.Canonical
  procedures : ∀ p ∈ s.procedures, IsName p.name.toList

namespace Definitions

variable {σ : Type} {s : Snapshot}

theorem isName_of_mem (canonical : s.Canonical) {kind : ObjectKind} {script : String × String}
    (member : script ∈ namedScripts s kind) : IsName script.1.toList := by
  cases kind <;> obtain ⟨object, inside, rfl⟩ := List.mem_map.mp member
  · exact (canonical.domains object inside).name
  · exact (canonical.tables object inside).name
  · exact canonical.procedures object inside

theorem begins_of_mem {kind : ObjectKind} {script : String × String} (member : script ∈ namedScripts s kind) :
    Begins script.2 := by
  cases kind <;> obtain ⟨object, inside, rfl⟩ := List.mem_map.mp member
  · have start : ∃ rest, object.script.toList = 'C' :: rest := by
      unfold Domain.script
      simp only [String.toList_append, List.append_assoc]
      exact ⟨_, rfl⟩
    exact ⟨'C', start.choose, start.choose_spec, by decide, by decide⟩
  · exact ⟨'C', _, Table.script_toList, by decide, by decide⟩
  · exact ⟨'S', _, Procedure.script_toList object, by decide, by decide⟩

theorem keys_namedScripts (keyed : s.WellKeyed) (kind : ObjectKind) :
    ((namedScripts s kind).map fun script => NameKey.of script.1).Nodup := by
  cases kind <;> rw [namedScripts, List.map_map]
  · exact keyed.domains
  · exact keyed.tables
  · exact keyed.procedures

theorem isPlain_append {name : String} (plain : IsName name.toList)
    (short : (name ++ ".sql").utf8ByteSize ≤ Tree.maxNameBytes) : Path.IsPlain (name ++ ".sql") := by
  have other {c : Char} (strange : isNameChar c = false) (apart : c ∉ ".sql".toList) :
      c ∉ (name ++ ".sql").toList := by
    rw [String.toList_append, List.mem_append, not_or]
    refine ⟨fun inside => ?_, apart⟩
    rw [plain.isNameChar inside] at strange
    cases strange
  have long {text : String} (few : text.toList.length < 4) : name ++ ".sql" ≠ text := by
    rintro rfl
    have length : ".sql".toList.length = 4 := rfl
    rw [String.toList_append, List.length_append, length] at few
    omega
  exact {
    single := other (by decide) (by decide)
    given := long (by decide)
    below := long (by decide)
    above := long (by decide)
    whole := other (by decide) (by decide)
    short }

theorem savable_of_canonical (keyed : s.WellKeyed) (canonical : s.Canonical)
    (names : ∀ kind, ∀ script ∈ namedScripts s kind, (script.1 ++ ".sql").utf8ByteSize ≤ Tree.maxNameBytes) :
    Savable s where
  plain := fun kind script member => isPlain_append (isName_of_mem canonical member) (names kind script member)
  distinct := fun kind => by
    have keys := keys_namedScripts keyed kind
    rw [← Function.comp_def, ← List.map_map] at keys
    exact List.Pairwise.of_map _ (fun _ _ different same => different (congrArg _ same)) keys

def reread (root : Path) (s : Snapshot) : DesiredSchema :=
  (SetReading.ofSet (foundSet root s)).desired

/-- Objects that are found again under their keys are compared with what they are found as. -/
private theorem forall_found_iff {α : Type} {keyOf : α → NameKey} {objects found : List α} {reads like : α → α → Prop}
    (distinct : Distinct keyOf objects) (members : ∀ e, e ∈ found ↔ ∃ d ∈ objects, reads d e)
    (keys : ∀ d ∈ objects, ∀ e, reads d e → keyOf e = keyOf d) :
    (∀ e ∈ found, ∃ x, get? keyOf (keyOf e) objects = some x ∧ like x e) ↔
      ∀ d ∈ objects, ∀ e, reads d e → like d e := by
  constructor
  · intro all d member e read
    obtain ⟨x, same, holds⟩ := all e ((members e).mpr ⟨d, member, read⟩)
    rw [keys d member e read, get?_of_mem distinct member] at same
    exact Option.some.inj same ▸ holds
  · intro all e member
    obtain ⟨d, inside, read⟩ := (members e).mp member
    exact ⟨d, by rw [keys d inside e read, get?_of_mem distinct inside], all d inside e read⟩

section Reread

variable {root : Path} (keyed : s.WellKeyed) (canonical : s.Canonical)

private theorem domain_read (canonical : s.Canonical) : ∀ d ∈ s.domains, ∀ e,
    Domain.ofScript (lineFed d.script) = .ok e → e.name = d.name ∧ e.attributes = d.lineFed.attributes := by
  intro d member e read
  obtain ⟨given, script, same⟩ := Domain.ofScript_lineFed (canonical.domains d member)
  rw [script] at read
  cases read
  exact same

private theorem table_read (canonical : s.Canonical) : ∀ t ∈ s.tables, ∀ u,
    Table.ofScript (lineFed t.script) = .ok u →
      u.name = t.name ∧ u.columns = Column.placedFrom 0 (t.columns.map Column.lineFed) := by
  intro t member u read
  obtain ⟨given, script, same⟩ := Table.ofScript_lineFed (canonical.tables t member)
  rw [script] at read
  cases read
  exact same

private theorem procedure_read (canonical : s.Canonical) : ∀ p ∈ s.procedures, ∀ q,
    Procedure.ofScript (lineFed p.script) = .ok q → q.name = p.name := by
  intro p member q read
  have name := canonical.procedures p member
  rw [Procedure.lineFed_script name] at read
  exact Procedure.name_of_ofScript (p := p.lineFed) name read

include keyed canonical

theorem mem_domains_iff {e : Domain} : e ∈ (reread root s).snapshot.domains ↔
    ∃ d ∈ s.domains, Domain.ofScript (lineFed d.script) = .ok e :=
  mem_found_iff Domain.reader Domain.script _ keyed.domains
    fun d member e read => (domain_read canonical d member e read).1

theorem mem_tables_iff {u : Table} : u ∈ (reread root s).snapshot.tables ↔
    ∃ t ∈ s.tables, Table.ofScript (lineFed t.script) = .ok u :=
  mem_found_iff Table.reader Table.script _ keyed.tables
    fun t member u read => (table_read canonical t member u read).1

theorem mem_procedures_iff {q : Procedure} : q ∈ (reread root s).snapshot.procedures ↔
    ∃ p ∈ s.procedures, Procedure.ofScript (lineFed p.script) = .ok q :=
  mem_found_iff Procedure.reader Procedure.script _ keyed.procedures
    (procedure_read canonical)

/-- Nothing is left out when every procedure can be read again. -/
theorem warnings_reread_iff : (reread root s).warnings = [] ↔
    ∀ p ∈ s.procedures, ∃ q, Procedure.ofScript (lineFed p.script) = .ok q := by
  have domains := (warnings_found_eq_nil_iff Domain.reader Domain.script (root.child ObjectKind.domain.directory)
    keyed.domains
    fun d member e read => (domain_read canonical d member e read).1).mpr fun d member => by
      obtain ⟨e, read, _⟩ := Domain.ofScript_lineFed (canonical.domains d member)
      exact ⟨e, read⟩
  have tables := (warnings_found_eq_nil_iff Table.reader Table.script (root.child ObjectKind.table.directory)
    keyed.tables
    fun t member u read => (table_read canonical t member u read).1).mpr fun t member => by
      obtain ⟨u, read, _⟩ := Table.ofScript_lineFed (canonical.tables t member)
      exact ⟨u, read⟩
  have procedures := warnings_found_eq_nil_iff Procedure.reader Procedure.script
    (root.child ObjectKind.procedure.directory) keyed.procedures (procedure_read canonical)
  refine Iff.trans ?_ procedures
  show [] ++ _ ++ _ ++ _ = [] ↔ _
  rw [List.append_eq_nil_iff, List.append_eq_nil_iff]
  exact ⟨fun all => all.2, fun last => ⟨⟨domains, tables⟩, last⟩⟩

/-- A schema meets what it asks for when it is read again if no default has another line end than line feeds
and the sources that are read count as the same. -/
theorem meets_reread_iff : s.Meets (reread root s).snapshot ↔ (∀ v ∈ s.defaults, '\r' ∉ v.toList) ∧
    ∀ p ∈ s.procedures, ∀ q, Procedure.ofScript (lineFed p.script) = .ok q →
      normalizeSource p.sourceCode = normalizeSource q.sourceCode := by
  have domains : (∀ e ∈ (reread root s).snapshot.domains, ∃ x, get? Domain.key e.key s.domains = some x ∧
      x.attributes.Agree true e.attributes) ↔ ∀ d ∈ s.domains, ∀ v ∈ d.defaultValue, '\r' ∉ v.toList := by
    rw [forall_found_iff keyed.domains (fun e => mem_domains_iff keyed canonical)
      (fun d member e read => congrArg NameKey.of (domain_read canonical d member e read).1)]
    refine forall₂_congr fun d member => ?_
    rw [← Domain.agree_lineFed (canonical.domains d member)]
    obtain ⟨e, read, _, attributes⟩ := Domain.ofScript_lineFed (canonical.domains d member)
    simp only [read, Except.ok.injEq, forall_eq', attributes]
  have tables : (∀ u ∈ (reread root s).snapshot.tables, ∃ x, get? Table.key u.key s.tables = some x ∧ x.Covers u) ↔
      ∀ t ∈ s.tables, ∀ c ∈ t.columns, ∀ v ∈ c.defaultValue, '\r' ∉ v.toList := by
    rw [forall_found_iff keyed.tables (fun u => mem_tables_iff keyed canonical)
      (fun t member u read => congrArg NameKey.of (table_read canonical t member u read).1)]
    refine forall₂_congr fun t member => ?_
    obtain ⟨u, read, _, columns⟩ := Table.ofScript_lineFed (canonical.tables t member)
    rw [← Table.covers_lineFed (canonical.tables t member) (keyed.columns t member) columns]
    simp only [read, Except.ok.injEq, forall_eq']
  have procedures : (∀ q ∈ (reread root s).snapshot.procedures, ∃ x, get? Procedure.key q.key s.procedures = some x ∧
      normalizeSource x.sourceCode = normalizeSource q.sourceCode) ↔ ∀ p ∈ s.procedures, ∀ q,
        Procedure.ofScript (lineFed p.script) = .ok q → normalizeSource p.sourceCode = normalizeSource q.sourceCode :=
    forall_found_iff keyed.procedures (fun q => mem_procedures_iff keyed canonical)
      (fun p member q read => congrArg NameKey.of (procedure_read canonical p member q read))
  have defaults : (∀ v ∈ s.defaults, '\r' ∉ v.toList) ↔ (∀ d ∈ s.domains, ∀ v ∈ d.defaultValue, '\r' ∉ v.toList) ∧
      ∀ t ∈ s.tables, ∀ c ∈ t.columns, ∀ v ∈ c.defaultValue, '\r' ∉ v.toList := by
    simp only [Snapshot.defaults, List.forall_mem_append, List.forall_mem_flatMap, Option.mem_toList, Option.mem_def]
  rw [defaults, ← domains, ← tables, ← procedures]
  exact ⟨fun meets => ⟨⟨meets.domains, meets.tables⟩, meets.procedures⟩,
    fun ⟨⟨domains, tables⟩, procedures⟩ => ⟨domains, tables, procedures⟩⟩

/-- When nothing is left out, there is something that is asked for. -/
theorem total_reread_ne_zero (objects : s.total ≠ 0)
    (readable : ∀ p ∈ s.procedures, ∃ q, Procedure.ofScript (lineFed p.script) = .ok q) :
    (reread root s).snapshot.total ≠ 0 := by
  intro none
  rw [Snapshot.total, Nat.add_eq_zero_iff, Nat.add_eq_zero_iff, List.length_eq_zero_iff, List.length_eq_zero_iff,
    List.length_eq_zero_iff] at none
  obtain ⟨⟨domains, tables⟩, procedures⟩ := none
  have noDomains : s.domains = [] := List.eq_nil_iff_forall_not_mem.mpr fun d member => by
    obtain ⟨e, read, _⟩ := Domain.ofScript_lineFed (canonical.domains d member)
    have there : e ∈ (reread root s).snapshot.domains := (mem_domains_iff keyed canonical).mpr ⟨d, member, read⟩
    rw [domains] at there
    cases there
  have noTables : s.tables = [] := List.eq_nil_iff_forall_not_mem.mpr fun t member => by
    obtain ⟨u, read, _⟩ := Table.ofScript_lineFed (canonical.tables t member)
    have there : u ∈ (reread root s).snapshot.tables := (mem_tables_iff keyed canonical).mpr ⟨t, member, read⟩
    rw [tables] at there
    cases there
  have noProcedures : s.procedures = [] := List.eq_nil_iff_forall_not_mem.mpr fun p member => by
    obtain ⟨q, read⟩ := readable p member
    have there : q ∈ (reread root s).snapshot.procedures :=
      (mem_procedures_iff keyed canonical).mpr ⟨p, member, read⟩
    rw [procedures] at there
    cases there
  rw [Snapshot.total, noDomains, noTables, noProcedures] at objects
  exact objects rfl

end Reread

theorem gives_desired {files : Tree} {text : String} {set : ScriptSet}
    (loaded : (load find text : Action LogRecord σ ScriptSet).Gives files set files) :
    (desired find text : Action Entry σ DesiredSchema).Gives files (SetReading.ofSet set).desired files :=
  loaded.logged.bind ((Action.gives_recordAll _).bind ((Action.gives_announce _ _).bind (Action.gives_pure _)))

end Definitions

end SchemaSync
