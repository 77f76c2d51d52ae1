import SchemaSync.Plan.ChangeSet
import SchemaSync.Proofs.Definitions.Gathered

/-! A definition set loses and doubles nothing on the way to a plan: each script ends as an object or as a warning, and
each object keeps the text that it comes from up to the step that creates it. -/

namespace SchemaSync

private theorem lookup_of_mem {κ ι : Type} [BEq κ] [LawfulBEq κ] {entries : List (κ × ι)}
    (distinct : (entries.map Prod.fst).Nodup) {key : κ} {value : ι} (member : (key, value) ∈ entries) :
    entries.lookup key = some value := by
  obtain ⟨before, after, rfl⟩ := List.append_of_mem member
  refine List.lookup_eq_some_iff.mpr ⟨before, after, rfl, fun entry inside => ?_⟩
  rw [List.map_append, List.nodup_append] at distinct
  have apart := distinct.2.2 entry.1 (List.mem_map_of_mem inside) key List.mem_cons_self
  exact bne_iff_ne.mpr (Ne.symm apart)

def Snapshot.keys (s : Snapshot) : List (ObjectKind × NameKey) :=
  s.domains.map (fun d => (.domain, d.key)) ++ s.tables.map (fun t => (.table, t.key)) ++
    s.procedures.map (fun p => (.procedure, p.key))

theorem Snapshot.nodup_keys {s : Snapshot} (domains : (s.domains.map Domain.key).Nodup)
    (tables : (s.tables.map Table.key).Nodup) (procedures : (s.procedures.map Procedure.key).Nodup) :
    s.keys.Nodup := by
  have tagged {α : Type} (kind : ObjectKind) (keyOf : α → NameKey) {objects : List α}
      (distinct : (objects.map keyOf).Nodup) : (objects.map fun object => (kind, keyOf object)).Nodup := by
    have pairs : ((objects.map keyOf).map (Prod.mk kind)).Nodup :=
      List.Pairwise.map _ (fun _ _ other same => other (Prod.mk.inj same).2) distinct
    rwa [List.map_map] at pairs
  refine List.nodup_append.mpr ⟨List.nodup_append.mpr ⟨tagged .domain _ domains, tagged .table _ tables, ?_⟩,
    tagged .procedure _ procedures, ?_⟩
  · rintro first inDomains second inTables rfl
    obtain ⟨d, _, rfl⟩ := List.mem_map.mp inDomains
    obtain ⟨t, _, same⟩ := List.mem_map.mp inTables
    cases congrArg Prod.fst same
  · rintro first inBoth second inProcedures rfl
    obtain ⟨p, _, rfl⟩ := List.mem_map.mp inProcedures
    rcases List.mem_append.mp inBoth with inDomains | inTables
    · obtain ⟨d, _, same⟩ := List.mem_map.mp inDomains
      cases congrArg Prod.fst same
    · obtain ⟨t, _, same⟩ := List.mem_map.mp inTables
      cases congrArg Prod.fst same

namespace FoundScripts

/-- The scripts of a flat layout whose kind cannot be told. Groups count as they are. -/
def unclassified (found : FoundScripts) : List ScriptFile :=
  match found.groups with
  | some _ => []
  | none => found.flat.filter fun script => (Script.kindOf? script.text).isNone

theorem undetected_eq (found : FoundScripts) : found.undetected =
    found.unclassified.map fun script => "Cannot detect script type: " ++ script.path.name := by
  rw [undetected, unclassified]
  cases found.groups <;> rfl

/-- There is a warning for each file that was left out before any script is read. -/
theorem length_warnings (found : FoundScripts) :
    (ScriptSet.ofFound found).warnings.length = found.skipped.length + found.unclassified.length := by
  rw [ScriptSet.ofFound, List.length_append, unread, undetected_eq, List.length_map, List.length_map]

end FoundScripts

/-- A step brings the text of the script that an object comes from, or what becomes of that text. -/
def Step.Brings {α : Type} (step : Step) (reader : ScriptReader α) (scripts : List ScriptFile) (objects : List α)
    (batch : String → String) : Prop :=
  ∃ object ∈ objects, ∃ script, reader.ComesFrom scripts object script ∧ step.objectName = reader.name object ∧
    step.sql = batch script.text ∧ step.sql ≠ ""

namespace DesiredSchema

structure Gathers (desired : DesiredSchema) (groups : ScriptGroups) : Prop where
  domains : Domain.reader.Gathered groups.domains desired.snapshot.domains (desired.scriptFor? .domain)
  tables : Table.reader.Gathered groups.tables desired.snapshot.tables (desired.scriptFor? .table)
  procedures : Procedure.reader.Gathered groups.procedures desired.snapshot.procedures (desired.scriptFor? .procedure)
  keys : desired.scripts.map Prod.fst = desired.snapshot.keys
  distinct : desired.snapshot.keys.Nodup

/-- The steps that create the objects of a schema bring the texts that these come from. -/
structure Supplies (desired : DesiredSchema) (groups : ScriptGroups) (changes : ChangeSet) : Prop where
  domains : ∀ step ∈ changes.domainCreates,
    step.Brings Domain.reader groups.domains desired.snapshot.domains id
  tables : ∀ step ∈ changes.tableCreates,
    step.Brings Table.reader groups.tables desired.snapshot.tables id
  procedures : ∀ step ∈ changes.procedures,
    step.Brings Procedure.reader groups.procedures desired.snapshot.procedures Script.toCreateOrAlter

end DesiredSchema

section Supplies

open Script

theorem Domain.nonempty_of_ofScript {text : String} {d : Domain} (read : Domain.ofScript text = .ok d) :
    text ≠ "" := by
  rintro rfl
  cases read

theorem Table.nonempty_of_ofScript {text : String} {t : Table} (read : Table.ofScript text = .ok t) :
    text ≠ "" := by
  rintro rfl
  cases read

theorem Procedure.nonempty_of_ofScript {text : String} {p : Procedure} (read : Procedure.ofScript text = .ok p) :
    text ≠ "" := by
  rintro rfl
  cases read

theorem toCreateOrAlter_ne_empty {text : String} (given : text ≠ "") : toCreateOrAlter text ≠ "" := by
  have kept : allowExisting false text.toList ≠ [] := by
    cases chars : text.toList with
    | nil => exact absurd (String.toList_inj.mp chars) given
    | cons c rest =>
      rw [allowExisting]
      split
      · exact List.append_ne_nil_of_left_ne_nil (by decide) _
      · exact List.cons_ne_nil _ _
  intro empty
  exact kept (String.ofList_inj.mp empty)

/-- An object whose text is found has a step that brings it. -/
theorem ScriptReader.Gathered.brings {α : Type} {reader : ScriptReader α} {scripts : List ScriptFile}
    {objects : List α} {textOf : String → Option String} (gathered : reader.Gathered scripts objects textOf)
    {object : α} (member : object ∈ objects) {batch : String → String}
    (filled : ∀ text, reader.read text = .ok object → batch text ≠ "") {step : Step}
    (named : step.objectName = reader.name object)
    (brought : step.sql = batch ((textOf (reader.name object)).getD "")) :
    step.Brings reader scripts objects batch := by
  obtain ⟨script, comes, text⟩ := gathered.origin member
  rw [text, Option.getD_some] at brought
  exact ⟨object, member, script, comes, named, brought, brought ▸ filled _ comes.read⟩

theorem DesiredSchema.Gathers.supplies {desired : DesiredSchema} {groups : ScriptGroups}
    (gathers : desired.Gathers groups) (existing : Snapshot) :
    desired.Supplies groups (ChangeSet.between existing desired) := by
  refine ⟨fun step member => ?_, fun step member => ?_, fun step member => ?_⟩
  · obtain ⟨d, created, rfl⟩ := List.mem_map.mp member
    exact gathers.domains.brings (List.mem_filter.mp created).1 (fun _ => Domain.nonempty_of_ofScript) rfl rfl
  · obtain ⟨t, created, rfl⟩ := List.mem_map.mp member
    exact gathers.tables.brings (List.mem_filter.mp created).1 (fun _ => Table.nonempty_of_ofScript) rfl rfl
  · obtain ⟨p, replaced, rfl⟩ := List.mem_map.mp member
    exact gathers.procedures.brings (List.mem_filter.mp replaced).1
      (fun _ read => toCreateOrAlter_ne_empty (Procedure.nonempty_of_ofScript read)) rfl rfl

end Supplies

namespace SetReading

variable (set : ScriptSet)

theorem keys_desired : (ofSet set).desired.scripts.map Prod.fst = (ofSet set).desired.snapshot.keys := by
  simp only [desired, Snapshot.keys, Outcomes.sources_eq, Outcomes.objects_eq, List.map_append, List.map_map]
  rfl

theorem nodup_keys_desired : (ofSet set).desired.snapshot.keys.Nodup := by
  have distinct {α : Type} (reader : ScriptReader α) (scripts : List ScriptFile) :
      ((Outcomes.objects (reader.outcomes [] scripts)).map reader.key).Nodup := by
    rw [Outcomes.objects_eq, List.map_map]
    exact (reader.accepts_outcomes [] scripts).distinct
  exact Snapshot.nodup_keys (distinct Domain.reader _) (distinct Table.reader _) (distinct Procedure.reader _)

/-- Scripts that are read as part of a set are gathered in its schema. -/
theorem gathers_desired : (ofSet set).desired.Gathers set.groups := by
  have distinct : ((ofSet set).desired.scripts.map Prod.fst).Nodup := keys_desired set ▸ nodup_keys_desired set
  refine ⟨?_, ?_, ?_, keys_desired set, nodup_keys_desired set⟩
  · refine Domain.reader.gathered_outcomes Domain.declares_ofScript fun origin member => lookup_of_mem distinct ?_
    refine List.mem_append_left _ (List.mem_append_left _ ?_)
    rw [Outcomes.sources_eq]
    exact List.mem_map_of_mem member
  · refine Table.reader.gathered_outcomes Table.declares_ofScript fun origin member => lookup_of_mem distinct ?_
    refine List.mem_append_left _ (List.mem_append_right _ ?_)
    rw [Outcomes.sources_eq]
    exact List.mem_map_of_mem member
  · refine Procedure.reader.gathered_outcomes Procedure.declares_ofScript fun origin member =>
      lookup_of_mem distinct ?_
    refine List.mem_append_right _ ?_
    rw [Outcomes.sources_eq]
    exact List.mem_map_of_mem member

theorem count_desired : (ofSet set).desired.snapshot.total + (ofSet set).desired.warnings.length =
    set.total + set.warnings.length := by
  have each {α : Type} (reader : ScriptReader α) (scripts : List ScriptFile) :
      (Outcomes.objects (reader.outcomes [] scripts)).length +
        (Outcomes.warnings (reader.outcomes [] scripts)).length = scripts.length := by
    rw [Outcomes.length_objects_add_warnings, reader.length_outcomes]
  have domains := each Domain.reader set.groups.domains
  have tables := each Table.reader set.groups.tables
  have procedures := each Procedure.reader set.groups.procedures
  simp only [desired, ofSet, Snapshot.total, ScriptSet.total, ScriptGroups.total, List.length_append]
  omega

theorem reported_entries : reported (ofSet set).entries = (ofSet set).desired.warnings.map (Event.plain .warning) := by
  simp only [entries, desired, reported_append, Outcomes.reported_entries, reported_warnings, List.map_append]

end SetReading

namespace Definitions

open SchemaSync.Action

variable {σ : Type} (finder : Finder σ) (root : String) (world : World Entry σ)

theorem perform_load {found : FoundScripts} {world : World LogRecord σ}
    (given : ((finder root).perform world).1 = .ok found) :
    ((load finder root).perform world).1 = .ok (ScriptSet.ofFound found) := by
  have ended : (finder root).perform world = (.ok found, ((finder root).perform world).2) := Prod.ext given rfl
  rw [load, perform_bind_ok ended]
  rfl

/-- Whatever scripts are found, a schema is read from them that has all they define, once: each script is an object
or a warning, the warnings are reported as they are, and the steps towards the schema bring its texts. -/
theorem desired_gathers {found : FoundScripts}
    (given : ((finder root).perform ⟨world.files, world.remote, []⟩).1 = .ok found) : ∃ desired,
    Tells (Definitions.desired finder root) world (.ok desired) (desired.warnings.map (Event.plain .warning) ++
      [Event.plain .info ("Parsed " ++ countsByKind desired.snapshot)]) ∧
    desired.snapshot.total + desired.warnings.length =
      (ScriptSet.ofFound found).total + found.skipped.length + found.unclassified.length ∧
    desired.Gathers (ScriptSet.ofFound found).groups ∧
    ∀ existing, desired.Supplies (ScriptSet.ofFound found).groups (ChangeSet.between existing desired) := by
  have gathers := SetReading.gathers_desired (ScriptSet.ofFound found)
  refine ⟨(SetReading.ofSet (.ofFound found)).desired, ?_, ?_, gathers, gathers.supplies⟩
  · have loaded := Tells.logged (load finder root) world
    rw [perform_load finder root given] at loaded
    rw [← SetReading.reported_entries]
    exact loaded.bind ((Tells.recordAll _ _).bind ((Tells.emit _ _).bind (.pure _ _)))
  · rw [SetReading.count_desired, found.length_warnings, Nat.add_assoc]

/-- Two definitions of one domain, and a file that could not be read. -/
def doubledLabel : FoundScripts where
  groups := some {
    domains := [
      ⟨.ofString "definitions/domains/LABEL.sql", "CREATE DOMAIN LABEL AS VARCHAR(10);"⟩,
      ⟨.ofString "definitions/domains/OLD.sql", "create domain label as varchar(20);"⟩] }
  skipped := [.ofString "definitions/domains/NOTES.sql"]

theorem desired_gathers_doubledLabel : ∃ desired,
    Tells (Definitions.desired (fun _ => pure doubledLabel) "definitions") ⟨.empty [], (), []⟩ (.ok desired)
      (desired.warnings.map (Event.plain .warning) ++
        [Event.plain .info ("Parsed " ++ countsByKind desired.snapshot)]) ∧
    desired.snapshot.total + desired.warnings.length = 3 ∧
    desired.Gathers (ScriptSet.ofFound doubledLabel).groups ∧
    ∀ existing, desired.Supplies (ScriptSet.ofFound doubledLabel).groups (ChangeSet.between existing desired) :=
  desired_gathers (fun _ => pure doubledLabel) "definitions" ⟨.empty [], (), []⟩ rfl

end Definitions

end SchemaSync
