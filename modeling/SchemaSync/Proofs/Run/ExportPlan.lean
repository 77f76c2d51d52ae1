import SchemaSync.Proofs.Definitions.Desired
import SchemaSync.Run.Export

/-! A schema that is exported and then planned against the database it comes from. -/

namespace SchemaSync

open Script Text

namespace Definitions

/-- A root that stands for a directory which is empty or can be made, and can be entered. The text that is given leads to it once
it is there, and it has room for the files of a schema. -/
structure Ready (files : Tree) (root : String) (path : Path) (made : Tree) (s : Snapshot) : Prop where
  given : isBlankText root = false
  absolute : files.absolute (.ofString root) = .ok path
  there : files.ensureDirectories path = .ok made
  unlocked : made.find? path.parts ≠ some .lockedDirectory
  empty : files.Hollow path.parts
  leads : made.locate (.ofString root) = .ok path.parts
  names : ∀ kind, ∀ script ∈ namedScripts s kind, (script.1 ++ ".sql").utf8ByteSize ≤ Tree.maxNameBytes
  fits : Fits path s
  fitsGiven : Fits (.ofString root) s

/-- Where an export goes there is an empty directory once it has been made. -/
theorem Ready.reaches {files made : Tree} {root : String} {path : Path} (ready : Ready files root path made s) :
    made.locate path = .ok path.parts ∧ made.find? path.parts = some .directory ∧ made.Hollow path.parts := by
  obtain ⟨absolute, flat⟩ := Tree.absolute_flat ready.absolute
  have reaches := Tree.reaches_of_ensureDirectories absolute flat ready.there
  have inside : made.find? path.parts = some .directory :=
    (Tree.any_isDirectory_iff.mp reaches.inside).resolve_right ready.unlocked
  exact ⟨reaches.located, inside, reaches.hollow ready.empty⟩

end Definitions

namespace Reconcile

open Definitions

variable {σ : Type} {source : SchemaSource σ} {target root : String} {files made : Tree} {path : Path} {s : Snapshot}

private theorem requireTarget_eq (named : isBlankText target = false) : requireTarget target = .ok () := by
  rw [requireTarget, named]
  rfl

theorem gives_export (reads : ∀ files, (source.snapshot target).Gives files s files)
    (named : isBlankText target = false) (objects : s.total ≠ 0) (savable : Savable s)
    (ready : Ready files root path made s) : ∃ report, (Export.run source target root).Gives files report
      (made.extend (savedEntries path.parts s)) := by
  obtain ⟨located, inside, hollow⟩ := ready.reaches
  obtain ⟨written, saves⟩ := gives_save (σ := σ) savable ready.fits ready.there located inside hollow
  have output : outputRoot root = .ok (.ofString root) := by
    rw [outputRoot, ready.given]
    rfl
  have place : (files.absolute (.ofString root)).mapError Error.file = .ok path := by
    rw [ready.absolute]
    rfl
  refine ⟨{ root := path, snapshot := s, files := written }, ?_⟩
  refine (Action.gives_ofExcept (requireTarget_eq named)).bind ((Action.gives_ofExcept output).bind ?_)
  refine Action.gives_files.bind ((Action.gives_ofExcept place).bind ((Action.gives_announce _ _).bind ?_))
  refine (reads files).logged.bind ?_
  rw [if_neg objects]
  refine (Action.gives_announce _ _).bind ((Action.gives_announce _ _).bind (saves.logged.bind ?_))
  exact (Action.gives_emit _).bind (Action.gives_pure _)

/-- A plan for a database compares its schema with what is saved. -/
theorem gives_plan (reads : ∀ files, (source.snapshot target).Gives files s files)
    (named : isBlankText target = false) (given : isBlankText root = false) (objects : s.total ≠ 0)
    (saved : SavedAt files (.ofString root) s) : ∃ plan : Plan,
      (Reconcile.plan source find target root).Gives files plan files ∧
      plan.changes = ChangeSet.between s (reread (.ofString root) s) ∧
      plan.warnings = (reread (.ofString root) s).warnings ++
        if (reread (.ofString root) s).snapshot.total = 0 then [noDefinitions] else [] := by
  have valid : validateRoot files root = .ok (.ofString root) := by
    rw [validateRoot, given, if_neg Bool.false_ne_true]
    dsimp only
    rw [saved.inside]
  have desired := gives_desired (saved.gives_load (σ := σ) given (fun _ _ => begins_of_mem) objects)
  let again := reread (.ofString root) s
  refine ⟨⟨target, s, again.snapshot, ChangeSet.between s again, again.warnings ++
    if again.snapshot.total = 0 then [noDefinitions] else []⟩, ?_, rfl, rfl⟩
  refine (Action.gives_ofExcept (requireTarget_eq named)).bind (Action.gives_files.bind ?_)
  refine (Action.gives_ofExcept valid).bind ((Action.gives_announce _ _).bind ((reads files).logged.bind ?_))
  refine (Action.gives_announce _ _).bind ((Action.gives_announce _ _).bind (desired.bind ?_))
  refine (Action.gives_recordAll _).bind ((Action.gives_announce _ _).bind ((Action.gives_announce _ _).bind ?_))
  exact Action.gives_pure _

/-- A schema that has just been exported is in line with its database, and nothing is left out, exactly when
line feeds are the only line ends in its defaults and each of its procedures reads back. Reading turns every
other line end into a line feed, so a default that has one is set again by each plan. -/
theorem exported_plan_iff (reads : ∀ files, (source.snapshot target).Gives files s files)
    (named : isBlankText target = false) (objects : s.total ≠ 0) (keyed : s.WellKeyed) (canonical : s.Canonical)
    (ready : Ready files root path made s) : ∃ report, ∃ exported, ∃ plan : Plan,
      (Export.run source target root).Gives files report exported ∧
      (Reconcile.plan source find target root).Gives exported plan exported ∧
      (plan.changes.steps = [] ∧ plan.warnings = [] ↔
        (∀ v ∈ s.defaults, '\r' ∉ v.toList) ∧ ∀ p ∈ s.procedures, p.ReadsBack) ∧
      ∀ p ∈ s.procedures, (p.Plain → '\r' ∉ p.sourceCode.toList → p.ReadsBack) ∧
        (p.lineFed.Plain →
          (p.ReadsBack ↔ normalizeSource p.lineFed.sourceCode = normalizeSource p.sourceCode)) := by
  have savable := savable_of_canonical keyed canonical ready.names
  obtain ⟨_, inside, hollow⟩ := ready.reaches
  obtain ⟨report, exports⟩ := gives_export reads named objects savable ready
  have saved := savedAt_extend savable ready.fitsGiven ready.leads inside hollow
  obtain ⟨plan, plans, changes, warnings⟩ := gives_plan reads named ready.given objects saved
  refine ⟨report, _, plan, exports, plans, ?_, fun p member => ?_⟩
  · rw [changes, ChangeSet.steps_eq_nil_iff keyed, meets_reread_iff keyed canonical, warnings, List.append_eq_nil_iff,
      warnings_reread_iff keyed canonical]
    constructor
    · rintro ⟨⟨plain, same⟩, readable, _⟩
      refine ⟨plain, fun p member => ?_⟩
      obtain ⟨q, read⟩ := readable p member
      exact ⟨q, read, same p member q read⟩
    · rintro ⟨plain, back⟩
      have readable : ∀ p ∈ s.procedures, ∃ q, Procedure.ofScript (lineFed p.script) = .ok q := by
        intro p member
        obtain ⟨q, read, _⟩ := back p member
        exact ⟨q, read⟩
      refine ⟨⟨plain, fun p member q read => ?_⟩, readable,
        if_neg (total_reread_ne_zero keyed canonical objects readable)⟩
      obtain ⟨given, script, same⟩ := back p member
      rw [script] at read
      cases read
      exact same
  · have name := canonical.procedures p member
    exact ⟨fun plain => Procedure.readsBack_of_plain name plain, fun plain => Procedure.readsBack_iff name plain⟩

end Reconcile

/-- A source that always reads the same schema. -/
def SchemaSource.fixed (s : Snapshot) : SchemaSource Unit where
  domains := fun _ => pure s.domains
  tables := fun _ => pure s.tables
  procedures := fun _ => pure s.procedures

theorem SchemaSource.gives_fixed (s : Snapshot) (target : String) (files : Tree) :
    ((SchemaSource.fixed s).snapshot target).Gives files s files :=
  (Action.gives_pure _).bind ((Action.gives_pure _).bind ((Action.gives_pure _).bind (Action.gives_pure _)))

def labelSchema (default : String) : Snapshot where
  domains := [⟨"LABEL", "VARCHAR(10)", some 10, some 10, none, false, some default, rfl⟩]
  tables := [⟨"ITEM", [⟨"CODE", 0, some "LABEL", none, true, none, rfl, by decide⟩,
    ⟨"AMOUNT", 1, none, some "INTEGER", true, none, rfl, by decide⟩], rfl, by decide, by decide⟩]
  procedures := [⟨"TOUCH", "AS BEGIN END", none, rfl, rfl⟩]

theorem canonical_labelSchema {default : String} (readable : IsDefault default.toList) :
    (labelSchema default).Canonical where
  domains := by
    intro d member
    obtain rfl := List.mem_singleton.mp member
    exact {
      name := show IsName "LABEL".toList by decide
      type := ⟨"VARCHAR".toList, some "10".toList, .word (by decide),
        fun inside given => ⟨"10".toList, ⟨by decide, by decide⟩, .inl (Option.some.inj given).symm⟩,
        show "VARCHAR(10)".toList = _ from rfl⟩
      default := fun v given => Option.some.inj given ▸ readable }
  tables := by
    intro t member
    obtain rfl := List.mem_singleton.mp member
    refine ⟨by decide, ?_⟩
    intro c inside
    rcases List.mem_cons.mp inside with rfl | inside
    · exact ⟨by decide, .inl ⟨"LABEL", rfl, by decide, by decide⟩, fun v given => (by cases given), by decide⟩
    · obtain rfl := List.mem_singleton.mp inside
      have type : IsType "INTEGER".toList none "INTEGER".toList := .of_isName (by decide)
      exact ⟨by decide, .inr ⟨rfl, "INTEGER", _, _, rfl, type, by decide⟩, fun v given => (by cases given), by decide⟩
  procedures := by
    intro p member
    obtain rfl := List.mem_singleton.mp member
    show IsName "TOUCH".toList
    decide

theorem wellKeyed_labelSchema (default : String) : (labelSchema default).WellKeyed where
  domains := List.pairwise_singleton _ _
  tables := List.pairwise_singleton _ _
  columns := by
    intro t member
    obtain rfl := List.mem_singleton.mp member
    decide
  procedures := List.pairwise_singleton _ _

private theorem forall_labelSchema {default : String} {P : ObjectKind → String → Prop} (domain : P .domain "LABEL")
    (table : P .table "ITEM") (procedure : P .procedure "TOUCH") (kind : ObjectKind) :
    ∀ script ∈ Definitions.namedScripts (labelSchema default) kind, P kind script.1 := by
  intro script member
  cases kind <;> obtain rfl := List.mem_singleton.mp member
  · exact domain
  · exact table
  · exact procedure

private theorem fits_labelSchema {default : String} {root : Path}
    (directories : ∀ kind, (root.child (ObjectKind.directory kind)).toString.utf8ByteSize ≤ Tree.maxPathBytes)
    (domain : (((root.child "domains").child "LABEL.sql").toString).utf8ByteSize ≤ Tree.maxPathBytes)
    (table : (((root.child "tables").child "ITEM.sql").toString).utf8ByteSize ≤ Tree.maxPathBytes)
    (procedure : (((root.child "procedures").child "TOUCH.sql").toString).utf8ByteSize ≤ Tree.maxPathBytes) :
    Definitions.Fits root (labelSchema default) where
  directories := directories
  files := forall_labelSchema (P := fun kind name =>
    ((root.child kind.directory).child (name ++ ".sql")).toString.utf8ByteSize ≤ Tree.maxPathBytes)
    domain table procedure

theorem ready_labelSchema (default : String) : Definitions.Ready (Tree.empty ["home"]) "out" ⟨"/", ["home", "out"]⟩
    ((Tree.empty ["home"]).extend [(["home", "out"], .directory)]) (labelSchema default) where
  given := by decide
  absolute := rfl
  there := rfl
  unlocked := by decide
  empty := by
    intro entry member
    obtain rfl := List.mem_singleton.mp member
    intro below
    exact absurd below (by decide)
  leads := rfl
  names := forall_labelSchema (P := fun _ name => (name ++ ".sql").utf8ByteSize ≤ Tree.maxNameBytes)
    (by decide) (by decide) (by decide)
  fits := fits_labelSchema (by rintro (_ | _ | _) <;> decide) (by decide) (by decide) (by decide)
  fitsGiven := fits_labelSchema (by rintro (_ | _ | _) <;> decide) (by decide) (by decide) (by decide)

/-- The default decides whether there is anything to do. -/
theorem exported_plan_iff_label : (∃ report, ∃ exported, ∃ plan : Plan,
      (Export.run (.fixed (labelSchema "'a'")) "db" "out").Gives (Tree.empty ["home"]) report exported ∧
      (Reconcile.plan (.fixed (labelSchema "'a'")) Definitions.find "db" "out").Gives exported plan exported ∧
      plan.changes.steps = [] ∧ plan.warnings = []) ∧
    ∃ report, ∃ exported, ∃ plan : Plan,
      (Export.run (.fixed (labelSchema "'a\rb'")) "db" "out").Gives (Tree.empty ["home"]) report exported ∧
      (Reconcile.plan (.fixed (labelSchema "'a\rb'")) Definitions.find "db" "out").Gives exported plan exported ∧
      ¬(plan.changes.steps = [] ∧ plan.warnings = []) := by
  have plain : IsDefault "'a'".toList :=
    ⟨by decide, ⟨by rintro c ⟨⟩; rfl, by rintro c ⟨⟩; rfl⟩, ⟨by decide, by decide⟩, by decide⟩
  have broken : IsDefault "'a\rb'".toList :=
    ⟨by decide, ⟨by rintro c ⟨⟩; rfl, by rintro c ⟨⟩; rfl⟩, ⟨by decide, by decide⟩, by decide⟩
  have objects (default : String) : (labelSchema default).total ≠ 0 := by simp [Snapshot.total, labelSchema]
  constructor
  · obtain ⟨report, exported, plan, exports, plans, done, back⟩ := Reconcile.exported_plan_iff
      (SchemaSource.gives_fixed _ "db") (by decide) (objects _) (wellKeyed_labelSchema _)
      (canonical_labelSchema plain) (ready_labelSchema _)
    refine ⟨report, exported, plan, exports, plans, done.mpr ⟨?_, ?_⟩⟩
    · intro v member
      obtain rfl := List.mem_singleton.mp member
      decide
    · intro p member
      obtain rfl := List.mem_singleton.mp member
      have source : Procedure.Plain ⟨"TOUCH", "AS BEGIN END", none, rfl, rfl⟩ :=
        Procedure.plain_of_bare ⟨by decide, by decide⟩ ⟨by rintro c ⟨⟩; rfl, by rintro c ⟨⟩; rfl⟩
          (by rintro c ⟨⟩; decide) (by decide)
      exact (back _ member).1 source (by decide)
  · obtain ⟨report, exported, plan, exports, plans, done, _⟩ := Reconcile.exported_plan_iff
      (SchemaSource.gives_fixed _ "db") (by decide) (objects _) (wellKeyed_labelSchema _)
      (canonical_labelSchema broken) (ready_labelSchema _)
    refine ⟨report, exported, plan, exports, plans, fun quiet => ?_⟩
    exact (done.mp quiet).1 "'a\rb'" (by decide) (by decide)

end SchemaSync
