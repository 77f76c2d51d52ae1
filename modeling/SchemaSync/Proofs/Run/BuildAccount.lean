import SchemaSync.Proofs.Definitions.Provenance
import SchemaSync.Proofs.Run.Asked
import SchemaSync.Proofs.Run.StepAccount
import SchemaSync.Run.Build

/-! The account of a build, whatever the files, the creator and the executor do: the database is created once and
first, and then the scripts run one after the other, kind by kind, up to the first one that fails. -/

namespace SchemaSync

def ScriptGroups.inOrder (groups : ScriptGroups) : List ScriptFile :=
  groups.domains ++ groups.tables ++ groups.procedures

namespace Build

open SchemaSync.Action Definitions

def ran (location : String) (scripts : List ScriptFile) : List Asked :=
  scripts.map fun script => ⟨.execute location script.text, .ok ()⟩

/-- How a build goes, by what it asks for and how it ends, where creating the database and finding the scripts end as
they are given. -/
inductive Course (location root : String) (files : Tree) (created : Except Error Unit)
    (found : Except Error FoundScripts) : List Asked → Except Error BuildReport → Prop
  | refused {error : Error} (unfit : ¬Admitted location root files) :
      Course location root files created found [] (.error error)
  | uncreated {error : Error} (admitted : Admitted location root files) (failed : created = .error error) :
      Course location root files created found [⟨.createEmpty location, .error error⟩] (.error error)
  | unloaded {error : Error} (admitted : Admitted location root files) (made : created = .ok ())
      (failed : found = .error error) :
      Course location root files created found [⟨.createEmpty location, .ok ()⟩] (.error error)
  | built {scripts : FoundScripts} {set : ScriptSet} (admitted : Admitted location root files)
      (made : created = .ok ()) (loaded : found = .ok scripts) (whole : set = .ofFound scripts) :
      Course location root files created found (⟨.createEmpty location, .ok ()⟩ :: ran location set.groups.inOrder)
        (.ok {
          location
          domains := set.groups.domains.length
          tables := set.groups.tables.length
          procedures := set.groups.procedures.length
          warnings := set.warnings ++ if set.total = 0 then [noScripts] else [] })
  | stopped {scripts : FoundScripts} {set : ScriptSet} {before rest : List ScriptFile} {script : ScriptFile}
      {cause : Error} {failure : StepFailure} (admitted : Admitted location root files) (made : created = .ok ())
      (loaded : found = .ok scripts) (whole : set = .ofFound scripts)
      (place : set.groups.inOrder = before ++ script :: rest) (text : failure.step.sql = script.text)
      (count : failure.executed = before.length) :
      Course location root files created found
        (⟨.createEmpty location, .ok ()⟩ :: (ran location before ++ [⟨.execute location script.text, .error cause⟩]))
        (.error (.step failure))

theorem map_sql_steps (groups : ScriptGroups) : (steps groups).map Step.sql = groups.inOrder.map ScriptFile.text := by
  have ofKind (kind : ObjectKind) :
      (stepsOfKind groups kind).map Step.sql = (groups.ofKind kind).map ScriptFile.text := by
    rw [stepsOfKind, List.map_map]
    rfl
  simp only [steps, ObjectKind.all, List.flatMap_cons, List.flatMap_nil, List.append_nil, List.map_append, ofKind,
    ScriptGroups.inOrder, List.append_assoc]
  rfl

theorem length_inOrder (groups : ScriptGroups) : groups.inOrder.length = groups.total := by
  rw [ScriptGroups.inOrder, List.length_append, List.length_append, ScriptGroups.total]

variable {σ : Type} {location root : String} {world : World Entry σ}

/-- What a run of the steps for scripts asks for, by the scripts. -/
theorem asked_of_course {groups : ScriptGroups} {all : List Step} {executions : List Execution} {events : List Event}
    {result : Except Error Nat} (course : Apply.Course location all [] (steps groups) executions events result) :
    result = .ok groups.total ∧ executions.map Asked.batch = ran location groups.inOrder ∨
      ∃ before script rest cause failure, groups.inOrder = before ++ script :: rest ∧ result = .error (.step failure) ∧
        executions.map Asked.batch = ran location before ++ [⟨.execute location script.text, .error cause⟩] ∧
        failure.step.sql = script.text ∧ failure.executed = before.length := by
  have texts := map_sql_steps groups
  generalize steps groups = given at course texts
  have asked (steps : List Step) : (Apply.executed location steps).map Asked.batch =
      (steps.map Step.sql).map fun text => ⟨.execute location text, .ok ()⟩ := by
    rw [Apply.executed, List.map_map, List.map_map]
    rfl
  have running (scripts : List ScriptFile) : ran location scripts =
      (scripts.map ScriptFile.text).map fun text => ⟨.execute location text, .ok ()⟩ := by
    rw [ran, List.map_map]
    rfl
  cases course with
  | all =>
    refine .inl ⟨?_, by rw [asked, texts, running]⟩
    rw [List.length_nil, Nat.zero_add, ← length_inOrder, ← List.length_map, texts, List.length_map]
  | stopped done step others cause =>
    rw [List.map_append, List.map_cons] at texts
    obtain ⟨before, after, place, same, more⟩ := List.map_eq_append_iff.mp texts.symm
    obtain ⟨script, rest, rfl, text, _⟩ := List.map_eq_cons_iff.mp more
    refine .inr ⟨before, script, rest, cause, _, place, rfl, ?_, text.symm, ?_⟩
    · rw [List.map_append, asked, running, same, text]
      rfl
    · show ([] ++ done).length = before.length
      rw [List.nil_append, ← List.length_map, ← same, List.length_map]

section Run

variable (create : Creator σ) (execute : Executor σ) (finder : Finder σ)

theorem run_mirrors (location root : String) :
    Mirrors (run create.asked execute.asked finder.beside location root) (run create execute finder location root) := by
  refine (Mirrors.ofExcept _).bind fun _ => Mirrors.files.bind fun _ => (Mirrors.ofExcept _).bind fun _ => ?_
  refine (Mirrors.emit _).bind fun _ => (Mirrors.noting _ _).logged.bind fun _ => (Mirrors.emit _).bind fun _ => ?_
  refine (load_mirrors finder root).logged.bind fun set => (Mirrors.recordAll _).bind fun _ => ?_
  split
  · exact (Mirrors.emit _).bind fun _ => .pure _
  · refine (Mirrors.emit _).bind fun _ => ?_
    refine Mirrors.bind (Apply.stepsFrom_mirrors (fun _ _ => .noting _ _) _ _ _ _) fun _ => ?_
    exact (Mirrors.emit _).bind fun _ => .pure _

theorem run_refused (unfit : ¬Admitted location root world.files) :
    ∃ error, Leaves (run create.asked execute.asked finder.beside location root) world.unnoted (.error error) [] := by
  cases named : requireLocation location with
  | error error => exact ⟨error, (Leaves.ofExcept named _).bind_error _⟩
  | ok _ =>
    rcases refused_of_not_admitted unfit with blank | ⟨error, refused⟩
    · rw [requireLocation, blank] at named
      cases named
    · exact ⟨error, (Leaves.ofExcept named _).bind ((Leaves.files _).bind ((Leaves.ofExcept refused _).bind_error _))⟩

theorem run_admitted (admitted : Admitted location root world.files) :
    let created := (create location).perform ⟨world.files, world.remote, []⟩
    let found := (finder root).perform ⟨created.2.files, created.2.remote, []⟩
    ∃ asked result, Leaves (run create.asked execute.asked finder.beside location root) world.unnoted result asked ∧
      Course location root world.files created.1 found.1 asked result := by
  intro created found
  have named : requireLocation location = .ok () := by
    rw [requireLocation, admitted.placed]
    rfl
  have valid := validateRoot_eq admitted
  have making (earlier : List Entry) : Leaves (logged (create.asked location))
      ⟨world.files, (world.remote, []), earlier⟩ created.1 [⟨.createEmpty location, created.1⟩] :=
    (Leaves.noting _ _ _).logged
  have finding (earlier : List Entry) (notes : List Asked) : Leaves (logged (load finder.beside root))
      ⟨created.2.files, (created.2.remote, notes), earlier⟩ (found.1.map .ofFound) [] :=
    (load_leaves finder root _).logged
  refine (Leaves.ofExcept named _).goOn ((Leaves.files _).goOn ((Leaves.ofExcept valid _).goOn ?_))
  refine (Leaves.announce _ _ _).goOn ?_
  -- The course ends at the first of creating and finding that fails, or else with the run of the steps.
  cases made : created.1 with
  | error error =>
    rw [made] at making
    exact ⟨_, _, (making _).bind_error _, .uncreated admitted rfl⟩
  | ok _ =>
    rw [made] at making
    refine (making _).goOn ((Leaves.announce _ _ _).goOn ?_)
    cases loaded : found.1 with
    | error error =>
      rw [loaded] at finding
      exact ⟨_, _, (finding _ _).bind_error _, .unloaded admitted rfl rfl⟩
    | ok scripts =>
      rw [loaded] at finding
      refine (finding _ _).goOn ((Leaves.recordAll _ _).goOn ?_)
      have built := @Course.built location root world.files (.ok ()) (.ok scripts) scripts _ admitted rfl rfl rfl
      split
      · next none =>
        have empty : (ScriptSet.ofFound scripts).groups.inOrder = [] :=
          List.length_eq_zero_iff.mp ((length_inOrder _).trans none)
        obtain ⟨⟨domains, tables⟩, procedures⟩ := by simpa [ScriptSet.total, ScriptGroups.total] using none
        refine ⟨_, _, (Leaves.announce _ _ _).bind (.pure _ _), ?_⟩
        rw [empty, if_pos none, domains, tables, procedures] at built
        exact built
      · next some =>
        refine (Leaves.announce _ _ _).goOn ?_
        generalize (Action.perform _ _).2 = before
        obtain ⟨executions, events, result, leaves, course⟩ :=
          Apply.steps_leave execute location (steps (ScriptSet.ofFound scripts).groups) before
        rcases asked_of_course course with ⟨rfl, all⟩ | ⟨done, script, rest, cause, failure, place, rfl, part, text, count⟩
        · refine ⟨_, _, leaves.bind ((Leaves.announce _ _ _).bind (.pure _ _)), ?_⟩
          rw [if_neg some, List.append_nil] at built
          simpa only [all, List.singleton_append, List.nil_append, List.append_nil] using built
        · refine ⟨_, _, leaves.bind_error _, ?_⟩
          rw [part]
          exact .stopped admitted rfl rfl rfl place text count

/-- However the files, the creator and the executor behave, a build takes its course: where it starts at all, it asks
for the database once and first, and then for the scripts to be run one after the other, up to the first failure. -/
theorem run_takes_course (location root : String) (world : World Entry σ) :
    let created := (create location).perform ⟨world.files, world.remote, []⟩
    let found := (finder root).perform ⟨created.2.files, created.2.remote, []⟩
    Course location root world.files created.1 found.1
      ((run create.asked execute.asked finder.beside location root).requests world)
      ((run create execute finder location root).perform world).1 := by
  intro created found
  obtain ⟨asked, result, leaves, course⟩ : ∃ asked result,
      Leaves (run create.asked execute.asked finder.beside location root) world.unnoted result asked ∧
      Course location root world.files created.1 found.1 asked result := by
    by_cases admitted : Admitted location root world.files
    · exact run_admitted create execute finder admitted
    · obtain ⟨error, leaves⟩ := run_refused create execute finder admitted
      exact ⟨[], .error error, leaves, .refused admitted⟩
  have requests : (run create.asked execute.asked finder.beside location root).requests world = asked := leaves.notes
  have same : (run create execute finder location root).perform world = _ :=
    run_mirrors create execute finder location root world.unnoted
  rw [requests, same, leaves.result]
  exact course

end Run

end Build

end SchemaSync
