import SchemaSync.Proofs.Definitions.Provenance
import SchemaSync.Proofs.Run.Asked
import SchemaSync.Proofs.Run.StepAccount
import SchemaSync.Run.Reconcile

/-! The events of a run that brings a database in line with a definition set, whatever the database, the files and the
executor do. The stages come in their order, the steps are numbered, and the last event, and no other one, says that the
run is over. -/

namespace SchemaSync

/-- An event of this kind says that the run is over. -/
def EventKind.isFinal : EventKind → Bool
  | .done | .failed => true
  | .stage | .info | .warning | .statement => false

/-- Events tell how a run ended with the last of them, and none before says that it is over. -/
def TellEnd {α : Type} (events : List Event) (result : Except Error α) : Prop :=
  ∃ before last, events = before ++ [last] ∧ (∀ event ∈ before, event.kind.isFinal = false) ∧
    (last.kind = .done ∧ (∃ value, result = .ok value) ∨
      last.kind = .failed ∧ ∃ failure, result = .error (.step failure))

theorem TellEnd.after {α : Type} {earlier events : List Event} {result : Except Error α}
    (ending : TellEnd events result) (going : ∀ event ∈ earlier, event.kind.isFinal = false) :
    TellEnd (earlier ++ events) result := by
  obtain ⟨before, last, rfl, quiet, ended⟩ := ending
  exact ⟨earlier ++ before, last, (List.append_assoc _ _ _).symm, List.forall_mem_append.mpr ⟨going, quiet⟩, ended⟩

namespace Action.Tells

variable {σ α β : Type} {action : Action Entry σ α} {world : World Entry σ} {value : α} {error : Error}
  {first : List Event}

theorem bind_error (one : Tells action world (.error error) first) (next : α → Action Entry σ β) :
    Tells (action >>= next) world (.error error) first := by
  have ended : action.perform world = (.error error, (action.perform world).2) := Prod.ext one.result rfl
  have both := perform_bind_error ended next
  exact ⟨by rw [both], by rw [both, one.events]⟩

theorem ofExcept {given result : Except Error α} (same : given = result) (world : World Entry σ) :
    Tells (Action.ofExcept given) world result [] :=
  ⟨same, (List.append_nil _).symm⟩

theorem files (world : World Entry σ) : Tells Action.files world (.ok world.files) [] :=
  ⟨rfl, (List.append_nil _).symm⟩

theorem announce (kind : EventKind) (message : String) (world : World Entry σ) :
    Tells (Action.announce kind message) world (.ok ()) [.plain kind message] :=
  .emit _ world

/-- What comes of an action and what follows it, said of all that the two report. -/
theorem goOn (one : Tells action world (.ok value) first) {next : α → Action Entry σ β}
    {P : List Event → Except Error β → Prop}
    (two : ∃ events result, Tells (next value) (action.perform world).2 result events ∧ P (first ++ events) result) :
    ∃ events result, Tells (action >>= next) world result events ∧ P events result := by
  obtain ⟨events, result, tells, property⟩ := two
  exact ⟨first ++ events, result, one.bind tells, property⟩

end Action.Tells

namespace Apply

open SchemaSync.Action

variable {σ : Type}

theorem isFinal_reports {all done steps : List Step} : ∀ event ∈ reports all done steps, event.kind.isFinal = false := by
  intro event member
  obtain ⟨i, step, _, rfl⟩ := List.mem_mapIdx.mp member
  rfl

theorem steps_tell (execute : Executor σ) (target : String) (all : List Step) (world : World Entry σ) :
    ∃ events result, Tells (steps execute target all) world result events ∧
      ∃ executions, Course target all [] all executions events result := by
  obtain ⟨executions, events, result, after, ran, _, told, course⟩ :=
    stepsFrom_course execute target all [] all ⟨world.files, (world.remote, []), world.journal⟩
  have same : (steps execute target all).perform world = _ :=
    stepsFrom_recorded execute target all [] all ⟨world.files, (world.remote, []), world.journal⟩
  rw [ran] at same
  exact ⟨events, result, ⟨congrArg Prod.fst same, (congrArg (reported ·.2.journal) same).trans told⟩, executions, course⟩

end Apply

namespace Reconcile

open SchemaSync.Action Definitions

/-- The schema that the scripts ask for that were found. -/
def desiredOf (found : FoundScripts) : DesiredSchema :=
  (SetReading.ofSet (.ofFound found)).desired

def planOf (target : String) (existing : Snapshot) (desired : DesiredSchema) : Plan where
  target
  existing
  desired := desired.snapshot
  changes := .between existing desired
  warnings := desired.warnings ++ if desired.snapshot.total = 0 then [noDefinitions] else []

def started : List Event :=
  [.plain .stage "Extracting existing metadata"]

def extracted (existing : Snapshot) : List Event :=
  started ++ [.plain .info ("Found " ++ countsByKind existing), .plain .stage "Loading definition scripts"]

def opening (existing : Snapshot) (desired : DesiredSchema) : List Event :=
  extracted existing ++ desired.warnings.map (.plain .warning) ++
    [.plain .info ("Parsed " ++ countsByKind desired.snapshot)] ++
    (if desired.snapshot.total = 0 then [noDefinitions] else []).map (.plain .warning) ++
    [.plain .stage "Analyzing changes",
      .plain .info ("Planned " ++ toString (ChangeSet.between existing desired).total ++ " statement(s)")]

/-- How planning goes, by what it reports and how it ends, where reading the database and finding the scripts end as they
are given. -/
inductive Planning (target root : String) (files : Tree) (answered : Except Error Snapshot)
    (found : Except Error FoundScripts) : List Event → Except Error Plan → Prop
  | refused {error : Error} (unfit : ¬Admitted target root files) :
      Planning target root files answered found [] (.error error)
  | unanswered {error : Error} (admitted : Admitted target root files) (failed : answered = .error error) :
      Planning target root files answered found started (.error error)
  | unfound {existing : Snapshot} {error : Error} (admitted : Admitted target root files)
      (answers : answered = .ok existing) (failed : found = .error error) :
      Planning target root files answered found (extracted existing) (.error error)
  | planned {existing : Snapshot} {scripts : FoundScripts} (admitted : Admitted target root files)
      (answers : answered = .ok existing) (loaded : found = .ok scripts) :
      Planning target root files answered found (opening existing (desiredOf scripts))
        (.ok (planOf target existing (desiredOf scripts)))

/-- How a run goes on when there is a plan: it ends at once if the run is dry or there is nothing to do. Otherwise the
steps are done one after the other, all of them or up to the one that fails. -/
inductive Ending (plan : Plan) (dryRun : Bool) : List Event → Except Error Report → Prop
  | dry (asked : dryRun = true) :
      Ending plan dryRun [.plain .done ("Dry run: " ++ toString plan.changes.total ++ " statement(s) not applied")]
        (.ok (.ofPlan plan 0 true))
  | upToDate (asked : dryRun = false) (none : plan.changes.steps = []) :
      Ending plan dryRun [.plain .done "No changes detected; database is up to date"] (.ok (.ofPlan plan 0 false))
  | applied (asked : dryRun = false) (needed : plan.changes.steps ≠ []) :
      Ending plan dryRun
        (.plain .stage ("Applying " ++ toString plan.changes.total ++ " change(s)") ::
          (Apply.reports plan.changes.steps [] plan.changes.steps ++ [{
            kind := .done
            message := "Executed " ++ toString plan.changes.total ++ " statement(s)"
            total := some (plan.changes.total : Nat) }]))
        (.ok (.ofPlan plan plan.changes.total false))
  | stopped {before rest : List Step} {step : Step} {cause : Error} {failure : StepFailure} (asked : dryRun = false)
      (place : plan.changes.steps = before ++ step :: rest)
      (fails : failure = Apply.failure plan.changes.steps before step cause) :
      Ending plan dryRun
        (.plain .stage ("Applying " ++ toString plan.changes.total ++ " change(s)") ::
          (Apply.reports plan.changes.steps [] before ++ [{
            kind := .failed
            message := failure.message
            category := some step.category
            current := some (before.length + 1 : Nat)
            total := some (plan.changes.total : Nat) }]))
        (.error (.step failure))

inductive Course (target root : String) (files : Tree) (answered : Except Error Snapshot)
    (found : Except Error FoundScripts) (dryRun : Bool) : List Event → Except Error Report → Prop
  | unplanned {events : List Event} {error : Error}
      (planning : Planning target root files answered found events (.error error)) :
      Course target root files answered found dryRun events (.error error)
  | planned {opening events : List Event} {plan : Plan} {result : Except Error Report}
      (planning : Planning target root files answered found opening (.ok plan))
      (ending : Ending plan dryRun events result) :
      Course target root files answered found dryRun (opening ++ events) result

theorem Ending.tellEnd {plan : Plan} {dryRun : Bool} {events : List Event} {result : Except Error Report}
    (ending : Ending plan dryRun events result) : TellEnd events result := by
  have going (steps : List Step) {stage : String} :
      ∀ event ∈ Event.plain .stage stage :: Apply.reports plan.changes.steps [] steps, event.kind.isFinal = false :=
    List.forall_mem_cons.mpr ⟨rfl, Apply.isFinal_reports⟩
  cases ending with
  | dry => exact ⟨[], _, rfl, by simp, .inl ⟨rfl, _, rfl⟩⟩
  | upToDate => exact ⟨[], _, rfl, by simp, .inl ⟨rfl, _, rfl⟩⟩
  | applied => exact ⟨_, _, rfl, going _, .inl ⟨rfl, _, rfl⟩⟩
  | stopped => exact ⟨_, _, rfl, going _, .inr ⟨rfl, _, rfl⟩⟩

theorem isFinal_opening {existing : Snapshot} {desired : DesiredSchema} :
    ∀ event ∈ opening existing desired, event.kind.isFinal = false := by
  simp [opening, extracted, started, or_imp, forall_and, Event.plain, EventKind.isFinal]

namespace Course

variable {target root : String} {files : Tree} {answered : Except Error Snapshot} {found : Except Error FoundScripts}
  {dryRun : Bool} {events : List Event} {result : Except Error Report}
  (course : Course target root files answered found dryRun events result)

include course

theorem events_eq_nil (unfit : ¬Admitted target root files) : events = [] := by
  cases course with
  | unplanned planning =>
    cases planning with
    | refused => rfl
    | unanswered admitted => exact absurd admitted unfit
    | unfound admitted => exact absurd admitted unfit
  | planned planning =>
    cases planning with
    | planned admitted => exact absurd admitted unfit

theorem tellEnd {existing : Snapshot} {scripts : FoundScripts} (admitted : Admitted target root files)
    (answers : answered = .ok existing) (loaded : found = .ok scripts) : TellEnd events result := by
  cases course with
  | unplanned planning =>
    cases planning with
    | refused unfit => exact absurd admitted unfit
    | unanswered _ failed => cases answers.symm.trans failed
    | unfound _ _ failed => cases loaded.symm.trans failed
  | planned planning ending =>
    cases planning with
    | planned => exact ending.tellEnd.after isFinal_opening

end Course

section Run

variable {σ : Type} (source : SchemaSource σ) (execute : Executor σ) (finder : Finder σ) {target root : String}

/-- What is not admitted is refused before anything is done. -/
theorem plan_refused (world : World Entry σ) (unfit : ¬Admitted target root world.files) :
    ∃ error, (plan source finder target root).perform world = (.error error, world) := by
  rw [plan, perform_bind, perform_ofExcept]
  cases named : requireTarget target with
  | error error => exact ⟨error, rfl⟩
  | ok _ =>
    rcases refused_of_not_admitted unfit with blank | ⟨error, refused⟩
    · rw [requireTarget, blank] at named
      cases named
    · dsimp only
      rw [perform_bind_ok (perform_files world), refused]
      exact ⟨error, perform_bind_error (perform_ofExcept _ _) _⟩

theorem desired_tells {found : FoundScripts} {world : World Entry σ}
    (given : ((finder root).perform ⟨world.files, world.remote, []⟩).1 = .ok found) :
    Tells (Definitions.desired finder root) world (.ok (desiredOf found))
      ((desiredOf found).warnings.map (.plain .warning) ++
        [.plain .info ("Parsed " ++ countsByKind (desiredOf found).snapshot)]) := by
  have loaded := Tells.logged (load finder root) world
  rw [perform_load finder root given] at loaded
  rw [desiredOf, ← SetReading.reported_entries]
  exact loaded.bind ((Tells.recordAll _ _).bind ((Tells.emit _ _).bind (.pure _ _)))

theorem desired_tells_error {error : Error} {world : World Entry σ}
    (given : ((finder root).perform ⟨world.files, world.remote, []⟩).1 = .error error) :
    Tells (Definitions.desired finder root) world (.error error) [] := by
  have failed : (load finder root).perform ⟨world.files, world.remote, []⟩ = (.error error, _) :=
    perform_bind_error (Prod.ext given rfl) _
  have loaded := Tells.logged (load finder root) world
  rw [failed] at loaded
  exact loaded.bind_error _

theorem plan_tells (target root : String) (world : World Entry σ) :
    let answered := (source.snapshot target).perform ⟨world.files, world.remote, []⟩
    let found := (finder root).perform ⟨answered.2.files, answered.2.remote, []⟩
    ∃ events result, Tells (plan source finder target root) world result events ∧
      Planning target root world.files answered.1 found.1 events result := by
  intro answered found
  -- Planning stops at the first of the checks, the answer and the scripts that fails.
  by_cases admitted : Admitted target root world.files
  · have named : requireTarget target = .ok () := by
      rw [requireTarget, admitted.placed]
      rfl
    have valid := validateRoot_eq admitted
    have reading (earlier : List Entry) : Tells (logged (source.snapshot target))
        ⟨world.files, world.remote, earlier⟩ answered.1 [] := .logged _ _
    refine (Tells.ofExcept named _).goOn ((Tells.files _).goOn ((Tells.ofExcept valid _).goOn ?_))
    refine (Tells.announce _ _ _).goOn ?_
    cases answers : answered.1 with
    | error error =>
      rw [answers] at reading
      exact ⟨_, _, (reading _).bind_error _, .unanswered admitted rfl⟩
    | ok existing =>
      rw [answers] at reading
      refine (reading _).goOn ((Tells.announce _ _ _).goOn ((Tells.announce _ _ _).goOn ?_))
      cases loaded : found.1 with
      | error error => exact ⟨_, _, (desired_tells_error finder loaded).bind_error _, .unfound admitted rfl rfl⟩
      | ok scripts =>
        refine (desired_tells finder loaded).goOn ?_
        refine ⟨_, _, (Tells.recordAll _ _).bind ((Tells.announce _ _ _).bind
          ((Tells.announce _ _ _).bind (.pure _ _))), ?_⟩
        have planned := @Planning.planned target root world.files (.ok existing) (.ok scripts) existing scripts
          admitted rfl rfl
        rw [reported_warnings]
        simpa only [opening, extracted, started, planOf, List.append_assoc, List.nil_append, List.append_nil,
          List.cons_append, List.singleton_append] using planned
  · obtain ⟨error, refused⟩ := plan_refused source finder world admitted
    exact ⟨[], .error error, ⟨congrArg Prod.fst refused, by rw [refused, List.append_nil]⟩, .refused admitted⟩

theorem apply_tells (plan : Plan) (world : World Entry σ) :
    ∃ events result, Tells (apply execute plan) world result events ∧ Ending plan false events result := by
  rw [apply]
  split
  · next none =>
    exact ⟨_, _, (Tells.announce _ _ _).bind (.pure _ _), .upToDate rfl (List.length_eq_zero_iff.mp none)⟩
  · next some =>
    have needed : plan.changes.steps ≠ [] := fun none => some (List.length_eq_zero_iff.mpr none)
    refine (Tells.announce _ _ _).goOn ?_
    generalize (Action.perform _ _).2 = before
    obtain ⟨events, result, told, executions, course⟩ :=
      Apply.steps_tell execute plan.target plan.changes.steps before
    have count : plan.changes.total = plan.changes.steps.length := rfl
    generalize place : plan.changes.steps = steps at course told count ⊢
    cases course with
    | all =>
      refine ⟨_, _, told.bind ((Tells.emit _ _).bind (.pure _ _)), ?_⟩
      have applied : Ending plan false _ _ := .applied rfl needed
      rw [place, count] at applied
      rw [count, List.length_nil, Nat.zero_add, List.append_nil]
      exact applied
    | stopped done step rest cause =>
      refine ⟨_, _, told.bind_error _, ?_⟩
      have stopped : Ending plan false _ _ := @Ending.stopped plan false done rest step cause _ rfl place rfl
      rw [place, count] at stopped
      rw [count]
      exact stopped

theorem run_tells (target root : String) (dryRun : Bool) (world : World Entry σ) :
    let answered := (source.snapshot target).perform ⟨world.files, world.remote, []⟩
    let found := (finder root).perform ⟨answered.2.files, answered.2.remote, []⟩
    ∃ events result, Tells (run source execute finder target root dryRun) world result events ∧
      Course target root world.files answered.1 found.1 dryRun events result := by
  intro answered found
  obtain ⟨opening, planned, told, planning⟩ := plan_tells source finder target root world
  cases planned with
  | error error => exact ⟨_, _, told.bind_error _, .unplanned planning⟩
  | ok plan =>
    refine told.goOn ?_
    cases dryRun with
    | true => exact ⟨_, _, (Tells.announce _ _ _).bind (.pure _ _), .planned planning (.dry rfl)⟩
    | false =>
      obtain ⟨events, result, ended, ending⟩ := apply_tells execute plan _
      exact ⟨_, _, ended, .planned planning ending⟩

theorem requests_eq_nil {world : World Entry σ} (dryRun : Bool) (unfit : ¬Admitted target root world.files) :
    (run source.asked execute.asked finder.beside target root dryRun).requests world = [] := by
  obtain ⟨error, refused⟩ := plan_refused source.asked finder.beside world.unnoted unfit
  rw [requests, run, perform_bind_error refused]
  rfl

/-- However the database, the files and the executor behave, a run reports what belongs to its course. Where there is a
plan, the last event, and none before, tells how the run ended. What is not admitted is refused without an event, and
before anything is asked for. -/
theorem events_of_run (target root : String) (dryRun : Bool) (world : World Entry σ) :
    let answered := (source.snapshot target).perform ⟨world.files, world.remote, []⟩
    let found := (finder root).perform ⟨answered.2.files, answered.2.remote, []⟩
    ∃ events result, Tells (run source execute finder target root dryRun) world result events ∧
      Course target root world.files answered.1 found.1 dryRun events result ∧
      (∀ existing scripts, Admitted target root world.files ∧ answered.1 = .ok existing ∧ found.1 = .ok scripts →
        TellEnd events result) ∧
      (¬Admitted target root world.files → events = [] ∧
        (run source.asked execute.asked finder.beside target root dryRun).requests world = []) := by
  intro answered found
  obtain ⟨events, result, told, course⟩ := run_tells source execute finder target root dryRun world
  exact ⟨events, result, told, course,
    fun existing scripts ⟨admitted, answers, loaded⟩ => course.tellEnd admitted answers loaded,
    fun unfit => ⟨course.events_eq_nil unfit, requests_eq_nil source execute finder dryRun unfit⟩⟩

end Run

end Reconcile

end SchemaSync
