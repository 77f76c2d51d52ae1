import SchemaSync.Proofs.Plan.Tally
import SchemaSync.Proofs.Run.EventStream

/-! The account of a run by its report, whatever the database, the files and the executor do. A report counts what
separates the database from the definition set, a dry run asks the executor for nothing, and a run that is not dry and
returns has asked it for each step, once and in order. -/

namespace SchemaSync

def Firebird.Request.isExecution : Firebird.Request → Bool
  | .execute _ _ => true
  | .domains _ | .tables _ | .procedures _ | .createEmpty _ => false

def Asked.SparesExecutor (asked : Asked) : Prop :=
  asked.request.isExecution = false

namespace Action

variable {ε σ α β ρ : Type}

def executorCalls (action : Action ε (σ × List Asked) α) (world : World ε σ) : List Asked :=
  (action.requests world).filter (·.request.isExecution)

/-- An action whose notes are all of one sort. -/
def Asks (sort : ρ → Prop) (action : Action ε (σ × List ρ) α) : Prop :=
  ∀ world, ∃ result notes, Leaves action world result notes ∧ ∀ note ∈ notes, sort note

namespace Asks

variable {sort : ρ → Prop} {action : Action ε (σ × List ρ) α}

theorem bind (first : Asks sort action) {next : α → Action ε (σ × List ρ) β}
    (second : ∀ value, Asks sort (next value)) : Asks sort (action >>= next) := by
  intro world
  obtain ⟨result, notes, leaves, sorted⟩ := first world
  cases result with
  | error error => exact ⟨.error error, notes, leaves.bind_error next, sorted⟩
  | ok value =>
    obtain ⟨last, more, others, sortedMore⟩ := second value (action.perform world).2
    exact ⟨last, notes ++ more, leaves.bind others, List.forall_mem_append.mpr ⟨sorted, sortedMore⟩⟩

theorem of_nothing {action : Action ε (σ × List ρ) α} (silent : ∀ world, ∃ result, Leaves action world result []) :
    Asks sort action := by
  intro world
  obtain ⟨result, leaves⟩ := silent world
  exact ⟨result, [], leaves, fun _ => nofun⟩

theorem pure (value : α) : Asks sort (Pure.pure value : Action ε (σ × List ρ) α) :=
  of_nothing fun world => ⟨_, .pure value world⟩

theorem ofExcept (result : Except Error α) : Asks sort (Action.ofExcept result : Action ε (σ × List ρ) α) :=
  of_nothing fun world => ⟨_, .ofExcept rfl world⟩

theorem files : Asks sort (Action.files : Action ε (σ × List ρ) Tree) :=
  of_nothing fun world => ⟨_, .files world⟩

theorem recordAll (entries : List ε) : Asks sort (Action.recordAll entries : Action ε (σ × List ρ) Unit) :=
  of_nothing fun world => ⟨_, .recordAll entries world⟩

theorem announce (kind : EventKind) (message : String) :
    Asks sort (Action.announce kind message : Action Entry (σ × List ρ) Unit) :=
  of_nothing fun world => ⟨_, .announce kind message world⟩

theorem request {sort : Asked → Prop} {action : Action ε σ α} (request : Firebird.Request)
    (sorted : ∀ result, sort ⟨request, result⟩) :
    Asks sort (action.noting fun result => [⟨request, result.map fun _ => ()⟩]) :=
  fun world => ⟨_, _, .noting _ _ world, List.forall_mem_singleton.mpr (sorted _)⟩

theorem logged {action : Action LogRecord (σ × List ρ) α} (asks : Asks sort action) : Asks sort action.logged := by
  intro world
  obtain ⟨result, notes, leaves, sorted⟩ := asks ⟨world.files, world.remote, []⟩
  exact ⟨result, notes, leaves.logged, sorted⟩

end Asks

end Action

namespace Reconcile

open SchemaSync.Action Definitions

def carriedOut (plan : Plan) : List Asked :=
  plan.changes.steps.map fun step => ⟨.execute plan.target step.sql, .ok ()⟩

/-- How a run goes where planning ends as it is given, by what it asks for after planning and how it ends. -/
inductive Outcome (planned : Except Error Plan) (dryRun : Bool) : List Asked → Except Error Report → Prop
  | unplanned {error : Error} (failed : planned = .error error) : Outcome planned dryRun [] (.error error)
  | dry {plan : Plan} (made : planned = .ok plan) (wanted : dryRun = true) :
      Outcome planned dryRun [] (.ok (.ofPlan plan 0 true))
  | applied {plan : Plan} (made : planned = .ok plan) (wanted : dryRun = false) :
      Outcome planned dryRun (carriedOut plan) (.ok (.ofPlan plan plan.changes.total false))
  | stopped {asked : List Asked} {error : Error} (wanted : dryRun = false) : Outcome planned dryRun asked (.error error)

theorem filter_carriedOut (plan : Plan) : (carriedOut plan).filter (·.request.isExecution) = carriedOut plan := by
  rw [List.filter_eq_self]
  intro asked member
  obtain ⟨step, _, rfl⟩ := List.mem_map.mp member
  rfl

namespace Outcome

variable {planned : Except Error Plan} {dryRun : Bool} {asked : List Asked} {report : Report}

/-- A run that returns has followed its plan to the end, or it was a dry run. -/
theorem returned (outcome : Outcome planned dryRun asked (.ok report)) : ∃ plan, planned = .ok plan ∧
    report = .ofPlan plan asked.length dryRun ∧ asked = if dryRun then [] else carriedOut plan := by
  cases outcome with
  | dry made wanted =>
    subst wanted
    exact ⟨_, made, rfl, rfl⟩
  | applied made wanted =>
    subst wanted
    exact ⟨_, made, congrArg (Report.ofPlan _ · false) (List.length_map _).symm, rfl⟩

theorem filter_asked (outcome : Outcome planned dryRun asked (.ok report)) :
    asked.filter (·.request.isExecution) = asked := by
  cases outcome with
  | dry => rfl
  | applied => exact filter_carriedOut _

theorem asks_nothing {result : Except Error Report} (outcome : Outcome planned true asked result) : asked = [] := by
  cases outcome with
  | unplanned | dry => rfl
  | applied _ wanted | stopped wanted => cases wanted

/-- After the same planning a dry run reports what the run itself does, but for the steps carried out. -/
theorem dry_of_returned {later : List Asked} {result : Except Error Report}
    (outcome : Outcome planned false asked (.ok report)) (dry : Outcome planned true later result) :
    result = .ok { report with statementsExecuted := 0, dryRun := true } := by
  obtain ⟨plan, made, rfl, -⟩ := outcome.returned
  cases dry with
  | unplanned failed =>
    rw [made] at failed
    cases failed
  | dry again =>
    rw [made] at again
    cases again
    rfl
  | applied _ wanted | stopped wanted => cases wanted

end Outcome

variable {σ : Type} (source : SchemaSource σ) (execute : Executor σ) (finder : Finder σ) (target root : String)

theorem plan_asks : Asks Asked.SparesExecutor (plan source.asked finder.beside target root) := by
  have domains : Asks Asked.SparesExecutor (source.asked.domains target) :=
    .request (.domains target) fun _ => rfl
  have tables : Asks Asked.SparesExecutor (source.asked.tables target) :=
    .request (.tables target) fun _ => rfl
  have procedures : Asks Asked.SparesExecutor (source.asked.procedures target) :=
    .request (.procedures target) fun _ => rfl
  have snapshot : Asks Asked.SparesExecutor (source.asked.snapshot target) :=
    domains.bind fun _ => tables.bind fun _ => procedures.bind fun _ => .pure _
  have loads : Asks Asked.SparesExecutor (load finder.beside root) :=
    .of_nothing fun world => ⟨_, load_leaves finder root world⟩
  refine (Asks.ofExcept _).bind fun _ => Asks.files.bind fun _ => (Asks.ofExcept _).bind fun _ => ?_
  refine (Asks.announce _ _).bind fun _ => snapshot.logged.bind fun _ => (Asks.announce _ _).bind fun _ => ?_
  refine (Asks.announce _ _).bind fun _ => Asks.bind ?_ fun _ => (Asks.recordAll _).bind fun _ =>
    (Asks.announce _ _).bind fun _ => (Asks.announce _ _).bind fun _ => .pure _
  exact loads.logged.bind fun _ => (Asks.recordAll _).bind fun _ => (Asks.announce _ _).bind fun _ => .pure _

theorem plan_mirrors : Mirrors (plan source.asked finder.beside target root) (plan source finder target root) := by
  have domains : Mirrors (source.asked.domains target) (source.domains target) := .noting _ _
  have tables : Mirrors (source.asked.tables target) (source.tables target) := .noting _ _
  have procedures : Mirrors (source.asked.procedures target) (source.procedures target) := .noting _ _
  have snapshot : Mirrors (source.asked.snapshot target) (source.snapshot target) :=
    domains.bind fun _ => tables.bind fun _ => procedures.bind fun _ => .pure _
  refine (Mirrors.ofExcept _).bind fun _ => Mirrors.files.bind fun _ => (Mirrors.ofExcept _).bind fun _ => ?_
  refine (Mirrors.emit _).bind fun _ => snapshot.logged.bind fun _ => (Mirrors.emit _).bind fun _ => ?_
  refine (Mirrors.emit _).bind fun _ => Mirrors.bind ?_ fun _ => (Mirrors.recordAll _).bind fun _ =>
    (Mirrors.emit _).bind fun _ => (Mirrors.emit _).bind fun _ => .pure _
  exact (load_mirrors finder root).logged.bind fun _ => (Mirrors.recordAll _).bind fun _ =>
    (Mirrors.emit _).bind fun _ => .pure _

theorem apply_mirrors (plan : Plan) : Mirrors (apply execute.asked plan) (apply execute plan) := by
  rw [apply, apply]
  split
  · exact (Mirrors.emit _).bind fun _ => .pure _
  · refine (Mirrors.emit _).bind fun _ => ?_
    refine Mirrors.bind (Apply.stepsFrom_mirrors (fun _ _ => .noting _ _) _ _ _ _) fun _ => ?_
    exact (Mirrors.emit _).bind fun _ => .pure _

theorem run_mirrors (dryRun : Bool) : Mirrors (run source.asked execute.asked finder.beside target root dryRun)
    (run source execute finder target root dryRun) := by
  refine (plan_mirrors source finder target root).bind fun plan => ?_
  cases dryRun with
  | true => exact (Mirrors.emit _).bind fun _ => .pure _
  | false => exact apply_mirrors execute plan

theorem apply_leaves (plan : Plan) (world : World Entry (σ × List Asked)) :
    ∃ asked result, Leaves (apply execute.asked plan) world result asked ∧ Outcome (.ok plan) false asked result := by
  have applied : Outcome (.ok plan) false _ _ := .applied rfl rfl
  rw [apply]
  split
  · next none =>
    have empty : plan.changes.steps = [] := List.length_eq_zero_iff.mp none
    rw [carriedOut, empty, none] at applied
    exact ⟨_, _, (Leaves.announce _ _ _).bind (.pure _ _), applied⟩
  · refine (Leaves.announce _ _ _).goOn ?_
    generalize (Action.perform _ _).2 = before
    obtain ⟨executions, events, result, leaves, course⟩ :=
      Apply.steps_leave execute plan.target plan.changes.steps before
    have count : plan.changes.total = plan.changes.steps.length := rfl
    rw [carriedOut, count] at applied
    generalize plan.changes.steps = steps at course leaves applied
    cases course with
    | all =>
      refine ⟨_, _, leaves.bind ((Leaves.recordAll (Event.entries _) _).bind (.pure _ _)), ?_⟩
      rw [Apply.executed, List.map_map, List.length_nil, Nat.zero_add, List.nil_append, List.append_nil,
        List.append_nil]
      exact applied
    | stopped done step rest cause => exact ⟨_, _, leaves.bind_error _, .stopped rfl⟩

/-- A run asks an executor for nothing before there is a plan. -/
theorem run_leaves (dryRun : Bool) (world : World Entry (σ × List Asked)) : ∃ earlier asked result,
    Leaves (run source.asked execute.asked finder.beside target root dryRun) world result (earlier ++ asked) ∧
      (∀ note ∈ earlier, note.SparesExecutor) ∧
      Outcome ((plan source.asked finder.beside target root).perform world).1 dryRun asked result := by
  obtain ⟨planned, earlier, leaves, spares⟩ := plan_asks source finder target root world
  rw [leaves.result]
  cases planned with
  | error error =>
    exact ⟨earlier, [], .error error, (leaves.bind_error _).congr (List.append_nil _).symm, spares, .unplanned rfl⟩
  | ok plan =>
    cases dryRun with
    | true => exact ⟨earlier, _, _, leaves.bind ((Leaves.announce _ _ _).bind (.pure _ _)), spares, .dry rfl rfl⟩
    | false =>
      obtain ⟨asked, result, later, outcome⟩ := apply_leaves execute plan _
      exact ⟨earlier, asked, result, leaves.bind later, spares, outcome⟩

/-- What a run asks an executor for belongs to its outcome. -/
theorem run_outcome (dryRun : Bool) (world : World Entry σ) : ∃ asked,
    (run source.asked execute.asked finder.beside target root dryRun).executorCalls world =
      asked.filter (·.request.isExecution) ∧
    Outcome ((plan source finder target root).perform world).1 dryRun asked
      ((run source execute finder target root dryRun).perform world).1 := by
  obtain ⟨earlier, asked, result, leaves, spares, outcome⟩ :=
    run_leaves source execute finder target root dryRun world.unnoted
  have planned : (plan source finder target root).perform world = _ :=
    plan_mirrors source finder target root world.unnoted
  have ran : (run source execute finder target root dryRun).perform world = _ :=
    run_mirrors source execute finder target root dryRun world.unnoted
  have requests : (run source.asked execute.asked finder.beside target root dryRun).requests world = earlier ++ asked :=
    leaves.notes
  have spared : earlier.filter (·.request.isExecution) = [] := by
    rw [List.filter_eq_nil_iff]
    exact fun note member => Bool.not_eq_true _ ▸ spares note member
  refine ⟨asked, ?_, ?_⟩
  · rw [executorCalls, requests, List.filter_append, spared, List.nil_append]
  · rw [planned, ran, leaves.result]
    exact outcome

/-- Whatever is planned, there is an existing schema that was read and there are scripts that were found. -/
theorem planned_of_run {world : World Entry σ} {plan : Plan}
    (made : ((Reconcile.plan source finder target root).perform world).1 = .ok plan) :
    let answered := (source.snapshot target).perform ⟨world.files, world.remote, []⟩
    let found := (finder root).perform ⟨answered.2.files, answered.2.remote, []⟩
    ∃ existing scripts, answered.1 = .ok existing ∧ found.1 = .ok scripts ∧
      plan = planOf target existing (desiredOf scripts) := by
  intro answered found
  obtain ⟨events, result, told, planning⟩ := plan_tells source finder target root world
  rw [told.result] at made
  subst made
  cases planning with
  | planned admitted answers loaded => exact ⟨_, _, answers, loaded, rfl⟩

theorem distinct_desiredOf (scripts : FoundScripts) : (desiredOf scripts).snapshot.DistinctObjects :=
  have gathers := SetReading.gathers_desired (.ofFound scripts)
  ⟨gathers.domains.distinct, gathers.tables.distinct, gathers.procedures.distinct⟩

/-- However the database, the files and the executor behave, the report of a run that returns counts what separates the
database from the definition set, and the executor was asked for as many steps as the report says. A dry run asks the
executor for nothing, whether it returns or not. Any other run that returns has asked it for the steps of the plan, each
one once and in order, and a dry run would have reported the same. -/
theorem report_of_run (world : World Entry σ) :
    let answered := (source.snapshot target).perform ⟨world.files, world.remote, []⟩
    let found := (finder root).perform ⟨answered.2.files, answered.2.remote, []⟩
    let returned dryRun := ((run source execute finder target root dryRun).perform world).1
    let calls dryRun := (run source.asked execute.asked finder.beside target root dryRun).executorCalls world
    (∀ dryRun report, returned dryRun = .ok report → ∃ existing scripts,
      answered.1 = .ok existing ∧ found.1 = .ok scripts ∧
      (existing.DistinctObjects → report.Tallies existing (desiredOf scripts)) ∧
      report.statementsExecuted = (calls dryRun).length ∧
      calls dryRun = if dryRun then [] else (ChangeSet.between existing (desiredOf scripts)).steps.map fun step =>
        ⟨.execute target step.sql, .ok ()⟩) ∧
    calls true = [] ∧
    ∀ report, returned false = .ok report → report.statementsExecuted = report.statementsPlanned ∧
      returned true = .ok { report with statementsExecuted := 0, dryRun := true } := by
  intro answered found returned calls
  have outcome (dryRun : Bool) {result : Except Error Report} (ends : returned dryRun = result) : ∃ asked,
      calls dryRun = asked.filter (·.request.isExecution) ∧
        Outcome ((Reconcile.plan source finder target root).perform world).1 dryRun asked result :=
    ends ▸ run_outcome source execute finder target root dryRun world
  refine ⟨fun dryRun report reported => ?_, ?_, fun report reported => ?_⟩
  · obtain ⟨asked, called, done⟩ := outcome dryRun reported
    obtain ⟨plan, made, rfl, asks⟩ := done.returned
    obtain ⟨existing, scripts, answers, loaded, rfl⟩ := planned_of_run source finder target root made
    rw [called, done.filter_asked]
    exact ⟨existing, scripts, answers, loaded,
      fun distinct => Report.tallies_ofPlan distinct (distinct_desiredOf scripts) rfl, rfl, asks⟩
  · obtain ⟨asked, called, done⟩ := outcome true rfl
    rw [called, done.asks_nothing, List.filter_nil]
  · obtain ⟨_, _, done⟩ := outcome false reported
    obtain ⟨_, _, dry⟩ := outcome true rfl
    refine ⟨?_, done.dry_of_returned dry⟩
    obtain ⟨plan, -, rfl, asks⟩ := done.returned
    rw [asks]
    exact List.length_map _

/-- A database with one domain. -/
def labelSource : SchemaSource Unit where
  domains _ := pure [⟨"LABEL", "VARCHAR(10)", none, none, none, true, none, by decide⟩]
  tables _ := pure []
  procedures _ := pure []

def labelScripts : FoundScripts where
  groups := some {
    domains := [
      ⟨.ofString "definitions/domains/label.sql", "create domain label as varchar(20) not null;"⟩,
      ⟨.ofString "definitions/domains/code.sql", "create domain code as integer;"⟩] }

/-- A domain that differs in two ways is altered by two statements and counted once. -/
theorem report_of_run_label :
    let ran dryRun := run labelSource (fun _ _ => pure ()) (fun _ => pure labelScripts) "db" "." dryRun
    let calls dryRun := (run labelSource.asked (Executor.asked fun _ _ => pure ())
      (Finder.beside fun _ => pure labelScripts) "db" "." dryRun).executorCalls ⟨.empty [], (), []⟩
    ((ran true).perform ⟨.empty [], (), []⟩).1 = .ok {
      domainsCreated := 1, domainsAltered := 1, tablesCreated := 0, tablesAltered := 0, proceduresReplaced := 0
      statementsPlanned := 3, statementsExecuted := 0, dryRun := true, warnings := [] } ∧
    calls true = [] ∧ (calls false).length = 3 := by
  intro ran calls
  obtain ⟨account, none, same⟩ := report_of_run labelSource (fun _ _ => pure ()) (fun _ => pure labelScripts)
    "db" "." ⟨.empty [], (), []⟩
  have returned : ((ran false).perform ⟨.empty [], (), []⟩).1 = .ok {
      domainsCreated := 1, domainsAltered := 1, tablesCreated := 0, tablesAltered := 0, proceduresReplaced := 0
      statementsPlanned := 3, statementsExecuted := 3, dryRun := false, warnings := [] } := by
    decide +kernel
  obtain ⟨_, _, _, _, _, count, _⟩ := account false _ returned
  exact ⟨(same _ returned).2, none, count.symm⟩

end Reconcile

end SchemaSync
