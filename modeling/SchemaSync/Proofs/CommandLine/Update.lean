import SchemaSync.CommandLine.Plain
import SchemaSync.Proofs.CommandLine.Shown
import SchemaSync.Proofs.Files.Detour
import SchemaSync.Proofs.Run.EventStream
import SchemaSync.Proofs.Run.Gives
import SchemaSync.Proofs.Run.Planning

/-! The account of an update, whatever the files, the driver and the user do. Statements reach the driver only when the
user has agreed to the steps that were shown, and the exit code tells what became of them. -/

namespace SchemaSync

open Firebird

/-- What was read before the steps are run leaves the account of the steps as it is. -/
theorem Applied.after {steps : List Step} {first calls : List Call} {result : Except Error Nat}
    (reads : Settles first [] []) (applied : Applied 0 steps calls result) : Applied 0 steps (first ++ calls) result := by
  cases applied with
  | all full settles => exact .all full (reads.append settles)
  | stopped failure before rest ran left n place count full batch cut single settles =>
    exact .stopped failure before rest ran left n place count full batch cut single (reads.append settles)

theorem CommitsPrefix.reached_prefix {α : Type} {steps : List Step} {calls : List Call} {result : Except Error α}
    (commits : CommitsPrefix steps calls result) :
    Firebird.reached calls <+: steps.flatMap Step.statements := by
  rw [commits.reached]
  cases result with
  | ok value =>
    rw [commits.clean ⟨value, rfl⟩, List.append_nil]
    exact commits.committed
  | error error =>
    obtain ⟨failure, before, rest, ran, left, _, place, _, batch, _, committed, rolledBack⟩ := commits.fails error rfl
    have tried : (Ledger.of calls).rolledBack <+: left := rolledBack.trans (List.take_prefix 1 left)
    have whole : steps.flatMap Step.statements =
        before.flatMap Step.statements ++ ran ++ (left ++ rest.flatMap Step.statements) := by
      simp [place, batch]
    rw [committed, whole, List.prefix_append_right_inj]
    exact tried.trans (List.prefix_append _ _)

namespace CommandLine

/-- What an update shows first. -/
def updateHead (request : UpdateRequest) : List Item :=
  Item.ofCommand "Update database" [("Database", request.database), ("Scripts", request.scripts.toString)]

def asking (request : UpdateRequest) (steps : List Step) : List Item :=
  Item.confirmation (question request steps)

/-- An update is about to end or to show its plan: it has shown its head, nobody was asked anything, and no statement has
reached the driver. -/
structure Begun (request : UpdateRequest) (calls : List Call) (items : List Item) : Prop where
  headed : updateHead request <+: items
  unasked : Unasked items
  reads : Settles calls [] []

/-- The user has agreed to some steps: there are such steps and they were shown, the run is not dry, and the user has
agreed in advance or when asked. -/
structure Agreed (setting : Setting) (request : UpdateRequest) (steps : List Step) (items : List Item) : Prop where
  needed : steps ≠ []
  headed : updateHead request <+: items
  displayed : stepItems request steps <:+: items
  wet : request.dryRun = false
  agreed : request.yes = true ∧ Unasked items ∨
    request.yes = false ∧ asking request steps <:+: items ∧ setting.consent = true

theorem Agreed.append {setting : Setting} {request : UpdateRequest} {steps : List Step} {items more : List Item}
    (agreed : Agreed setting request steps items) (quiet : Unasked more) : Agreed setting request steps (items ++ more) where
  needed := agreed.needed
  headed := agreed.headed.trans (List.prefix_append _ _)
  displayed := agreed.displayed.trans (List.prefix_append _ _).isInfix
  wet := agreed.wet
  agreed := agreed.agreed.imp (fun given => ⟨given.1, given.2.append quiet⟩)
    fun given => ⟨given.1, given.2.1.trans (List.prefix_append _ _).isInfix, given.2.2⟩

/-- How an update goes, by its calls, what it shows and its result, where planning ends as it is given. -/
inductive Course (setting : Setting) (request : UpdateRequest) (planned : Except Error Plan) :
    List Call → List Item → Except Error Nat → Prop
  | unheaded {shown : List Item} {reason : String} (cut : Cut setting.screen (updateHead request) shown reason) :
      Course setting request planned [] shown (.error (.unprintable reason))
  | misused {error : Error} {calls : List Call} {items last : List Item} {result : Except Error Nat}
      (failed : planned = .error error) (blame : error.IsArgument ∨ ∃ path, error = .definitionsNotFound path)
      (begun : Begun request calls items) (ending : Ending setting.screen [.failure error.message] 2 last result) :
      Course setting request planned calls (items ++ last) result
  | unread {failure : DatabaseError} {calls : List Call} {items last : List Item} {result : Except Error Nat}
      (failed : planned = .error (.database failure)) (begun : Begun request calls items)
      (ending : Ending setting.screen [.failure (Error.database failure).message] 1 last result) :
      Course setting request planned calls (items ++ last) result
  | unfollowed {failure : FileError} {calls : List Call} {items : List Item} (failed : planned = .error (.file failure))
      (untold : failure.fault.meansAbsent = false) (begun : Begun request calls items) :
      Course setting request planned calls items (.error (.file failure))
  | unneeded {plan : Plan} {calls : List Call} {items last : List Item} {result : Except Error Nat}
      (plans : planned = .ok plan) (none : plan.changes.steps = []) (begun : Begun request calls items)
      (ending : Ending setting.screen [.info "Database is up to date; nothing to apply."] 0 last result) :
      Course setting request planned calls (items ++ last) result
  | dry {plan : Plan} {calls : List Call} {items last : List Item} {result : Except Error Nat}
      (plans : planned = .ok plan) (needed : plan.changes.steps ≠ []) (asked : request.dryRun = true)
      (begun : Begun request calls items)
      (ending : Ending setting.screen (stepItems request plan.changes.steps ++
        [.info ("Dry run: " ++ toString plan.changes.steps.length ++ " statement(s) not applied.")]) 0 last result) :
      Course setting request planned calls (items ++ last) result
  | declined {plan : Plan} {calls : List Call} {items last : List Item} {result : Except Error Nat}
      (plans : planned = .ok plan) (needed : plan.changes.steps ≠ []) (wet : request.dryRun = false)
      (asked : request.yes = false) (declines : setting.consent = false) (begun : Begun request calls items)
      (ending : Ending setting.screen (stepItems request plan.changes.steps ++ (asking request plan.changes.steps ++
        [.warning "Aborted. Nothing was applied."])) 0 last result) :
      Course setting request planned calls (items ++ last) result
  | undisplayed {plan : Plan} {calls : List Call} {items shown : List Item} {reason : String}
      (plans : planned = .ok plan) (needed : plan.changes.steps ≠ []) (wet : request.dryRun = false)
      (agrees : request.yes = true ∨ setting.consent = true) (begun : Begun request calls items)
      (cut : Cut setting.screen (stepItems request plan.changes.steps ++
        if request.yes then [] else asking request plan.changes.steps) shown reason) :
      Course setting request planned calls (items ++ shown) (.error (.unprintable reason))
  | applied {plan : Plan} {calls : List Call} {items last : List Item} {executed : Nat} {result : Except Error Nat}
      (plans : planned = .ok plan) (agreed : Agreed setting request plan.changes.steps (items ++ last))
      (commits : CommitsPrefix plan.changes.steps calls (.ok executed))
      (ending : Ending setting.screen
        [.ofReport (.ofPlan plan executed false), .success ("Database updated: " ++ request.database)] 0 last result) :
      Course setting request planned calls (items ++ last) result
  | stopped {plan : Plan} {calls : List Call} {items last : List Item} {failure : StepFailure}
      {result : Except Error Nat} (plans : planned = .ok plan)
      (agreed : Agreed setting request plan.changes.steps (items ++ last))
      (commits : CommitsPrefix plan.changes.steps calls (.error (.step failure) : Except Error Nat))
      (ending : Ending setting.screen (Item.ofFailure failure) 1 last result) :
      Course setting request planned calls (items ++ last) result

theorem unasked_updateHead (request : UpdateRequest) : Unasked (updateHead request) := by
  refine List.forall_mem_cons.mpr ⟨rfl, fun item member => ?_⟩
  obtain ⟨field, _, rfl⟩ := List.mem_map.mp member
  rfl

theorem unasked_stepItems (request : UpdateRequest) (steps : List Step) : Unasked (stepItems request steps) := by
  refine List.forall_mem_cons.mpr ⟨rfl, fun item member => ?_⟩
  split at member
  · obtain ⟨step, _, given⟩ := List.mem_flatMap.mp member
    rcases List.mem_cons.mp given with rfl | given
    · rfl
    · rw [List.mem_singleton.mp given]
      rfl
  · cases member

theorem unasked_singleton {item : Item} (other : item.isQuestion = false) : Unasked [item] :=
  List.forall_mem_singleton.mpr other

theorem Begun.ended {screen : Screen} {request : UpdateRequest} {calls : List Call} {items more last : List Item}
    {code : Nat} {result : Except Error Nat} (begun : Begun request calls items)
    (ending : Ending screen more code last result) (quiet : Unasked more) : Unasked (items ++ last) :=
  begun.unasked.append (ending.unasked quiet)

namespace Course

variable {setting : Setting} {request : UpdateRequest} {planned : Except Error Plan} {calls : List Call}
  {items : List Item} {result : Except Error Nat} (course : Course setting request planned calls items result)

include course

theorem consent (reaches : reached calls ≠ []) : ∃ plan, planned = .ok plan ∧
    Agreed setting request plan.changes.steps items ∧
    reached calls <+: plan.changes.steps.flatMap Step.statements := by
  have early {items : List Item} (begun : Begun request calls items) : False := reaches begun.reads.reached
  cases course with
  | unheaded => exact absurd rfl reaches
  | misused _ _ begun => exact (early begun).elim
  | unread _ begun => exact (early begun).elim
  | unfollowed _ _ begun => exact (early begun).elim
  | unneeded _ _ begun => exact (early begun).elim
  | dry _ _ _ begun => exact (early begun).elim
  | declined _ _ _ _ _ begun => exact (early begun).elim
  | undisplayed _ _ _ _ begun => exact (early begun).elim
  | applied plans agreed commits => exact ⟨_, plans, agreed, commits.reached_prefix⟩
  | stopped plans agreed commits => exact ⟨_, plans, agreed, commits.reached_prefix⟩

theorem question (asked : ¬Unasked items) : request.yes = false ∧ request.dryRun = false ∧
    ∃ plan, planned = .ok plan ∧ plan.changes.steps ≠ [] := by
  have agreement {steps : List Step} {items : List Item} (agreed : Agreed setting request steps items)
      (asked : ¬Unasked items) : request.yes = false := by
    rcases agreed.agreed with ⟨_, unasked⟩ | ⟨ask, _⟩
    · exact absurd unasked asked
    · exact ask
  cases course with
  | unheaded cut => exact absurd (cut.unasked (unasked_updateHead request)) asked
  | misused _ _ begun ending => exact absurd (begun.ended ending (unasked_singleton rfl)) asked
  | unread _ begun ending => exact absurd (begun.ended ending (unasked_singleton rfl)) asked
  | unfollowed _ _ begun => exact absurd begun.unasked asked
  | unneeded _ _ begun ending => exact absurd (begun.ended ending (unasked_singleton rfl)) asked
  | dry _ _ _ begun ending =>
    exact absurd (begun.ended ending ((unasked_stepItems request _).append (unasked_singleton rfl))) asked
  | declined plans needed wet ask => exact ⟨ask, wet, _, plans, needed⟩
  | undisplayed plans needed wet _ begun cut =>
    refine ⟨?_, wet, _, plans, needed⟩
    cases given : request.yes with
    | false => rfl
    | true =>
      rw [if_pos given, List.append_nil] at cut
      exact absurd (begun.unasked.append (cut.unasked (unasked_stepItems request _))) asked
  | applied plans agreed => exact ⟨agreement agreed asked, agreed.wet, _, plans, agreed.needed⟩
  | stopped plans agreed => exact ⟨agreement agreed asked, agreed.wet, _, plans, agreed.needed⟩

/-- Success is never reached by a failure, and after an agreement it means that all was committed. -/
theorem complete : ∀ plan, planned = .ok plan ∧ Agreed setting request plan.changes.steps items ∧
    exitStatus result = 0 → (Ledger.of calls).committed = plan.changes.steps.flatMap Step.statements := by
  rintro plan ⟨same, agreed, success⟩
  cases course with
  | unheaded => cases success
  | misused failed => cases failed.symm.trans same
  | unread failed => cases failed.symm.trans same
  | unfollowed => cases success
  | unneeded plans none =>
    cases plans.symm.trans same
    exact absurd none agreed.needed
  | dry _ _ dry =>
    rw [agreed.wet] at dry
    cases dry
  | declined _ _ _ ask declines =>
    rcases agreed.agreed with ⟨yes, _⟩ | ⟨_, _, consents⟩
    · rw [ask] at yes
      cases yes
    · rw [declines] at consents
      cases consents
  | undisplayed => cases success
  | applied plans _ commits =>
    cases plans.symm.trans same
    exact (commits.returns.mp ⟨_, rfl⟩).2
  | stopped plans _ _ ending =>
    cases ending with
    | whole => cases success
    | broken => cases success

end Course

section Run

variable (setting : Setting) (server : Server) (verbose : Bool) (request : UpdateRequest)

section CarryOut

variable {planned : Except Error Plan} {plan : Plan} (plans : planned = .ok plan) {first : List Call}

include plans

end CarryOut

end Run

end CommandLine

section Obliging

open SchemaSync.Action

/-- A driver that answers each query with no rows. -/
structure Firebird.Driver.Obliging (driver : Driver) : Prop where
  connects : ∀ calls login, driver.connect calls login = .ok ()
  answers : ∀ calls query, driver.fetch calls query = .ok []

variable {server : Server} (obliging : server.driver.Obliging) {target : String} {files : Tree}
  (named : Text.isBlankText target = false)

include obliging named

end Obliging

namespace CommandLine

end CommandLine

end SchemaSync
