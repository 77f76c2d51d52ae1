import SchemaSync.Proofs.Run.PartialFailure
import SchemaSync.Proofs.Script.Declared

/-! What planning does to a server, and why it may stop. It reads through connections of its own and brings no statement
to the driver. It stops when an argument or the definition set is missing, when the database cannot be read, or when
nobody can tell whether a path leads to something. -/

namespace SchemaSync

open Firebird

inductive Error.StopsPlanning : Error → Prop
  | argument (fault : ArgumentError) : StopsPlanning (.argument fault)
  | definitionsNotFound (path : String) : StopsPlanning (.definitionsNotFound path)
  | database (failure : DatabaseError) : StopsPlanning (.database failure)
  | unfollowed {failure : FileError} (untold : failure.fault.meansAbsent = false) : StopsPlanning (.file failure)

theorem FailsAs.mapM {α β : Type} {sort : Error → Prop} {f : α → Except Error β} {items : List α}
    (each : ∀ item ∈ items, FailsAs sort (f item)) : FailsAs sort (items.mapM f) := by
  induction items with
  | nil => exact .ok []
  | cons item rest ih =>
    rw [List.forall_mem_cons] at each
    rw [List.mapM_cons]
    exact each.1.bind fun value => (ih each.2).bind fun values => .ok (value :: values)

/-- An action that brings no statement to the driver, and that fails only as planning may. -/
def Peruses {ε α : Type} (action : Action ε (List Call) α) : Prop :=
  ∀ world, ∃ result calls, Ends action world result calls ∧ Settles calls [] [] ∧
    FailsAs Error.StopsPlanning result

namespace Peruses

variable {ε ε' α β : Type} {action : Action ε (List Call) α}

theorem ofExcept {result : Except Error α} (fails : FailsAs Error.StopsPlanning result) :
    Peruses (Action.ofExcept result : Action ε (List Call) α) :=
  fun world => ⟨result, [], .ofExcept result world, .nil, fails⟩

theorem pure (value : α) : Peruses (Pure.pure value : Action ε (List Call) α) :=
  fun world => ⟨.ok value, [], .pure value world, .nil, .ok value⟩

theorem fail {error : Error} (stops : error.StopsPlanning) : Peruses (Action.fail error : Action ε (List Call) α) :=
  .ofExcept (.error stops)

theorem bind (first : Peruses action) {next : α → Action ε (List Call) β} (second : ∀ value, Peruses (next value)) :
    Peruses (action >>= next) := by
  intro world
  obtain ⟨result, calls, ends, reads, fails⟩ := first world
  cases result with
  | error error => exact ⟨.error error, calls, ends.bind_error next, reads, .error (fails error rfl)⟩
  | ok value =>
    obtain ⟨last, more, others, others_read, others_fail⟩ := second value (action.perform world).2
    exact ⟨last, calls ++ more, ends.bind others, reads.append others_read, others_fail⟩

theorem files : Peruses (Action.files : Action ε (List Call) Tree) :=
  fun world => ⟨.ok world.files, [], ⟨rfl, (List.append_nil _).symm⟩, .nil, .ok _⟩

theorem recordAll (entries : List ε) : Peruses (Action.recordAll entries : Action ε (List Call) Unit) :=
  fun _ => ⟨.ok (), [], ⟨rfl, (List.append_nil _).symm⟩, .nil, .ok ()⟩

theorem log (level : LogLevel) (message : String) :
    Peruses (Action.log level message : Action LogRecord (List Call) Unit) :=
  fun _ => ⟨.ok (), [], ⟨rfl, (List.append_nil _).symm⟩, .nil, .ok ()⟩

theorem announce (kind : EventKind) (message : String) :
    Peruses (Action.announce kind message : Action Entry (List Call) Unit) :=
  recordAll _

theorem logged {action : Action LogRecord (List Call) α} (peruses : Peruses action) : Peruses action.logged := by
  intro world
  obtain ⟨result, calls, ends, reads, fails⟩ := peruses ⟨world.files, world.remote, []⟩
  exact ⟨result, calls, ends.within, reads, fails⟩

theorem ask {call : Call} (reads : Settles [call] [] []) (answer : List Call → β) : Peruses (Driver.ask call answer) :=
  fun world => ⟨_, [call], .ask call answer world, reads, .ok _⟩

end Peruses

namespace Firebird

theorem Settles.single {call : Call} (still : Firebird.reached [call] = [])
    (kept : ∀ committed rolledBack lost, Ledger.take ⟨[], committed, rolledBack, lost⟩ call =
      ⟨[], committed, rolledBack, lost⟩) : Settles [call] [] [] := by
  refine ⟨still, fun ledger settled => ?_⟩
  obtain ⟨_, committed, rolledBack, lost⟩ := ledger
  cases settled
  simpa using kept committed rolledBack lost

theorem Settles.query (query : Query) : Settles [.query query] [] [] :=
  .single rfl fun _ _ _ => rfl

theorem Settles.commit : Settles [.commit] [] [] :=
  .single rfl fun _ _ _ => by simp [Ledger.take]

namespace Server

variable (server : Server) (target : String)

end Server

end Firebird

namespace Definitions

variable (files : Tree) (path : Path)

end Definitions

end SchemaSync
