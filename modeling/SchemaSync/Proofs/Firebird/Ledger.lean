import Mathlib.Logic.Basic
import SchemaSync.Firebird.Server
import SchemaSync.Proofs.Run.Perform

/-! What becomes of the statements that reach a driver. A statement is committed or rolled back, or it
is lost when the connection is closed before. -/

namespace SchemaSync.Firebird

/-- Statements by what has become of them. -/
structure Ledger where
  pending : List String
  committed : List String
  rolledBack : List String
  lost : List String
  deriving DecidableEq, Repr

namespace Ledger

def take (ledger : Ledger) : Call → Ledger
  | .execute statement => { ledger with pending := ledger.pending ++ [statement] }
  | .commit => { ledger with pending := [], committed := ledger.committed ++ ledger.pending }
  | .rollback => { ledger with pending := [], rolledBack := ledger.rolledBack ++ ledger.pending }
  | .close => { ledger with pending := [], lost := ledger.lost ++ ledger.pending }
  | .connect _ | .createDatabase _ _ | .query _ => ledger

def of (calls : List Call) : Ledger :=
  calls.foldl take ⟨[], [], [], []⟩

end Ledger

def reached (calls : List Call) : List String :=
  calls.filterMap fun
    | .execute statement => some statement
    | _ => none

/-- Calls that commit some statements, then roll others back, and leave none pending. -/
structure Settles (calls : List Call) (committed rolledBack : List String) : Prop where
  reached : reached calls = committed ++ rolledBack
  ledger : ∀ ledger : Ledger, ledger.pending = [] → calls.foldl Ledger.take ledger =
    ⟨[], ledger.committed ++ committed, ledger.rolledBack ++ rolledBack, ledger.lost⟩

namespace Settles

variable {calls first second : List Call} {committed rolledBack more : List String}

theorem nil : Settles [] [] [] :=
  ⟨rfl, fun ⟨_, _, _, _⟩ settled => by cases settled; simp⟩

theorem append (one : Settles first committed []) (two : Settles second more rolledBack) :
    Settles (first ++ second) (committed ++ more) rolledBack := by
  refine ⟨?_, fun ledger settled => ?_⟩
  · rw [Firebird.reached, List.filterMap_append]
    exact (congrArg₂ (· ++ ·) one.reached two.reached).trans (by simp)
  · rw [List.foldl_append, one.ledger ledger settled, two.ledger _ rfl]
    simp

theorem of_eq (settles : Settles calls committed rolledBack) : Ledger.of calls = ⟨[], committed, rolledBack, []⟩ :=
  settles.ledger _ rfl

theorem connect (login : Login) : Settles [.connect login] [] [] :=
  ⟨rfl, fun ⟨_, _, _, _⟩ settled => by cases settled; simp [Ledger.take]⟩

theorem executed (statement : String) : Settles [.execute statement, .commit] [statement] [] :=
  ⟨rfl, fun ⟨_, _, _, _⟩ settled => by cases settled; simp [Ledger.take]⟩

theorem refused (statement : String) : Settles [.execute statement, .rollback] [] [statement] :=
  ⟨rfl, fun ⟨_, _, _, _⟩ settled => by cases settled; simp [Ledger.take]⟩

theorem close (settles : Settles calls committed rolledBack) :
    Settles (calls ++ [.close]) committed rolledBack := by
  refine ⟨?_, fun ledger settled => ?_⟩
  · rw [← settles.reached, Firebird.reached, List.filterMap_append]
    exact List.append_nil _
  · rw [List.foldl_append, settles.ledger ledger settled]
    simp [Ledger.take]

end Settles

structure Ends {ε α : Type} (action : Action ε (List Call) α) (world : World ε (List Call))
    (result : Except Error α) (calls : List Call) : Prop where
  result : (action.perform world).1 = result
  calls : (action.perform world).2.remote = world.remote ++ calls

namespace Ends

variable {ε α β : Type} {action : Action ε (List Call) α} {world : World ε (List Call)}
  {value : α} {error : Error} {result : Except Error β} {first second : List Call}

theorem congr {result : Except Error α} (ends : Ends action world result first)
    (same : first = second) : Ends action world result second :=
  same ▸ ends

theorem bind (one : Ends action world (.ok value) first) {next : α → Action ε (List Call) β}
    (two : Ends (next value) (action.perform world).2 result second) :
    Ends (action >>= next) world result (first ++ second) := by
  have ended : action.perform world = (.ok value, (action.perform world).2) := Prod.ext one.result rfl
  have both := Action.perform_bind_ok ended next
  exact ⟨by rw [both, two.result], by rw [both, two.calls, one.calls, List.append_assoc]⟩

theorem bind_error (one : Ends action world (.error error) first)
    (next : α → Action ε (List Call) β) : Ends (action >>= next) world (.error error) first := by
  have ended : action.perform world = (.error error, (action.perform world).2) :=
    Prod.ext one.result rfl
  have both := Action.perform_bind_error ended next
  exact ⟨by rw [both], by rw [both, one.calls]⟩

theorem pure (value : β) (world : World ε (List Call)) :
    Ends (Pure.pure value : Action ε (List Call) β) world (.ok value) [] :=
  ⟨rfl, (List.append_nil _).symm⟩

theorem ofExcept (result : Except Error β) (world : World ε (List Call)) :
    Ends (Action.ofExcept result) world result [] :=
  ⟨rfl, (List.append_nil _).symm⟩

theorem attempt {result : Except Error α} {calls : List Call} (ends : Ends action world result calls) :
    Ends action.attempt world (.ok result) calls :=
  ⟨congrArg Except.ok ends.result, ends.calls⟩

theorem ask (call : Call) (answer : List Call → β) (world : World LogRecord (List Call)) :
    Ends (Driver.ask call answer) world (.ok (answer world.remote)) [call] :=
  ⟨rfl, rfl⟩

end Ends

namespace Server

variable (server : Server)

theorem runStatement_ends (statement : String) (world : World LogRecord (List Call)) :
    (∃ affected, Ends (server.runStatement statement) world (.ok affected)
        [.execute statement, .commit]) ∨
      ∃ error, Ends (server.runStatement statement) world (.error error)
        [.execute statement, .rollback] := by
  have asked := Ends.ask (.execute statement) (server.driver.execute · statement) world
  cases answer : server.driver.execute world.remote statement with
  | ok affected =>
    rw [answer] at asked
    exact .inl ⟨(affected.getD 0).toNat, asked.bind ⟨rfl, rfl⟩⟩
  | error reason =>
    rw [answer] at asked
    exact .inr ⟨.database (.rejected reason), asked.bind ⟨rfl, rfl⟩⟩

theorem runStatements_ends (statements : List String) (world : World LogRecord (List Call)) :
    ∃ result calls ran left, Ends (server.runStatements statements) world result calls ∧
      statements = ran ++ left ∧ Settles calls ran (left.take 1) ∧
      ((∃ affected, result = .ok affected) ↔ left = []) := by
  induction statements generalizing world with
  | nil => exact ⟨.ok 0, [], [], [], ⟨rfl, (List.append_nil _).symm⟩, rfl, .nil, by simp⟩
  | cons statement rest ih =>
    rw [runStatements]
    rcases server.runStatement_ends statement world with ⟨affected, one⟩ | ⟨error, one⟩
    · obtain ⟨result, calls, ran, left, two, same, settles, finished⟩ :=
        ih ((server.runStatement statement).perform world).2
      refine ⟨result.map (affected + ·), _ ++ calls, statement :: ran, left, one.bind ?_, by rw [same]; rfl,
        (Settles.executed statement).append settles, ?_⟩
      · cases result with
        | ok more =>
          have counted : Ends (server.runStatements rest >>= fun more => Pure.pure (affected + more)) _
              (.ok (affected + more)) (calls ++ []) := two.bind (.pure _ _)
          rwa [List.append_nil] at counted
        | error error => exact two.bind_error _
      · rw [← finished]
        cases result <;> simp [Except.map]
    · exact ⟨.error error, _, [], statement :: rest, one.bind_error _, rfl, .refused statement, by simp⟩

/-- A batch is run on a connection of its own, up to a statement that is rolled back. A batch without
statements fails, and so may the connection. -/
theorem execute_ends (target batch : String) (world : World LogRecord (List Call)) :
    ∃ result calls ran left n, Ends (server.execute target batch) world result calls ∧
      Script.splitStatements batch = ran ++ left ∧ n ≤ 1 ∧ Settles calls ran (left.take n) ∧
      ((∃ affected, result = .ok affected) ↔ left = [] ∧ Script.splitStatements batch ≠ []) := by
  rw [execute]
  split
  · next none =>
    exact ⟨_, [], [], [], 0, ⟨rfl, (List.append_nil _).symm⟩, none, by simp, .nil, by simp [none]⟩
  · next some =>
    generalize Script.splitStatements batch = statements at some
    rw [withConnection]
    have named := Ends.ofExcept (server.dsn target) world
    cases located : server.dsn target with
    | error error =>
      rw [located] at named
      exact ⟨_, [], [], statements, 0, named.bind_error _, rfl, by simp, .nil, by simp⟩
    | ok dsn =>
      rw [located] at named
      have asked := Ends.ask (.connect (server.login dsn))
        (server.driver.connect · (server.login dsn)) world
      cases answer : server.driver.connect world.remote (server.login dsn) with
      | error reason =>
        rw [answer] at asked
        refine ⟨.error (.database (.cannotConnect dsn reason)), _, [], statements, 0,
          named.bind (asked.bind (.ofExcept _ _)), rfl, by simp, .connect _, by simp⟩
      | ok _ =>
        rw [answer] at asked
        obtain ⟨result, calls, ran, left, body, same, settles, finished⟩ :=
          server.runStatements_ends statements _
        refine ⟨result, _, ran, left, 1,
          named.bind (asked.bind (body.attempt.bind ((Ends.ask .close _ _).bind (.ofExcept result _)))),
          same, by simp, (Settles.connect _).append settles.close, ?_⟩
        exact finished.trans ⟨fun all => ⟨all, some⟩, And.left⟩

end Server

end SchemaSync.Firebird
