import SchemaSync.Firebird.Catalog
import SchemaSync.Run.Event
import SchemaSync.Settings.Connection

/-! What is asked of a database driver, and what it answers. -/

namespace SchemaSync.Firebird

structure Login where
  dsn : String
  user : String
  password : String
  charset : String
  deriving DecidableEq, Repr

inductive Call
  | connect (login : Login)
  | createDatabase (login : Login) (overwrite : Bool)
  | query (query : Query)
  | execute (statement : String)
  | commit
  | rollback
  | close
  deriving DecidableEq, Repr

/-- A driver, by its answers. An answer may depend on all calls before, the oldest first, and it may
be a refusal in words. A statement gives the number of rows that it affected, if that is known.
`commit`, `rollback` and `close` are not refused. -/
structure Driver where
  connect : List Call → Login → Except String Unit
  create : List Call → Login → Except String Unit
  fetch : List Call → (query : Query) → Except String (List query.Row)
  execute : List Call → String → Except String (Option Int)

abbrev Session : Type → Type :=
  Action LogRecord (List Call)

namespace Driver

variable {α : Type}

/-- Makes a call, and gives the answer to the calls before it. -/
def ask (call : Call) (answer : List Call → α) : Session α :=
  Action.onRemote fun calls => (.ok (answer calls), calls ++ [call])

/-- Makes a call that is not refused. -/
def tell (call : Call) : Session Unit :=
  ask call fun _ => ()

end Driver

end SchemaSync.Firebird
