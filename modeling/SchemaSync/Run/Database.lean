import SchemaSync.Run.Event
import SchemaSync.Schema.Object

/-! What a run needs of a database, whatever database it is. All of it may fail, change the state of
the database and write to the log, but it reports no events. -/

namespace SchemaSync

structure SchemaSource (σ : Type) where
  domains : String → Action LogRecord σ (List Domain)
  tables : String → Action LogRecord σ (List Table)
  procedures : String → Action LogRecord σ (List Procedure)

abbrev Executor (σ : Type) : Type :=
  (target batch : String) → Action LogRecord σ Unit

/-- Creates an empty database at a location that holds none. -/
abbrev Creator (σ : Type) : Type :=
  (location : String) → Action LogRecord σ Unit

namespace SchemaSource

variable {σ : Type}

/-- The whole schema at a target: its domains, then its tables, then its procedures. -/
def snapshot (source : SchemaSource σ) (target : String) : Action LogRecord σ Snapshot := do
  let domains ← source.domains target
  let tables ← source.tables target
  let procedures ← source.procedures target
  return { domains, tables, procedures }

end SchemaSource

end SchemaSync
