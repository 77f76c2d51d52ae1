import SchemaSync.Run.Action

/-! What a run reports while it goes on. Events are for those who follow the run. Log records are
for those who look for the cause of trouble, and every event has a log record too. -/

namespace SchemaSync

inductive LogLevel
  | debug
  | info
  | warning
  | error
  deriving DecidableEq, Repr

structure LogRecord where
  level : LogLevel
  message : String
  deriving DecidableEq, Repr

/-- What an event says about a run: a new stage starts, something is worth knowing, something was
left out, a step was applied, a step failed and ends the run, or the run is done. -/
inductive EventKind
  | stage
  | info
  | warning
  | statement
  | failed
  | done
  deriving DecidableEq, Repr

structure Event where
  kind : EventKind
  message : String
  category : Option String := none
  current : Option Int := none
  total : Option Int := none
  deriving DecidableEq, Repr

def EventKind.level : EventKind → LogLevel
  | .warning => .warning
  | .failed => .error
  | .statement => .debug
  | .stage | .info | .done => .info

inductive Entry
  | log (record : LogRecord)
  | event (event : Event)
  deriving DecidableEq, Repr

namespace Entry

def event? : Entry → Option Event
  | .event reported => some reported
  | .log _ => none

def log? : Entry → Option LogRecord
  | .log line => some line
  | .event _ => none

end Entry

/-- An event in the journal, after its log record. -/
def Event.entries (event : Event) : List Entry :=
  [.log ⟨event.kind.level, event.message⟩, .event event]

def Event.plain (kind : EventKind) (message : String) : Event :=
  { kind, message }

namespace Action

variable {σ α : Type}

def emit (event : Event) : Action Entry σ Unit :=
  recordAll event.entries

def announce (kind : EventKind) (message : String) : Action Entry σ Unit :=
  emit (.plain kind message)

def log (level : LogLevel) (message : String) : Action LogRecord σ Unit :=
  record ⟨level, message⟩

/-- An action that only writes to the log, as a part of a run. -/
def logged (action : Action LogRecord σ α) : Action Entry σ α :=
  within (fun line => [.log line]) action

end Action

end SchemaSync
