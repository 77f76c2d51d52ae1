import SchemaSync.Proofs.Firebird.Request

/-! The log of a whole session with a driver. It is one segment for each request, and it leaves no connection open and
no work that is neither committed nor taken back. -/

namespace SchemaSync.Firebird

/-- Where a driver stands between two calls. When a connection is open, nothing may be at stake, or else the next call
has to be the one that settles what was done last: work that was accepted, a statement that was rejected, or a query
that was. -/
inductive Phase
  | closed
  | idle
  | accepted
  | rejected
  | unread
  deriving DecidableEq, Repr

/-- Whether a call opens a connection, by the answer to it. -/
def opens (driver : Driver) (before : List Call) : Call → Bool
  | .connect login => (driver.connect before login).isOk
  | .createDatabase login _ => (driver.create before login).isOk
  | _ => false

def opened (driver : Driver) (before : List Call) : List Call → Nat
  | [] => 0
  | call :: rest => (opens driver before call).toNat + opened driver (before ++ [call]) rest

namespace Phase

/-- The phase after a call, by the answer to it, unless the call is out of place. -/
def next (driver : Driver) (before : List Call) : Phase → Call → Option Phase
  | .closed, .connect login => some (if opens driver before (.connect login) then .idle else .closed)
  | .closed, .createDatabase login overwrite =>
    some (if opens driver before (.createDatabase login overwrite) then .idle else .closed)
  | .idle, .query query => some (if (driver.fetch before query).isOk then .accepted else .unread)
  | .idle, .execute statement => some (if (driver.execute before statement).isOk then .accepted else .rejected)
  | .accepted, .commit => some .idle
  | .rejected, .rollback => some .idle
  | .idle, .close | .unread, .close => some .closed
  | _, _ => none

def run (driver : Driver) (before : List Call) (phase : Phase) : List Call → Option Phase
  | [] => some phase
  | call :: rest => (phase.next driver before call).bind fun phase => run driver (before ++ [call]) phase rest

variable {driver : Driver} {before : List Call} {phase : Phase}

theorem run_append (first second : List Call) : phase.run driver before (first ++ second) =
    (phase.run driver before first).bind fun phase => phase.run driver (before ++ first) second := by
  induction first generalizing before phase with
  | nil => simp [run]
  | cons call rest ih =>
    rw [List.cons_append, run, run, Option.bind_assoc]
    cases phase.next driver before call with
    | none => rfl
    | some phase => simp only [Option.bind_some, ih, List.append_assoc, List.singleton_append]

def connections : Phase → Nat
  | .closed => 0
  | _ => 1

theorem connections_next {after : Phase} {call : Call} (moved : phase.next driver before call = some after) :
    phase.connections + (opens driver before call).toNat = after.connections + if call = .close then 1 else 0 := by
  cases phase with
  | closed =>
    cases call with
    | connect | createDatabase =>
      rw [next, Option.some.injEq] at moved
      subst moved
      split <;> simp [connections, *]
    | query | execute | commit | rollback | close => cases moved
  | idle =>
    cases call with
    | query | execute =>
      rw [next, Option.some.injEq] at moved
      subst moved
      split <;> rfl
    | close => cases moved; rfl
    | connect | createDatabase | commit | rollback => cases moved
  | accepted | rejected | unread => cases call <;> cases moved; rfl

/-- Between two points at which no connection is open, as many are closed as are opened. -/
theorem connections_run {calls : List Call} {after : Phase} (ran : phase.run driver before calls = some after) :
    phase.connections + opened driver before calls = after.connections + calls.count .close := by
  induction calls generalizing before phase with
  | nil =>
    cases ran
    rfl
  | cons call rest ih =>
    obtain ⟨middle, moved, ran⟩ := Option.bind_eq_some_iff.mp ran
    have here := connections_next moved
    have later := ih ran
    rw [opened, List.count_cons]
    simp only [beq_iff_eq]
    omega

theorem next_connect {login : Login} (accepted : driver.connect before login = .ok ()) :
    Phase.closed.next driver before (.connect login) = some .idle := by
  simp [next, opens, accepted, Except.isOk, Except.toBool]

theorem next_connect_refused {login : Login} {reason : String} (closed : driver.connect before login = .error reason) :
    Phase.closed.next driver before (.connect login) = some .closed := by
  simp [next, opens, closed, Except.isOk, Except.toBool]

end Phase

namespace Server

variable (server : Server)

theorem Reads.phase {target : String} {query : Query} {before calls : List Call} {found : Bool}
    (reads : server.Reads target query before found calls) :
    Phase.closed.run server.driver before calls = some .closed := by
  cases reads with
  | refused closed =>
    rw [Phase.run, Phase.next_connect_refused closed]
    rfl
  | failed opened rejected =>
    rw [Phase.run, Phase.next_connect opened]
    simp [Phase.run, Phase.next, rejected, Except.isOk, Except.toBool]
  | answered opened accepted =>
    rw [Phase.run, Phase.next_connect opened]
    simp [Phase.run, Phase.next, accepted, Except.isOk, Except.toBool]

theorem Runs.phase {before calls : List Call} {statements : List String} (runs : server.Runs before statements calls) :
    Phase.idle.run server.driver before calls = some .idle := by
  induction runs with
  | done => rfl
  | failed rejected => simp [Phase.run, Phase.next, rejected, Except.isOk, Except.toBool]
  | next accepted _ ih => simpa [Phase.run, Phase.next, accepted, Except.isOk, Except.toBool] using ih

theorem Segment.phase {files : Tree} {before calls : List Call} {request : Request}
    (segment : server.Segment files before request calls) :
    Phase.closed.run server.driver before calls = some .closed := by
  cases segment with
  | unnamed | empty | occupied | homeless => rfl
  | domains _ reads | tables _ reads | parameters _ reads => exact reads.phase
  | procedures _ reads goesOn => rw [Phase.run_append, reads.phase, Option.bind_some, goesOn.phase]
  | refused _ _ closed =>
    rw [Phase.run, Phase.next_connect_refused closed]
    rfl
  | executed _ _ opened runs =>
    rw [Phase.run, Phase.next_connect opened, Option.bind_some, Phase.run_append, runs.phase]
    rfl
  | uncreated _ _ rejected => simp [Phase.run, Phase.next, opens, rejected, Except.isOk, Except.toBool]
  | created _ _ accepted => simp [Phase.run, Phase.next, opens, accepted, Except.isOk, Except.toBool]

/-- Answers requests one after the other, whatever comes of each. The files may have changed in between, and each
request is given with the files that it finds. -/
def serve : List (Tree × Request) → Session Unit
  | [] => pure ()
  | (files, request) :: rest => do
    Action.changeFiles fun _ => .ok files
    let _ ← (server.answer request).attempt
    serve rest

inductive Log : List Call → List (Tree × Request) → List Call → Prop
  | nil {before : List Call} : Log before [] []
  | cons {before calls more : List Call} {files : Tree} {request : Request} {rest : List (Tree × Request)}
      (segment : server.Segment files before request calls) (log : Log (before ++ calls) rest more) :
      Log before ((files, request) :: rest) (calls ++ more)

theorem Log.phase {before calls : List Call} {requests : List (Tree × Request)}
    (log : server.Log before requests calls) : Phase.closed.run server.driver before calls = some .closed := by
  induction log with
  | nil => rfl
  | cons segment _ ih => rw [Phase.run_append, segment.phase, Option.bind_some, ih]

theorem serve_log (requests : List (Tree × Request)) (world : World LogRecord (List Call)) :
    ∃ calls, Ends (server.serve requests) world (.ok ()) calls ∧ server.Log world.remote requests calls := by
  induction requests generalizing world with
  | nil => exact ⟨[], .pure () world, .nil⟩
  | cons visit rest ih =>
    obtain ⟨files, request⟩ := visit
    obtain ⟨result, calls, ends, segment⟩ := server.answer_segment request { world with files }
    obtain ⟨more, others, log⟩ := ih (((server.answer request).attempt).perform { world with files }).2
    have changed : Ends (Action.changeFiles fun _ => .ok files : Session Unit) world (.ok ()) [] :=
      ⟨rfl, (List.append_nil _).symm⟩
    refine ⟨calls ++ more, changed.bind (ends.attempt.bind others), .cons segment ?_⟩
    rw [← ends.attempt.calls]
    exact log

/-- Whatever a driver answers, requests leave a log of one segment for each of them. Every connection that is opened
is closed, and all work on it is committed or taken back before. -/
theorem session_leaves_nothing_open (requests : List (Tree × Request)) (world : World LogRecord (List Call)) :
    ∃ log, Ends (server.serve requests) world (.ok ()) log ∧ server.Log world.remote requests log ∧
      Phase.closed.run server.driver world.remote log = some .closed ∧
      opened server.driver world.remote log = log.count .close := by
  obtain ⟨log, ends, segments⟩ := server.serve_log requests world
  refine ⟨log, ends, segments, segments.phase, ?_⟩
  have balance := Phase.connections_run segments.phase
  rwa [Nat.add_left_cancel_iff] at balance

end Server

end SchemaSync.Firebird
