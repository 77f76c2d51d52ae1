import SchemaSync.Proofs.Firebird.Ledger

/-! The calls of a driver that each request to a server comes to. A request opens a connection of its own for each
piece of work, and what is done on the connection depends on the answers alone. -/

namespace SchemaSync.Firebird

inductive Request
  | domains (target : String)
  | tables (target : String)
  | procedures (target : String)
  | execute (target batch : String)
  | createEmpty (location : String)
  deriving DecidableEq, Repr

def Request.location : Request → String
  | .domains target | .tables target | .procedures target | .execute target _ => target
  | .createEmpty location => location

namespace Server

variable (server : Server)

/-- Does what is asked for, as far as that succeeds. -/
def answer : Request → Session Unit
  | .domains target => do let _ ← server.domains target
  | .tables target => do let _ ← server.tables target
  | .procedures target => do let _ ← server.procedures target
  | .execute target batch => do let _ ← server.execute target batch
  | .createEmpty location => server.createEmpty location

def loginAt (location : String) : Login :=
  server.login (server.connection.dsn (Text.trim location))

/-- The calls of a query on a connection of its own, after the calls before. It is told whether rows come of it. -/
inductive Reads (target : String) (query : Query) (before : List Call) : Bool → List Call → Prop
  | refused {reason : String} (closed : server.driver.connect before (server.loginAt target) = .error reason) :
      Reads target query before false [.connect (server.loginAt target)]
  | failed {reason : String} (opened : server.driver.connect before (server.loginAt target) = .ok ())
      (rejected : server.driver.fetch (before ++ [.connect (server.loginAt target)]) query = .error reason) :
      Reads target query before false [.connect (server.loginAt target), .query query, .close]
  | answered {rows : List query.Row} (opened : server.driver.connect before (server.loginAt target) = .ok ())
      (accepted : server.driver.fetch (before ++ [.connect (server.loginAt target)]) query = .ok rows) :
      Reads target query before true [.connect (server.loginAt target), .query query, .commit, .close]

/-- The calls of statements on an open connection: each one that is accepted is committed at once, and one that is not
is rolled back and is the last. -/
inductive Runs : List Call → List String → List Call → Prop
  | done {before : List Call} : Runs before [] []
  | failed {before : List Call} {statement reason : String} {rest : List String}
      (rejected : server.driver.execute before statement = .error reason) :
      Runs before (statement :: rest) [.execute statement, .rollback]
  | next {before calls : List Call} {statement : String} {affected : Option Int} {rest : List String}
      (accepted : server.driver.execute before statement = .ok affected)
      (runs : Runs (before ++ [.execute statement, .commit]) rest calls) :
      Runs before (statement :: rest) (.execute statement :: .commit :: calls)

/-- The calls that a request comes to, after the calls before. No call is made when a check of the arguments fails or
no room can be made for a new database among the files. -/
inductive Segment (files : Tree) (before : List Call) : Request → List Call → Prop
  | unnamed {request : Request} (blank : Text.isBlankText request.location = true) :
      Segment files before request []
  | domains {target : String} {calls : List Call} {found : Bool} (named : Text.isBlankText target = false)
      (reads : server.Reads target .domains before found calls) : Segment files before (.domains target) calls
  | tables {target : String} {calls : List Call} {found : Bool} (named : Text.isBlankText target = false)
      (reads : server.Reads target .columns before found calls) : Segment files before (.tables target) calls
  | parameters {target : String} {calls : List Call} (named : Text.isBlankText target = false)
      (reads : server.Reads target .parameters before false calls) : Segment files before (.procedures target) calls
  | procedures {target : String} {first second : List Call} {found : Bool}
      (named : Text.isBlankText target = false) (reads : server.Reads target .parameters before true first)
      (goesOn : server.Reads target .procedures (before ++ first) found second) :
      Segment files before (.procedures target) (first ++ second)
  | empty {target batch : String} (none : Script.splitStatements batch = []) :
      Segment files before (.execute target batch) []
  | refused {target batch reason : String} (some : Script.splitStatements batch ≠ [])
      (named : Text.isBlankText target = false)
      (closed : server.driver.connect before (server.loginAt target) = .error reason) :
      Segment files before (.execute target batch) [.connect (server.loginAt target)]
  | executed {target batch : String} {calls : List Call} (some : Script.splitStatements batch ≠ [])
      (named : Text.isBlankText target = false)
      (opened : server.driver.connect before (server.loginAt target) = .ok ())
      (runs : server.Runs (before ++ [.connect (server.loginAt target)]) (Script.splitStatements batch) calls) :
      Segment files before (.execute target batch) (.connect (server.loginAt target) :: (calls ++ [.close]))
  | occupied {location : String} (isFile : server.connection.server? = none)
      (taken : files.isPresent (Path.ofString location) ≠ .ok false) : Segment files before (.createEmpty location) []
  | homeless {location : String} {error : FileError} (isFile : server.connection.server? = none)
      (unmade : files.ensureDirectories (Path.ofString location).parent = .error error) :
      Segment files before (.createEmpty location) []
  | uncreated {location reason : String} (named : Text.isBlankText location = false)
      (free : server.connection.server? = none → files.isPresent (Path.ofString location) = .ok false)
      (rejected : server.driver.create before (server.loginAt location) = .error reason) :
      Segment files before (.createEmpty location) [.createDatabase (server.loginAt location) false]
  | created {location : String} (named : Text.isBlankText location = false)
      (free : server.connection.server? = none → files.isPresent (Path.ofString location) = .ok false)
      (accepted : server.driver.create before (server.loginAt location) = .ok ()) :
      Segment files before (.createEmpty location) [.createDatabase (server.loginAt location) false, .close]

end Server

def Silent {ε α : Type} (action : Action ε (List Call) α) : Prop :=
  ∀ world, (action.perform world).2.remote = world.remote

namespace Silent

variable {ε α β : Type}

theorem ofExcept (result : Except Error α) : Silent (Action.ofExcept result : Action ε (List Call) α) :=
  fun _ => rfl

theorem pure (value : α) : Silent (Pure.pure value : Action ε (List Call) α) :=
  fun _ => rfl

theorem log (level : LogLevel) (message : String) :
    Silent (Action.log level message : Action LogRecord (List Call) Unit) :=
  fun _ => rfl

theorem bind {action : Action ε (List Call) α} {next : α → Action ε (List Call) β} (first : Silent action)
    (second : ∀ value, Silent (next value)) : Silent (action >>= next) := by
  intro world
  cases ended : action.perform world with
  | mk result after =>
    have same := first world
    rw [ended] at same
    cases result with
    | ok value =>
      rw [Action.perform_bind_ok ended]
      exact (second value after).trans same
    | error error =>
      rw [Action.perform_bind_error ended]
      exact same

theorem ends {action : Action ε (List Call) α} (silent : Silent action) (world : World ε (List Call)) :
    Ends action world (action.perform world).1 [] :=
  ⟨rfl, (silent world).trans (List.append_nil _).symm⟩

end Silent

/-- What comes after an action and makes no calls adds nothing to its calls. -/
theorem Ends.silent {ε α β : Type} {action : Action ε (List Call) α} {world : World ε (List Call)}
    {result : Except Error α} {calls : List Call} (ends : Ends action world result calls)
    {next : α → Action ε (List Call) β} (silent : ∀ value, Silent (next value)) :
    ∃ last, Ends (action >>= next) world last calls := by
  cases result with
  | ok value =>
    refine ⟨_, (ends.bind ((silent value).ends _)).congr ?_⟩
    exact List.append_nil calls
  | error error => exact ⟨_, ends.bind_error next⟩

theorem Ends.changeFiles {ε : Type} (change : Tree → Except FileError Tree) (world : World ε (List Call)) :
    ∃ result, Ends (Action.changeFiles change) world result [] ∧
      (result = .ok () ∨ ∃ fault, change world.files = .error fault ∧ result = .error (.file fault)) := by
  rw [Action.changeFiles]
  cases changed : change world.files with
  | ok files =>
    refine ⟨.ok (), ⟨?_, ?_⟩, .inl rfl⟩
    · rw [Action.perform_ofStep, changed]
    · rw [Action.perform_ofStep, changed, List.append_nil]
  | error fault =>
    refine ⟨.error (.file fault), ⟨?_, ?_⟩, .inr ⟨fault, rfl, rfl⟩⟩
    · rw [Action.perform_ofStep, changed]
    · rw [Action.perform_ofStep, changed, List.append_nil]

namespace Server

variable (server : Server)

theorem withConnection_opened {α : Type} {target : String} (named : Text.isBlankText target = false)
    {action : Session α} {world : World LogRecord (List Call)} {result : Except Error α} (calls : List Call)
    (opened : server.driver.connect world.remote (server.loginAt target) = .ok ())
    (work : Ends action { world with remote := world.remote ++ [.connect (server.loginAt target)] } result calls) :
    Ends (server.withConnection target action) world result
      (.connect (server.loginAt target) :: (calls ++ [.close])) := by
  have place : server.dsn target = .ok (server.connection.dsn (Text.trim target)) := by
    rw [dsn, named]
    rfl
  have asked := Ends.ask (.connect (server.loginAt target)) (server.driver.connect · (server.loginAt target)) world
  rw [opened] at asked
  rw [withConnection, place]
  exact Ends.congr ((Ends.ofExcept _ world).bind
    (asked.bind (work.attempt.bind ((Ends.ask .close (fun _ => ()) _).bind (.ofExcept result _))))) (by simp)

theorem withConnection_refused {α : Type} {target reason : String} (named : Text.isBlankText target = false)
    (action : Session α) {world : World LogRecord (List Call)}
    (closed : server.driver.connect world.remote (server.loginAt target) = .error reason) :
    ∃ error, Ends (server.withConnection target action) world (.error error) [.connect (server.loginAt target)] := by
  have place : server.dsn target = .ok (server.connection.dsn (Text.trim target)) := by
    rw [dsn, named]
    rfl
  have asked := Ends.ask (.connect (server.loginAt target)) (server.driver.connect · (server.loginAt target)) world
  rw [closed] at asked
  rw [withConnection, place]
  exact ⟨_, (Ends.ofExcept _ world).bind (asked.bind (.ofExcept _ _))⟩

theorem withConnection_unnamed {α : Type} {target : String} (blank : Text.isBlankText target = true)
    (action : Session α) (world : World LogRecord (List Call)) :
    ∃ error, Ends (server.withConnection target action) world (.error error) [] := by
  have place : server.dsn target = .error (.argument (.blankPlace .databaseLocation)) := by
    rw [dsn, blank]
    rfl
  rw [withConnection, place]
  exact ⟨_, (Ends.ofExcept _ world).bind_error _⟩

/-- A query is not made when its place is blank, and else gives its rows just when it is answered. -/
theorem fetch_reads (target : String) (query : Query) (world : World LogRecord (List Call)) :
    ∃ result calls, Ends (server.fetch target query) world result calls ∧
      (Text.isBlankText target = true ∧ calls = [] ∧ (∃ error, result = .error error) ∨
        Text.isBlankText target = false ∧ ∃ found, server.Reads target query world.remote found calls ∧
          (found = true ↔ ∃ rows, result = .ok rows)) := by
  cases named : Text.isBlankText target with
  | true =>
    obtain ⟨error, ends⟩ := server.withConnection_unnamed named _ world
    exact ⟨.error error, [], ends, .inl ⟨rfl, rfl, error, rfl⟩⟩
  | false =>
    cases opened : server.driver.connect world.remote (server.loginAt target) with
    | error reason =>
      obtain ⟨error, ends⟩ := server.withConnection_refused named _ opened
      exact ⟨.error error, _, ends, .inr ⟨rfl, false, .refused opened, by simp⟩⟩
    | ok _ =>
      cases answer : server.driver.fetch (world.remote ++ [.connect (server.loginAt target)]) query with
      | error reason =>
        refine ⟨.error (.database (.cannotRead query.subject target reason)), _, ?_,
          .inr ⟨rfl, false, .failed opened answer, by simp⟩⟩
        have asked := Ends.ask (.query query) (server.driver.fetch · query)
          { world with remote := world.remote ++ [.connect (server.loginAt target)] }
        rw [answer] at asked
        exact server.withConnection_opened named [.query query] opened (asked.bind (.ofExcept _ _))
      | ok rows =>
        refine ⟨.ok rows, _, ?_, .inr ⟨rfl, true, .answered opened answer, by simp⟩⟩
        have asked := Ends.ask (.query query) (server.driver.fetch · query)
          { world with remote := world.remote ++ [.connect (server.loginAt target)] }
        rw [answer] at asked
        exact server.withConnection_opened named [.query query, .commit] opened
          (asked.bind ((Ends.ask .commit (fun _ => ()) _).bind (.pure rows _)))

theorem logExtracted_silent (count : Nat) (kind : ObjectKind) (target : String) :
    Silent (logExtracted count kind target) :=
  fun _ => rfl

theorem proceduresOfRows_silent (parameters : List ParameterRow) (rows : List ProcedureRow) :
    Silent (proceduresOfRows parameters rows) := by
  induction rows with
  | nil => exact .pure []
  | cons row rest ih =>
    rw [proceduresOfRows]
    cases row.procedure? parameters with
    | none => exact (Silent.log _ _).bind fun _ => ih
    | some result => exact (Silent.ofExcept result).bind fun procedure => ih.bind fun more => .pure (procedure :: more)

theorem runStatements_runs (statements : List String) (world : World LogRecord (List Call)) :
    ∃ result calls, Ends (server.runStatements statements) world result calls ∧
      server.Runs world.remote statements calls := by
  induction statements generalizing world with
  | nil => exact ⟨.ok 0, [], .pure 0 world, .done⟩
  | cons statement rest ih =>
    have asked := Ends.ask (.execute statement) (server.driver.execute · statement) world
    cases answer : server.driver.execute world.remote statement with
    | error reason =>
      rw [answer] at asked
      have one : Ends (server.runStatement statement) world (.error (.database (.rejected reason)))
          [.execute statement, .rollback] := asked.bind ⟨rfl, rfl⟩
      exact ⟨_, _, one.bind_error _, .failed answer⟩
    | ok affected =>
      rw [answer] at asked
      have one : Ends (server.runStatement statement) world (.ok (affected.getD 0).toNat)
          [.execute statement, .commit] := asked.bind ⟨rfl, rfl⟩
      obtain ⟨result, calls, ends, runs⟩ := ih ((server.runStatement statement).perform world).2
      rw [one.calls] at runs
      obtain ⟨last, counted⟩ := ends.silent fun more => Silent.pure ((affected.getD 0).toNat + more)
      exact ⟨last, _, one.bind counted, .next answer runs⟩

/-- The creation of a database where there is room for one. -/
def openNew (dsn : String) : Session Unit := do
  match ← Driver.ask (.createDatabase (server.login dsn) false) (server.driver.create · (server.login dsn)) with
  | .error reason => Action.fail (.database (.cannotCreate dsn reason))
  | .ok () =>
    Driver.tell .close
    Action.log .info ("Created database " ++ dsn)

/-- Making room for a new database, which only one that is opened as a file needs. -/
def makeRoom (location : String) : Session Unit :=
  if server.connection.server?.isNone then prepareFile location else pure ()

theorem createEmpty_eq (location : String) : server.createEmpty location =
    (do
      let dsn ← Action.ofExcept (server.dsn location)
      server.makeRoom location
      server.openNew dsn) := by
  rw [createEmpty, makeRoom]
  cases server.connection.server?.isNone <;> rfl

theorem openNew_segment {files : Tree} {location : String} (named : Text.isBlankText location = false)
    (free : server.connection.server? = none → files.isPresent (Path.ofString location) = .ok false)
    (world : World LogRecord (List Call)) :
    ∃ result calls, Ends (server.openNew (server.connection.dsn (Text.trim location))) world result calls ∧
      server.Segment files world.remote (.createEmpty location) calls := by
  have asked := Ends.ask (.createDatabase (server.loginAt location) false)
    (server.driver.create · (server.loginAt location)) world
  cases answer : server.driver.create world.remote (server.loginAt location) with
  | error reason =>
    rw [answer] at asked
    exact ⟨_, _, asked.bind (.ofExcept _ _), .uncreated named free answer⟩
  | ok _ =>
    rw [answer] at asked
    exact ⟨_, _, asked.bind ((Ends.ask .close (fun _ => ()) _).bind ((Silent.log _ _).ends _)),
      .created named free answer⟩

theorem makeRoom_ends (location : String) (world : World LogRecord (List Call)) :
    ∃ result, Ends (server.makeRoom location) world result [] ∧
      (result = .ok () ∧
          (server.connection.server? = none → world.files.isPresent (Path.ofString location) = .ok false) ∨
        (∃ error, result = .error error) ∧ server.connection.server? = none ∧
          (world.files.isPresent (Path.ofString location) ≠ .ok false ∨
            ∃ fault, world.files.ensureDirectories (Path.ofString location).parent = .error fault)) := by
  rw [makeRoom]
  by_cases isFile : server.connection.server? = none
  · rw [isFile, Option.isNone_none, if_pos rfl, prepareFile]
    have asked : Ends (Action.files : Session Tree) world (.ok world.files) [] := ⟨rfl, (List.append_nil _).symm⟩
    cases present : world.files.isPresent (Path.ofString location) with
    | error fault =>
      refine ⟨.error (.file fault), asked.bind ?_, .inr ⟨⟨_, rfl⟩, rfl, .inl (by simp)⟩⟩
      rw [present]
      exact .ofExcept _ _
    | ok taken =>
      cases taken with
      | true =>
        refine ⟨.error (.database (.alreadyExists (Path.ofString location).toString)), asked.bind ?_,
          .inr ⟨⟨_, rfl⟩, rfl, .inl (by simp)⟩⟩
        rw [present]
        exact .ofExcept _ _
      | false =>
        obtain ⟨result, ends, making⟩ :=
          Ends.changeFiles (·.ensureDirectories (Path.ofString location).parent) (Action.files.perform world).2
        refine ⟨result, asked.bind (by rw [present]; exact ends), ?_⟩
        exact making.imp (fun done => ⟨done, fun _ => rfl⟩) fun ⟨fault, unmade, failed⟩ =>
          ⟨⟨_, failed⟩, rfl, .inr ⟨fault, unmade⟩⟩
  · rw [if_neg (by simpa using isFile)]
    exact ⟨.ok (), .pure () world, .inl ⟨rfl, fun none => absurd none isFile⟩⟩

section Requests

variable (target : String) (world : World LogRecord (List Call))

theorem domains_segment : ∃ result calls, Ends (server.domains target) world result calls ∧
    server.Segment world.files world.remote (.domains target) calls := by
  obtain ⟨result, calls, ends, read⟩ := server.fetch_reads target .domains world
  obtain ⟨last, listed⟩ := ends.silent fun rows => (Silent.ofExcept (rows.mapM DomainRow.domain)).bind fun domains =>
    (logExtracted_silent domains.length .domain target).bind fun _ => .pure domains
  refine ⟨last, calls, listed, ?_⟩
  rcases read with ⟨blank, rfl, _⟩ | ⟨named, found, reads, _⟩
  · exact .unnamed blank
  · exact .domains named reads

theorem tables_segment : ∃ result calls, Ends (server.tables target) world result calls ∧
    server.Segment world.files world.remote (.tables target) calls := by
  obtain ⟨result, calls, ends, read⟩ := server.fetch_reads target .columns world
  obtain ⟨last, listed⟩ := ends.silent fun rows => (Silent.ofExcept (tablesOfRows rows)).bind fun tables =>
    (logExtracted_silent tables.length .table target).bind fun _ => .pure tables
  refine ⟨last, calls, listed, ?_⟩
  rcases read with ⟨blank, rfl, _⟩ | ⟨named, found, reads, _⟩
  · exact .unnamed blank
  · exact .tables named reads

/-- Procedures take two queries, the second one on a further connection when the first one is answered. -/
theorem procedures_segment : ∃ result calls, Ends (server.procedures target) world result calls ∧
    server.Segment world.files world.remote (.procedures target) calls := by
  obtain ⟨result, first, ends, read⟩ := server.fetch_reads target .parameters world
  cases result with
  | error error =>
    refine ⟨.error error, first, ends.bind_error _, ?_⟩
    rcases read with ⟨blank, rfl, _⟩ | ⟨named, found, reads, given⟩
    · exact .unnamed blank
    · cases found with
      | false => exact .parameters named reads
      | true =>
        obtain ⟨rows, same⟩ := given.mp rfl
        cases same
  | ok parameters =>
    rcases read with ⟨_, _, error, same⟩ | ⟨named, found, reads, given⟩
    · cases same
    · cases given.mpr ⟨parameters, rfl⟩
      obtain ⟨_, second, more, next⟩ :=
        server.fetch_reads target .procedures ((server.fetch target .parameters).perform world).2
      obtain ⟨last, listed⟩ := more.silent fun rows => (proceduresOfRows_silent parameters rows).bind fun procedures =>
        (logExtracted_silent procedures.length .procedure target).bind fun _ => .pure procedures
      refine ⟨last, first ++ second, ends.bind listed, ?_⟩
      rcases next with ⟨blank, _⟩ | ⟨_, found, goesOn, _⟩
      · rw [named] at blank
        cases blank
      · rw [ends.calls] at goesOn
        exact .procedures named reads goesOn

theorem execute_segment (batch : String) : ∃ result calls, Ends (server.execute target batch) world result calls ∧
    server.Segment world.files world.remote (.execute target batch) calls := by
  rw [execute]
  split
  · next none => exact ⟨_, [], .ofExcept _ world, .empty none⟩
  · next some =>
    cases named : Text.isBlankText target with
    | true =>
      obtain ⟨error, ends⟩ := server.withConnection_unnamed named _ world
      exact ⟨.error error, [], ends, .unnamed named⟩
    | false =>
      cases opened : server.driver.connect world.remote (server.loginAt target) with
      | error reason =>
        obtain ⟨error, ends⟩ := server.withConnection_refused named _ opened
        exact ⟨.error error, _, ends, .refused some named opened⟩
      | ok _ =>
        obtain ⟨result, calls, ends, runs⟩ := server.runStatements_runs (Script.splitStatements batch)
          { world with remote := world.remote ++ [.connect (server.loginAt target)] }
        exact ⟨result, _, server.withConnection_opened named calls opened ends, .executed some named opened runs⟩

theorem createEmpty_segment (location : String) : ∃ result calls,
    Ends (server.createEmpty location) world result calls ∧
      server.Segment world.files world.remote (.createEmpty location) calls := by
  rw [createEmpty_eq]
  cases named : Text.isBlankText location with
  | true =>
    have place : server.dsn location = .error (.argument (.blankPlace .databaseLocation)) := by
      rw [dsn, named]
      rfl
    rw [place]
    exact ⟨_, [], (Ends.ofExcept _ world).bind_error _, .unnamed named⟩
  | false =>
    have place : server.dsn location = .ok (server.connection.dsn (Text.trim location)) := by
      rw [dsn, named]
      rfl
    rw [place]
    obtain ⟨result, ends, ⟨rfl, free⟩ | ⟨⟨error, rfl⟩, isFile, taken | ⟨fault, unmade⟩⟩⟩ :=
      server.makeRoom_ends location world
    · obtain ⟨last, calls, more, created⟩ :=
        server.openNew_segment named free ((server.makeRoom location).perform world).2
      rw [ends.calls, List.append_nil] at created
      exact ⟨last, calls, (Ends.ofExcept _ world).bind (ends.bind more), created⟩
    · exact ⟨_, [], (Ends.ofExcept _ world).bind (ends.bind_error _), .occupied isFile taken⟩
    · exact ⟨_, [], (Ends.ofExcept _ world).bind (ends.bind_error _), .homeless isFile unmade⟩

end Requests

/-- A request makes the calls of a segment, whatever the files and the answers of the driver are. -/
theorem answer_segment (request : Request) (world : World LogRecord (List Call)) :
    ∃ result calls, Ends (server.answer request) world result calls ∧
      server.Segment world.files world.remote request calls := by
  have dropped {α : Type} {action : Session α} (given : ∃ result calls, Ends action world result calls ∧
      server.Segment world.files world.remote request calls) :
      ∃ result calls, Ends (do let _ ← action) world result calls ∧
        server.Segment world.files world.remote request calls := by
    obtain ⟨result, calls, ends, segment⟩ := given
    obtain ⟨last, whole⟩ := ends.silent fun _ => .pure ()
    exact ⟨last, calls, whole, segment⟩
  cases request with
  | domains target => exact dropped (server.domains_segment target world)
  | tables target => exact dropped (server.tables_segment target world)
  | procedures target => exact dropped (server.procedures_segment target world)
  | execute target batch => exact dropped (server.execute_segment target world batch)
  | createEmpty location => exact server.createEmpty_segment world location

end Server

end SchemaSync.Firebird
