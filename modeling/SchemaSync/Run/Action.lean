import SchemaSync.Error

/-! Actions on the world around a run: the files, the state of a database, and a journal of what has
happened so far. An action gives a value or fails, and leaves a world behind in either case. -/

namespace SchemaSync

/-- The world of a run. The journal holds its oldest entry first. -/
structure World (ε σ : Type) where
  files : Tree
  remote : σ
  journal : List ε

/-- What a run does, one thing after the other, up to the first failure. -/
abbrev Action (ε σ : Type) : Type → Type :=
  ExceptT Error (StateM (World ε σ))

namespace Action

variable {ε ε' σ α : Type}

def perform (action : Action ε σ α) (world : World ε σ) : Except Error α × World ε σ :=
  (ExceptT.run action).run world

def ofStep (step : World ε σ → Except Error α × World ε σ) : Action ε σ α :=
  ExceptT.mk fun world => step world

def ofExcept (result : Except Error α) : Action ε σ α :=
  ofStep fun world => (result, world)

def fail (error : Error) : Action ε σ α :=
  ofExcept (.error error)

def record (entry : ε) : Action ε σ Unit :=
  ofStep fun world => (.ok (), { world with journal := world.journal ++ [entry] })

def recordAll (entries : List ε) : Action ε σ Unit :=
  ofStep fun world => (.ok (), { world with journal := world.journal ++ entries })

def files : Action ε σ Tree :=
  ofStep fun world => (.ok world.files, world)

/-- Changes the files, or fails and leaves them as they are. -/
def changeFiles (change : Tree → Except FileError Tree) : Action ε σ Unit :=
  ofStep fun world =>
    match change world.files with
    | .ok files => (.ok (), { world with files })
    | .error error => (.error (.file error), world)

def onRemote (step : σ → Except Error α × σ) : Action ε σ α :=
  ofStep fun world =>
    let (result, remote) := step world.remote
    (result, { world with remote })

/-- An action whose failure is a value, so that the run goes on. -/
def attempt (action : Action ε σ α) : Action ε σ (Except Error α) :=
  ofStep fun world =>
    let (result, world) := action.perform world
    (.ok result, world)

/-- An action with a journal of its own, whose entries join the journal of the run in the form that
`entries` gives them. -/
def within (entries : ε → List ε') (action : Action ε σ α) : Action ε' σ α :=
  ofStep fun world =>
    let (result, inner) := action.perform ⟨world.files, world.remote, []⟩
    (result, ⟨inner.files, inner.remote, world.journal ++ inner.journal.flatMap entries⟩)

end Action

end SchemaSync
