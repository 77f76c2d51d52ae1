import SchemaSync.Proofs.Run.Perform

/-! What an action gives and what it does to the files, whatever else the world holds. -/

namespace SchemaSync.Action

variable {ε ε' σ α β : Type}

/-- Where the files are as they are before, an action gives a value and leaves them as they are after. -/
def Gives (action : Action ε σ α) (before : Tree) (value : α) (after : Tree) : Prop :=
  ∀ world : World ε σ, world.files = before →
    (action.perform world).1 = .ok value ∧ (action.perform world).2.files = after

variable {before middle after : Tree}

theorem Gives.bind {action : Action ε σ α} {next : α → Action ε σ β} {value : α} {result : β}
    (first : action.Gives before value middle) (second : (next value).Gives middle result after) :
    (action >>= next).Gives before result after := by
  intro world files
  obtain ⟨given, left⟩ := first world files
  generalize ran : action.perform world = outcome at given left
  obtain ⟨_, later⟩ := outcome
  cases given
  rw [perform_bind_ok ran]
  exact second later left

theorem gives_pure (value : α) : (pure value : Action ε σ α).Gives before value before :=
  fun _ files => ⟨rfl, files⟩

theorem gives_ofExcept {result : Except Error α} {value : α} (success : result = .ok value) :
    (ofExcept result : Action ε σ α).Gives before value before :=
  fun _ files => ⟨success, files⟩

theorem gives_files : (files : Action ε σ Tree).Gives before before before :=
  fun _ files => ⟨congrArg Except.ok files, files⟩

theorem gives_recordAll (entries : List ε) : (recordAll entries : Action ε σ Unit).Gives before () before :=
  fun _ files => ⟨rfl, files⟩

theorem gives_changeFiles {change : Tree → Except FileError Tree} (changed : change before = .ok after) :
    (changeFiles change : Action ε σ Unit).Gives before () after := by
  rintro world rfl
  rw [changeFiles, perform_ofStep, changed]
  exact ⟨rfl, rfl⟩

theorem gives_announce (kind : EventKind) (message : String) :
    (announce kind message : Action Entry σ Unit).Gives before () before :=
  fun _ files => ⟨rfl, files⟩

theorem gives_emit (event : Event) : (emit event : Action Entry σ Unit).Gives before () before :=
  fun _ files => ⟨rfl, files⟩

theorem gives_log (level : LogLevel) (message : String) :
    (log level message : Action LogRecord σ Unit).Gives before () before :=
  fun _ files => ⟨rfl, files⟩

theorem Gives.attempt {action : Action ε σ α} {value : α} (gives : action.Gives before value after) :
    action.attempt.Gives before (.ok value) after :=
  fun world files => ⟨congrArg Except.ok (gives world files).1, (gives world files).2⟩

theorem Gives.within {action : Action ε σ α} {value : α} (gives : action.Gives before value after)
    (entries : ε → List ε') : (within entries action).Gives before value after :=
  fun world files => gives ⟨world.files, world.remote, []⟩ files

theorem Gives.logged {action : Action LogRecord σ α} {value : α} (gives : action.Gives before value after) :
    action.logged.Gives before value after :=
  gives.within _

def Fails (action : Action ε σ α) (before : Tree) (way : Error → Prop) : Prop :=
  ∀ world : World ε σ, world.files = before → ∃ error, (action.perform world).1 = .error error ∧ way error

variable {way : Error → Prop}

theorem fails_fail {error : Error} (here : way error) : (fail error : Action ε σ α).Fails before way :=
  fun _ _ => ⟨error, rfl, here⟩

theorem Fails.bind {action : Action ε σ α} (fails : action.Fails before way) (next : α → Action ε σ β) :
    (action >>= next).Fails before way := by
  intro world files
  obtain ⟨error, failed, here⟩ := fails world files
  have ended : action.perform world = (.error error, (action.perform world).2) := Prod.ext failed rfl
  exact ⟨error, by rw [perform_bind_error ended], here⟩

theorem Gives.fails {action : Action ε σ α} {next : α → Action ε σ β} {value : α}
    (gives : action.Gives before value middle) (fails : (next value).Fails middle way) :
    (action >>= next).Fails before way := by
  intro world files
  obtain ⟨given, left⟩ := gives world files
  have ended : action.perform world = (.ok value, (action.perform world).2) := Prod.ext given rfl
  rw [perform_bind_ok ended]
  exact fails _ left

theorem Fails.within {action : Action ε σ α} (fails : action.Fails before way) (entries : ε → List ε') :
    (within entries action).Fails before way :=
  fun world files => fails ⟨world.files, world.remote, []⟩ files

end SchemaSync.Action
