import SchemaSync.Run.Event

/-! Carrying actions out, one construction at a time. -/

namespace SchemaSync.Action

variable {ε ε' σ α β : Type} (world : World ε σ)

@[simp]
theorem perform_ofStep (step : World ε σ → Except Error α × World ε σ) :
    (ofStep step).perform world = step world :=
  rfl

@[simp]
theorem perform_pure (value : α) : (pure value : Action ε σ α).perform world = (.ok value, world) :=
  rfl

theorem perform_bind (action : Action ε σ α) (next : α → Action ε σ β) :
    (action >>= next).perform world =
      match action.perform world with
      | (.ok value, world) => (next value).perform world
      | (.error error, world) => (.error error, world) := by
  simp only [perform, ExceptT.run_bind, StateT.run_bind]
  generalize (ExceptT.run action).run world = outcome
  obtain ⟨result, after⟩ := outcome
  cases result <;> rfl

theorem perform_bind_ok {action : Action ε σ α} {world after : World ε σ} {value : α}
    (ran : action.perform world = (.ok value, after)) (next : α → Action ε σ β) :
    (action >>= next).perform world = (next value).perform after := by
  rw [perform_bind, ran]

theorem perform_bind_error {action : Action ε σ α} {world after : World ε σ} {error : Error}
    (ran : action.perform world = (.error error, after)) (next : α → Action ε σ β) :
    (action >>= next).perform world = (.error error, after) := by
  rw [perform_bind, ran]

@[simp]
theorem perform_ofExcept (result : Except Error α) :
    (ofExcept result : Action ε σ α).perform world = (result, world) :=
  rfl

@[simp]
theorem perform_fail (error : Error) :
    (fail error : Action ε σ α).perform world = (.error error, world) :=
  rfl

@[simp]
theorem perform_record (entry : ε) : (record entry : Action ε σ Unit).perform world =
    (.ok (), { world with journal := world.journal ++ [entry] }) :=
  rfl

@[simp]
theorem perform_recordAll (entries : List ε) : (recordAll entries : Action ε σ Unit).perform world =
    (.ok (), { world with journal := world.journal ++ entries }) :=
  rfl

@[simp]
theorem perform_files : (files : Action ε σ Tree).perform world = (.ok world.files, world) :=
  rfl

@[simp]
theorem perform_attempt (action : Action ε σ α) :
    action.attempt.perform world = (.ok (action.perform world).1, (action.perform world).2) :=
  rfl

theorem perform_within (entries : ε → List ε') (action : Action ε σ α) (world : World ε' σ) :
    (within entries action).perform world =
      ((action.perform ⟨world.files, world.remote, []⟩).1,
        ⟨(action.perform ⟨world.files, world.remote, []⟩).2.files,
          (action.perform ⟨world.files, world.remote, []⟩).2.remote,
          world.journal ++
            (action.perform ⟨world.files, world.remote, []⟩).2.journal.flatMap entries⟩) :=
  rfl

theorem perform_emit (event : Event) (world : World Entry σ) : (emit event).perform world =
    (.ok (), { world with journal := world.journal ++ event.entries }) :=
  rfl

end SchemaSync.Action
