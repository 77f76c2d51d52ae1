import SchemaSync.Proofs.Run.Perform

/-! What an action gives and which events it reports, whatever else it leaves in the journal. -/

namespace SchemaSync

def reported (journal : List Entry) : List Event :=
  journal.filterMap Entry.event?

theorem reported_append (first second : List Entry) :
    reported (first ++ second) = reported first ++ reported second :=
  List.filterMap_append

theorem reported_entries (event : Event) : reported event.entries = [event] :=
  rfl

theorem reported_warnings (warnings : List String) :
    reported (warnings.flatMap fun warning => (Event.plain .warning warning).entries) =
      warnings.map (Event.plain .warning) := by
  induction warnings with
  | nil => rfl
  | cons warning rest ih => rw [List.flatMap_cons, reported_append, ih, reported_entries]; rfl

theorem reported_logged (lines : List LogRecord) : reported (lines.flatMap fun line => [.log line]) = [] := by
  rw [reported, List.filterMap_eq_nil_iff]
  intro entry member
  obtain ⟨line, _, given⟩ := List.mem_flatMap.mp member
  rw [List.mem_singleton.mp given]
  rfl

namespace Action

variable {σ α β : Type}

structure Tells (action : Action Entry σ α) (world : World Entry σ) (result : Except Error α)
    (events : List Event) : Prop where
  result : (action.perform world).1 = result
  events : reported (action.perform world).2.journal = reported world.journal ++ events

namespace Tells

variable {action : Action Entry σ α} {world : World Entry σ} {value : α}
  {result : Except Error β} {first second : List Event}

theorem bind (one : Tells action world (.ok value) first) {next : α → Action Entry σ β}
    (two : Tells (next value) (action.perform world).2 result second) :
    Tells (action >>= next) world result (first ++ second) := by
  have ended : action.perform world = (.ok value, (action.perform world).2) := Prod.ext one.result rfl
  have both := perform_bind_ok ended next
  exact ⟨by rw [both, two.result], by rw [both, two.events, one.events, List.append_assoc]⟩

theorem pure (value : β) (world : World Entry σ) : Tells (Pure.pure value) world (.ok value) [] :=
  ⟨rfl, (List.append_nil _).symm⟩

theorem recordAll (entries : List Entry) (world : World Entry σ) :
    Tells (Action.recordAll entries) world (.ok ()) (reported entries) :=
  ⟨rfl, reported_append _ _⟩

theorem emit (event : Event) (world : World Entry σ) : Tells (Action.emit event) world (.ok ()) [event] :=
  recordAll event.entries world

theorem logged (action : Action LogRecord σ α) (world : World Entry σ) :
    Tells action.logged world (action.perform ⟨world.files, world.remote, []⟩).1 [] := by
  refine ⟨rfl, ?_⟩
  rw [Action.logged, perform_within, reported_append, reported_logged]

end Tells

end Action

end SchemaSync
