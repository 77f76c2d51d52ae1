import SchemaSync.Definitions.Directory
import SchemaSync.Proofs.Firebird.Request
import SchemaSync.Proofs.Run.Recorded

/-! What a run asks a database for. Each request is noted beside the state of the database, and the run goes on as it
would without notes. -/

namespace SchemaSync

open Firebird (Request)

/-- What a database was asked for, and how that ended. -/
structure Asked where
  request : Request
  result : Except Error Unit

def Asked.batch (execution : Execution) : Asked :=
  ⟨.execute execution.target execution.batch, execution.result⟩

variable {ε σ ρ α : Type}

/-- An action that does as another one and adds notes on how that ended. -/
def Action.noting (notes : Except Error α → List ρ) (action : Action ε σ α) : Action ε (σ × List ρ) α :=
  ofStep fun world =>
    let (result, after) := action.perform (forget world)
    (result, ⟨after.files, (after.remote, world.remote.2 ++ notes result), after.journal⟩)

def SchemaSource.asked (source : SchemaSource σ) : SchemaSource (σ × List Asked) where
  domains target := (source.domains target).noting fun result => [⟨.domains target, result.map fun _ => ()⟩]
  tables target := (source.tables target).noting fun result => [⟨.tables target, result.map fun _ => ()⟩]
  procedures target := (source.procedures target).noting fun result =>
    [⟨.procedures target, result.map fun _ => ()⟩]

def Executor.asked (execute : Executor σ) : Executor (σ × List Asked) :=
  fun target batch => (execute target batch).noting fun result => [⟨.execute target batch, result⟩]

def Creator.asked (create : Creator σ) : Creator (σ × List Asked) :=
  fun location => (create location).noting fun result => [⟨.createEmpty location, result⟩]

/-- A finder that leaves the notes as they are, since it asks a database for nothing. -/
def Definitions.Finder.beside (finder : Finder σ) : Finder (σ × List Asked) :=
  fun root => (finder root).noting fun _ => []

def World.unnoted (world : World ε σ) : World ε (σ × List ρ) :=
  ⟨world.files, (world.remote, []), world.journal⟩

def Action.requests (action : Action ε (σ × List Asked) α) (world : World ε σ) : List Asked :=
  (action.perform world.unnoted).2.remote.2

/-- What a run checks before it does anything: its place is named, and so is its root, which is a directory. -/
structure Admitted (place root : String) (files : Tree) : Prop where
  placed : Text.isBlankText place = false
  rooted : Text.isBlankText root = false
  directory : files.isDirectory (.ofString root) = .ok true

namespace Definitions

variable {place root : String} {files : Tree}

theorem validateRoot_eq (admitted : Admitted place root files) : validateRoot files root = .ok (.ofString root) := by
  rw [validateRoot, admitted.rooted, if_neg Bool.false_ne_true]
  dsimp only
  rw [admitted.directory]

theorem refused_of_not_admitted (unfit : ¬Admitted place root files) :
    Text.isBlankText place = true ∨ ∃ error, validateRoot files root = .error error := by
  cases named : Text.isBlankText place with
  | true => exact .inl rfl
  | false =>
    refine .inr ?_
    rw [validateRoot]
    split
    · exact ⟨_, rfl⟩
    · next given =>
      dsimp only
      split
      · next directory => exact absurd ⟨named, Bool.not_eq_true _ ▸ given, directory⟩ unfit
      · exact ⟨_, rfl⟩
      · exact ⟨_, rfl⟩

end Definitions

structure Action.Leaves (action : Action ε (σ × List ρ) α) (world : World ε (σ × List ρ)) (result : Except Error α)
    (notes : List ρ) : Prop where
  result : (action.perform world).1 = result
  notes : (action.perform world).2.remote.2 = world.remote.2 ++ notes

namespace Action.Leaves

variable {β : Type} {action : Action ε (σ × List ρ) α} {world : World ε (σ × List ρ)} {value : α} {error : Error}
  {result : Except Error β} {first second : List ρ}

theorem congr {result : Except Error α} (leaves : Leaves action world result first) (same : first = second) :
    Leaves action world result second :=
  same ▸ leaves

theorem bind (one : Leaves action world (.ok value) first) {next : α → Action ε (σ × List ρ) β}
    (two : Leaves (next value) (action.perform world).2 result second) :
    Leaves (action >>= next) world result (first ++ second) := by
  have ended : action.perform world = (.ok value, (action.perform world).2) := Prod.ext one.result rfl
  have both := perform_bind_ok ended next
  exact ⟨by rw [both, two.result], by rw [both, two.notes, one.notes, List.append_assoc]⟩

/-- What comes of an action and what follows it, said of all that the two add. -/
theorem goOn (one : Leaves action world (.ok value) first) {next : α → Action ε (σ × List ρ) β}
    {P : List ρ → Except Error β → Prop}
    (two : ∃ notes result, Leaves (next value) (action.perform world).2 result notes ∧ P (first ++ notes) result) :
    ∃ notes result, Leaves (action >>= next) world result notes ∧ P notes result := by
  obtain ⟨notes, result, leaves, property⟩ := two
  exact ⟨first ++ notes, result, one.bind leaves, property⟩

theorem bind_error (one : Leaves action world (.error error) first) (next : α → Action ε (σ × List ρ) β) :
    Leaves (action >>= next) world (.error error) first := by
  have ended : action.perform world = (.error error, (action.perform world).2) := Prod.ext one.result rfl
  have both := perform_bind_error ended next
  exact ⟨by rw [both], by rw [both, one.notes]⟩

theorem pure (value : α) (world : World ε (σ × List ρ)) : Leaves (Pure.pure value) world (.ok value) [] :=
  ⟨rfl, (List.append_nil _).symm⟩

theorem ofExcept {given result : Except Error α} (same : given = result) (world : World ε (σ × List ρ)) :
    Leaves (Action.ofExcept given) world result [] :=
  ⟨same, (List.append_nil _).symm⟩

theorem files (world : World ε (σ × List ρ)) : Leaves Action.files world (.ok world.files) [] :=
  ⟨rfl, (List.append_nil _).symm⟩

theorem recordAll (entries : List ε) (world : World ε (σ × List ρ)) :
    Leaves (Action.recordAll entries) world (.ok ()) [] :=
  ⟨rfl, (List.append_nil _).symm⟩

theorem announce (kind : EventKind) (message : String) (world : World Entry (σ × List ρ)) :
    Leaves (Action.announce kind message) world (.ok ()) [] :=
  ⟨rfl, (List.append_nil _).symm⟩

theorem noting (notes : Except Error α → List ρ) (action : Action ε σ α) (world : World ε (σ × List ρ)) :
    Leaves (action.noting notes) world (action.perform (forget world)).1 (notes (action.perform (forget world)).1) :=
  ⟨rfl, rfl⟩

theorem logged {action : Action LogRecord (σ × List ρ) α} {world : World Entry (σ × List ρ)} {result : Except Error α}
    {notes : List ρ} (leaves : Leaves action ⟨world.files, world.remote, []⟩ result notes) :
    Leaves action.logged world result notes :=
  ⟨leaves.result, leaves.notes⟩

end Action.Leaves

namespace Action.Mirrors

theorem ofExcept (result : Except Error α) :
    Mirrors (Action.ofExcept result : Action ε (σ × ρ) α) (Action.ofExcept result : Action ε σ α) :=
  fun _ => rfl

theorem files : Mirrors (Action.files : Action ε (σ × ρ) Tree) (Action.files : Action ε σ Tree) :=
  fun _ => rfl

theorem recordAll (entries : List ε) :
    Mirrors (Action.recordAll entries : Action ε (σ × ρ) Unit) (Action.recordAll entries : Action ε σ Unit) :=
  fun _ => rfl

theorem noting (notes : Except Error α → List ρ) (action : Action ε σ α) : Mirrors (action.noting notes) action :=
  fun _ => rfl

end Action.Mirrors

namespace Definitions

open SchemaSync.Action

variable (finder : Finder σ) (root : String)

theorem load_mirrors : Mirrors (load finder.beside root) (load finder root) :=
  (Mirrors.noting _ _).bind fun _ => (Mirrors.recordAll _).bind fun _ => (Mirrors.recordAll _).bind fun _ => .pure _

/-- Loading asks for nothing. -/
theorem load_leaves (world : World LogRecord (σ × List Asked)) :
    Leaves (load finder.beside root) world (((finder root).perform (forget world)).1.map .ofFound) [] := by
  have finds : Leaves (finder.beside root) world ((finder root).perform (forget world)).1 [] := .noting _ _ world
  cases found : ((finder root).perform (forget world)).1 with
  | error error =>
    rw [found] at finds
    exact finds.bind_error _
  | ok scripts =>
    rw [found] at finds
    exact finds.bind ((Leaves.recordAll _ _).bind ((Leaves.recordAll _ _).bind (.pure _ _)))

end Definitions

end SchemaSync
