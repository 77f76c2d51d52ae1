import SchemaSync.Definitions.Desired
import SchemaSync.Proofs.Run.Reported
import SchemaSync.Proofs.Script.Declared

/-! What becomes of scripts of one kind, one after the other: each gives its object or a warning, and the objects are
those of the first scripts with their keys. -/

namespace SchemaSync

namespace ScriptReader

variable {α : Type} (reader : ScriptReader α)

/-- An object comes from a script: the script gives it, and no script before gives another one with its key. -/
structure ComesFrom (scripts : List ScriptFile) (object : α) (script : ScriptFile) : Prop where
  read : reader.read script.text = .ok object
  first : ∃ before after, scripts = before ++ script :: after ∧ ∀ earlier ∈ before, ∀ other,
    reader.read earlier.text = .ok other → reader.key other ≠ reader.key object

structure Gathered (scripts : List ScriptFile) (objects : List α) (textOf : String → Option String) : Prop where
  declared : ∀ script ∈ scripts, Declares (reader.read script.text)
  distinct : (objects.map reader.key).Nodup
  inOrder : ∃ origins : List (α × ScriptFile), objects = origins.map Prod.fst ∧
    (origins.map Prod.snd).Sublist scripts ∧ ∀ origin ∈ origins,
      reader.ComesFrom scripts origin.1 origin.2 ∧ textOf (reader.name origin.1) = some origin.2.text
  complete : ∀ script ∈ scripts, ∀ object, reader.read script.text = .ok object →
    ∃ kept ∈ objects, reader.key kept = reader.key object

variable {reader} in
theorem Gathered.origin {scripts : List ScriptFile} {objects : List α} {textOf : String → Option String}
    (gathered : reader.Gathered scripts objects textOf) {object : α} (member : object ∈ objects) :
    ∃ script, reader.ComesFrom scripts object script ∧ textOf (reader.name object) = some script.text := by
  obtain ⟨origins, rfl, _, origin⟩ := gathered.inOrder
  obtain ⟨⟨object, script⟩, inside, rfl⟩ := List.mem_map.mp member
  exact ⟨script, origin _ inside⟩

variable {reader} in
theorem ComesFrom.cons {scripts : List ScriptFile} {object : α} {origin script : ScriptFile}
    (comes : reader.ComesFrom scripts object origin)
    (other : ∀ given, reader.read script.text = .ok given → reader.key given ≠ reader.key object) :
    reader.ComesFrom (script :: scripts) object origin := by
  obtain ⟨read, before, after, rfl, first⟩ := comes
  exact ⟨read, script :: before, after, rfl, List.forall_mem_cons.mpr ⟨other, first⟩⟩

/-- A script is skipped, if it cannot be read or its key is taken, or else its object is accepted. -/
theorem outcome_cases (taken : List NameKey) (script : ScriptFile) :
    (∃ warning, reader.outcome taken script = .skipped warning ∧
      ∀ object, reader.read script.text = .ok object → reader.key object ∈ taken) ∨
    ∃ object, reader.outcome taken script = .accepted object ∧ reader.read script.text = .ok object ∧
      reader.key object ∉ taken := by
  rw [outcome]
  cases read : reader.read script.text with
  | error error => exact .inl ⟨_, rfl, fun object same => by cases same⟩
  | ok object =>
    dsimp only
    split
    · next inside =>
      refine .inl ⟨_, rfl, ?_⟩
      rintro _ ⟨⟩
      exact List.contains_iff_mem.mp inside
    · next outside => exact .inr ⟨object, rfl, rfl, fun inside => outside (List.contains_iff_mem.mpr inside)⟩

end ScriptReader

namespace Outcomes

variable {α : Type}

/-- The objects of the scripts that are not skipped, each with its script. -/
def accepted (outcomes : Outcomes α) : List (α × ScriptFile) :=
  outcomes.filterMap fun entry => entry.2.object?.map fun object => (object, entry.1)

theorem accepted_cons_accepted (script : ScriptFile) (object : α) (rest : Outcomes α) :
    accepted ((script, .accepted object) :: rest) = (object, script) :: accepted rest :=
  rfl

theorem accepted_cons_skipped (script : ScriptFile) (warning : String) (rest : Outcomes α) :
    accepted ((script, .skipped warning) :: rest) = accepted rest :=
  rfl

theorem objects_eq (outcomes : Outcomes α) : outcomes.objects = outcomes.accepted.map Prod.fst := by
  rw [objects, accepted, List.map_filterMap]
  refine congrArg (List.filterMap · outcomes) (funext fun entry => ?_)
  rw [Option.map_map, Function.comp_def, Option.map_id']

theorem sources_eq (reader : ScriptReader α) (outcomes : Outcomes α) : outcomes.sources reader =
    outcomes.accepted.map fun origin => ((reader.kind, reader.key origin.1), origin.2.text) := by
  rw [sources, accepted, List.map_filterMap]
  refine congrArg (List.filterMap · outcomes) (funext fun entry => ?_)
  rw [Option.map_map]
  rfl

theorem length_objects_add_warnings (outcomes : Outcomes α) :
    outcomes.objects.length + outcomes.warnings.length = outcomes.length := by
  induction outcomes with
  | nil => rfl
  | cons entry rest ih =>
    obtain ⟨script, outcome⟩ := entry
    cases outcome with
    | accepted object =>
      show (objects rest).length + 1 + (warnings rest).length = rest.length + 1
      omega
    | skipped warning =>
      show (objects rest).length + ((warnings rest).length + 1) = rest.length + 1
      omega

/-- The events about scripts are their warnings, in order. -/
theorem reported_entries (reader : ScriptReader α) (outcomes : Outcomes α) :
    reported (outcomes.entries reader) = outcomes.warnings.map (Event.plain .warning) := by
  induction outcomes with
  | nil => rfl
  | cons entry rest ih =>
    obtain ⟨script, outcome⟩ := entry
    have quiet : reported ((reader.remarks script.text).map fun remark => .log ⟨.warning, remark⟩) = [] := by
      rw [reported, List.filterMap_map]
      exact List.filterMap_eq_nil_iff.mpr fun _ _ => rfl
    rw [entries, warnings] at ih ⊢
    rw [List.flatMap_cons, reported_append, reported_append, quiet, ih]
    cases outcome with
    | accepted object => rfl
    | skipped warning => rfl

end Outcomes

namespace ScriptReader

variable {α : Type} {reader : ScriptReader α} {taken : List NameKey} {script : ScriptFile}

theorem outcomes_skipped {warning : String} (skipped : reader.outcome taken script = .skipped warning)
    (rest : List ScriptFile) :
    reader.outcomes taken (script :: rest) = (script, .skipped warning) :: reader.outcomes taken rest := by
  rw [outcomes, skipped]

theorem outcomes_accepted {object : α} (accepted : reader.outcome taken script = .accepted object)
    (rest : List ScriptFile) : reader.outcomes taken (script :: rest) =
      (script, .accepted object) :: reader.outcomes (reader.key object :: taken) rest := by
  rw [outcomes, accepted]

variable (reader)

theorem length_outcomes (taken : List NameKey) (scripts : List ScriptFile) :
    (reader.outcomes taken scripts).length = scripts.length := by
  induction scripts generalizing taken with
  | nil => rfl
  | cons script rest ih => rw [outcomes, List.length_cons, ih, List.length_cons]

/-- What is accepted of some scripts when objects with some keys are there already. -/
structure Accepts (taken : List NameKey) (scripts : List ScriptFile) (origins : List (α × ScriptFile)) : Prop where
  inOrder : (origins.map Prod.snd).Sublist scripts
  distinct : (origins.map fun origin => reader.key origin.1).Nodup
  fresh : ∀ origin ∈ origins, reader.key origin.1 ∉ taken
  first : ∀ origin ∈ origins, reader.ComesFrom scripts origin.1 origin.2
  complete : ∀ script ∈ scripts, ∀ object, reader.read script.text = .ok object → reader.key object ∈ taken ∨
    ∃ origin ∈ origins, reader.key origin.1 = reader.key object

/-- Scripts are accepted one after the other, each unless its key is taken. -/
theorem accepts_outcomes (taken : List NameKey) (scripts : List ScriptFile) :
    reader.Accepts taken scripts (Outcomes.accepted (reader.outcomes taken scripts)) := by
  -- Each accepted object takes its key from the scripts after it.
  induction scripts generalizing taken with
  | nil => exact ⟨.slnil, .nil, by simp [outcomes, Outcomes.accepted], by simp [outcomes, Outcomes.accepted], by simp⟩
  | cons script rest ih =>
    rcases reader.outcome_cases taken script with ⟨warning, skipped, inside⟩ | ⟨object, accepted, read, outside⟩
    · have later := ih taken
      rw [outcomes_skipped skipped, Outcomes.accepted_cons_skipped]
      refine ⟨later.inOrder.cons script, later.distinct, later.fresh, fun origin member => ?_, ?_⟩
      · exact (later.first origin member).cons fun given read same =>
          later.fresh origin member (same ▸ inside given read)
      · exact List.forall_mem_cons.mpr ⟨fun given read => .inl (inside given read), later.complete⟩
    · have later := ih (reader.key object :: taken)
      rw [outcomes_accepted accepted, Outcomes.accepted_cons_accepted]
      refine ⟨later.inOrder.cons_cons script, ?_, ?_, ?_, ?_⟩
      · refine List.nodup_cons.mpr ⟨fun member => ?_, later.distinct⟩
        obtain ⟨origin, inside, same⟩ := List.mem_map.mp member
        exact later.fresh origin inside (List.mem_cons.mpr (.inl same))
      · exact List.forall_mem_cons.mpr ⟨outside, fun origin member taken =>
          later.fresh origin member (List.mem_cons_of_mem _ taken)⟩
      · refine List.forall_mem_cons.mpr ⟨⟨read, [], rest, rfl, by simp⟩, fun origin member => ?_⟩
        refine (later.first origin member).cons fun given again same => later.fresh origin member ?_
        rw [read] at again
        cases again
        exact List.mem_cons.mpr (.inl same.symm)
      · refine List.forall_mem_cons.mpr ⟨fun given again => .inr ⟨(object, script), List.mem_cons_self, ?_⟩, ?_⟩
        · rw [read] at again
          cases again
          rfl
        · intro other member given read
          rcases later.complete other member given read with inside | ⟨origin, inside, same⟩
          · rcases List.mem_cons.mp inside with same | inside
            · exact .inr ⟨(object, script), List.mem_cons_self, same.symm⟩
            · exact .inl inside
          · exact .inr ⟨origin, List.mem_cons_of_mem _ inside, same⟩

/-- The objects that scripts give are gathered from them, if the text of each is found under its name. -/
theorem gathered_outcomes {scripts : List ScriptFile} {textOf : String → Option String}
    (declares : ∀ text, Declares (reader.read text))
    (found : ∀ origin ∈ Outcomes.accepted (reader.outcomes [] scripts),
      textOf (reader.name origin.1) = some origin.2.text) :
    reader.Gathered scripts (Outcomes.objects (reader.outcomes [] scripts)) textOf := by
  have accepts := reader.accepts_outcomes [] scripts
  rw [Outcomes.objects_eq]
  refine ⟨fun script _ => declares script.text, ?_, ⟨_, rfl, accepts.inOrder, fun origin member => ?_⟩, ?_⟩
  · rw [List.map_map]
    exact accepts.distinct
  · exact ⟨accepts.first origin member, found origin member⟩
  · intro script member object read
    rcases accepts.complete script member object read with inside | ⟨origin, inside, same⟩
    · cases inside
    · exact ⟨origin.1, List.mem_map_of_mem inside, same⟩

end ScriptReader

end SchemaSync
