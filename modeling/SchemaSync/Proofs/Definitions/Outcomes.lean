import SchemaSync.Definitions.Desired
import SchemaSync.Proofs.Definitions.Reread
import SchemaSync.Proofs.Plan.Keyed

/-! What becomes of scripts for objects with different keys: none is in the way of another, so each gives its
object or is skipped for itself. -/

namespace SchemaSync

open Keyed

namespace ScriptReader

variable {α ι : Type} {reader : ScriptReader α} {file : ι → ScriptFile} {keyOf : ι → NameKey}

/-- Scripts whose objects, if they give any, have different keys, are read one by one. -/
theorem outcomes_eq {items : List ι} {taken : List NameKey} (distinct : (items.map keyOf).Nodup)
    (named : ∀ item ∈ items, ∀ object, reader.read (file item).text = .ok object → reader.key object = keyOf item)
    (fresh : ∀ item ∈ items, keyOf item ∉ taken) : reader.outcomes taken (items.map file) =
      items.map fun item => (file item, reader.outcome [] (file item)) := by
  induction items generalizing taken with
  | nil => rfl
  | cons item rest ih =>
    obtain ⟨other, distinct⟩ := List.nodup_cons.mp distinct
    rw [List.forall_mem_cons] at named fresh
    have here : reader.outcome taken (file item) = reader.outcome [] (file item) := by
      rw [outcome, outcome]
      cases read : reader.read (file item).text with
      | error => rfl
      | ok object =>
        have absent : taken.contains (reader.key object) = false := by
          rw [named.1 object read, ← Bool.not_eq_true, List.contains_iff_mem]
          exact fresh.1
        dsimp only
        rw [absent]
        rfl
    rw [List.map_cons, List.map_cons, outcomes, here, ih distinct named.2]
    intro later member
    split
    · next object accepted =>
      rw [outcome] at accepted
      split at accepted
      · cases accepted
      · next given read =>
        rw [if_neg (by simp)] at accepted
        cases accepted
        rw [named.1 _ read, List.mem_cons, not_or]
        exact ⟨fun same => other (same ▸ List.mem_map_of_mem member), fresh.2 later member⟩
    · exact fresh.2 later member

variable {items : List ι} (distinct : (items.map keyOf).Nodup)
  (named : ∀ item ∈ items, ∀ object, reader.read (file item).text = .ok object → reader.key object = keyOf item)

include distinct named

theorem mem_objects_iff {object : α} : object ∈ Outcomes.objects (reader.outcomes [] (items.map file)) ↔
    ∃ item ∈ items, reader.read (file item).text = .ok object := by
  rw [outcomes_eq distinct named (by simp), Outcomes.objects, List.mem_filterMap]
  constructor
  · rintro ⟨entry, member, given⟩
    obtain ⟨item, inside, rfl⟩ := List.mem_map.mp member
    refine ⟨item, inside, ?_⟩
    dsimp only [outcome] at given
    split at given
    · cases given
    · next read =>
      rw [if_neg (by simp)] at given
      cases given
      exact read
  · rintro ⟨item, inside, read⟩
    refine ⟨_, List.mem_map_of_mem inside, ?_⟩
    dsimp only [outcome]
    rw [read]
    rfl

theorem warnings_eq_nil_iff : Outcomes.warnings (reader.outcomes [] (items.map file)) = [] ↔
    ∀ item ∈ items, ∃ object, reader.read (file item).text = .ok object := by
  rw [outcomes_eq distinct named (by simp), Outcomes.warnings, List.filterMap_eq_nil_iff, List.forall_mem_map]
  refine forall₂_congr fun item _ => ?_
  dsimp only [outcome]
  cases reader.read (file item).text with
  | error => simp [ScriptOutcome.warning?]
  | ok object => simp [ScriptOutcome.warning?]

end ScriptReader

namespace Definitions

open ScriptReader

variable {α : Type} (reader : ScriptReader α) (script : α → String) (directory : Path)

/-- The scripts that saved objects are found as in their directory. -/
def foundObjects (objects : List α) : List ScriptFile :=
  (inOrder (objects.map fun object => (reader.name object, script object))).map (foundScript directory)

variable {objects : List α} (distinct : Distinct reader.key objects)
  (named : ∀ object ∈ objects, ∀ given, reader.read (Text.lineFed (script object)) = .ok given →
    reader.name given = reader.name object)

private theorem mem_inOrder {pair : String × String} :
    pair ∈ inOrder (objects.map fun object => (reader.name object, script object)) ↔
      ∃ object ∈ objects, (reader.name object, script object) = pair := by
  rw [inOrder, List.mem_mergeSort, List.mem_map]

include distinct in
private theorem keys_inOrder :
    ((inOrder (objects.map fun object => (reader.name object, script object))).map
      fun pair => NameKey.of pair.1).Nodup := by
  have order := List.mergeSort_perm (objects.map fun object => (reader.name object, script object))
    (fun first second => Tree.nameLe (first.1 ++ ".sql") (second.1 ++ ".sql"))
  have same := order.map fun pair => NameKey.of pair.1
  rw [inOrder, same.nodup_iff, List.map_map]
  exact distinct

include named in
private theorem key_of_found : ∀ pair ∈ inOrder (objects.map fun object => (reader.name object, script object)),
    ∀ given, reader.read (foundScript directory pair).text = .ok given →
      reader.key given = NameKey.of pair.1 := by
  intro pair member given read
  obtain ⟨object, inside, rfl⟩ := (mem_inOrder reader script).mp member
  exact congrArg NameKey.of (named object inside given read)

include distinct named

/-- The objects that saved scripts give are those that one of them gives by itself. -/
theorem mem_found_iff {given : α} :
    given ∈ Outcomes.objects (reader.outcomes [] (foundObjects reader script directory objects)) ↔
      ∃ object ∈ objects, reader.read (Text.lineFed (script object)) = .ok given := by
  rw [foundObjects, mem_objects_iff (keys_inOrder reader script distinct) (key_of_found reader script directory named)]
  constructor
  · rintro ⟨pair, member, read⟩
    obtain ⟨object, inside, rfl⟩ := (mem_inOrder reader script).mp member
    exact ⟨object, inside, read⟩
  · rintro ⟨object, inside, read⟩
    exact ⟨_, (mem_inOrder reader script).mpr ⟨object, inside, rfl⟩, read⟩

theorem warnings_found_eq_nil_iff :
    Outcomes.warnings (reader.outcomes [] (foundObjects reader script directory objects)) = [] ↔
      ∀ object ∈ objects, ∃ given, reader.read (Text.lineFed (script object)) = .ok given := by
  rw [foundObjects,
    warnings_eq_nil_iff (keys_inOrder reader script distinct) (key_of_found reader script directory named)]
  constructor
  · intro all object inside
    exact all (reader.name object, script object) ((mem_inOrder reader script).mpr ⟨object, inside, rfl⟩)
  · intro all pair member
    obtain ⟨object, inside, rfl⟩ := (mem_inOrder reader script).mp member
    exact all object inside

end Definitions

end SchemaSync
