import Mathlib.Data.List.TakeWhile
import SchemaSync.Definitions.Directory
import SchemaSync.Proofs.Definitions.Saved
import SchemaSync.Proofs.Text.LineFeed
import SchemaSync.Proofs.Text.Utf8

/-! Reading what a schema was saved as. Every script is found under the kind of its object, in the order of
the names of the files, with line feeds for its line ends. -/

namespace SchemaSync

namespace Definitions

open SchemaSync.Tree Text

variable {σ : Type} {s : Snapshot}

section Lookup

variable {made : Tree} {place : Location}

private theorem find?_saved (hollow : made.Hollow place) (s : Snapshot) (kind : ObjectKind) (more : Location) :
    (made.extend (savedEntries place s)).find? (place ++ kind.directory :: more) =
      (kindEntries place s kind).lookup (place ++ kind.directory :: more) := by
  have only : (savedEntries place s).lookup (place ++ kind.directory :: more) =
      (kindEntries place s kind).lookup (place ++ kind.directory :: more) := by
    have apart (other : ObjectKind) (different : other ≠ kind) :
        (kindEntries place s other).lookup (place ++ kind.directory :: more) = none :=
      lookup_kindEntries_other different more
    rw [savedEntries, ObjectKind.all, List.flatMap_cons, List.flatMap_cons, List.flatMap_singleton,
      List.lookup_append, List.lookup_append]
    cases kind with
    | domain => rw [apart .table (by decide), apart .procedure (by decide), Option.or_none, Option.or_none]
    | table => rw [apart .domain (by decide), apart .procedure (by decide), Option.or_none, Option.none_or]
    | procedure => rw [apart .domain (by decide), apart .table (by decide), Option.none_or, Option.none_or]
  rw [find?_extend, hollow.find?_eq_none, Option.none_or, only]

theorem find?_directory (hollow : made.Hollow place) (s : Snapshot) (kind : ObjectKind) :
    (made.extend (savedEntries place s)).find? (place ++ [kind.directory]) =
      if namedScripts s kind = [] then none else some .directory := by
  rw [find?_saved hollow, kindEntries]
  split
  · rfl
  · rw [List.lookup_cons_self]

theorem find?_script (hollow : made.Hollow place) {kind : ObjectKind}
    (distinct : ((namedScripts s kind).map Prod.fst).Nodup) {script : String × String}
    (member : script ∈ namedScripts s kind) :
    (made.extend (savedEntries place s)).find? (place ++ [kind.directory] ++ [script.1 ++ ".sql"]) =
      some (.file (Utf8.encode script.2.toList)) := by
  have inside {scripts : List (String × String)} (distinct : (scripts.map Prod.fst).Nodup)
      (member : script ∈ scripts) :
      (scriptEntries (place ++ [kind.directory]) scripts).lookup (place ++ [kind.directory] ++ [script.1 ++ ".sql"]) =
        some (.file (Utf8.encode script.2.toList)) := by
    induction scripts with
    | nil => cases member
    | cons first rest ih =>
      obtain ⟨fresh, distinct⟩ := List.nodup_cons.mp distinct
      rcases List.mem_cons.mp member with rfl | member
      · exact List.lookup_cons_self
      · have other : (place ++ [kind.directory] ++ [script.1 ++ ".sql"] ==
            place ++ [kind.directory] ++ [first.1 ++ ".sql"]) = false := by
          rw [beq_eq_false_iff_ne]
          intro same
          rw [List.append_cancel_left_eq, List.cons.injEq, String.append_left_inj] at same
          exact fresh (same.1 ▸ List.mem_map_of_mem member)
        rw [scriptEntries, List.map_cons, List.lookup_cons, other]
        exact ih distinct member
  have given : namedScripts s kind ≠ [] := List.ne_nil_of_mem member
  rw [List.append_assoc, List.singleton_append, find?_saved hollow, kindEntries, if_neg given, List.lookup_cons]
  have other : (place ++ kind.directory :: [script.1 ++ ".sql"] == place ++ [kind.directory]) = false := by simp
  rw [other]
  have found := inside distinct member
  rwa [List.append_assoc, List.singleton_append] at found

private theorem dropLast_child (place : Location) (name : String) : (place ++ [name]).dropLast = place := by
  simp

private theorem namesIn_kindEntries_other {kind other : ObjectKind} (different : other ≠ kind) :
    namesIn (kindEntries place s other) (place ++ [kind.directory]) = [] := by
  refine namesIn_eq_nil fun entry member same => ?_
  rw [kindEntries] at member
  split at member
  · cases member
  · rcases List.mem_cons.mp member with rfl | member
    · rw [dropLast_child] at same
      simp at same
    · obtain ⟨script, _, rfl⟩ := List.mem_map.mp member
      rw [dropLast_child, List.append_cancel_left_eq, List.cons.injEq] at same
      exact different (ObjectKind.directory_inj same.1)

private theorem namesIn_kindEntries (kind : ObjectKind) :
    namesIn (kindEntries place s kind) (place ++ [kind.directory]) =
      (namedScripts s kind).map (·.1 ++ ".sql") := by
  have scripts (all : List (String × String)) : namesIn (scriptEntries (place ++ [kind.directory]) all)
      (place ++ [kind.directory]) = all.map (·.1 ++ ".sql") := by
    rw [namesIn, scriptEntries, List.filterMap_map, ← List.filterMap_eq_map]
    refine congrArg (List.filterMap · all) (funext fun script => ?_)
    dsimp only [Function.comp]
    rw [dropLast_child, beq_self_eq_true, if_pos rfl, List.getLast?_concat]
  rw [kindEntries]
  split
  · next empty => rw [empty]; rfl
  · have directory : namesIn [(place ++ [kind.directory], Node.directory)] (place ++ [kind.directory]) = [] := by
      refine namesIn_eq_nil fun entry member same => ?_
      rw [List.mem_singleton.mp member, dropLast_child] at same
      simp at same
    rw [← List.singleton_append, namesIn, List.filterMap_append, ← namesIn, ← namesIn, directory, List.nil_append,
      scripts]

theorem names_saved (hollow : made.Hollow place) (s : Snapshot) (kind : ObjectKind) :
    (made.extend (savedEntries place s)).names (place ++ [kind.directory]) =
      ((namedScripts s kind).map (·.1 ++ ".sql")).mergeSort nameLe := by
  have only : namesIn (savedEntries place s) (place ++ [kind.directory]) =
      namesIn (kindEntries place s kind) (place ++ [kind.directory]) := by
    have apart (other : ObjectKind) (different : other ≠ kind) :
        namesIn (kindEntries place s other) (place ++ [kind.directory]) = [] :=
      namesIn_kindEntries_other different
    have append (first second : List (Location × Node)) (place : Location) :
        namesIn (first ++ second) place = namesIn first place ++ namesIn second place := List.filterMap_append
    rw [savedEntries, ObjectKind.all, List.flatMap_cons, List.flatMap_cons, List.flatMap_singleton, append, append]
    cases kind with
    | domain => rw [apart .table (by decide), apart .procedure (by decide), List.append_nil, List.append_nil]
    | table => rw [apart .domain (by decide), apart .procedure (by decide), List.append_nil, List.nil_append]
    | procedure => rw [apart .domain (by decide), apart .table (by decide), List.nil_append, List.nil_append]
  rw [names_extend, hollow.namesIn_eq_nil, List.nil_append, only, namesIn_kindEntries]

end Lookup

section Read

def inOrder (scripts : List (String × String)) : List (String × String) :=
  scripts.mergeSort fun first second => nameLe (first.1 ++ ".sql") (second.1 ++ ".sql")

def foundScript (directory : Path) (script : String × String) : ScriptFile :=
  ⟨scriptPath directory script, lineFed script.2⟩

structure Holds (files : Tree) (directory : Path) (scripts : List (String × String)) : Prop where
  plain : ∀ script ∈ scripts, Path.IsPlain (script.1 ++ ".sql")
  children : files.children directory = (inOrder scripts).map (scriptPath directory)
  content : ∀ script ∈ scripts,
    files.lookup (scriptPath directory script) = .ok (.file (Utf8.encode script.2.toList))

def Begins (text : String) : Prop :=
  ∃ c rest, text.toList = c :: rest ∧ c.toNat < 0x80 ∧ isBlank c = false

variable {files : Tree} {directory : Path} {scripts : List (String × String)}

theorem scriptPath_name {script : String × String} (plain : Path.IsPlain (script.1 ++ ".sql")) :
    (scriptPath directory script).name = script.1 ++ ".sql" := by
  rw [scriptPath, Path.child_plain plain, Path.name, List.getLast?_concat, Option.getD_some]

theorem isScriptName_append (name : String) : isScriptName (name ++ ".sql") = true := by
  rw [isScriptName, String.toList_append, List.isSuffixOf_iff_suffix]
  exact List.suffix_append _ _

theorem readScript_eq {path : Path} {text : String} (begins : Begins text)
    (found : files.lookup path = .ok (.file (Utf8.encode text.toList))) :
    readScript files path = .ok (lineFed text) := by
  obtain ⟨c, rest, start, ascii, _⟩ := begins
  rw [readScript, Tree.read, found]
  dsimp only
  rw [start, Utf8.decodeMarked_encode ascii, ← start]
  rfl

theorem Begins.lineFed {text : String} (begins : Begins text) : isBlankText (lineFed text) = false := by
  obtain ⟨c, rest, start, _, solid⟩ := begins
  have other : c ≠ '\r' := by
    rintro rfl
    cases solid
  rw [isBlankText, Text.lineFed, String.toList_ofList, start, withLineFeeds_cons other, List.all_cons, solid,
    Bool.false_and]

theorem Holds.readDirectory_eq (holds : Holds files directory scripts)
    (begins : ∀ script ∈ scripts, Begins script.2) : readDirectory files directory =
      { scripts := (inOrder scripts).map (foundScript directory), failed := [], obstacle := none } := by
  have inside {script : String × String} (member : script ∈ inOrder scripts) : script ∈ scripts :=
    List.mem_mergeSort.mp member
  -- Everything in the directory is a file of a script, so no filter takes anything out.
  have candidates : candidates files directory = (inOrder scripts).map (scriptPath directory) := by
    rw [Definitions.candidates, holds.children, List.filter_eq_self]
    intro path member
    obtain ⟨script, found, rfl⟩ := List.mem_map.mp member
    rw [scriptPath_name (holds.plain script (inside found))]
    exact isScriptName_append _
  have free : ∀ path ∈ (inOrder scripts).map (scriptPath directory), obstacle? files path = none := by
    intro path member
    obtain ⟨script, found, rfl⟩ := List.mem_map.mp member
    rw [obstacle?, lookup?, holds.content script (inside found)]
  have paths : scriptPaths files directory = (inOrder scripts).map (scriptPath directory) := by
    have followed : ∀ path ∈ (inOrder scripts).map (scriptPath directory), (obstacle? files path).isNone = true :=
      fun path member => by rw [free path member]; rfl
    rw [scriptPaths, candidates, List.takeWhile_eq_self_iff.mpr followed, List.filter_eq_self]
    intro path member
    obtain ⟨script, found, rfl⟩ := List.mem_map.mp member
    rw [isFile, holds.content script (inside found)]
    rfl
  have read : (scriptPaths files directory).map (fun path => (path, readScript files path)) =
      (inOrder scripts).map fun script => (scriptPath directory script, .ok (lineFed script.2)) := by
    rw [paths, List.map_map]
    refine List.map_congr_left fun script found => ?_
    dsimp only [Function.comp]
    rw [readScript_eq (begins script (inside found)) (holds.content script (inside found))]
  have obstacle : (Definitions.candidates files directory).findSome? (obstacle? files) = none := by
    rw [candidates, List.findSome?_eq_none_iff]
    exact free
  rw [readDirectory]
  dsimp only
  rw [read, obstacle, Reading.mk.injEq]
  refine ⟨?_, ?_, rfl⟩
  · have visible : ∀ script ∈ inOrder scripts, isBlankText (lineFed script.2) = false :=
      fun script found => (begins script (inside found)).lineFed
    rw [List.filterMap_map]
    generalize inOrder scripts = ordered at visible
    induction ordered with
    | nil => rfl
    | cons script rest ih =>
      rw [List.forall_mem_cons] at visible
      rw [List.filterMap_cons, List.map_cons, ih visible.2]
      dsimp only [Function.comp]
      rw [visible.1]
      rfl
  · rw [List.filterMap_map, List.filterMap_eq_nil_iff]
    exact fun script _ => rfl

end Read

section Find

variable {files : Tree} {root : Path} {place : Location}

structure SavedAt (files : Tree) (root : Path) (s : Snapshot) : Prop where
  inside : files.isDirectory root = .ok true
  directories : ∀ kind, files.isDirectory (root.child (ObjectKind.directory kind)) =
    .ok (!(namedScripts s kind).isEmpty)
  holds : ∀ kind, Holds files (root.child (ObjectKind.directory kind)) (namedScripts s kind)

/-- Whatever path leads to where a schema has been saved, it is found below that path. -/
theorem savedAt_extend {made : Tree} (savable : Savable s) (fits : Fits root s)
    (located : made.locate root = .ok place) (inside : made.find? place = some .directory)
    (hollow : made.Hollow place) : SavedAt (made.extend (savedEntries place s)) root s := by
  have located := locate_extend located (savedEntries place s)
  have inside := find?_extend_some inside (savedEntries place s)
  have below (kind : ObjectKind) := locate_child located inside kind.plain_directory (fits.directories kind)
  constructor
  · exact isDirectory_of_find? located inside
  · intro kind
    have found := find?_directory hollow s kind
    split at found
    · next empty =>
      rw [isDirectory_of_absent (below kind) found, empty]
      rfl
    · next given =>
      rw [isDirectory_of_find? (below kind) found, List.isEmpty_eq_false_iff.mpr given]
      rfl
  · intro kind
    refine ⟨savable.plain kind, ?_, ?_⟩
    · have order : (inOrder (namedScripts s kind)).map (·.1 ++ ".sql") =
          ((namedScripts s kind).map (·.1 ++ ".sql")).mergeSort nameLe :=
        List.map_mergeSort fun _ _ _ _ => rfl
      have unlocked : (made.extend (savedEntries place s)).find? (place ++ [kind.directory]) ≠
          some .lockedDirectory := by
        rw [find?_directory hollow]
        split <;> nofun
      rw [children, below kind]
      dsimp only
      rw [if_neg unlocked, names_saved hollow, ← order, List.map_map]
      refine List.map_congr_left fun script member => ?_
      rw [scriptPath, Path.child_plain (savable.plain kind script (List.mem_mergeSort.mp member))]
      rfl
    · intro script member
      have directory := find?_directory hollow s kind
      rw [if_neg (List.ne_nil_of_mem member)] at directory
      exact lookup_eq_of_find? (locate_child (below kind) directory (savable.plain kind script member)
        (fits.files kind script member)) (find?_script hollow (savable.distinct kind) member)

/-- What is found of the scripts of one kind. -/
def foundKind (root : Path) (s : Snapshot) (kind : ObjectKind) : List ScriptFile :=
  (inOrder (namedScripts s kind)).map (foundScript (root.child kind.directory))

theorem SavedAt.gives_readKind (saved : SavedAt files root s)
    (begins : ∀ kind, ∀ script ∈ namedScripts s kind, Begins script.2) (kind : ObjectKind) :
    (readKind root kind : Action LogRecord σ Reading).Gives files
      { scripts := foundKind root s kind, failed := [], obstacle := none } files := by
  have directory := saved.directories kind
  have read := (saved.holds kind).readDirectory_eq (begins kind)
  refine Action.gives_files.bind ?_
  dsimp only
  rw [directory]
  by_cases empty : namedScripts s kind = []
  · have nothing : foundKind root s kind = [] := by rw [foundKind, empty, inOrder, List.mergeSort_nil, List.map_nil]
    rw [empty, nothing]
    exact Action.gives_pure _
  · rw [List.isEmpty_eq_false_iff.mpr empty]
    have scripts : (readScripts (root.child kind.directory) : Action LogRecord σ Reading).Gives files
        { scripts := foundKind root s kind, failed := [], obstacle := none } files := by
      refine Action.gives_files.bind ?_
      dsimp only
      rw [read]
      exact (Action.gives_recordAll _).bind (Action.gives_pure _)
    exact scripts.bind ((Action.gives_log _ _).bind (Action.gives_pure _))

def foundSet (root : Path) (s : Snapshot) : ScriptSet where
  groups := {
    domains := foundKind root s .domain
    tables := foundKind root s .table
    procedures := foundKind root s .procedure }
  warnings := []

/-- A saved schema that has objects is loaded whole, and nothing is left out. -/
theorem SavedAt.gives_load {text : String} (saved : SavedAt files (Path.ofString text) s)
    (given : isBlankText text = false) (begins : ∀ kind, ∀ script ∈ namedScripts s kind, Begins script.2)
    (objects : s.total ≠ 0) :
    (load find text : Action LogRecord σ ScriptSet).Gives files (foundSet (Path.ofString text) s) files := by
  have valid : validateRoot files text = .ok (Path.ofString text) := by
    rw [validateRoot, given, if_neg Bool.false_ne_true]
    dsimp only
    rw [saved.inside]
  have length (kind : ObjectKind) : (foundKind (Path.ofString text) s kind).length = (namedScripts s kind).length := by
    rw [foundKind, List.length_map, inOrder, List.length_mergeSort]
  have total : (foundSet (Path.ofString text) s).groups.total = s.total := by
    simp only [foundSet, ScriptGroups.total, length, namedScripts, List.length_map, Snapshot.total]
  have found : (find text : Action LogRecord σ FoundScripts).Gives files
      { groups := some (foundSet (Path.ofString text) s).groups, skipped := [] } files := by
    refine Action.gives_files.bind ((Action.gives_ofExcept valid).bind ?_)
    refine (saved.gives_readKind begins .domain).bind ((saved.gives_readKind begins .table).bind
      ((saved.gives_readKind begins .procedure).bind ?_))
    dsimp only
    rw [if_pos (total.symm ▸ objects)]
    exact Action.gives_pure _
  exact found.bind ((Action.gives_recordAll _).bind ((Action.gives_log _ _).bind (Action.gives_pure _)))

end Find

end Definitions

end SchemaSync
