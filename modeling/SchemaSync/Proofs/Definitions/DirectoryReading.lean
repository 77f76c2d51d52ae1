import Mathlib.Data.List.TakeWhile
import SchemaSync.Definitions.Directory
import SchemaSync.Proofs.Files.Listing
import SchemaSync.Proofs.Text.LineFeed
import SchemaSync.Proofs.Text.Utf8

/-! What reading one directory of a definition set comes to: which of its files are scripts, which cannot be read, and
that each of them is met once, in the order of the names. -/

namespace SchemaSync

theorem Path.name_child {name : String} (plain : IsPlain name) (directory : Path) :
    (directory.child name).name = name := by
  rw [child_plain plain, Path.name, List.getLast?_concat, Option.getD_some]

namespace Definitions

open SchemaSync.Tree Text

/-- Something that a directory holds under the name of a script, by its path. -/
def Listed (files : Tree) (directory path : Path) (node : Node) : Prop :=
  ∃ name, files.Contains directory name node ∧ isScriptName name = true ∧ path = directory.child name

/-- A script in a directory: a file that is UTF-8 and not blank, with a line feed for every line end. -/
def IsScript (files : Tree) (directory : Path) (script : ScriptFile) : Prop :=
  ∃ bytes cs, Listed files directory script.path (.file bytes) ∧ Utf8.Spells bytes cs ∧
    (∃ c ∈ cs, isBlank c = false) ∧ script.text = String.ofList (withLineFeeds cs)

/-- The bytes of a blank file. The beginning of a mark counts as nothing, though it is not UTF-8. -/
def IsBlankFile (bytes : List UInt8) : Prop :=
  (∃ cs, Utf8.Spells bytes cs ∧ ∀ c ∈ cs, isBlank c = true) ∨ Utf8.CutMark bytes

/-- A file under the name of a script that is locked, or that is not UTF-8 and does not count as blank. -/
inductive Unreadable (files : Tree) (directory path : Path) : Prop
  | locked (listed : Listed files directory path .lockedFile)
  | undecodable {bytes : List UInt8} (listed : Listed files directory path (.file bytes))
      (unspelled : ∀ cs, ¬Utf8.Spells bytes cs) (whole : ¬Utf8.CutMark bytes)

/-- Paths in one directory in the order of their names, each once. -/
abbrev ByName (paths : List Path) : Prop :=
  paths.Pairwise fun first second => first.name < second.name

/-- What is read of a directory is all that there is to read, in order. -/
structure Reading.Covers (reading : Reading) (files : Tree) (directory : Path) : Prop where
  scripts : ∀ script, script ∈ reading.scripts ↔ IsScript files directory script
  skipped : ∀ path, path ∈ reading.skipped ↔ Unreadable files directory path
  inOrder : ByName (reading.scripts.map ScriptFile.path)
  skippedInOrder : ByName reading.skipped

def Reachable (files : Tree) (directory : Path) : Prop :=
  ∀ path node, Listed files directory path node → path.toString.utf8ByteSize ≤ maxPathBytes

variable {files : Tree} {directory path : Path} {place : Location} {node : Node}

private theorem visible_iff {cs : List Char} :
    isBlankText (String.ofList (withLineFeeds cs)) = false ↔ ∃ c ∈ cs, isBlank c = false := by
  rw [isBlankText, String.toList_ofList, all_isBlank_withLineFeeds, List.all_eq_false]
  simp

private theorem byName_filterMap {α β : Type} {entries : List (Path × α)} {pick : Path × α → Option β}
    {pathOf : β → Path} (order : entries.Pairwise fun first second => first.1.name < second.1.name)
    (kept : ∀ entry value, pick entry = some value → pathOf value = entry.1) :
    ByName ((entries.filterMap pick).map pathOf) := by
  refine List.pairwise_map.mpr (order.filterMap pick fun first second before one given two also => ?_)
  rwa [kept first one given, kept second two also]

theorem readDirectory_locked (located : files.locate directory = .ok place)
    (locked : files.find? place = some .lockedDirectory) :
    readDirectory files directory = { scripts := [], failed := [], obstacle := none } := by
  rw [readDirectory, scriptPaths, candidates, children_locked located locked]
  rfl

theorem mem_skipped_iff : path ∈ (readDirectory files directory).skipped ↔
    path ∈ scriptPaths files directory ∧ ∃ error, readScript files path = .error error := by
  simp only [Reading.skipped, readDirectory, List.mem_map, List.mem_filterMap]
  constructor
  · rintro ⟨_, ⟨_, ⟨path, member, rfl⟩, given⟩, rfl⟩
    dsimp only at given
    split at given
    · cases given
    · next error failed =>
      cases given
      exact ⟨member, error, failed⟩
  · rintro ⟨member, error, failed⟩
    refine ⟨(path, error), ⟨_, ⟨path, member, rfl⟩, ?_⟩, rfl⟩
    rw [failed]

section Listed

variable (sound : files.Sound)
include sound

theorem lookup_listed (listed : Listed files directory path node) : files.lookup path =
    if path.toString.utf8ByteSize ≤ maxPathBytes then .ok node else .error .nameTooLong := by
  obtain ⟨name, contains, _, rfl⟩ := listed
  exact sound.lookup_child contains

theorem obstacle?_listed (listed : Listed files directory path node) : obstacle? files path =
    if path.toString.utf8ByteSize ≤ maxPathBytes then none else some ⟨.nameTooLong, path.toString⟩ := by
  rw [obstacle?, lookup?, lookup_listed sound listed]
  by_cases short : path.toString.utf8ByteSize ≤ maxPathBytes
  · rw [if_pos short, if_pos short]
  · rw [if_neg short, if_neg short]
    rfl

/-- A file is read as the text that it spells. What is less than a mark is read as an empty text. -/
theorem readScript_eq_ok_iff {bytes : List UInt8} (listed : Listed files directory path (.file bytes))
    (short : path.toString.utf8ByteSize ≤ maxPathBytes) {text : String} : readScript files path = .ok text ↔
      ∃ cs, (Utf8.Spells bytes cs ∨ (Utf8.CutMark bytes ∧ cs = [])) ∧ text = String.ofList (withLineFeeds cs) := by
  simp only [← Utf8.decodeMarked_eq_ok_iff]
  rw [readScript, Tree.read, lookup_listed sound listed, if_pos short]
  dsimp only
  cases Utf8.decodeMarked bytes with
  | error => simp
  | ok cs => simp [eq_comm]

theorem readScript_locked (listed : Listed files directory path .lockedFile)
    (short : path.toString.utf8ByteSize ≤ maxPathBytes) :
    readScript files path = .error (.file ⟨.denied, path.toString⟩) := by
  rw [readScript, Tree.read, lookup_listed sound listed, if_pos short]

variable (located : files.locate directory = .ok place) (inside : files.find? place = some .directory)
include located inside

theorem candidates_byName : ByName (candidates files directory) := by
  rw [candidates, sound.children_eq located (unlocked_of_inside inside)]
  refine List.Pairwise.filter _ (List.pairwise_map.mpr ?_)
  refine (sound.names_increase place).imp_of_mem fun one two before => ?_
  obtain ⟨_, found⟩ := mem_names_iff.mp one
  obtain ⟨_, other⟩ := mem_names_iff.mp two
  rwa [Path.name_child (sound.isPlain found), Path.name_child (sound.isPlain other)]

theorem mem_candidates_iff : path ∈ candidates files directory ↔ ∃ node, Listed files directory path node := by
  rw [candidates, sound.children_eq located (unlocked_of_inside inside), List.mem_filter, List.mem_map]
  constructor
  · rintro ⟨⟨name, member, rfl⟩, script⟩
    obtain ⟨node, found⟩ := mem_names_iff.mp member
    rw [Path.name_child (sound.isPlain found)] at script
    exact ⟨node, name, ⟨place, located, inside, found⟩, script, rfl⟩
  · rintro ⟨node, name, contains, script, rfl⟩
    rw [Path.name_child (sound.isPlain_of_contains contains)]
    obtain ⟨there, again, _, found⟩ := contains
    cases located.symm.trans again
    exact ⟨⟨name, mem_names_iff.mpr ⟨node, found⟩, rfl⟩, script⟩

theorem obstacle_of_not_reachable (long : ¬Reachable files directory) :
    ∃ path, (readDirectory files directory).obstacle = some ⟨.nameTooLong, path⟩ := by
  simp only [Reachable, not_forall] at long
  obtain ⟨path, node, listed, long⟩ := long
  have member := (mem_candidates_iff sound located inside).mpr ⟨node, listed⟩
  have stopped := obstacle?_listed sound listed
  rw [if_neg long] at stopped
  have some : ((candidates files directory).findSome? (obstacle? files)).isSome = true :=
    List.findSome?_isSome_iff.mpr ⟨path, member, by rw [stopped]; rfl⟩
  obtain ⟨error, found⟩ := Option.isSome_iff_exists.mp some
  obtain ⟨other, inside', failed⟩ := List.exists_of_findSome?_eq_some found
  obtain ⟨node, listed⟩ := (mem_candidates_iff sound located inside).mp inside'
  rw [obstacle?_listed sound listed] at failed
  split at failed
  · cases failed
  · cases failed
    exact ⟨_, found⟩

variable (reachable : Reachable files directory)
include reachable

theorem obstacle?_eq_none (member : path ∈ candidates files directory) : obstacle? files path = none := by
  obtain ⟨node, listed⟩ := (mem_candidates_iff sound located inside).mp member
  rw [obstacle?_listed sound listed, if_pos (reachable path node listed)]

theorem obstacle_of_reachable : (readDirectory files directory).obstacle = none :=
  List.findSome?_eq_none_iff.mpr fun _ => obstacle?_eq_none sound located inside reachable

theorem scriptPaths_eq : scriptPaths files directory = (candidates files directory).filter (isFile files) := by
  have whole : (candidates files directory).takeWhile (fun path => (obstacle? files path).isNone) =
      candidates files directory := by
    rw [List.takeWhile_eq_self_iff]
    intro path member
    rw [obstacle?_eq_none sound located inside reachable member]
    rfl
  rw [scriptPaths, whole]

theorem mem_scriptPaths_iff :
    path ∈ scriptPaths files directory ↔ ∃ node, Listed files directory path node ∧ node.isFile = true := by
  have isFile_eq {node : Node} (listed : Listed files directory path node) : isFile files path = node.isFile := by
    rw [isFile, lookup_listed sound listed, if_pos (reachable path node listed)]
  rw [scriptPaths_eq sound located inside reachable, List.mem_filter, mem_candidates_iff sound located inside]
  constructor
  · rintro ⟨⟨node, listed⟩, file⟩
    exact ⟨node, listed, isFile_eq listed ▸ file⟩
  · rintro ⟨node, listed, file⟩
    exact ⟨⟨_, listed⟩, isFile_eq listed ▸ file⟩

theorem scriptPaths_byName : ByName (scriptPaths files directory) := by
  rw [scriptPaths_eq sound located inside reachable]
  exact (candidates_byName sound located inside).filter _

/-- A path among the scripts leads to a file with bytes, or to a locked file. -/
theorem scriptPaths_cases (member : path ∈ scriptPaths files directory) :
    (∃ bytes, Listed files directory path (.file bytes)) ∨ Listed files directory path .lockedFile := by
  obtain ⟨node, listed, file⟩ := (mem_scriptPaths_iff sound located inside reachable).mp member
  cases node with
  | directory => cases file
  | lockedDirectory => cases file
  | file bytes => exact .inl ⟨bytes, listed⟩
  | lockedFile => exact .inr listed

theorem mem_scripts_readDirectory {script : ScriptFile} :
    script ∈ (readDirectory files directory).scripts ↔ IsScript files directory script := by
  simp only [readDirectory, List.mem_filterMap, List.mem_map]
  constructor
  · rintro ⟨_, ⟨path, member, rfl⟩, given⟩
    dsimp only at given
    split at given
    · next text result =>
      split at given
      · cases given
      · next filled =>
        cases given
        rcases scriptPaths_cases sound located inside reachable member with ⟨bytes, listed⟩ | locked
        · obtain ⟨cs, spelled, rfl⟩ := (readScript_eq_ok_iff sound listed (reachable path _ listed)).mp result
          have visible := visible_iff.mp (Bool.not_eq_true _ ▸ filled)
          rcases spelled with spells | ⟨_, rfl⟩
          · exact ⟨bytes, cs, listed, spells, visible, rfl⟩
          · obtain ⟨c, member, _⟩ := visible
            cases member
        · cases result.symm.trans (readScript_locked sound locked (reachable path _ locked))
    · cases given
  · rintro ⟨bytes, cs, listed, spells, visible, same⟩
    have result := (readScript_eq_ok_iff sound listed (reachable script.path _ listed)).mpr ⟨cs, .inl spells, same⟩
    have member := (mem_scriptPaths_iff sound located inside reachable).mpr ⟨_, listed, rfl⟩
    refine ⟨_, ⟨script.path, member, rfl⟩, ?_⟩
    rw [result, same]
    dsimp only
    rw [visible_iff.mpr visible, ← same]
    rfl

theorem mem_skipped_readDirectory :
    path ∈ (readDirectory files directory).skipped ↔ Unreadable files directory path := by
  rw [mem_skipped_iff]
  constructor
  · rintro ⟨member, error, failed⟩
    rcases scriptPaths_cases sound located inside reachable member with ⟨bytes, listed⟩ | locked
    · have read {cs : List Char} (spelled : Utf8.Spells bytes cs ∨ (Utf8.CutMark bytes ∧ cs = [])) :=
        (readScript_eq_ok_iff sound listed (reachable path _ listed)).mpr ⟨cs, spelled, rfl⟩
      refine .undecodable listed (fun cs spells => ?_) fun cut => ?_
      · cases failed.symm.trans (read (.inl spells))
      · cases failed.symm.trans (read (.inr ⟨cut, rfl⟩))
    · exact .locked locked
  · have paths := @mem_scriptPaths_iff files directory path place sound located inside reachable
    rintro (locked | ⟨listed, unspelled, whole⟩)
    · exact ⟨paths.mpr ⟨_, locked, rfl⟩, _, readScript_locked sound locked (reachable path _ locked)⟩
    · refine ⟨paths.mpr ⟨_, listed, rfl⟩, ?_⟩
      cases result : readScript files path with
      | ok text =>
        obtain ⟨cs, spells | ⟨cut, _⟩, _⟩ := (readScript_eq_ok_iff sound listed (reachable path _ listed)).mp result
        · exact absurd spells (unspelled cs)
        · exact absurd cut whole
      | error error => exact ⟨error, rfl⟩

/-- What is read of a directory is all that there is to read, in order. -/
theorem covers_readDirectory : (readDirectory files directory).Covers files directory := by
  have order : ((scriptPaths files directory).map fun path => (path, readScript files path)).Pairwise
      fun first second => first.1.name < second.1.name :=
    List.pairwise_map.mpr (scriptPaths_byName sound located inside reachable)
  refine ⟨fun _ => mem_scripts_readDirectory sound located inside reachable,
    fun _ => mem_skipped_readDirectory sound located inside reachable, ?_, ?_⟩
  · refine byName_filterMap order fun entry script given => ?_
    dsimp only at given
    split at given
    · split at given <;> cases given
      rfl
    · cases given
  · refine byName_filterMap order fun entry failed given => ?_
    dsimp only at given
    split at given <;> cases given
    rfl

end Listed

theorem covers_nothing (empty : ∀ path node, ¬Listed files directory path node) :
    Reading.Covers { scripts := [], failed := [], obstacle := none } files directory where
  scripts := fun _ => iff_of_false nofun fun ⟨_, _, listed, _⟩ => empty _ _ listed
  skipped := fun _ => iff_of_false nofun fun
    | .locked listed => empty _ _ listed
    | .undecodable listed _ _ => empty _ _ listed
  inOrder := .nil
  skippedInOrder := .nil

end Definitions

end SchemaSync
