import Mathlib.Data.List.Nodup
import SchemaSync.Proofs.Definitions.DirectoryReading
import SchemaSync.Proofs.Definitions.FlatLayout
import SchemaSync.Proofs.Definitions.Saved

/-! The account of loading a definition set: every file that is consulted is loaded as a script, named in a warning, or
blank, in one way only and in the order of the names. -/

namespace SchemaSync.Definitions

open SchemaSync.Tree Text Script

variable {σ : Type}

/-- A definition set has groups: the directory of some kind holds a script. -/
def Grouped (files : Tree) (root : Path) : Prop :=
  ∃ kind script, IsScript files (root.child (ObjectKind.directory kind)) script

/-- The directories whose files count: those of the kinds and, if these hold no script, the root itself. -/
inductive Consulted (files : Tree) (root : Path) : Path → Prop
  | kind (kind : ObjectKind) : Consulted files root (root.child kind.directory)
  | root (flat : ¬Grouped files root) : Consulted files root root

/-- The scripts for a kind of object: those in its directory or, if there are no groups, those in the root whose texts
tell the kind. -/
inductive OfKind (files : Tree) (root : Path) (kind : ObjectKind) (script : ScriptFile) : Prop
  | grouped (found : IsScript files (root.child kind.directory) script)
  | flat (flat : ¬Grouped files root) (found : IsScript files root script) (told : kindOf? script.text = some kind)

/-- A script in the root that counts, though its text tells no kind. -/
structure Untold (files : Tree) (root : Path) (script : ScriptFile) : Prop where
  flat : ¬Grouped files root
  found : IsScript files root script
  untold : kindOf? script.text = none

def Entered (files : Tree) (root : Path) : Prop :=
  ∃ place, files.locate root = .ok place ∧ files.find? place = some .directory

structure Followed (files : Tree) (root : Path) : Prop where
  entered : Entered files root
  directories : ∀ kind, (root.child (ObjectKind.directory kind)).toString.utf8ByteSize ≤ maxPathBytes
  scripts : ∀ directory, Consulted files root directory → Reachable files directory

/-- A file that has to be accounted for: it is locked, or not blank. -/
inductive Counts : Node → Prop
  | locked : Counts .lockedFile
  | filled {bytes : List UInt8} (filled : ¬IsBlankFile bytes) : Counts (.file bytes)

/-- The paths that a definition set is about: those of its scripts, of the files that could not be read, and of the
scripts whose kind cannot be told. -/
def accounted (set : ScriptSet) (unread undetected : List Path) : List Path :=
  (ObjectKind.all.flatMap fun kind => (set.groups.ofKind kind).map ScriptFile.path) ++ (unread ++ undetected)

structure Accounts (files : Tree) (root : Path) (set : ScriptSet) (unread undetected : List Path) : Prop where
  scripts : ∀ kind script, script ∈ set.groups.ofKind kind ↔ OfKind files root kind script
  inOrder : ∀ kind, ByName ((set.groups.ofKind kind).map ScriptFile.path)
  warnings : set.warnings = unread.map (fun path => "Could not read " ++ path.name) ++
    undetected.map fun path => "Cannot detect script type: " ++ path.name
  unreadable : ∀ path, path ∈ unread ↔ ∃ directory, Consulted files root directory ∧ Unreadable files directory path
  untold : ∀ path, path ∈ undetected ↔ ∃ script, Untold files root script ∧ script.path = path
  once : (accounted set unread undetected).Nodup
  whole : ∀ path, path ∈ accounted set unread undetected ↔ ∃ directory node, Consulted files root directory ∧
    Listed files directory path node ∧ Counts node

variable {files : Tree} {root directory other path : Path} {node : Node}

theorem child_directory (root : Path) (kind : ObjectKind) :
    root.child kind.directory = { root with parts := root.parts ++ [kind.directory] } :=
  Path.child_plain kind.plain_directory root

theorem child_directory_inj {kind second : ObjectKind}
    (same : root.child kind.directory = root.child second.directory) : kind = second := by
  rw [child_directory, child_directory, Path.mk.injEq, List.append_cancel_left_eq, List.singleton_inj] at same
  exact ObjectKind.directory_inj same.2

theorem child_directory_ne (root : Path) (kind : ObjectKind) : root.child kind.directory ≠ root := by
  intro same
  have parts := congrArg (fun p : Path => p.parts.length) same
  rw [child_directory, List.length_append, List.length_singleton] at parts
  omega

theorem ByName.nodup {paths : List Path} (ordered : ByName paths) : paths.Nodup := by
  refine ordered.imp fun before => ?_
  rintro rfl
  exact String.lt_irrefl _ before

theorem IsScript.listed {script : ScriptFile} (found : IsScript files directory script) :
    ∃ node, Listed files directory script.path node ∧ Counts node := by
  obtain ⟨bytes, cs, listed, spells, ⟨c, member, solid⟩, _⟩ := found
  refine ⟨.file bytes, listed, .filled ?_⟩
  rintro (⟨others, again, blank⟩ | cut)
  · obtain rfl := spells.unique again
    rw [blank c member] at solid
    cases solid
  · exact cut.not_spells cs spells

theorem Unreadable.listed (failed : Unreadable files directory path) :
    ∃ node, Listed files directory path node ∧ Counts node := by
  cases failed with
  | locked listed => exact ⟨_, listed, .locked⟩
  | undecodable listed unspelled whole =>
    exact ⟨_, listed, .filled fun blank => blank.elim (fun ⟨cs, spells, _⟩ => unspelled cs spells) whole⟩

/-- What is consulted and counts is a script of some kind, one whose kind cannot be told, or cannot be read. -/
theorem consulted_cases (consulted : Consulted files root directory) (listed : Listed files directory path node)
    (counts : Counts node) : (∃ kind script, OfKind files root kind script ∧ script.path = path) ∨
      (∃ script, Untold files root script ∧ script.path = path) ∨ Unreadable files directory path := by
  cases counts with
  | locked => exact .inr (.inr (.locked listed))
  | @filled bytes filled =>
    by_cases spelled : ∃ cs, Utf8.Spells bytes cs
    · obtain ⟨cs, spells⟩ := spelled
      have visible : ∃ c ∈ cs, isBlank c = false := by
        by_contra none
        refine filled (.inl ⟨cs, spells, fun c member => ?_⟩)
        rw [← Bool.not_eq_false]
        exact fun solid => none ⟨c, member, solid⟩
      have found : IsScript files directory ⟨path, String.ofList (withLineFeeds cs)⟩ :=
        ⟨bytes, cs, listed, spells, visible, rfl⟩
      cases consulted with
      | kind kind => exact .inl ⟨kind, _, .grouped found, rfl⟩
      | root flat =>
        -- In the root, the text decides whether the script is for a kind or only named in a warning.
        cases told : kindOf? (String.ofList (withLineFeeds cs)) with
        | some kind => exact .inl ⟨kind, _, .flat flat found told, rfl⟩
        | none => exact .inr (.inl ⟨_, ⟨flat, found, told⟩, rfl⟩)
    · exact .inr (.inr (.undecodable listed (fun cs spells => spelled ⟨cs, spells⟩) fun cut => filled (.inr cut)))

theorem OfKind.found {kind : ObjectKind} {script : ScriptFile} (ofKind : OfKind files root kind script) :
    ∃ directory, Consulted files root directory ∧ IsScript files directory script := by
  cases ofKind with
  | grouped found => exact ⟨_, .kind kind, found⟩
  | flat flat found => exact ⟨root, .root flat, found⟩

section Unique

variable (sound : files.Sound)
include sound

theorem Listed.unique {also : Node} (listed : Listed files directory path node) (again : Listed files other path also) :
    directory = other ∧ node = also := by
  obtain ⟨name, contains, _, rfl⟩ := listed
  obtain ⟨second, contained, _, same⟩ := again
  rw [Path.child_plain (sound.isPlain_of_contains contains), Path.child_plain (sound.isPlain_of_contains contained),
    Path.mk.injEq] at same
  obtain ⟨parts, names⟩ := List.append_inj' same.2 rfl
  have here : directory = other := Path.mk.injEq .. ▸ ⟨same.1, parts⟩
  obtain rfl := here
  obtain rfl := List.singleton_inj.mp names
  obtain ⟨place, located, _, found⟩ := contains
  obtain ⟨place', located', _, found'⟩ := contained
  cases located.symm.trans located'
  exact ⟨rfl, Option.some.inj (found.symm.trans found')⟩

theorem IsScript.unique {first second : ScriptFile} (one : IsScript files directory first)
    (two : IsScript files other second) (same : first.path = second.path) : directory = other ∧ first = second := by
  obtain ⟨bytes, cs, listed, spells, _, text⟩ := one
  obtain ⟨bytes', cs', listed', spells', _, text'⟩ := two
  obtain ⟨rfl, file⟩ := listed.unique sound (same ▸ listed')
  cases file
  obtain rfl := spells.unique spells'
  exact ⟨rfl, ScriptFile.mk.injEq .. ▸ ⟨same, text.trans text'.symm⟩⟩

theorem IsScript.not_unreadable {script : ScriptFile} (found : IsScript files directory script) :
    ¬Unreadable files other script.path := by
  obtain ⟨bytes, cs, listed, spells, _⟩ := found
  rintro (listed' | ⟨listed', unspelled, _⟩)
  · obtain ⟨_, file⟩ := listed.unique sound listed'
    cases file
  · obtain ⟨_, file⟩ := listed.unique sound listed'
    cases file
    exact unspelled cs spells

theorem OfKind.unique {kind second : ObjectKind} {script again : ScriptFile} (one : OfKind files root kind script)
    (two : OfKind files root second again) (same : script.path = again.path) : kind = second ∧ script = again := by
  cases one with
  | grouped found =>
    cases two with
    | grouped found' =>
      obtain ⟨directories, scripts⟩ := found.unique sound found' same
      exact ⟨child_directory_inj directories, scripts⟩
    | flat flat => exact absurd ⟨kind, script, found⟩ flat
  | flat flat found told =>
    cases two with
    | grouped found' => exact absurd ⟨second, again, found'⟩ flat
    | flat _ found' told' =>
      obtain ⟨_, rfl⟩ := found.unique sound found' same
      exact ⟨Option.some.inj (told.symm.trans told'), rfl⟩

theorem Untold.not_ofKind {kind : ObjectKind} {script again : ScriptFile} (untold : Untold files root script)
    (ofKind : OfKind files root kind again) : again.path ≠ script.path := by
  intro same
  cases ofKind with
  | grouped found => exact untold.flat ⟨kind, again, found⟩
  | flat _ found told =>
    obtain ⟨_, rfl⟩ := found.unique sound untold.found same
    cases untold.untold.symm.trans told

end Unique

section Lists

variable {set : ScriptSet} {unread undetected : List Path}
  (scripts : ∀ kind script, script ∈ set.groups.ofKind kind ↔ OfKind files root kind script)
include scripts

theorem mem_scripts_iff : path ∈ (ObjectKind.all.flatMap fun kind => (set.groups.ofKind kind).map ScriptFile.path) ↔
    ∃ kind script, OfKind files root kind script ∧ script.path = path := by
  rw [List.mem_flatMap]
  constructor
  · rintro ⟨kind, _, named⟩
    obtain ⟨script, inside, rfl⟩ := List.mem_map.mp named
    exact ⟨kind, script, (scripts kind script).mp inside, rfl⟩
  · rintro ⟨kind, script, ofKind, rfl⟩
    exact ⟨kind, by cases kind <;> decide, List.mem_map_of_mem ((scripts kind script).mpr ofKind)⟩

variable (unreadable : ∀ path, path ∈ unread ↔ ∃ directory, Consulted files root directory ∧
    Unreadable files directory path)
  (untold : ∀ path, path ∈ undetected ↔ ∃ script, Untold files root script ∧ script.path = path)
include unreadable untold

/-- Nothing that is consulted is left out, unless it is blank. -/
theorem mem_accounted_iff : path ∈ accounted set unread undetected ↔ ∃ directory node,
    Consulted files root directory ∧ Listed files directory path node ∧ Counts node := by
  rw [accounted, List.mem_append, List.mem_append, mem_scripts_iff scripts, unreadable, untold]
  constructor
  · rintro (⟨kind, script, ofKind, rfl⟩ | ⟨directory, consulted, failed⟩ | ⟨script, untold, rfl⟩)
    · obtain ⟨directory, consulted, found⟩ := ofKind.found
      exact ⟨directory, (found.listed).imp fun _ counted => ⟨consulted, counted⟩⟩
    · exact ⟨directory, (failed.listed).imp fun _ counted => ⟨consulted, counted⟩⟩
    · exact ⟨root, (untold.found.listed).imp fun _ counted => ⟨.root untold.flat, counted⟩⟩
  · rintro ⟨directory, node, consulted, listed, counts⟩
    rcases consulted_cases consulted listed counts with script | untold | failed
    · exact .inl script
    · exact .inr (.inr untold)
    · exact .inr (.inl ⟨directory, consulted, failed⟩)

variable (sound : files.Sound)
  (inOrder : ∀ kind, ByName ((set.groups.ofKind kind).map ScriptFile.path)) (single : unread.Nodup)
  (alone : undetected.Nodup)
include sound inOrder single alone

theorem nodup_accounted : (accounted set unread undetected).Nodup := by
  refine List.nodup_append.mpr ⟨List.nodup_flatMap.mpr ⟨?_, ?_⟩, List.nodup_append.mpr ⟨single, alone, ?_⟩, ?_⟩
  · exact fun kind _ => (inOrder kind).nodup
  · refine List.Pairwise.imp (fun different => ?_) (by decide : ObjectKind.all.Nodup)
    rintro path one two
    obtain ⟨script, inside, rfl⟩ := List.mem_map.mp one
    obtain ⟨again, inside', same⟩ := List.mem_map.mp two
    exact different (((scripts _ _).mp inside).unique sound ((scripts _ _).mp inside') same.symm).1
  · rintro path isUnread _ isUntold rfl
    obtain ⟨directory, _, failed⟩ := (unreadable path).mp isUnread
    obtain ⟨script, untold, rfl⟩ := (untold path).mp isUntold
    exact untold.found.not_unreadable sound failed
  · rintro path isScript _ isOther rfl
    obtain ⟨kind, script, ofKind, rfl⟩ := (mem_scripts_iff scripts).mp isScript
    rcases List.mem_append.mp isOther with isUnread | isUntold
    · obtain ⟨directory, _, failed⟩ := (unreadable _).mp isUnread
      obtain ⟨_, _, found⟩ := ofKind.found
      exact found.not_unreadable sound failed
    · obtain ⟨other, untold, same⟩ := (untold _).mp isUntold
      exact untold.not_ofKind sound ofKind same.symm

theorem accounts_of_scripts (warnings : set.warnings = unread.map (fun path => "Could not read " ++ path.name) ++
      undetected.map fun path => "Cannot detect script type: " ++ path.name) :
    Accounts files root set unread undetected where
  scripts := scripts
  inOrder := inOrder
  warnings := warnings
  unreadable := unreadable
  untold := untold
  once := nodup_accounted scripts unreadable untold sound inOrder single alone
  whole := fun _ => mem_accounted_iff scripts unreadable untold

end Lists

section Layouts

/-- The scripts that were read in the directories of all kinds. -/
def groupsOf (readings : ObjectKind → Reading) : ScriptGroups where
  domains := (readings .domain).scripts
  tables := (readings .table).scripts
  procedures := (readings .procedure).scripts

theorem ofKind_groupsOf (readings : ObjectKind → Reading) (kind : ObjectKind) :
    (groupsOf readings).ofKind kind = (readings kind).scripts := by
  cases kind <;> rfl

def skippedOf (readings : ObjectKind → Reading) : List Path :=
  (readings .domain).skipped ++ (readings .table).skipped ++ (readings .procedure).skipped

theorem mem_skippedOf {readings : ObjectKind → Reading} :
    path ∈ skippedOf readings ↔ ∃ kind, path ∈ (readings kind).skipped := by
  rw [skippedOf, List.mem_append, List.mem_append]
  constructor
  · rintro ((one | two) | three)
    · exact ⟨_, one⟩
    · exact ⟨_, two⟩
    · exact ⟨_, three⟩
  · rintro ⟨kind, inside⟩
    cases kind with
    | domain => exact .inl (.inl inside)
    | table => exact .inl (.inr inside)
    | procedure => exact .inr inside

variable {readings : ObjectKind → Reading} (covers : ∀ kind, (readings kind).Covers files (root.child kind.directory))
include covers

theorem total_groupsOf : (groupsOf readings).total ≠ 0 ↔ Grouped files root := by
  refine ScriptGroups.total_ne_zero_iff.trans (exists_congr fun kind => exists_congr fun script => ?_)
  rw [ofKind_groupsOf, (covers kind).scripts]

variable (sound : files.Sound)
include sound

theorem nodup_skippedOf : (skippedOf readings).Nodup := by
  have apart {kind second : ObjectKind} (different : kind ≠ second) {one : Path}
      (inside : one ∈ (readings kind).skipped) {two : Path} (also : two ∈ (readings second).skipped) : one ≠ two := by
    rintro rfl
    obtain ⟨_, listed, _⟩ := (((covers kind).skipped one).mp inside).listed
    obtain ⟨_, again, _⟩ := (((covers second).skipped one).mp also).listed
    exact different (child_directory_inj (listed.unique sound again).1)
  refine List.nodup_append.mpr ⟨List.nodup_append.mpr ⟨?_, ?_, ?_⟩, ?_, ?_⟩
  · exact (covers .domain).skippedInOrder.nodup
  · exact (covers .table).skippedInOrder.nodup
  · exact fun one inside two also => apart (by decide) inside also
  · exact (covers .procedure).skippedInOrder.nodup
  · intro one inside two also
    rcases List.mem_append.mp inside with inside | inside
    · exact apart (by decide) inside also
    · exact apart (by decide) inside also

/-- Where there are groups, the directories of the kinds are all that counts. -/
theorem accounts_grouped (grouped : Grouped files root) :
    Accounts files root (.ofFound { groups := some (groupsOf readings), skipped := skippedOf readings })
      (skippedOf readings) [] := by
  refine accounts_of_scripts (fun kind script => ?_) (fun path => ?_) (fun path => ?_) sound (fun kind => ?_)
    (nodup_skippedOf covers sound) .nil rfl
  · show script ∈ (groupsOf readings).ofKind kind ↔ _
    rw [ofKind_groupsOf, (covers kind).scripts]
    refine ⟨.grouped, fun ofKind => ?_⟩
    cases ofKind with
    | grouped found => exact found
    | flat flat => exact absurd grouped flat
  · simp only [mem_skippedOf, fun kind => (covers kind).skipped path]
    constructor
    · rintro ⟨kind, failed⟩
      exact ⟨_, .kind kind, failed⟩
    · rintro ⟨_, consulted, failed⟩
      cases consulted with
      | kind kind => exact ⟨kind, failed⟩
      | root flat => exact absurd grouped flat
  · refine ⟨nofun, ?_⟩
    rintro ⟨script, untold, _⟩
    exact absurd grouped untold.flat
  · show ByName (((groupsOf readings).ofKind kind).map ScriptFile.path)
    rw [ofKind_groupsOf]
    exact (covers kind).inOrder

/-- Where there are none, the root counts as well, and it has all scripts. -/
theorem accounts_flat (flat : ¬Grouped files root) {reading : Reading} (coversRoot : reading.Covers files root) :
    Accounts files root (.ofFound { flat := reading.scripts, skipped := skippedOf readings ++ reading.skipped })
      (skippedOf readings ++ reading.skipped)
      ((reading.scripts.filter fun script => (kindOf? script.text).isNone).map ScriptFile.path) := by
  have picked (test : ScriptFile → Bool) : ByName ((reading.scripts.filter test).map ScriptFile.path) :=
    List.pairwise_map.mpr ((List.pairwise_map.mp coversRoot.inOrder).filter test)
  refine accounts_of_scripts (fun kind script => ?_) (fun path => ?_) (fun path => ?_) sound (fun kind => ?_)
    (List.nodup_append.mpr ⟨nodup_skippedOf covers sound, coversRoot.skippedInOrder.nodup, ?_⟩) (picked _).nodup ?_
  · show script ∈ (ScriptGroups.classify reading.scripts).ofKind kind ↔ _
    rw [ScriptGroups.mem_classify, coversRoot.scripts]
    refine ⟨fun ⟨found, told⟩ => .flat flat found told, fun ofKind => ?_⟩
    cases ofKind with
    | grouped found => exact absurd ⟨kind, script, found⟩ flat
    | flat _ found told => exact ⟨found, told⟩
  · simp only [List.mem_append, mem_skippedOf, fun kind => (covers kind).skipped path, coversRoot.skipped]
    constructor
    · rintro (⟨kind, failed⟩ | failed)
      · exact ⟨_, .kind kind, failed⟩
      · exact ⟨_, .root flat, failed⟩
    · rintro ⟨_, consulted, failed⟩
      cases consulted with
      | kind kind => exact .inl ⟨kind, failed⟩
      | root => exact .inr failed
  · rw [List.mem_map]
    refine exists_congr fun script => and_congr_left fun _ => ?_
    rw [List.mem_filter, coversRoot.scripts, Option.isNone_iff_eq_none]
    exact ⟨fun ⟨found, untold⟩ => ⟨flat, found, untold⟩, fun untold => ⟨untold.found, untold.untold⟩⟩
  · show ByName (((ScriptGroups.classify reading.scripts).ofKind kind).map ScriptFile.path)
    rw [ScriptGroups.ofKind_classify]
    exact picked _
  · -- No file is both in the directory of a kind and in the root itself.
    rintro path inside _ also rfl
    obtain ⟨kind, inside⟩ := mem_skippedOf.mp inside
    obtain ⟨_, listed, _⟩ := (((covers kind).skipped path).mp inside).listed
    obtain ⟨_, again, _⟩ := ((coversRoot.skipped path).mp also).listed
    exact child_directory_ne root kind (listed.unique sound again).1
  · rw [List.map_map]
    rfl

end Layouts

end SchemaSync.Definitions
